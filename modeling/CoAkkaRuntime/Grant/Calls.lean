import CoAkkaRuntime.Lane.Startup
import CoAkkaRuntime.Transport.NativeText

/-!
# Grant — preparing, carrying and presenting a grant

A receiver or publisher prepares a transfer and gets a grant, the application carries it to the
other side (as JSON, if it likes), and there it names the transfer again (`FileLane.swift`,
`StreamLane.swift`, `LaneOwnerGrant.swift`). Core is called through the bridge, which packs the
pointers of the strings into a record; what Core reads through them is noted, and nothing where a
pointer leads nowhere.

* `LaneMemory` — what a method works on: the heap of C strings, whether the lane is open, the calls.
* `GrantCore` — Core, as what it answers to each record it is given.
* `FileReceive.read`, `FileSend.read` — what Core finds behind the pointers of a record.
* `prepareReceiveGrant`, `submitSend` — the methods at the two ends of a transfer.

Here are the records and the file half; the stream half, which also goes through the callback
owners, is in `StreamCalls`. A grant that is decoded from JSON passes the checks of `decode` and no
others.
-/

namespace CoAkka.Grant

open Lane (requireCoreFeature)
open Text Throwing Transport

/-! ## Records of Core -/

/-- A `char` array of a native record. -/
abbrev CharArray (n : Nat) := Vector UInt8 n

namespace CharArray

variable {n : Nat} (value : CharArray n)

/-- What C reads of the array: the bytes up to the first zero, or all of them. -/
def text : List UInt8 := value.toList.takeWhile (· ≠ 0)

/-- `fixedString(&value)`. -/
def string (broken : List UInt8 → Nat) : String :=
  ((fixedString broken (fun address => value.toList.getD address 0) 0 n).run []).1

end CharArray

/-- `coakka_v2_lane_owner_endpoint_t`. -/
structure LaneOwnerEndpointRecord where
  port : UInt16
  ownerInstanceID : CharArray 128
  advertisedHost : CharArray 256

/-- `coakka_v2_file_receive_grant_t`. -/
structure FileReceiveGrantRecord where
  owner : LaneOwnerEndpointRecord
  transferID : CharArray 65
  authorizationToken : CharArray 129
  expectedSize : UInt64
  expectedSHA256 : Vector UInt8 32

/-- `coakka_v2_stream_publish_grant_t`. -/
structure StreamPublishGrantRecord where
  owner : LaneOwnerEndpointRecord
  sessionID : CharArray 65
  authorizationToken : CharArray 129
  formatID : UInt64
  maxFrameBytes : UInt32

/-- `coakka_v2_file_receive_spec_t`, with pointers or with what Core reads through them. -/
structure FileReceive (Text Digest : Type) where
  transferID : Text
  authorizationToken : Text
  destinationPath : Text
  expectedSize : UInt64
  expectedSHA256 : Digest

/-- `coakka_v2_file_send_spec_t`. -/
structure FileSend (Text Digest : Type) where
  transferID : Text
  authorizationToken : Text
  remoteHost : Text
  remotePort : UInt16
  sourcePath : Text
  expectedSize : UInt64
  expectedSHA256 : Digest
  timeoutMs : UInt32

/-- `coakka_v2_stream_publish_spec_t`, but for the callback. -/
structure StreamPublish (Text : Type) where
  sessionID : Text
  authorizationToken : Text
  formatID : UInt64
  maxFrameBytes : UInt32

/-- `coakka_v2_stream_subscribe_spec_t`, but for the callback. -/
structure StreamSubscribe (Text : Type) where
  sessionID : Text
  authorizationToken : Text
  remoteHost : Text
  remotePort : UInt16
  formatID : UInt64
  maxFrameBytes : UInt32
  initialWindowBytes : UInt32
  timeoutMs : UInt32

/-! ### What Core reads -/

/-- `memcpy` of 32 bytes, which must be there. -/
def digest? (sha : List UInt8) : Option (Vector UInt8 32) :=
  if h : 32 ≤ sha.length then some ⟨(sha.take 32).toArray, by simp [h]⟩ else none

abbrev FileReceiveRead := FileReceive (List UInt8) (Vector UInt8 32)
abbrev FileSendRead := FileSend (List UInt8) (Vector UInt8 32)

def FileReceive.read (heap : Heap) (record : FileReceive Nat (List UInt8)) : Option FileReceiveRead := do
  let transferID ← cReading heap record.transferID
  let authorizationToken ← cReading heap record.authorizationToken
  let destinationPath ← cReading heap record.destinationPath
  let expectedSHA256 ← digest? record.expectedSHA256
  return { record with transferID, authorizationToken, destinationPath, expectedSHA256 }

def FileSend.read (heap : Heap) (record : FileSend Nat (List UInt8)) : Option FileSendRead := do
  let transferID ← cReading heap record.transferID
  let authorizationToken ← cReading heap record.authorizationToken
  let remoteHost ← cReading heap record.remoteHost
  let sourcePath ← cReading heap record.sourcePath
  let expectedSHA256 ← digest? record.expectedSHA256
  return { record with transferID, authorizationToken, remoteHost, sourcePath, expectedSHA256 }

def StreamPublish.read (heap : Heap) (record : StreamPublish Nat) :
    Option (StreamPublish (List UInt8)) := do
  let sessionID ← cReading heap record.sessionID
  let authorizationToken ← cReading heap record.authorizationToken
  return { record with sessionID, authorizationToken }

def StreamSubscribe.read (heap : Heap) (record : StreamSubscribe Nat) :
    Option (StreamSubscribe (List UInt8)) := do
  let sessionID ← cReading heap record.sessionID
  let authorizationToken ← cReading heap record.authorizationToken
  let remoteHost ← cReading heap record.remoteHost
  return { record with sessionID, authorizationToken, remoteHost }

/-! ## Calls

A method makes its strings, has the bridge pack a record, and is told a status.
-/

/-- A call of Core, with what it reads; `none` where it reads what is not there. -/
inductive GrantCall where
  | prepareReceive (spec : Option FileReceiveRead)
  | prepareReceiveGrant (spec : Option FileReceiveRead)
  | submitSend (spec : Option FileSendRead)
  | preparePublishGrant (spec : Option (StreamPublish (List UInt8)))
  | subscribe (spec : Option (StreamSubscribe (List UInt8)))

/-- A Core, by the symbols that its module exports. -/
structure GrantCore where
  ownerGrantsAvailable : Int32 × UInt32
  prepareReceive : Option (Option FileReceiveRead → Int32)
  prepareReceiveGrant : Option (Option FileReceiveRead → Int32 × FileReceiveGrantRecord)
  submitSend : Option (Option FileSendRead → Int32)
  preparePublishGrant :
    Option (Option (StreamPublish (List UInt8)) → Int32 × StreamPublishGrantRecord)
  subscribe : Option (Option (StreamSubscribe (List UInt8)) → Int32)

structure LaneMemory where
  heap : Heap
  calls : List GrantCall

abbrev GrantM := ExceptT RuntimeError (StateM LaneMemory)

/-- `NativeCStringStorage(values)`. -/
def stored (values : List String) : GrantM (List Nat) :=
  ExceptT.mk fun memory =>
    let out := exec (nativeCStringStorage values) memory.heap
    (out.1, { memory with heap := out.2 })

/-- A bridge function of a lane: it looks its symbol up at each call. -/
def bridged {Read Answer : Type} (symbol : Option (Read → Answer)) (missing : Answer)
    (read : Heap → Read) (call : Read → GrantCall) : GrantM Answer :=
  match symbol with
  | none => pure missing
  | some f => do
    let read := read (← get).heap
    modify fun memory => { memory with calls := memory.calls ++ [call read] }
    return f read

/-- `withLane`, with what it finds. -/
def withLane {α : Type} (isOpen : Bool) (body : GrantM α) : GrantM α :=
  if isOpen then body else throw .closed

/-! ## File Lane -/

structure LaneOwnerEndpoint where
  ownerInstanceID : String
  advertisedHost : String
  port : UInt16
  deriving DecidableEq

abbrev FileReceiveSpec := FileReceive String Data
abbrev FileSendSpec := FileSend String Data

structure FileReceiveGrant where
  owner : LaneOwnerEndpoint
  transferID : String
  authorizationToken : String
  expectedSize : UInt64
  expectedSHA256 : Data
  deriving DecidableEq

def digestData (digest : Vector UInt8 32) : Data := ⟨digest.toList, by simp⟩

def LaneOwnerEndpointRecord.endpoint (broken : List UInt8 → Nat) (record : LaneOwnerEndpointRecord) :
    LaneOwnerEndpoint where
  ownerInstanceID := record.ownerInstanceID.string broken
  advertisedHost := record.advertisedHost.string broken
  port := record.port

def FileReceiveGrantRecord.grant (broken : List UInt8 → Nat) (record : FileReceiveGrantRecord) :
    FileReceiveGrant where
  owner := record.owner.endpoint broken
  transferID := record.transferID.string broken
  authorizationToken := record.authorizationToken.string broken
  expectedSize := record.expectedSize
  expectedSHA256 := digestData record.expectedSHA256

section FileLane

variable (core : GrantCore) (isOpen : Bool)

/-- The guard that `prepareReceive`, `prepareReceiveGrant` and `submitSend` share. -/
def requireDigest (sha : Data) : Except RuntimeError Unit :=
  if sha.count = 32 then .ok () else .error (.invalidArgument "expectedSHA256 must contain 32 bytes")

/-- The record that the two `prepare` functions of the bridge pack. -/
def FileReceive.record (spec : FileReceiveSpec) (cs : List Nat) : FileReceive Nat (List UInt8) where
  transferID := cs[0]!
  authorizationToken := cs[1]!
  destinationPath := cs[2]!
  expectedSize := spec.expectedSize
  expectedSHA256 := spec.expectedSHA256.bytes

def prepareReceive (spec : FileReceiveSpec) : GrantM Unit := do
  ofExcept (requireDigest spec.expectedSHA256)
  withLane isOpen do
    let cs ← stored [spec.transferID, spec.authorizationToken, spec.destinationPath]
    let status ← bridged core.prepareReceive Status.symbol (spec.record cs).read .prepareReceive
    ofExcept (throwIfNativeError status "file_lane_prepare_receive")

/-- What the bridge leaves in the grant before it calls Core. -/
def zeroGrant : FileReceiveGrantRecord where
  owner := ⟨0, Vector.replicate 128 0, Vector.replicate 256 0⟩
  transferID := Vector.replicate 65 0
  authorizationToken := Vector.replicate 129 0
  expectedSize := 0
  expectedSHA256 := Vector.replicate 32 0

def prepareReceiveGrant (broken : List UInt8 → Nat) (spec : FileReceiveSpec) :
    GrantM FileReceiveGrant := do
  ofExcept (requireDigest spec.expectedSHA256)
  withLane isOpen do
    ofExcept (requireCoreFeature core.ownerGrantsAvailable "query Core lane-owner grants")
    let cs ← stored [spec.transferID, spec.authorizationToken, spec.destinationPath]
    let (status, grant) ← bridged core.prepareReceiveGrant (Status.symbol, zeroGrant)
      (spec.record cs).read .prepareReceiveGrant
    ofExcept (throwIfNativeError status "file_lane_prepare_receive_grant")
    return grant.grant broken

def FileSend.record (spec : FileSendSpec) (cs : List Nat) : FileSend Nat (List UInt8) where
  transferID := cs[0]!
  authorizationToken := cs[1]!
  remoteHost := cs[2]!
  remotePort := spec.remotePort
  sourcePath := cs[3]!
  expectedSize := spec.expectedSize
  expectedSHA256 := spec.expectedSHA256.bytes
  timeoutMs := spec.timeoutMs

def submitSend (spec : FileSendSpec) : GrantM Unit := do
  ofExcept (requireDigest spec.expectedSHA256)
  withLane isOpen do
    let cs ← stored [spec.transferID, spec.authorizationToken, spec.remoteHost, spec.sourcePath]
    let status ← bridged core.submitSend Status.symbol (spec.record cs).read .submitSend
    ofExcept (throwIfNativeError status "file_lane_submit_send")

end FileLane

namespace FileReceiveGrant

variable (grant : FileReceiveGrant)

def sendSpec (sourcePath : String) (timeoutMs : UInt32) : FileSendSpec where
  transferID := grant.transferID
  authorizationToken := grant.authorizationToken
  remoteHost := grant.owner.advertisedHost
  remotePort := grant.owner.port
  sourcePath := sourcePath
  expectedSize := grant.expectedSize
  expectedSHA256 := grant.expectedSHA256
  timeoutMs := timeoutMs

/-- A keyed container of a decoder: each key has its value, or the decoder's error. -/
structure Container (E : Type) where
  owner : Except E LaneOwnerEndpoint
  transferID : Except E String
  authorizationToken : Except E String
  expectedSize : Except E UInt64
  expectedSHA256 : Except E Data

/-- The synthesized `encode(to:)`. -/
def encode {E : Type} : Container E where
  owner := .ok grant.owner
  transferID := .ok grant.transferID
  authorizationToken := .ok grant.authorizationToken
  expectedSize := .ok grant.expectedSize
  expectedSHA256 := .ok grant.expectedSHA256

/-- `init(from:)`; `runtime` makes the connector's own error one of the decoding. -/
def decode {E : Type} (runtime : RuntimeError → E) (values : Container E) :
    Except E FileReceiveGrant := do
  let owner ← values.owner
  let transferID ← values.transferID
  let authorizationToken ← values.authorizationToken
  let expectedSize ← values.expectedSize
  let expectedSHA256 ← values.expectedSHA256
  if expectedSHA256.count ≠ 32 then
    throw (runtime (.invalidArgument "expectedSHA256 must contain exactly 32 bytes"))
  return { owner, transferID, authorizationToken, expectedSize, expectedSHA256 }

end FileReceiveGrant

end CoAkka.Grant
