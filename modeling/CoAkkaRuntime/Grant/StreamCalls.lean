import CoAkkaRuntime.Grant.Calls
import CoAkkaRuntime.Stream.CallbackOwners

/-!
# Grant — the stream half, with the callback owners

`preparePublishGrant` and `subscribe` (`StreamLane.swift`) hand Core a callback along with the strings.
Both work under `withCallbackMutation`, and reach Core through `callbacks.admit`, which roots the
callback's holder first. The owners can turn a method away that passed every check of its own: while
the outcome of an earlier call under the same key is open, and when their storage is exhausted.

The state of such a method is therefore a pair. `inMemory` and `inOwners` run a step on one component
of it, so that the model of the owners and the model of the calls are used here as they stand.
-/

namespace CoAkka.Grant

open CoAkka.Stream
open Lane (requireCoreFeature)
open Text Throwing Transport

/-! ## What a mutation works on -/

/-- The strings lent to Core and the calls of it, next to the callback owners. -/
structure StreamMemory {I : Type} (ident : StreamCallbackKey String → I) (Root : Type) where
  memory : LaneMemory
  mutation : Mutation ident Root

section Mutations

variable {I Root : Type} {ident : StreamCallbackKey String → I} {α Answer : Type}

abbrev StreamM {I : Type} (ident : StreamCallbackKey String → I) (Root : Type) :=
  ExceptT RuntimeError (StateM (StreamMemory ident Root))

/-- A step that leaves the owners alone. -/
def inMemory (step : GrantM α) : StreamM ident Root α :=
  ExceptT.mk fun s =>
    let out := exec step s.memory
    (out.1, { s with memory := out.2 })

/-- A step on the owners alone. -/
def inOwners (step : ExceptT RuntimeError (StateM (Mutation ident Root)) α) : StreamM ident Root α :=
  ExceptT.mk fun s =>
    let out := exec step s.mutation
    (out.1, { s with mutation := out.2 })

/-- `withCallbackMutation`, with what it finds of the lane. -/
def withCallbackMutation (isOpen : Bool) (body : StreamM ident Root α) : StreamM ident Root α :=
  if isOpen then body else throw .closed

variable [DecidableEq I]

/-- `callbacks.admit`, whose `call` has more to answer than its status. -/
def admitting (key : StreamCallbackKey String) (root : Root)
    (presence presence' : StreamCallbackKey String → Int32) (status : Answer → Int32)
    (call : GrantM Answer) : StreamM ident Root Answer := do
  let candidate ← inOwners (publish key root presence)
  let answer ← inMemory call
  inOwners (liftM (settle candidate (status answer) presence' : StateM (Mutation ident Root) Unit))
  return answer

end Mutations

/-! ## Grants -/

structure StreamPublishGrant where
  owner : LaneOwnerEndpoint
  sessionID : String
  authorizationToken : String
  formatID : UInt64
  maxFrameBytes : UInt32
  deriving DecidableEq

def StreamPublishGrantRecord.grant (broken : List UInt8 → Nat) (record : StreamPublishGrantRecord) :
    StreamPublishGrant where
  owner := record.owner.endpoint broken
  sessionID := record.sessionID.string broken
  authorizationToken := record.authorizationToken.string broken
  formatID := record.formatID
  maxFrameBytes := record.maxFrameBytes

def StreamPublish.record (spec : StreamPublish String) (cs : List Nat) : StreamPublish Nat where
  sessionID := cs[0]!
  authorizationToken := cs[1]!
  formatID := spec.formatID
  maxFrameBytes := spec.maxFrameBytes

/-- What the bridge leaves in the grant before it calls Core. -/
def zeroPublishGrant : StreamPublishGrantRecord where
  owner := ⟨0, Vector.replicate 128 0, Vector.replicate 256 0⟩
  sessionID := Vector.replicate 65 0
  authorizationToken := Vector.replicate 129 0
  formatID := 0
  maxFrameBytes := 0

def StreamSubscribe.record (spec : StreamSubscribe String) (cs : List Nat) : StreamSubscribe Nat where
  sessionID := cs[0]!
  authorizationToken := cs[1]!
  remoteHost := cs[2]!
  remotePort := spec.remotePort
  formatID := spec.formatID
  maxFrameBytes := spec.maxFrameBytes
  initialWindowBytes := spec.initialWindowBytes
  timeoutMs := spec.timeoutMs

/-! ## The methods

The holder of the source or consumer is the root that the owners get. The answers of the two pruning
passes are parameters, as in the model of the owners. -/

section StreamLane

variable {I Root : Type} {ident : StreamCallbackKey String → I} [DecidableEq I] (core : GrantCore)
  (isOpen : Bool) (root : Root) (presence presence' : StreamCallbackKey String → Int32)

/-- `preparePublishInternal` with a grant. -/
def preparePublishGrant (broken : List UInt8 → Nat) (spec : StreamPublish String) :
    StreamM ident Root StreamPublishGrant := do
  withCallbackMutation isOpen do
    ofExcept (requireCoreFeature core.ownerGrantsAvailable "query Core lane-owner grants")
    let cs ← inMemory (stored [spec.sessionID, spec.authorizationToken])
    let (status, grant) ← admitting ⟨spec.sessionID, .publish⟩ root presence presence' Prod.fst
      (bridged core.preparePublishGrant (Status.symbol, zeroPublishGrant) (spec.record cs).read
        .preparePublishGrant)
    ofExcept (throwIfNativeError status "stream_lane_prepare_publish_grant")
    return grant.grant broken

def subscribe (spec : StreamSubscribe String) : StreamM ident Root Unit := do
  withCallbackMutation isOpen do
    let cs ← inMemory (stored [spec.sessionID, spec.authorizationToken, spec.remoteHost])
    let status ← admitting ⟨spec.sessionID, .subscribe⟩ root presence presence' id
      (bridged core.subscribe Status.symbol (spec.record cs).read .subscribe)
    ofExcept (throwIfNativeError status "stream_lane_subscribe")

end StreamLane

/-! ## What the application does with a grant -/

namespace StreamPublishGrant

variable (grant : StreamPublishGrant)

def subscribeSpec (initialWindowBytes timeoutMs : UInt32) : StreamSubscribe String where
  sessionID := grant.sessionID
  authorizationToken := grant.authorizationToken
  remoteHost := grant.owner.advertisedHost
  remotePort := grant.owner.port
  formatID := grant.formatID
  maxFrameBytes := grant.maxFrameBytes
  initialWindowBytes := initialWindowBytes
  timeoutMs := timeoutMs

structure Container (E : Type) where
  owner : Except E LaneOwnerEndpoint
  sessionID : Except E String
  authorizationToken : Except E String
  formatID : Except E UInt64
  maxFrameBytes : Except E UInt32

def encode {E : Type} : Container E where
  owner := .ok grant.owner
  sessionID := .ok grant.sessionID
  authorizationToken := .ok grant.authorizationToken
  formatID := .ok grant.formatID
  maxFrameBytes := .ok grant.maxFrameBytes

/-- `init(from:)`, which admits whatever has the right types. -/
def decode {E : Type} (values : Container E) : Except E StreamPublishGrant := do
  let owner ← values.owner
  let sessionID ← values.sessionID
  let authorizationToken ← values.authorizationToken
  let formatID ← values.formatID
  let maxFrameBytes ← values.maxFrameBytes
  return { owner, sessionID, authorizationToken, formatID, maxFrameBytes }

end StreamPublishGrant

end CoAkka.Grant
