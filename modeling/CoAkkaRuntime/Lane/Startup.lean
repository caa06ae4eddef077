import CoAkkaRuntime.Host.StartupUnwinds
import CoAkkaRuntime.Stream.CallbackOwners

/-!
# Lane — `openInternal`

The opening of the two kinds of lane (`StreamLane.swift`, `FileLane.swift`): the checks, the record
that Core is sent, and the calls on the lane that Core hands out. A lane whose start fails is
destroyed by the opener: no one else has it.

* `openChecks` — what is checked before Core is called: the feature, the owner, the strings.
* `createLane` — the creation call, with or without an owner.
* `StreamLane.start`, `FileLane.refuseStart` — the calls on the new lane; the two kinds differ in
  what they do where the start is refused.
* `openInternal` — the opening as a whole, of either kind.
-/

namespace CoAkka.Lane

open Host (Loader ends_status_bind)
open Session (Address)
open CoAkka.Stream Throwing Transport

/-! ## What an opener meets -/

/-- `StreamLaneSecurityConfig`, `FileLaneSecurityConfig`; the mode is its raw value. -/
structure LaneSecurityConfig where
  mode : UInt32
  credentialGeneration : UInt64
  credentialID : String
  caCertificateFile : String
  identityCertificateFile : String
  privateKeyFile : String

/-- `StreamLaneConfig`, `FileLaneConfig`; the flags, bounds and times that are Core's to judge are
`settings`. `capacity` is the `queueCapacity` of a File Lane. -/
structure LaneConfig (Settings : Type) where
  bindHost : String
  capacity : Int
  security : Option LaneSecurityConfig
  settings : Settings

structure LaneOwnerConfig where
  ownerInstanceID : String
  advertisedHost : String

/-- `coakka_swift_stream_security_config_t`, `coakka_swift_file_lane_security_config_t`. -/
structure LaneSecurityRecord where
  mode : UInt32
  credentialGeneration : UInt64
  credentialID : CString
  caCertificateFile : CString
  identityCertificateFile : CString
  privateKeyFile : CString

/-- `coakka_swift_stream_config_t`, `coakka_swift_file_lane_config_t`. -/
structure LaneRecord (Settings : Type) where
  bindHost : CString
  capacity : Int
  security : Option LaneSecurityRecord
  settings : Settings

/-- `coakka_swift_lane_owner_config_t`. -/
structure LaneOwnerRecord where
  ownerInstanceID : CString
  advertisedHost : CString

/-- What Core answers: a status, and what it leaves in the out-parameter. -/
structure LaneCore (Settings : Type) where
  available : Int32 × UInt32
  ownerGrantsAvailable : Int32 × UInt32
  create : LaneRecord Settings → Int32 × Option Address
  createOwned : LaneRecord Settings → LaneOwnerRecord → Int32 × Option Address
  /-- The capacity in the statistics of a lane. -/
  stats : Address → Int32 × Int
  start : Address → Int32

/-- The native calls on a lane that is being opened. -/
inductive LaneCall where
  | create (status : Int32) (lane : Option Address)
  | stats (lane : Address) (status : Int32)
  | start (lane : Address) (status : Int32)
  | destroy (lane : Address)
  deriving DecidableEq

abbrev LaneM := ExceptT RuntimeError (StateM (List LaneCall))

def LaneCall.note (call : LaneCall) : LaneM Unit := modify fun log => log ++ [call]

/-- The texts of an opener's errors. -/
structure OpenerTexts where
  negativeCapacity : String
  queryFeature : String
  create : String
  creation : String

/-! ## Checks and creation -/

/-- `requireCoreFeature`, on what the query answers. -/
def requireCoreFeature (answer : Int32 × UInt32) (operation : String) :
    Except RuntimeError Unit := do
  throwIfNativeError answer.1 operation
  if 1 < answer.2 then .error (.contractViolation "Core feature projection is not boolean")
  else if answer.2 = 1 then .ok ()
  else .error (.nativeStatus Status.featureUnavailable operation)

/-- `requireCoreOwner`. -/
def requireCoreOwner (value : Option Address) (operation : String) : Except RuntimeError Address :=
  match value with
  | some value => .ok value
  | none => .error (.contractViolation s!"Core accepted {operation} without an owner")

section Open

variable {Settings : Type} (core : LaneCore Settings) (config : LaneConfig Settings)

/-- The strings that `NativeCStringStorage` checks and stores. -/
def LaneConfig.strings (owner : Option LaneOwnerConfig) : List String :=
  [config.bindHost] ++
  (match config.security with
    | some security => [security.credentialID, security.caCertificateFile,
        security.identityCertificateFile, security.privateKeyFile]
    | none => ["", "", "", ""]) ++
  match owner with
    | some owner => [owner.ownerInstanceID, owner.advertisedHost]
    | none => ["", ""]

def LaneConfig.record : LaneRecord Settings where
  bindHost := cString config.bindHost
  capacity := config.capacity
  security := config.security.map fun security =>
    ⟨security.mode, security.credentialGeneration, cString security.credentialID,
      cString security.caCertificateFile, cString security.identityCertificateFile,
      cString security.privateKeyFile⟩
  settings := config.settings

def LaneOwnerConfig.record (owner : LaneOwnerConfig) : LaneOwnerRecord :=
  ⟨cString owner.ownerInstanceID, cString owner.advertisedHost⟩

/-- What an opener does before it calls Core's constructor. -/
def openChecks (texts : OpenerTexts) (loader : Loader) (owner : Option LaneOwnerConfig)
    (runtimeLibPath : Option String) : Except RuntimeError Unit := do
  if config.capacity < 0 then .error (.invalidArgument texts.negativeCapacity)
  else
    -- nothing native is owned yet: the library closes itself when it goes out of scope
    let path ← loader.runtimeNativePath runtimeLibPath
    let _ ← loader.load path
    requireCoreFeature core.available texts.queryFeature
    owner.toList.forM fun _ =>
      requireCoreFeature core.ownerGrantsAvailable "query Core lane-owner grants"
    (config.strings owner).forM fun value => validateCString value "native text"

/-- An opener up to the lane that Core hands out. -/
def createLane (texts : OpenerTexts) (loader : Loader) (owner : Option LaneOwnerConfig)
    (runtimeLibPath : Option String) : LaneM Address := do
  ofExcept (openChecks core config texts loader owner runtimeLibPath)
  let (status, out) :=
    match owner with
    | some owner => core.createOwned config.record owner.record
    | none => core.create config.record
  LaneCall.note (.create status out)
  ofExcept (throwIfNativeError status texts.create)
  ofExcept (requireCoreOwner out texts.creation)

/-! ## Stream Lane -/

/-- The lane that `StreamLane.init` is given. -/
structure StreamLane {K I : Type} (ident : K → I) (Root : Type) where
  lane : Address
  callbacks : StreamCallbackOwners ident Root

def StreamLane.texts : OpenerTexts where
  negativeCapacity := "negative stream-lane capacity"
  queryFeature := "query Core stream-lane feature"
  create := "stream_lane_create"
  creation := "Stream Lane creation"

section Stream

variable {K I Root : Type} {ident : K → I}

/-- The `do` block of `StreamLane.openInternal`. -/
def StreamLane.start (created : Address) : LaneM (StreamLane ident Root) := do
  let (status, capacity) := core.stats created
  LaneCall.note (.stats created status)
  ofExcept (throwIfNativeError status "stream_lane_stats")
  let callbacks ← ofExcept (StreamCallbackOwners.init capacity)
  let status := core.start created
  LaneCall.note (.start created status)
  ofExcept (throwIfNativeError status "stream_lane_start")
  return ⟨created, callbacks⟩

def StreamLane.openInternal (loader : Loader) (owner : Option LaneOwnerConfig)
    (runtimeLibPath : Option String) : LaneM (StreamLane ident Root) := do
  let created ← createLane core config StreamLane.texts loader owner runtimeLibPath
  -- from here on the lane is destroyed on every way out but the return
  tryCatch (StreamLane.start core created) fun error => do
    LaneCall.note (.destroy created)
    throw error

end Stream

/-! ## File Lane -/

/-- The lane that `FileLane.init` is given. -/
structure FileLane where
  lane : Address

def FileLane.texts : OpenerTexts where
  negativeCapacity := "negative file-lane capacity"
  queryFeature := "query Core file-lane feature"
  create := "file_lane_create"
  creation := "File Lane creation"

/-- `if start != 0 { … }`. -/
def FileLane.refuseStart (created : Address) (start : Int32) : LaneM Unit :=
  if start ≠ Status.ok then do
    LaneCall.note (.destroy created)
    ofExcept (throwIfNativeError start "file_lane_start")
  else pure ()

def FileLane.openInternal (loader : Loader) (owner : Option LaneOwnerConfig)
    (runtimeLibPath : Option String) : LaneM FileLane := do
  let created ← createLane core config FileLane.texts loader owner runtimeLibPath
  let start := core.start created
  LaneCall.note (.start created start)
  -- a File Lane has nothing else to do between its creation and its start
  FileLane.refuseStart created start
  return ⟨created⟩

end Open

end CoAkka.Lane
