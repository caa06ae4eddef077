import CoAkkaRuntime.Session.AskTicket
import CoAkkaRuntime.Throwing.Ends
import CoAkkaRuntime.Transport.StartupOptions

/-!
# Host — `RuntimeHost.start`

The start of a host (`RuntimeHost.swift`, `RuntimeStartup.swift`). What Core answers to each call is
a field of `StartupCore`, a function of what it is sent, and so is what the loader answers; a start
makes each call at most once. The native calls are recorded: which of them hand out an owner, and
which release one, is read off the record.

* `StartFrame` — the local variables of the `do` block, and the calls made.
* `acquire` — the `do` block, step by step in the order of the source.
* `unwind` — the `catch` block, which gives back what the variables name.
* `start` — the two together.
-/

namespace CoAkka.Host

open Session Throwing Transport

/-! ## What a start meets

Core and the loader as functions, and the local variables of the `do` block as a record.
-/

/-- `coakka_swift_host_handles_t`. -/
structure HostHandles where
  structSize : Nat
  flags : UInt32
  requestWriteFd : Int32
  responseReadFd : Int32
  deadletterReadFd : Int32
  controlWriteFd : Int32
  monitorReadFd : Int32
  deliveredRequestReadFd : Int32
  deriving DecidableEq

/-- `coakka_swift_host_handles_t()`. -/
def HostHandles.zero : HostHandles := ⟨0, 0, 0, 0, 0, 0, 0, 0⟩

/-- What the bridge hands to Core to fill. -/
def HostHandles.empty (flags : UInt32) : HostHandles := ⟨40, flags, -1, -1, -1, -1, -1, -1⟩

/-- The selection and the loading of the module: `runtimeNativePath` and
`NativeRuntimeLibrary.init`. -/
structure Loader where
  runtimeNativePath : Option String → Except RuntimeError String
  load : String → Except RuntimeError Address

/-- What Core answers: a status, and what it leaves in the out-parameter. -/
structure StartupCore where
  abiVersion : UInt32
  createNative : RuntimeConfig → StartupOptions → Int32 × Option Address
  applyNetworkOptions : Address → NetworkOptions → Int32
  applyTcpSecurityOptions : Address → TcpSecurityOptions → Int32 × TcpSecurityApplyRecord
  applySnapshot : Address → ControlSnapshot → Int32
  getHostHandles : Address → HostHandles → Int32 × HostHandles
  start : Address → Int32
  askClientCreate : Address → HostHandles → Option Address
  requestReaderCreate : Address → HostHandles → Int32 × Option Address

/-- The native calls of a start, with what Core hands out in them. -/
inductive StartupCall where
  | createNative (status : Int32) (runtime : Option Address)
  | applyNetwork (runtime : Address) (status : Int32)
  | applySecurity (runtime : Address) (status : Int32)
  | applySnapshot (runtime : Address) (status : Int32)
  | getHostHandles (runtime : Address) (status : Int32) (handles : HostHandles)
  | start (runtime : Address) (status : Int32)
  | askClientCreate (runtime : Address) (client : Option Address)
  | readerCreate (runtime : Address) (status : Int32) (reader : Option Address)
  | readerDestroy (reader : Address)
  | stop (runtime : Address)
  | askClientDestroy (client : Address)
  | handlesClose (handles : HostHandles)
  | runtimeDestroy (runtime : Address)
  deriving DecidableEq

/-- The library and the local variables of a start. -/
structure StartFrame where
  /-- `NativeRuntimeLibrary.handle`. -/
  library : Option Address := none
  handles : HostHandles := .zero
  handlesOwned : Bool := false
  started : Bool := false
  client : Option Address := none
  reader : Option Address := none
  log : List StartupCall := []

def StartFrame.logged (frame : StartFrame) (calls : List StartupCall) : StartFrame :=
  { frame with log := frame.log ++ calls }

namespace StartFrame

variable (frame : StartFrame) (calls : List StartupCall)

@[simp] theorem logged_library : (frame.logged calls).library = frame.library := rfl

@[simp] theorem logged_handles : (frame.logged calls).handles = frame.handles := rfl

@[simp] theorem logged_handlesOwned : (frame.logged calls).handlesOwned = frame.handlesOwned := rfl

@[simp] theorem logged_started : (frame.logged calls).started = frame.started := rfl

@[simp] theorem logged_client : (frame.logged calls).client = frame.client := rfl

@[simp] theorem logged_reader : (frame.logged calls).reader = frame.reader := rfl

@[simp] theorem logged_log : (frame.logged calls).log = frame.log ++ calls := rfl

end StartFrame

abbrev StartM := ExceptT RuntimeError (StateM StartFrame)

def StartFrame.note (call : StartupCall) : StartM Unit := modify fun frame => frame.logged [call]

/-- The native owners of a `RuntimeSession`. -/
structure SessionOwners where
  runtime : Address
  client : Address
  handles : HostHandles
  reader : Address
  deriving DecidableEq

/-- What `start` returns: the fields of a `RuntimeHost` that it fills. -/
structure StartedHost where
  session : SessionOwners
  startSpec : ConnectorStartSpec
  startupSecurityResult : Option TcpSecurityApplyResult

/-! ## The steps of a start -/

section Start

variable (core : StartupCore)

def requireHandle : StartM Address := do
  match (← get).library with
  | some handle => pure handle
  | none => throw .closed

/-- `coakka_swift_runtime_create_native`, and the check that an owner was handed out. -/
def createNative (spec : ConnectorStartSpec) : StartM Address := do
  let _ ← requireHandle
  let (status, runtime) := core.createNative spec.runtimeConfig spec.startupOptions
  StartFrame.note (.createNative status runtime)
  ofExcept (throwIfNativeError status "create native runtime")
  match runtime with
  | some runtime => pure runtime
  | none => throw (.contractViolation "Core returned success without a runtime")

def applyNetwork (runtime : Address) (network : RuntimeNetworkConfig) : StartM Unit := do
  let _ ← requireHandle
  let (_, status) :=
    runtimeApplyNetwork (some core.applyNetworkOptions) (some runtime) network.arguments
  StartFrame.note (.applyNetwork runtime status)
  ofExcept (throwIfNativeError status "apply runtime network policy")

def applySecurity (runtime : Address) (spec : TcpSecuritySpec) : StartM TcpSecurityApplyResult := do
  ofExcept spec.validate
  let _ ← requireHandle
  let (status, native) := core.applyTcpSecurityOptions runtime spec.options
  StartFrame.note (.applySecurity runtime status)
  if status = native.applyStatus then
    pure (securityResult native)
  else
    throw (.nativeStatus status s!"security apply status mismatch (result {native.applyStatus})")

def applyRoutes (runtime : Address) (generation : UInt64) (routes : List RuntimeRouteSpec) :
    StartM Unit := do
  let _ ← requireHandle
  let status := core.applySnapshot runtime ⟨generation, routes.map (·.route)⟩
  StartFrame.note (.applySnapshot runtime status)
  ofExcept (throwIfNativeError status "apply route snapshot")

/-- The security of the `do` block: none, or one that Core has applied. -/
def startupSecurity (runtime : Address) :
    Option TcpSecuritySpec → StartM (Option TcpSecurityApplyResult)
  | none => pure none
  | some intent => do
    let result ← applySecurity core runtime intent
    if applied result then pure (some result) else throw (.tcpSecurityApply result)

/-- `coakka_swift_runtime_get_host_handles`. Native Core selects its request lane. -/
def exportHandles (runtime : Address) : StartM Unit := do
  let (status, handles) := core.getHostHandles runtime (.empty 0)
  StartFrame.note (.getHostHandles runtime status handles)
  modify fun frame => { frame with handles }
  ofExcept (throwIfNativeError status "get host handles")
  modify fun frame => { frame with handlesOwned := true }

/-- `coakka_swift_runtime_start`. -/
def startRuntime (runtime : Address) : StartM Unit := do
  let status := core.start runtime
  StartFrame.note (.start runtime status)
  ofExcept (throwIfNativeError status "start runtime")
  modify fun frame => { frame with started := true }

/-- `coakka_swift_ask_client_create`. -/
def createClient (runtime : Address) : StartM Address := do
  let client := core.askClientCreate runtime (← get).handles
  StartFrame.note (.askClientCreate runtime client)
  modify fun frame => { frame with client }
  match client with
  | some client => pure client
  | none =>
    throw (.nativeCreationRefused "Core refused ask-client construction without a causal status")

/-- `coakka_swift_runtime_request_reader_create`, which fills the variable even if it fails. -/
def createReader (runtime : Address) : StartM Address := do
  let (status, reader) := core.requestReaderCreate runtime (← get).handles
  StartFrame.note (.readerCreate runtime status reader)
  modify fun frame => { frame with reader }
  ofExcept (throwIfNativeError status "create request reader")
  match reader with
  | some reader => pure reader
  | none => throw (.contractViolation "Core returned success without a reader")

/-- The `do` block, which marks what it owns as it goes. -/
def acquire (runtime : Address) (spec : ConnectorStartSpec) : StartM StartedHost := do
  applyNetwork core runtime spec.network
  let security ← startupSecurity core runtime spec.security
  applyRoutes core runtime spec.generation spec.routes
  exportHandles core runtime
  startRuntime core runtime
  let client ← createClient core runtime
  let reader ← createReader core runtime
  return ⟨⟨runtime, client, (← get).handles, reader⟩, spec, security⟩

/-- The `catch` block. Core's answer to the stop is discarded. -/
def unwind (runtime : Address) (error : RuntimeError) : StartM StartedHost := do
  if let some reader := (← get).reader then
    StartFrame.note (.readerDestroy reader)
  if (← get).started then
    -- the handles are open and the client connected until Core has stopped
    StartFrame.note (.stop runtime)
  if let some client := (← get).client then
    StartFrame.note (.askClientDestroy client)
  if (← get).handlesOwned then
    StartFrame.note (.handlesClose (← get).handles)
  StartFrame.note (.runtimeDestroy runtime)
  modify fun frame => { frame with library := none }
  throw error

end Start

/-- `RuntimeHost.start`. -/
def start (loader : Loader) (core : StartupCore) (spec : ConnectorStartSpec)
    (runtimeLibPath : Option String) : StartM StartedHost := do
  ofExcept spec.validate
  let path ← ofExcept (loader.runtimeNativePath runtimeLibPath)
  ofExcept (validateCString path "runtime library path")
  let handle ← ofExcept (loader.load path)
  modify fun frame => { frame with library := some handle }
  let _ ← requireHandle
  if core.abiVersion = 1 then
    let runtime ← createNative core spec
    tryCatch (acquire core runtime spec) (unwind runtime)
  else throw (.unsupportedABI core.abiVersion)

end CoAkka.Host
