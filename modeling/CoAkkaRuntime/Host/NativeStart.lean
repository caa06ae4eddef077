import CoAkkaRuntime.Host.Startup
import CoAkkaRuntime.Memory.Store
import CoAkkaRuntime.Throwing.Simulation
import CoAkkaRuntime.Transport.NativeText

/-!
# Host — the memory of a start

`applyNetwork` and `applyRoutes` (`RuntimeStartup.swift`) hand Core pointers to copies that they
allocate and give back themselves. Here the start runs over the memory these copies are in: a route
is a record of pointers, and Core reads what is behind them at its call. `start` of `Startup`, which
hands over the values, is what this one comes to.

* `EndpointRecord`, `RouteRecord` — the records as C has them, pointers in their fields.
* `NativeFrame` — the frame of `Startup` next to the store, and `inFrame`, `inMemory` to step in
  one.
* `coreReads` — a call of Core that reads behind the pointers it gets, when it gets them.
* `startNative` — the start over the memory, in the words of the source.
-/

namespace CoAkka.Host

open Memory Session Text Throwing Transport

/-! ## Memory -/

/-- `coakka_swift_endpoint_spec_t`. -/
structure EndpointRecord where
  host : Nat
  port : UInt16
  weight : UInt32
  flags : UInt32

/-- `coakka_swift_route_spec_t`. -/
structure RouteRecord where
  target : Nat
  strategy : UInt32
  routeKeyHint : Option Nat
  flags : UInt32
  endpoints : Nat
  endpointCount : Nat

/-- What is allocated: characters, or an endpoint, which may not be initialized. -/
inductive NativeBlock where
  | characters (block : Block)
  | endpoint (value : Option EndpointRecord)

/-- A start, its memory and the local arrays of `applyRoutes`. -/
structure NativeFrame where
  frame : StartFrame
  memory : Store NativeBlock := {}
  endpoints : List Nat := []
  strings : List Nat := []
  values : List RouteRecord := []

abbrev NativeM := ExceptT RuntimeError (StateM NativeFrame)

/-- A step of the start that does not touch the memory. -/
def inFrame {α : Type} (x : StartM α) : NativeM α :=
  ExceptT.mk fun s => ((exec x s.frame).1, { s with frame := (exec x s.frame).2 })

def inMemory {α : Type} (x : StateM (Store NativeBlock) α) : StateM NativeFrame α :=
  fun s => ((x.run s.memory).1, { s with memory := (x.run s.memory).2 })

def duplicateCString (value : String) : StateM (Store NativeBlock) Nat := do
  let bytes := utf8CString value
  let pointer ← modifyGet fun memory =>
    memory.allocate (.characters (List.replicate bytes.length none))
  modify fun memory => memory.write pointer (.characters (bytes.map some))
  return pointer

def allocateEndpoint (value : EndpointRecord) : StateM (Store NativeBlock) Nat := do
  let endpoint ← modifyGet fun memory => memory.allocate (.endpoint none)
  modify fun memory => memory.write endpoint (.endpoint (some value))
  return endpoint

/-- `forEach { $0.deallocate() }`. -/
def deallocateAll (pointers : List Nat) : StateM NativeFrame Unit :=
  modify fun s => { s with memory := pointers.foldl Store.deallocate s.memory }

/-! ## Core's reading

Core follows the pointers at its call, and finds nothing behind one that leads nowhere.
-/

section Reading

variable (memory : Store NativeBlock)

def readCharacters (pointer : Nat) : Option CString :=
  match memory.read pointer with
  | some (.characters block) => (readCString block).map CString.reading
  | _ => none

def readEndpoint (pointer : Nat) : Option Endpoint :=
  match memory.read pointer with
  | some (.endpoint (some value)) =>
    (readCharacters memory value.host).map fun host => ⟨host, value.port, value.weight, value.flags⟩
  | _ => none

/-- An array of endpoints; a block holds one. -/
def readEndpoints (pointer : Nat) : Nat → Option (List Endpoint)
  | 0 => some []
  | 1 => (readEndpoint memory pointer).map ([·])
  | _ => none

/-- A string that may not be there. -/
def readOptional : Option Nat → Option (Option CString)
  | none => some none
  | some pointer => (readCharacters memory pointer).map some

def readRoute (record : RouteRecord) : Option Route := do
  let target ← readCharacters memory record.target
  let routeKeyHint ← readOptional memory record.routeKeyHint
  let endpoints ← readEndpoints memory record.endpoints record.endpointCount
  return ⟨target, record.strategy, routeKeyHint, record.flags, endpoints⟩

def readSnapshot (generation : UInt64) (values : List RouteRecord) : Option ControlSnapshot := do
  let routes ← values.mapM (readRoute memory)
  return ⟨generation, routes⟩

def readNetwork (network : RuntimeNetworkConfig) (bind advertise : Option Nat) :
    Option NetworkArguments := do
  let bindHost ← readOptional memory bind
  let advertiseHost ← readOptional memory advertise
  return ⟨network.mode.rawValue, bindHost, network.bindPort, advertiseHost, network.advertisePort⟩

end Reading

/-- What Core reads at a call. What it does with memory that is not there is not defined: the run is
a fault, and ends. -/
def coreReads {γ : Type} (reading : Store NativeBlock → Option γ) : NativeM γ := do
  match reading (← get).memory with
  | some value => pure value
  | none =>
    modify fun s => { s with memory := { s.memory with fault := true } }
    throw .closed

/-! ## The start -/

section Start

variable (core : StartupCore)

/-- `coakka_swift_runtime_apply_network`, with what Core reads. -/
def sendNetwork (runtime : Address) (args : NetworkArguments) : StartM Unit := do
  let (_, status) := runtimeApplyNetwork (some core.applyNetworkOptions) (some runtime) args
  StartFrame.note (.applyNetwork runtime status)
  ofExcept (throwIfNativeError status "apply runtime network policy")

/-- `coakka_swift_runtime_apply_snapshot`, with what Core reads. -/
def sendSnapshot (runtime : Address) (snapshot : ControlSnapshot) : StartM Unit := do
  let status := core.applySnapshot runtime snapshot
  StartFrame.note (.applySnapshot runtime status)
  ofExcept (throwIfNativeError status "apply route snapshot")

/-- `host.map(duplicateCString)`. -/
def duplicateOptional : Option String → StateM (Store NativeBlock) (Option Nat)
  | none => pure none
  | some host => do return some (← duplicateCString host)

def applyNetworkNative (runtime : Address) (network : RuntimeNetworkConfig) : NativeM Unit := do
  let bind ← liftM (inMemory (duplicateOptional network.bindHost))
  let advertise ← liftM (inMemory (duplicateOptional network.advertiseHost))
  deferring (deallocateAll (bind.toList ++ advertise.toList)) do
    let _ ← inFrame requireHandle
    let args ← coreReads fun memory => readNetwork memory network bind advertise
    inFrame (sendNetwork core runtime args)

/-- A turn of the loop of `applyRoutes`. -/
def addRoute (route : RuntimeRouteSpec) : StateM NativeFrame Unit := do
  let target ← inMemory (duplicateCString route.target)
  let host ← inMemory (duplicateCString route.host)
  modify fun s => { s with strings := s.strings ++ [target, host] }
  let endpoint ← inMemory
    (allocateEndpoint ⟨host, route.port, 1, if route.isLocal then 1 else 0⟩)
  modify fun s => { s with
    endpoints := s.endpoints ++ [endpoint]
    values := s.values ++ [⟨target, 1, none, 0, endpoint, 1⟩] }

def applyRoutesNative (runtime : Address) (generation : UInt64)
    (routes : List RuntimeRouteSpec) : NativeM Unit := do
  modify fun s => { s with endpoints := [], strings := [], values := [] }
  deferring (do deallocateAll ((← get).endpoints ++ (← get).strings)) do
    liftM (routes.forM addRoute)
    let values := (← get).values
    let _ ← inFrame requireHandle
    let snapshot ← coreReads fun memory => readSnapshot memory generation values
    inFrame (sendSnapshot core runtime snapshot)

/-- `acquire`, over the memory. -/
def acquireNative (runtime : Address) (spec : ConnectorStartSpec) : NativeM StartedHost := do
  applyNetworkNative core runtime spec.network
  let security ← inFrame (startupSecurity core runtime spec.security)
  applyRoutesNative core runtime spec.generation spec.routes
  inFrame do
    exportHandles core runtime
    startRuntime core runtime
    let client ← createClient core runtime
    let reader ← createReader core runtime
    return ⟨⟨runtime, client, (← get).handles, reader⟩, spec, security⟩

/-- `RuntimeHost.start`, over the memory. -/
def startNative (loader : Loader) (spec : ConnectorStartSpec) (runtimeLibPath : Option String) :
    NativeM StartedHost := do
  ofExcept spec.validate
  let path ← ofExcept (loader.runtimeNativePath runtimeLibPath)
  ofExcept (validateCString path "runtime library path")
  let handle ← ofExcept (loader.load path)
  inFrame (modify fun frame => { frame with library := some handle })
  let _ ← inFrame requireHandle
  if core.abiVersion = 1 then
    let runtime ← inFrame (createNative core spec)
    tryCatch (acquireNative core runtime spec) fun error => inFrame (unwind runtime error)
  else throw (.unsupportedABI core.abiVersion)

end Start

end CoAkka.Host
