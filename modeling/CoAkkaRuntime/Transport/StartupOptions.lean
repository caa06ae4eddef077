import CoAkkaRuntime.Transport.NetworkOptions

/-!
# Transport — what a start sends to Core

`ConnectorStartSpec` and the records that `createNative`, `applyNetwork`, `applySecurity` and
`applyRoutes` fill for Core (`RuntimeStartup.swift`, `RuntimeTransport.swift`), with the checks that
throw before anything is sent. Core's records are the C ones; a pointer to one is an `Option`.

* `connectionOptions`, `options` — the record of a connection strategy and that of a security.
* `RuntimeNetworkConfig.arguments`, `RuntimeRouteSpec.route` — the arguments of the two other calls.
* `ConnectorStartSpec.validate` — all checks of a start, in the order of the source.
-/

namespace CoAkka.Transport

/-- `withCString`, `utf8CString`. -/
def cString (value : String) : CString := .reading value.toByteArray.data.toList

/-- A string without NUL reaches C whole. -/
theorem bytes_cString {value : String} (h : 0 ∉ value.toByteArray.data.toList) :
    (cString value).bytes = value.toByteArray.data.toList :=
  takeWhile_ne_zero h

/-- A text without NUL comes back whole. -/
theorem text?_cString {value : String} (h : 0 ∉ value.toByteArray.data.toList) :
    (cString value).text? = some value := by
  unfold CString.text?
  rw [bytes_cString h, Array.toArray_toList]
  exact fromUTF8?_eq_some_iff.mpr rfl

/-- And is the only one that crosses as it does. -/
theorem cString_inj {value value' : String} (h : 0 ∉ value.toByteArray.data.toList)
    (h' : 0 ∉ value'.toByteArray.data.toList) (heq : cString value = cString value') :
    value = value' := by
  have hbytes := congrArg CString.bytes heq
  rw [bytes_cString h, bytes_cString h'] at hbytes
  apply String.toByteArray_inj.mp
  apply ByteArray.ext
  exact Array.toList_inj.mp hbytes

/-! ## Connection strategy -/

/-- `TcpConnectionStrategySpec`; modes are raw values. -/
structure TcpConnectionStrategySpec where
  mode : UInt32
  maxConnections : Option UInt32
  maxRequestsPerConnection : Option UInt64
  idleTimeoutMs : Option UInt64
  deriving DecidableEq

/-- `coakka_v2_tcp_connection_options_t`. -/
structure TcpConnectionOptions where
  structSize : Nat := 48
  fields : UInt64 := 0
  mode : UInt32 := 0
  reserved : UInt32 := 0
  maxConnections : UInt32 := 0
  reserved2 : UInt32 := 0
  maxRequestsPerConnection : UInt64 := 0
  idleTimeoutMs : UInt64 := 0
  deriving DecidableEq

def connectionOptions : Option TcpConnectionStrategySpec → TcpConnectionOptions
  | none => {}
  | some spec =>
    { fields :=
        let fields := 0x01
        let fields := addField fields spec.maxConnections.isSome 0x02
        let fields := addField fields spec.maxRequestsPerConnection.isSome 0x04
        addField fields spec.idleTimeoutMs.isSome 0x08
      mode := spec.mode
      maxConnections := spec.maxConnections.getD 0
      maxRequestsPerConnection := spec.maxRequestsPerConnection.getD 0
      idleTimeoutMs := spec.idleTimeoutMs.getD 0 }

/-! ## Security -/

/-- `TcpSecuritySpec`; modes are raw values. -/
structure TcpSecuritySpec where
  mode : UInt32
  reloadMode : UInt32
  credentialGeneration : UInt64
  credentialID : String
  caCertificateFile : String
  identityCertificateFile : String
  privateKeyFile : String
  deriving DecidableEq

/-- `coakka_v2_tcp_security_options_t`. -/
structure TcpSecurityOptions where
  structSize : Nat := 72
  fields : UInt64
  mode : UInt32
  credentialSourceKind : UInt32 := 0
  reloadMode : UInt32 := 0
  reserved : UInt32 := 0
  credentialGeneration : UInt64 := 0
  credentialID : Option CString := none
  caCertificateFile : Option CString := none
  identityCertificateFile : Option CString := none
  privateKeyFile : Option CString := none
  deriving DecidableEq

/-- `coakka_v2_tcp_security_apply_result_t`, less the description of the credentials in use. -/
structure TcpSecurityApplyRecord where
  applyStatus : Int32
  changed : UInt32
  reason : UInt32
  runtimeState : UInt32
  validationCode : UInt32
  validationField : UInt64

namespace TcpSecuritySpec

variable (spec : TcpSecuritySpec)

/-- The check of `applySecurity`. -/
def validate : Except RuntimeError Unit :=
  [("credentialID", spec.credentialID), ("caCertificateFile", spec.caCertificateFile),
    ("identityCertificateFile", spec.identityCertificateFile),
    ("privateKeyFile", spec.privateKeyFile)].forM fun field =>
    if field.2.toByteArray.data.toList.contains 0 then
      .error (.invalidArgument s!"{field.1} must not contain NUL")
    else .ok ()

/-- The options of `applySecurity`. -/
def options : TcpSecurityOptions :=
  if spec.mode ≠ 0 then
    -- a secured mode names every field
    { fields := 0xff
      mode := spec.mode
      credentialSourceKind := 1
      reloadMode := spec.reloadMode
      credentialGeneration := spec.credentialGeneration
      credentialID := cString spec.credentialID
      caCertificateFile := cString spec.caCertificateFile
      identityCertificateFile := cString spec.identityCertificateFile
      privateKeyFile := cString spec.privateKeyFile }
  else
    let file := !spec.caCertificateFile.isEmpty || !spec.identityCertificateFile.isEmpty ||
      !spec.privateKeyFile.isEmpty
    { fields :=
        let fields := 0x01
        let fields := addField fields (spec.reloadMode != 0) 0x04
        let fields := addField fields (spec.credentialGeneration != 0) 0x08
        let fields := addField fields (!spec.credentialID.isEmpty) 0x10
        let fields := addField fields file 0x02
        let fields := addField fields (!spec.caCertificateFile.isEmpty) 0x20
        let fields := addField fields (!spec.identityCertificateFile.isEmpty) 0x40
        addField fields (!spec.privateKeyFile.isEmpty) 0x80
      mode := spec.mode
      reloadMode := if spec.reloadMode ≠ 0 then spec.reloadMode else 0
      credentialGeneration := if spec.credentialGeneration ≠ 0 then spec.credentialGeneration else 0
      credentialID := if spec.credentialID.isEmpty then none else cString spec.credentialID
      credentialSourceKind := if file then 1 else 0
      caCertificateFile :=
        if spec.caCertificateFile.isEmpty then none else cString spec.caCertificateFile
      identityCertificateFile :=
        if spec.identityCertificateFile.isEmpty then none else cString spec.identityCertificateFile
      privateKeyFile := if spec.privateKeyFile.isEmpty then none else cString spec.privateKeyFile }

end TcpSecuritySpec

/-- `securityResult`. -/
def securityResult (native : TcpSecurityApplyRecord) : TcpSecurityApplyResult where
  status := native.applyStatus
  changed := native.changed != 0
  reason := native.reason
  runtimeState := native.runtimeState
  validationCode := native.validationCode
  validationField := native.validationField

/-- `TcpSecurityApplyResult.applied`. -/
def applied (result : TcpSecurityApplyResult) : Bool := result.status == Status.ok

/-! ## Network and routes -/

/-- `RuntimeNetworkMode`, with its raw values. -/
inductive RuntimeNetworkMode where
  | embedded
  | outboundOnly
  | networkNode
  deriving DecidableEq

def RuntimeNetworkMode.rawValue : RuntimeNetworkMode → UInt32
  | .embedded => 1
  | .outboundOnly => 2
  | .networkNode => 3

structure RuntimeNetworkConfig where
  mode : RuntimeNetworkMode := .embedded
  bindHost : Option String := none
  bindPort : UInt16 := 0
  advertiseHost : Option String := none
  advertisePort : UInt16 := 0

def RuntimeNetworkConfig.validate (network : RuntimeNetworkConfig) : Except RuntimeError Unit := do
  network.bindHost.toList.forM fun host => validateCString host "bindHost"
  network.advertiseHost.toList.forM fun host => validateCString host "advertiseHost"

/-- What `applyNetwork` hands to the bridge. -/
def RuntimeNetworkConfig.arguments (network : RuntimeNetworkConfig) : NetworkArguments where
  mode := network.mode.rawValue
  bindHost := network.bindHost.map cString
  bindPort := network.bindPort
  advertiseHost := network.advertiseHost.map cString
  advertisePort := network.advertisePort

structure RuntimeRouteSpec where
  target : String
  host : String
  port : UInt16
  isLocal : Bool

/-- `coakka_v2_endpoint_t`. -/
structure Endpoint where
  host : CString
  port : UInt16
  weight : UInt32
  flags : UInt32

/-- `coakka_v2_route_t`. -/
structure Route where
  target : CString
  strategy : UInt32
  routeKeyHint : Option CString
  flags : UInt32
  endpoints : List Endpoint

/-- `coakka_v2_control_snapshot_t`. -/
structure ControlSnapshot where
  generation : UInt64
  routes : List Route

/-- The route of `applyRoutes`: one endpoint, `SINGLE_OWNER`. -/
def RuntimeRouteSpec.route (route : RuntimeRouteSpec) : Route where
  target := cString route.target
  strategy := 1
  routeKeyHint := none
  flags := 0
  endpoints := [⟨cString route.host, route.port, 1, if route.isLocal then 1 else 0⟩]

/-! ## The start -/

/-- `RuntimeCpuPolicy`, with its raw values. -/
inductive RuntimeCpuPolicy where
  | auto
  | single
  deriving DecidableEq

def RuntimeCpuPolicy.rawValue : RuntimeCpuPolicy → UInt32
  | .auto => 0
  | .single => 1

structure ConnectorStartSpec where
  systemName : String
  nodeID : String
  strictNoDrop : Bool := true
  queueCapacity : Int32 := 0
  generation : UInt64 := 1
  routes : List RuntimeRouteSpec
  connectionStrategy : Option TcpConnectionStrategySpec := none
  security : Option TcpSecuritySpec := none
  network : RuntimeNetworkConfig := {}
  cpuPolicy : Option RuntimeCpuPolicy := none
  useIoUring : Option Bool := none
  enableMonitor : Option Bool := none

def ConnectorStartSpec.validate (spec : ConnectorStartSpec) : Except RuntimeError Unit := do
  validateCString spec.systemName "systemName"
  validateCString spec.nodeID "nodeID"
  spec.network.validate
  spec.routes.forM fun route => do
    validateCString route.target "route target"
    validateCString route.host "route host"

/-- `coakka_v2_runtime_config_t`. -/
structure RuntimeConfig where
  systemName : CString
  nodeID : CString
  strictNoDrop : Int32
  queueCapacity : Int32

/-- `coakka_v2_startup_execution_options_t`, and the two others of its layout: their one value is
`cpu_policy`, `use_io_uring` or `enabled`. -/
structure StartupGroup where
  structSize : Nat := 16
  value : UInt32
  reserved : UInt32 := 0
  deriving DecidableEq

/-- `coakka_v2_runtime_startup_options_t`. -/
structure StartupOptions where
  structSize : Nat := 40
  execution : Option StartupGroup
  connection : Option TcpConnectionOptions
  io : Option StartupGroup
  monitor : Option StartupGroup
  deriving DecidableEq

namespace ConnectorStartSpec

variable (spec : ConnectorStartSpec)

/-- The configuration of `createNative`. -/
def runtimeConfig : RuntimeConfig where
  systemName := cString spec.systemName
  nodeID := cString spec.nodeID
  strictNoDrop := if spec.strictNoDrop then 1 else 0
  queueCapacity := spec.queueCapacity

/-- The options of `createNative`. -/
def startupOptions : StartupOptions :=
  let execution : StartupGroup := { value := (spec.cpuPolicy.map (·.rawValue)).getD 0 }
  let io : StartupGroup := { value := if spec.useIoUring = some true then 1 else 0 }
  let monitor : StartupGroup := { value := if spec.enableMonitor = some true then 1 else 0 }
  let connection := connectionOptions spec.connectionStrategy
  { execution := if spec.cpuPolicy = none then none else some execution
    io := if spec.useIoUring = none then none else some io
    monitor := if spec.enableMonitor = none then none else some monitor
    connection := if spec.connectionStrategy = none then none else some connection }

end ConnectorStartSpec

end CoAkka.Transport
