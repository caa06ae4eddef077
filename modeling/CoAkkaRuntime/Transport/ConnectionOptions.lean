import CoAkkaRuntime.Transport.StartupOptions

/-!
# Transport — what the connection options and the startup groups say

`applyConnection` of `RuntimeTransport.swift` fills its connection options with statements of its
own; a start fills them in `connectionOptions`. The two agree, and the options say what the strategy
says when they are read through their mask. The startup options carry a group where the start has a
value for it, so an explicit zero or `false` is not an omission.

* `encodes_connectionOptions` — the mask and the values of the connection options, field by field of
  `ConnectionField` and in one proof.
* `encodes_startupOptions` — the same for the groups of a start, which are pointers and not bits.
* `intent_eq_of_startupOptions` — two starts that send the same ask for the same.
-/

namespace CoAkka.Transport

/-! ## `applyConnection` -/

/-- `coakka_v2_tcp_connection_config_snapshot_t`, what is read of it. -/
structure TcpConnectionConfig where
  defaultsRevision : UInt32
  mode : UInt32
  applicableFields : UInt64
  explicitlyConfiguredFields : UInt64
  defaultedFields : UInt64
  configurableFields : UInt64
  maxConnections : UInt32
  maxRequestsPerConnection : UInt64
  idleTimeoutMs : UInt64
  deriving DecidableEq, Repr

/-- `coakka_v2_tcp_connection_apply_result_t`, with the fields of its validation. -/
structure TcpConnectionApplyRecord where
  applyStatus : Int32
  changed : UInt32
  reason : UInt32
  runtimeState : UInt32
  validationCode : UInt32
  validationField : UInt64
  minimumValue : UInt64
  maximumValue : UInt64
  effectiveConfig : TcpConnectionConfig

/-- `TcpConnectionApplyResult`, less the name of the reason; its `activeConfig` is the native
snapshot field by field. -/
structure TcpConnectionApplyResult where
  status : Int32
  changed : Bool
  reason : UInt32
  runtimeState : UInt32
  validationCode : UInt32
  validationField : UInt64
  minimumValue : UInt64
  maximumValue : UInt64
  activeConfig : TcpConnectionConfig
  deriving DecidableEq, Repr

/-- `connectionResult`. -/
def connectionResult (native : TcpConnectionApplyRecord) : TcpConnectionApplyResult where
  status := native.applyStatus
  changed := native.changed != 0
  reason := native.reason
  runtimeState := native.runtimeState
  validationCode := native.validationCode
  validationField := native.validationField
  minimumValue := native.minimumValue
  maximumValue := native.maximumValue
  activeConfig := native.effectiveConfig

/-- The options of `applyConnection`, statement by statement. -/
def appliedConnectionOptions (spec : TcpConnectionStrategySpec) : TcpConnectionOptions := Id.run do
  let mut options : TcpConnectionOptions := { structSize := 0 }
  options := { options with structSize := 48 }
  options := { options with fields := 0x01 }
  options := { options with mode := spec.mode }
  if let some value := spec.maxConnections then
    options := { options with fields := options.fields ||| 0x02 }
    options := { options with maxConnections := value }
  if let some value := spec.maxRequestsPerConnection then
    options := { options with fields := options.fields ||| 0x04 }
    options := { options with maxRequestsPerConnection := value }
  if let some value := spec.idleTimeoutMs then
    options := { options with fields := options.fields ||| 0x08 }
    options := { options with idleTimeoutMs := value }
  return options

/-- `applyConnection`: the options it sends, and how it ends. -/
def applyConnection {Handle Runtime : Type}
    (apply : Runtime → TcpConnectionOptions → Int32 × TcpConnectionApplyRecord)
    (library : Option Handle) (runtime : Runtime) (spec : TcpConnectionStrategySpec) :
    Option TcpConnectionOptions × Except RuntimeError TcpConnectionApplyResult :=
  match library with
  | none => (none, .error .closed)
  | some _ =>
    let options := appliedConnectionOptions spec
    let (status, native) := apply runtime options
    if status = native.applyStatus then
      (some options, .ok (connectionResult native))
    else
      -- the message does not interpolate the status that it names
      (some options, .error (.nativeStatus status
        "connection apply status mismatch (result (native.apply_status))"))

/-- **One encoding.** A running host sends what a start sends. -/
theorem appliedConnectionOptions_eq (spec : TcpConnectionStrategySpec) :
    appliedConnectionOptions spec = connectionOptions (some spec) := by
  obtain ⟨mode, maxConnections, maxRequestsPerConnection, idleTimeoutMs⟩ := spec
  cases maxConnections <;> cases maxRequestsPerConnection <;> cases idleTimeoutMs <;> rfl

/-! ## Core's reading of a strategy -/

inductive ConnectionField where
  | mode
  | maxConnections
  | maxRequestsPerConnection
  | idleTimeoutMs
  deriving DecidableEq

namespace ConnectionField

/-- The exponents of the `COAKKA_V2_TCP_CONNECTION_FIELD_*` bits. -/
def index : ConnectionField → Nat
  | .mode => 0
  | .maxConnections => 1
  | .maxRequestsPerConnection => 2
  | .idleTimeoutMs => 3

/-- The strategy has a value for the field. -/
def present (spec : TcpConnectionStrategySpec) : ConnectionField → Bool
  | .mode => true
  | .maxConnections => spec.maxConnections.isSome
  | .maxRequestsPerConnection => spec.maxRequestsPerConnection.isSome
  | .idleTimeoutMs => spec.idleTimeoutMs.isSome

def IsZero (options : TcpConnectionOptions) : ConnectionField → Prop
  | .mode => options.mode = 0
  | .maxConnections => options.maxConnections = 0
  | .maxRequestsPerConnection => options.maxRequestsPerConnection = 0
  | .idleTimeoutMs => options.idleTimeoutMs = 0

end ConnectionField

namespace TcpConnectionOptions

variable (options : TcpConnectionOptions)

/-- The mask names the field. -/
def has (field : ConnectionField) : Bool := options.fields.toNat.testBit field.index

/-- The strategy in the options, of which only the fields that the mask names are read. -/
def read : TcpConnectionStrategySpec where
  mode := if options.has .mode then options.mode else 0
  maxConnections := if options.has .maxConnections then some options.maxConnections else none
  maxRequestsPerConnection :=
    if options.has .maxRequestsPerConnection then some options.maxRequestsPerConnection else none
  idleTimeoutMs := if options.has .idleTimeoutMs then some options.idleTimeoutMs else none

end TcpConnectionOptions

/-- The options say what the strategy says: the mask names the mode and the values that are there,
what it does not name is zero, and Core reads the strategy. -/
structure EncodesConnection (spec : TcpConnectionStrategySpec) (options : TcpConnectionOptions) :
    Prop where
  mask : ∀ field : ConnectionField, options.has field = field.present spec
  declared : ∀ i, options.fields.toNat.testBit i = true → ∃ field : ConnectionField, field.index = i
  absent : ∀ field : ConnectionField, options.has field = false → field.IsZero options
  reserved : options.reserved = 0 ∧ options.reserved2 = 0
  read : options.read = spec

section Strategy

variable (spec : TcpConnectionStrategySpec)

/-- The mask, bit by bit. -/
theorem testBit_connectionOptions (i : Nat) :
    (connectionOptions (some spec)).fields.toNat.testBit i
      = (decide (0 = i)
        || spec.maxConnections.isSome && decide (1 = i)
        || spec.maxRequestsPerConnection.isSome && decide (2 = i)
        || spec.idleTimeoutMs.isSome && decide (3 = i)) := by
  have hbase : (0x01 : UInt64).toNat.testBit i = decide (0 = i) := by
    show (2 ^ 0).testBit i = _
    rw [Nat.testBit_two_pow]
  unfold connectionOptions
  simp only
  rw [testBit_addField (k := 3) rfl, testBit_addField (k := 2) rfl, testBit_addField (k := 1) rfl,
    hbase]

/-- A field is marked exactly where it was given. -/
theorem has_connectionOptions (field : ConnectionField) :
    (connectionOptions (some spec)).has field = field.present spec := by
  unfold TcpConnectionOptions.has
  rw [testBit_connectionOptions]
  cases field <;> simp [ConnectionField.index, ConnectionField.present]

/-- Without a value the field is left at zero. -/
theorem getD_absent {α : Type} {value : Option α} {zero : α} (h : value.isSome = false) :
    value.getD zero = zero := by
  cases value with
  | none => rfl
  | some _ => cases h

/-- Every field of the record, marked or not. -/
theorem encodes_connectionOptions : EncodesConnection spec (connectionOptions (some spec)) := by
  constructor
  · exact has_connectionOptions spec
  · intro i h
    rw [testBit_connectionOptions] at h
    have hi : i < 4 := by
      simp only [Bool.or_eq_true, Bool.and_eq_true, decide_eq_true_eq] at h
      omega
    match i with
    | 0 => exact ⟨.mode, rfl⟩
    | 1 => exact ⟨.maxConnections, rfl⟩
    | 2 => exact ⟨.maxRequestsPerConnection, rfl⟩
    | 3 => exact ⟨.idleTimeoutMs, rfl⟩
  · intro field hclear
    rw [has_connectionOptions] at hclear
    cases field with
    | mode => cases hclear
    | _ => exact getD_absent hclear
  · exact ⟨rfl, rfl⟩
  · obtain ⟨mode, maxConnections, maxRequestsPerConnection, idleTimeoutMs⟩ := spec
    unfold TcpConnectionOptions.read
    simp only [has_connectionOptions, ConnectionField.present]
    cases maxConnections <;> cases maxRequestsPerConnection <;> cases idleTimeoutMs <;> rfl

end Strategy

/-! ## Core's reading of a start

A group is read where its pointer is there, whatever its value.
-/

/-- What a start asks for in its optional groups. -/
structure StartupIntent where
  cpuPolicy : Option RuntimeCpuPolicy
  useIoUring : Option Bool
  enableMonitor : Option Bool
  connectionStrategy : Option TcpConnectionStrategySpec
  deriving DecidableEq

def ConnectorStartSpec.intent (spec : ConnectorStartSpec) : StartupIntent where
  cpuPolicy := spec.cpuPolicy
  useIoUring := spec.useIoUring
  enableMonitor := spec.enableMonitor
  connectionStrategy := spec.connectionStrategy

/-- The policy with a raw value. -/
def RuntimeCpuPolicy.ofRawValue : UInt32 → RuntimeCpuPolicy
  | 0 => .auto
  | _ => .single

/-- The intent in the startup options: a group that is `NULL` asks for nothing. -/
def StartupOptions.read (options : StartupOptions) : StartupIntent where
  cpuPolicy := options.execution.map (.ofRawValue ·.value)
  useIoUring := options.io.map (·.value != 0)
  enableMonitor := options.monitor.map (·.value != 0)
  connectionStrategy := options.connection.map (·.read)

/-- The startup options say what the start asks for: there is a group where there is a value, and
Core reads the intent. -/
structure EncodesStart (spec : ConnectorStartSpec) (options : StartupOptions) : Prop where
  execution : options.execution.isSome = spec.cpuPolicy.isSome
  io : options.io.isSome = spec.useIoUring.isSome
  monitor : options.monitor.isSome = spec.enableMonitor.isSome
  connection : options.connection = spec.connectionStrategy.map fun strategy =>
    connectionOptions (some strategy)
  read : options.read = spec.intent

namespace ConnectorStartSpec

variable (spec : ConnectorStartSpec)

/-- The same for the options of a start. -/
theorem encodes_startupOptions : EncodesStart spec spec.startupOptions := by
  have hstrategy : (if spec.connectionStrategy = none then none
      else some (connectionOptions spec.connectionStrategy))
        = spec.connectionStrategy.map fun strategy => connectionOptions (some strategy) := by
    cases spec.connectionStrategy <;> rfl
  unfold startupOptions
  constructor
  · cases spec.cpuPolicy <;> rfl
  · cases spec.useIoUring <;> rfl
  · cases spec.enableMonitor <;> rfl
  · exact hstrategy
  · simp only [StartupOptions.read, intent, hstrategy, StartupIntent.mk.injEq]
    refine ⟨?_, ?_, ?_, ?_⟩
    · rcases spec.cpuPolicy with _ | _ | _ <;> rfl
    · rcases spec.useIoUring with _ | _ | _ <;> rfl
    · rcases spec.enableMonitor with _ | _ | _ <;> rfl
    · cases hcase : spec.connectionStrategy with
      | none => rfl
      | some strategy => exact congrArg some (encodes_connectionOptions strategy).read

/-- Starts that ask for different things send different options. -/
theorem intent_eq_of_startupOptions {spec spec' : ConnectorStartSpec}
    (h : spec.startupOptions = spec'.startupOptions) : spec.intent = spec'.intent := by
  rw [← spec.encodes_startupOptions.read, h, spec'.encodes_startupOptions.read]

end ConnectorStartSpec

end CoAkka.Transport
