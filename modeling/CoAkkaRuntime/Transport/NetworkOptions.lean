import CoAkkaRuntime.Models
import Mathlib.Data.List.TakeWhile

/-!
# Transport — the network options sent to Core

`coakka_swift_runtime_apply_network` of `coakka_runtime_bridge.c`, which turns a network policy into
the `coakka_v2_network_options_t` that Core reads. Core takes a value only where the presence mask
`fields` has the bit that `runtime_transport_config.h` declares for it, so the policy is what the
options say when they are read through the mask.

* `networkNode`, `networkOptions` — the function of the bridge, with its literals.
* `NetworkField` — the fields with the bits that the header declares.
* `EncodesPresence` — the mask says of each field whether it was supplied.
* `runtimeApplyNetwork_encodes_iff` — when it does, exactly. Two literals of the source are each
  other's, so it does where the two fields are supplied both or neither (`Uncrossed`).
-/

namespace CoAkka.Transport

/-! ## Presence masks -/

/-- `if (present) fields |= bit`. -/
def addField (fields : UInt64) (present : Bool) (bit : UInt64) : UInt64 :=
  if present then fields ||| bit else fields

/-- Adding a field sets its bit and no other. -/
theorem testBit_addField {fields bit : UInt64} {k : Nat} (hbit : bit.toNat = 2 ^ k)
    (present : Bool) (i : Nat) :
    (addField fields present bit).toNat.testBit i
      = (fields.toNat.testBit i || present && decide (k = i)) := by
  unfold addField
  cases present with
  | false => simp
  | true => simp [hbit, Nat.testBit_two_pow]

/-! ## Values that cross the bridge -/

/-- A NUL-terminated string: the bytes before its NUL. -/
structure CString where
  bytes : List UInt8
  noNul : 0 ∉ bytes
  deriving DecidableEq

/-- The string that C reads at the start of a buffer. -/
def CString.reading (bytes : List UInt8) : CString where
  bytes := bytes.takeWhile (· ≠ 0)
  noNul h := by simpa using List.mem_takeWhile_imp h

/-- The text of a C string, which is UTF-8. -/
def CString.text? (s : CString) : Option String := String.fromUTF8? ⟨s.bytes.toArray⟩

/-- The arguments of `coakka_swift_runtime_apply_network`. -/
structure NetworkArguments where
  mode : UInt32
  bindHost : Option CString
  bindPort : UInt16
  advertiseHost : Option CString
  advertisePort : UInt16
  deriving DecidableEq

/-- `coakka_v2_network_options_t`. -/
structure NetworkOptions where
  structSize : Nat
  fields : UInt64
  mode : UInt32
  reserved : UInt32
  bindHost : Option CString
  advertiseHost : Option CString
  bindPort : UInt16
  advertisePort : UInt16
  reserved2 : UInt32
  deriving DecidableEq

/-- `COAKKA_SWIFT_NETWORK_NODE`, the `COAKKA_V2_NETWORK_NODE` of Core. -/
def networkNode : UInt32 := 3

/-- The options that the bridge fills for Core. -/
def networkOptions (args : NetworkArguments) : NetworkOptions where
  structSize := 48
  fields :=
    -- a network node names every field, supplied or not
    let fields := if args.mode = networkNode then 0x1f else 0x01
    let fields := addField fields args.bindHost.isSome 0x02
    -- Core's header gives 0x04 to `bind_port` and 0x08 to `advertise_host`
    let fields := addField fields args.advertiseHost.isSome 0x04
    let fields := addField fields (args.bindPort != 0) 0x08
    addField fields (args.advertisePort != 0) 0x10
  mode := args.mode
  reserved := 0
  bindHost := args.bindHost
  advertiseHost := args.advertiseHost
  bindPort := args.bindPort
  advertisePort := args.advertisePort
  reserved2 := 0

/-- `coakka_swift_runtime_apply_network`: the options it sends to Core, and what it returns. -/
def runtimeApplyNetwork {Runtime : Type} (library : Option (Runtime → NetworkOptions → Int32))
    (runtime : Option Runtime) (args : NetworkArguments) : Option NetworkOptions × Int32 :=
  match library, runtime with
  | some apply, some runtime => (some (networkOptions args), apply runtime (networkOptions args))
  | _, _ => (none, Status.invalidArg)

/-! ## Core's reading

Core looks at the mask first, and at a value only where its bit is set.
-/

inductive NetworkField where
  | mode
  | bindHost
  | bindPort
  | advertiseHost
  | advertisePort
  deriving DecidableEq

namespace NetworkField

/-- The exponents of the `COAKKA_V2_NETWORK_FIELD_*` bits. -/
def index : NetworkField → Nat
  | .mode => 0
  | .bindHost => 1
  | .bindPort => 2
  | .advertiseHost => 3
  | .advertisePort => 4

/-- The caller gave a value for the field. -/
def Supplied (args : NetworkArguments) : NetworkField → Prop
  | .mode => True
  | .bindHost => args.bindHost ≠ none
  | .bindPort => args.bindPort ≠ 0
  | .advertiseHost => args.advertiseHost ≠ none
  | .advertisePort => args.advertisePort ≠ 0

/-- The value of the field is zero or `NULL`. -/
def IsZero (options : NetworkOptions) : NetworkField → Prop
  | .mode => options.mode = 0
  | .bindHost => options.bindHost = none
  | .bindPort => options.bindPort = 0
  | .advertiseHost => options.advertiseHost = none
  | .advertisePort => options.advertisePort = 0

end NetworkField

namespace NetworkOptions

variable (options : NetworkOptions)

/-- The mask names the field. -/
def has (field : NetworkField) : Bool := options.fields.toNat.testBit field.index

/-- The policy in the options, of which only the fields that the mask names are read. -/
def read : NetworkArguments where
  mode := if options.has .mode then options.mode else 0
  bindHost := if options.has .bindHost then options.bindHost else none
  bindPort := if options.has .bindPort then options.bindPort else 0
  advertiseHost := if options.has .advertiseHost then options.advertiseHost else none
  advertisePort := if options.has .advertisePort then options.advertisePort else 0

end NetworkOptions

/-! ## What is sent is what Core reads -/

/-- The options encode which of the arguments are there: the mask names the fields of a network node
and the supplied ones, a field it does not name is zero, and Core reads the arguments. -/
structure EncodesPresence (args : NetworkArguments) (options : NetworkOptions) : Prop where
  mask : ∀ field : NetworkField, options.has field = true ↔
    args.mode = networkNode ∨ field.Supplied args
  declared : ∀ i, options.fields.toNat.testBit i = true → ∃ field : NetworkField, field.index = i
  absent : ∀ field : NetworkField, options.has field = false → field.IsZero options
  read : options.read = args

section Options

variable {args : NetworkArguments}

/-- The bits of the mask, one by one. -/
theorem testBit_fields (i : Nat) :
    (networkOptions args).fields.toNat.testBit i
      = (decide (i = 0 ∨ args.mode = networkNode ∧ i < 5)
        || args.bindHost.isSome && decide (1 = i)
        || args.advertiseHost.isSome && decide (2 = i)
        || args.bindPort != 0 && decide (3 = i)
        || args.advertisePort != 0 && decide (4 = i)) := by
  -- a network node names all five fields, any other policy its mode
  have hbase : (if args.mode = networkNode then 0x1f else 0x01 : UInt64).toNat.testBit i
      = decide (i = 0 ∨ args.mode = networkNode ∧ i < 5) := by
    by_cases hnode : args.mode = networkNode
    · rw [if_pos hnode]
      show (2 ^ 5 - 1).testBit i = _
      rw [Nat.testBit_two_pow_sub_one]
      simp only [hnode, true_and, decide_eq_decide]
      omega
    · rw [if_neg hnode]
      show (2 ^ 0).testBit i = _
      rw [Nat.testBit_two_pow]
      simp only [hnode, false_and, or_false, decide_eq_decide]
      omega
  unfold networkOptions
  simp only
  rw [testBit_addField (k := 4) rfl, testBit_addField (k := 3) rfl, testBit_addField (k := 2) rfl,
    testBit_addField (k := 1) rfl, hbase]

/-- The fields that Core finds in the mask: `bindPort` stands or falls with the other host, and
`advertiseHost` with the other port. -/
theorem has_iff (field : NetworkField) :
    (networkOptions args).has field = true ↔ args.mode = networkNode ∨ match field with
      | .mode => True
      | .bindHost => args.bindHost ≠ none
      | .bindPort => args.advertiseHost ≠ none
      | .advertiseHost => args.bindPort ≠ 0
      | .advertisePort => args.advertisePort ≠ 0 := by
  unfold NetworkOptions.has
  rw [testBit_fields]
  cases field <;> simp [NetworkField.index, Option.isSome_iff_ne_none]

/-- The bridge sets declared bits only. -/
theorem declared_of_testBit {i : Nat} (h : (networkOptions args).fields.toNat.testBit i = true) :
    ∃ field : NetworkField, field.index = i := by
  have hi : i < 5 := by
    rw [testBit_fields] at h
    simp only [Bool.or_eq_true, Bool.and_eq_true, decide_eq_true_eq] at h
    omega
  match i with
  | 0 => exact ⟨.mode, rfl⟩
  | 1 => exact ⟨.bindHost, rfl⟩
  | 2 => exact ⟨.bindPort, rfl⟩
  | 3 => exact ⟨.advertiseHost, rfl⟩
  | 4 => exact ⟨.advertisePort, rfl⟩

/-- The bits of the two crossed fields are set together. -/
def Uncrossed (args : NetworkArguments) : Prop :=
  args.mode = networkNode ∨ (args.bindPort ≠ 0 ↔ args.advertiseHost ≠ none)

/-- Where no bit is crossed, the mask names what it should. -/
theorem Uncrossed.has_iff (h : Uncrossed args) (field : NetworkField) :
    (networkOptions args).has field = true ↔ args.mode = networkNode ∨ field.Supplied args := by
  rw [Transport.has_iff]
  rcases h with hnode | hports
  · simp only [hnode, true_or]
  · -- the two crossed fields are the only ones that have to be looked at
    cases field with
    | bindPort => rw [NetworkField.Supplied, hports]
    | advertiseHost => rw [NetworkField.Supplied, ← hports]
    | _ => rfl

/-- What is not supplied is zero, in the arguments and in the options. -/
theorem isZero_of_not_supplied {field : NetworkField} (h : ¬ field.Supplied args) :
    field.IsZero (networkOptions args) := by
  cases field with
  | mode => exact absurd trivial h
  | _ => exact not_not.mp h

/-- A mask that leaves out only what is zero loses nothing. -/
theorem read_networkOptions (h : ∀ field : NetworkField,
    (networkOptions args).has field = false → field.IsZero (networkOptions args)) :
    (networkOptions args).read = args := by
  have hvalue : ∀ {α : Type} (field : NetworkField) (value zero : α),
      (field.IsZero (networkOptions args) → value = zero) →
      (if (networkOptions args).has field then value else zero) = value := by
    intro α field value zero hzero
    cases hhas : (networkOptions args).has field with
    | true => rfl
    | false => exact (hzero (h field hhas)).symm
  unfold NetworkOptions.read
  rw [hvalue .mode _ _ id, hvalue .bindHost _ _ id, hvalue .bindPort _ _ id,
    hvalue .advertiseHost _ _ id, hvalue .advertisePort _ _ id]
  rfl

end Options

/-- **What reaches Core.** The options that `coakka_swift_runtime_apply_network` sends encode the
presence of the fields exactly if the policy is a network node's, or supplies both or none of
`bind_port` and `advertise_host`: the bridge sets the bit of the one for the other. -/
theorem runtimeApplyNetwork_encodes_iff {Runtime : Type} (apply : Runtime → NetworkOptions → Int32)
    (runtime : Runtime) (args : NetworkArguments) :
    (∀ options, (runtimeApplyNetwork (some apply) (some runtime) args).1 = some options →
      EncodesPresence args options) ↔
    args.mode = networkNode ∨ (args.bindPort ≠ 0 ↔ args.advertiseHost ≠ none) := by
  constructor
  · intro h
    -- the bit of `bindPort` tells whether there is an `advertiseHost`
    have hmask := (h _ rfl).mask .bindPort
    rw [has_iff] at hmask
    by_cases hnode : args.mode = networkNode
    · exact .inl hnode
    · simp only [hnode, false_or] at hmask
      exact .inr hmask.symm
  · intro h options hsent
    obtain rfl := Option.some.inj hsent
    have hhas := Uncrossed.has_iff h
    have habsent : ∀ field : NetworkField, (networkOptions args).has field = false →
        field.IsZero (networkOptions args) := by
      intro field hclear
      apply isZero_of_not_supplied
      intro hsupplied
      rw [(hhas field).mpr (.inr hsupplied)] at hclear
      cases hclear
    exact ⟨hhas, fun _ => declared_of_testBit, habsent, read_networkOptions habsent⟩

/-- An outbound-only policy with a bind port: Core is told that there is a host to advertise, which
is `NULL`, and finds a port that the mask does not name. -/
theorem not_runtimeApplyNetwork_encodes :
    ¬ ∀ (args : NetworkArguments) options,
      (runtimeApplyNetwork (some fun (_ : Unit) _ => Status.ok) (some ()) args).1 = some options →
      EncodesPresence args options := by
  intro h
  have hmask := (h ⟨2, none, 7711, none, 0⟩ _ rfl).mask .bindPort
  have hsupplied : (7711 : UInt16) ≠ 0 := by decide
  exact absurd (hmask.mpr (.inr hsupplied)) (by decide)

end CoAkka.Transport
