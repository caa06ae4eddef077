import CoAkkaRuntime.Throwing.Exec
import CoAkkaRuntime.Transport.StartupOptions

/-!
# Transport — what the security options say

The options of `applySecurity`, read as Core reads them: only where the mask `fields` has the bit
that `runtime_transport_config.h` declares. A secured mode names every field, plaintext names the
fields that differ from their defaults; either way the options say what the spec says, and nothing
that a caller asked for is left out.

* `fields_of_secured`, `testBit_fields` — the mask, in either kind of mode.
* `numbers_options`, `texts_options` — the values that the mask names.
* `encodes_options` — both in one statement, and `options_inj` that different specs are sent
  differently.
-/

namespace CoAkka.Transport

/-! ## Core's reading -/

inductive SecurityField where
  | mode
  | credentialSource
  | reloadMode
  | credentialGeneration
  | credentialID
  | caCertificateFile
  | identityCertificateFile
  | privateKeyFile
  deriving DecidableEq

namespace SecurityField

/-- The exponents of the `COAKKA_V2_TCP_SECURITY_FIELD_*` bits. -/
def index : SecurityField → Nat
  | .mode => 0
  | .credentialSource => 1
  | .reloadMode => 2
  | .credentialGeneration => 3
  | .credentialID => 4
  | .caCertificateFile => 5
  | .identityCertificateFile => 6
  | .privateKeyFile => 7

/-- The value of the field is zero or `NULL`. -/
def IsZero (options : TcpSecurityOptions) : SecurityField → Prop
  | .mode => options.mode = 0
  | .credentialSource => options.credentialSourceKind = 0
  | .reloadMode => options.reloadMode = 0
  | .credentialGeneration => options.credentialGeneration = 0
  | .credentialID => options.credentialID = none
  | .caCertificateFile => options.caCertificateFile = none
  | .identityCertificateFile => options.identityCertificateFile = none
  | .privateKeyFile => options.privateKeyFile = none

end SecurityField

namespace TcpSecurityOptions

variable (options : TcpSecurityOptions)

/-- The mask names the field. -/
def has (field : SecurityField) : Bool := options.fields.toNat.testBit field.index

/-- A text through the mask: without its bit it is empty, with its bit it must be there. -/
def readText (present : Bool) (text : Option CString) : Option String :=
  if present then text.bind (·.text?) else some ""

/-- The spec in the options, of which only the fields that the mask names are read. -/
def read : Option TcpSecuritySpec := do
  let credentialID ← readText (options.has .credentialID) options.credentialID
  let caCertificateFile ← readText (options.has .caCertificateFile) options.caCertificateFile
  let identityCertificateFile ←
    readText (options.has .identityCertificateFile) options.identityCertificateFile
  let privateKeyFile ← readText (options.has .privateKeyFile) options.privateKeyFile
  return {
    mode := if options.has .mode then options.mode else 0
    reloadMode := if options.has .reloadMode then options.reloadMode else 0
    credentialGeneration :=
      if options.has .credentialGeneration then options.credentialGeneration else 0
    credentialID, caCertificateFile, identityCertificateFile, privateKeyFile }

end TcpSecurityOptions

/-! ## The spec -/

namespace TcpSecuritySpec

variable (spec : TcpSecuritySpec)

/-- The strings that reach C. -/
def strings : List String :=
  [spec.credentialID, spec.caCertificateFile, spec.identityCertificateFile, spec.privateKeyFile]

/-- No string contains NUL. -/
def NulFree : Prop := ∀ value ∈ spec.strings, 0 ∉ value.toByteArray.data.toList

/-- The caller asks for more than the default of the field; a file path asks for its source. -/
def asks : SecurityField → Bool
  | .mode => true
  | .credentialSource => !spec.caCertificateFile.isEmpty || !spec.identityCertificateFile.isEmpty ||
      !spec.privateKeyFile.isEmpty
  | .reloadMode => spec.reloadMode != 0
  | .credentialGeneration => spec.credentialGeneration != 0
  | .credentialID => !spec.credentialID.isEmpty
  | .caCertificateFile => !spec.caCertificateFile.isEmpty
  | .identityCertificateFile => !spec.identityCertificateFile.isEmpty
  | .privateKeyFile => !spec.privateKeyFile.isEmpty

/-- Plaintext, and nothing else. -/
def plaintext : TcpSecuritySpec := ⟨0, 0, 0, "", "", "", ""⟩

/-- Texts without NUL are all that is asked for. -/
theorem validate_of_nulFree (h : spec.NulFree) : spec.validate = .ok () := by
  apply Throwing.forM_eq_ok_iff.mpr
  rintro ⟨name, value⟩ hmem
  have hvalue : value ∈ spec.strings := List.mem_map_of_mem (f := Prod.snd) hmem
  exact if_neg (mt List.contains_iff_mem.mp (h value hvalue))

/-- A NUL is refused, and the error names the field. -/
theorem validate_of_not_nulFree (h : ¬ spec.NulFree) :
    ∃ name : String, spec.validate = .error (.invalidArgument s!"{name} must not contain NUL") := by
  cases hvalidate : spec.validate with
  | ok =>
    exfalso
    apply h
    have hall := Throwing.forM_eq_ok_iff.mp hvalidate
    intro value hvalue hnul
    obtain ⟨field, hmem, rfl⟩ : ∃ field ∈ [("credentialID", spec.credentialID),
        ("caCertificateFile", spec.caCertificateFile),
        ("identityCertificateFile", spec.identityCertificateFile),
        ("privateKeyFile", spec.privateKeyFile)], field.2 = value := List.mem_map.mp hvalue
    have hfield := hall field hmem
    rw [if_pos (List.contains_iff_mem.mpr hnul)] at hfield
    cases hfield
  | error e =>
    obtain ⟨field, -, herror⟩ := Throwing.exists_of_forM_eq_error hvalidate
    split at herror
    · exact ⟨field.1, by rw [← Except.error.inj herror]⟩
    · cases herror

/-! ## The mask

A secured mode sets all its bits at once; plaintext sets them one by one.
-/

/-- A secured mode marks every field. -/
theorem fields_of_secured (h : spec.mode ≠ 0) : spec.options.fields = 0xff := by
  unfold options
  rw [if_pos h]

/-- The bits of the mask, one by one. -/
theorem testBit_fields (i : Nat) :
    spec.options.fields.toNat.testBit i = if spec.mode ≠ 0 then decide (i < 8) else
      (decide (0 = i)
        || spec.asks .reloadMode && decide (2 = i)
        || spec.asks .credentialGeneration && decide (3 = i)
        || spec.asks .credentialID && decide (4 = i)
        || spec.asks .credentialSource && decide (1 = i)
        || spec.asks .caCertificateFile && decide (5 = i)
        || spec.asks .identityCertificateFile && decide (6 = i)
        || spec.asks .privateKeyFile && decide (7 = i)) := by
  by_cases hmode : spec.mode ≠ 0
  · -- a secured mode names all eight fields
    rw [fields_of_secured spec hmode, if_pos hmode]
    show (2 ^ 8 - 1).testBit i = _
    rw [Nat.testBit_two_pow_sub_one]
  · have hbase : (0x01 : UInt64).toNat.testBit i = decide (0 = i) := by
      show (2 ^ 0).testBit i = _
      rw [Nat.testBit_two_pow]
    unfold options
    rw [if_neg hmode, if_neg hmode]
    simp only
    rw [testBit_addField (k := 7) rfl, testBit_addField (k := 6) rfl, testBit_addField (k := 5) rfl,
      testBit_addField (k := 1) rfl, testBit_addField (k := 4) rfl, testBit_addField (k := 3) rfl,
      testBit_addField (k := 2) rfl, hbase]
    rfl

/-- A field is marked where the mode is secured or it was given. -/
theorem has_options (field : SecurityField) :
    spec.options.has field = (spec.mode != 0 || spec.asks field) := by
  unfold TcpSecurityOptions.has
  rw [testBit_fields]
  by_cases hmode : spec.mode ≠ 0
  · rw [if_pos hmode, bne_iff_ne.mpr hmode]
    cases field <;> rfl
  · rw [if_neg hmode, not_not.mp hmode]
    cases field <;> simp [SecurityField.index, asks]

/-- Only declared bits are set. -/
theorem declared_of_testBit {i : Nat} (h : spec.options.fields.toNat.testBit i = true) :
    ∃ field : SecurityField, field.index = i := by
  have hi : i < 8 := by
    rw [testBit_fields] at h
    split at h
    · exact of_decide_eq_true h
    · simp only [Bool.or_eq_true, Bool.and_eq_true, decide_eq_true_eq] at h
      omega
  match i with
  | 0 => exact ⟨.mode, rfl⟩
  | 1 => exact ⟨.credentialSource, rfl⟩
  | 2 => exact ⟨.reloadMode, rfl⟩
  | 3 => exact ⟨.credentialGeneration, rfl⟩
  | 4 => exact ⟨.credentialID, rfl⟩
  | 5 => exact ⟨.caCertificateFile, rfl⟩
  | 6 => exact ⟨.identityCertificateFile, rfl⟩
  | 7 => exact ⟨.privateKeyFile, rfl⟩

/-! ## The values

Where the mask names a field, the options hold the value of the spec; elsewhere the spec has the
default.
-/

/-- What the mask does not name is zero. -/
theorem isZero_of_has {field : SecurityField} (h : spec.options.has field = false) :
    field.IsZero spec.options := by
  rw [has_options, Bool.or_eq_false_iff, bne_eq_false_iff_eq] at h
  obtain ⟨hmode, hasks⟩ := h
  have hplain : ¬ spec.mode ≠ 0 := not_not.mpr hmode
  unfold options
  rw [if_neg hplain]
  cases field <;> simp_all [asks, SecurityField.IsZero]

/-- Credentials come from files. -/
theorem credentialSourceKind_of_has (h : spec.options.has .credentialSource = true) :
    spec.options.credentialSourceKind = 1 := by
  rw [has_options] at h
  unfold options
  split
  · rfl
  · next hplain =>
    rw [not_not.mp hplain] at h
    exact if_pos h

/-- A number is sent as it is. -/
theorem numbers_options : spec.options.mode = spec.mode ∧
    spec.options.reloadMode = spec.reloadMode ∧
    spec.options.credentialGeneration = spec.credentialGeneration := by
  unfold options
  split
  · exact ⟨rfl, rfl, rfl⟩
  · simp [eq_comm]

/-- A text is sent where the mask names it. -/
theorem texts_options :
    spec.options.credentialID
      = (if spec.options.has .credentialID then some (cString spec.credentialID) else none) ∧
    spec.options.caCertificateFile
      = (if spec.options.has .caCertificateFile then some (cString spec.caCertificateFile)
          else none) ∧
    spec.options.identityCertificateFile
      = (if spec.options.has .identityCertificateFile
          then some (cString spec.identityCertificateFile) else none) ∧
    spec.options.privateKeyFile
      = (if spec.options.has .privateKeyFile then some (cString spec.privateKeyFile)
          else none) := by
  simp only [has_options, asks]
  unfold options
  by_cases hmode : spec.mode = 0
  · simp [hmode]
  · simp [hmode]

/-- A text is empty where the mask does not name it. -/
theorem readText_named {present : Bool} {value : String}
    (hnul : 0 ∉ value.toByteArray.data.toList) (habsent : present = false → value = "") :
    TcpSecurityOptions.readText present (if present then some (cString value) else none)
      = some value := by
  cases present with
  | true => exact text?_cString hnul
  | false =>
    rw [habsent rfl]
    rfl

theorem readNumber_named {α : Type} {present : Bool} {value zero : α}
    (habsent : present = false → value = zero) : (if present then value else zero) = value := by
  cases present with
  | true => rfl
  | false => exact (habsent rfl).symm

/-- What the mask does not name was not asked for. -/
theorem asks_of_has {field : SecurityField} (h : spec.options.has field = false) :
    spec.asks field = false := by
  rw [has_options] at h
  exact (Bool.or_eq_false_iff.mp h).2

/-- **Reading loses nothing.** -/
theorem read_options (h : spec.NulFree) : spec.options.read = some spec := by
  obtain ⟨hmode, hreload, hgeneration⟩ := spec.numbers_options
  obtain ⟨hid, hca, hidentity, hkey⟩ := spec.texts_options
  have hempty : ∀ {field : SecurityField} {value : String}, (spec.asks field = !value.isEmpty) →
      spec.options.has field = false → value = "" := by
    intro field value hasks hhas
    rw [spec.asks_of_has hhas, eq_comm, Bool.not_eq_false', String.isEmpty_iff] at hasks
    exact hasks
  have hzero : ∀ field : SecurityField, spec.options.has field = false →
      field.IsZero spec.options := fun _ => spec.isZero_of_has
  unfold TcpSecurityOptions.read
  rw [hid, hca, hidentity, hkey,
    readText_named (h _ (by simp [strings])) (hempty rfl),
    readText_named (h _ (by simp [strings])) (hempty rfl),
    readText_named (h _ (by simp [strings])) (hempty rfl),
    readText_named (h _ (by simp [strings])) (hempty rfl),
    readNumber_named (hzero .mode), readNumber_named (hzero .reloadMode),
    readNumber_named (hzero .credentialGeneration), hmode, hreload, hgeneration]
  rfl

/-- Options that name their mode only are plaintext's, without anything else. -/
theorem eq_plaintext_of_fields (h : spec.NulFree) (hfields : spec.options.fields = 0x01) :
    spec = plaintext := by
  have hmask : ∀ field, field ≠ .mode → spec.options.has field = false := by
    intro field hfield
    unfold TcpSecurityOptions.has
    rw [hfields]
    cases field <;> first | rfl | exact absurd rfl hfield
  have hmode : spec.options.mode = 0 := by
    have hhas := hmask .reloadMode (by decide)
    rw [has_options, Bool.or_eq_false_iff, bne_eq_false_iff_eq] at hhas
    rw [spec.numbers_options.1, hhas.1]
  have hread := spec.read_options h
  unfold TcpSecurityOptions.read at hread
  rw [hmask .reloadMode (by decide), hmask .credentialGeneration (by decide),
    hmask .credentialID (by decide), hmask .caCertificateFile (by decide),
    hmask .identityCertificateFile (by decide), hmask .privateKeyFile (by decide), hmode,
    ite_self] at hread
  exact (Option.some.inj hread).symm

end TcpSecuritySpec

/-! ## What is sent is what was asked for -/

/-- The options say what the spec says: the mask names the fields of a secured mode and the fields
that the caller asks for, what it does not name is zero, and Core reads the spec. -/
structure EncodesSecurity (spec : TcpSecuritySpec) (options : TcpSecurityOptions) : Prop where
  mask : ∀ field, options.has field = (spec.mode != 0 || spec.asks field)
  declared : ∀ i, options.fields.toNat.testBit i = true → ∃ field : SecurityField, field.index = i
  secured : spec.mode ≠ 0 → options.fields = 0xff
  absent : ∀ field : SecurityField, options.has field = false → field.IsZero options
  reserved : options.reserved = 0
  /-- Credentials come from files. -/
  kind : options.has .credentialSource = true → options.credentialSourceKind = 1
  read : options.read = some spec
  /-- Only plaintext without anything else is sent as plaintext without anything else. -/
  plain : options.fields = 0x01 → spec = .plaintext

namespace TcpSecuritySpec

/-- Every field of the record, marked or not. -/
theorem encodes_options {spec : TcpSecuritySpec} (h : spec.NulFree) :
    EncodesSecurity spec spec.options where
  mask := spec.has_options
  declared _ := spec.declared_of_testBit
  secured := spec.fields_of_secured
  absent _ := spec.isZero_of_has
  reserved := by
    unfold options
    split <;> rfl
  kind := spec.credentialSourceKind_of_has
  read := spec.read_options h
  plain := spec.eq_plaintext_of_fields h

/-- Options of different specs differ. -/
theorem options_inj {spec spec' : TcpSecuritySpec} (h : spec.NulFree) (h' : spec'.NulFree)
    (heq : spec.options = spec'.options) : spec = spec' := by
  have hread := spec.read_options h
  rw [heq, spec'.read_options h'] at hread
  exact (Option.some.inj hread).symm

end TcpSecuritySpec

end CoAkka.Transport
