import CoAkkaRuntime.Codec.EnvelopeSpec

/-!
# Codec — what `decodeDeadletter` accepts and projects

`decodeDeadletter` reads the same field sequences with its own `switch`: field 1 nests a whole
envelope, field 2 is the reason, field 3 the detail. A nested envelope has to decode even when
a later one overwrites it; the reason's range is checked once, on the last value; and the
caller's `reasonName` runs after the frame has parsed, for an in-range code only.

* `FrameOf`, `DeadletterOf` — the fields of a frame and what they say, as relations on field lists.
* `deadletterField_spec` — one field of the loop, one case per field number.
* `decodeDeadletter_inRange`, `decodeDeadletter_outOfRange`, `decodeDeadletter_malformed` — the
  three ends.
* `decodeDeadletter_accepts_and_projects` — all of them as one equivalence over all buffers.

The envelope inside is decoded when its field is met, so that a malformed one is refused even where
a later field replaces it. The reason code is checked after the loop, so that only the last counts.
-/

namespace CoAkka.Codec

open Base128

/-! ## The `switch` of `decodeDeadletter` -/

/-- The accumulator of `decodeDeadletter` after one field. -/
def absorbDeadletter : Absorb DeadletterFields := fun fields number body =>
  match number with
  | 1 => (bodyData body).bind fun content =>
      (decodeEnvelope content).toOption.map fun original => { fields with original }
  | 2 => (bodyValue body).map fun reason => { fields with reason }
  | 3 => (bodyText body).map fun detail => { fields with detail }
  | _ => some fields

/-- The numbers `decodeDeadletter` has a case for. -/
def isDeadletterNumber (number : Nat) : Bool := number ∈ [1, 2, 3]

/-- A field that is none of a dead letter's is skipped. -/
theorem deadletterField_default {number : Nat} (hnumber : isDeadletterNumber number = false)
    (type : Nat) (fields : DeadletterFields) :
    deadletterField ⟨number, type⟩ fields = (do FieldReader.skip type; return fields) := by
  unfold deadletterField
  split <;> simp_all [isDeadletterNumber]

theorem absorbDeadletter_default {number : Nat} (hnumber : isDeadletterNumber number = false)
    (fields : DeadletterFields) (body : Body) :
    absorbDeadletter fields number body = some fields := by
  unfold absorbDeadletter
  split <;> simp_all [isDeadletterNumber]

theorem deadletterNumber_cases (number : Nat) :
    number = 1 ∨ number = 2 ∨ number = 3 ∨ isDeadletterNumber number = false := by
  simp only [isDeadletterNumber, List.mem_cons, List.not_mem_nil, or_false, decide_eq_false_iff_not]
  omega

/-- **The dispatch of a dead letter's fields reads a field and takes over its body**, number by
number. -/
theorem deadletterField_spec : FieldSpec absorbDeadletter deadletterField := by
  rintro ⟨number, type⟩ fields
  rcases deadletterNumber_cases number with rfl | rfl | rfl | hdefault
  · -- the nested envelope: its own decoder only ever returns or throws
    refine (readBytes_body type).bodyAs_bind fun content => ?_
    rcases decodeEnvelope_total content with ⟨original, h⟩ | ⟨error, h⟩
    · have hpure : Reads (fun b seg => some { fields with original } = some b ∧ seg = [])
          (Pure.pure { fields with original }) :=
        (Reads.pure { fields with original }).congr
          fun b seg _ => by rw [Option.some.injEq, eq_comm]
      simpa only [h, Except.toOption, Option.map_some] using hpure
    · simp only [h, Except.toOption, Option.map_none]
      exact fun r hr => .throw hr fun _ _ _ _ hnone => absurd hnone.1 (by simp)
  · exact (readVarint_body type).bodyAs_map _
  · exact (readString_body type).bodyAs_map _
  · rw [deadletterField_default hdefault]
    simp only [absorbDeadletter_default hdefault]
    exact (skip_body type).bodyAs_map fun _ => fields

/-! ## The grammar and the projection

A frame is a sequence of fields whose bodies can be read where their number is known; what it says
is a function of the fields.
-/

/-- The fields `decodeDeadletter` accepts: field 1 holds an envelope `decodeEnvelope` accepts,
field 2 a varint, field 3 UTF-8 text, and any other number anything at all. -/
structure DeadletterField (f : Field) : Prop where
  original : f.number = 1 → ∃ content : Data, f.content? = some content.bytes ∧
    ∃ envelope, decodeEnvelope content = .ok envelope
  reason : f.number = 2 → f.varint?.isSome
  detail : f.number = 3 →
    ∃ content, f.content? = some content ∧ (⟨content.toArray⟩ : ByteArray).IsValidUTF8

/-- The last value of field 2, zero when there is none. -/
def lastReason (fields : List Field) : Nat := (lastOf Field.varint? 2 fields).getD 0

/-- `envelope` is what the last field 1 decodes to, or the default envelope. -/
def OriginalOf (fields : List Field) (envelope : RuntimeEnvelope) : Prop :=
  match lastOf Field.content? 1 fields with
  | none => envelope = {}
  | some bytes => ∃ content : Data, content.bytes = bytes ∧ decodeEnvelope content = .ok envelope

/-- The last occurrence of each of the three fields, or its default. -/
structure DeadletterOf (fields : List Field) (state : DeadletterFields) : Prop where
  original : OriginalOf fields state.original
  reason : state.reason.toNat = lastReason fields
  detail : state.detail.toByteArray.data.toList = (lastOf Field.content? 3 fields).getD []

theorem deadletterOf_nil : DeadletterOf [] {} := by
  constructor <;> rfl

/-- One absorbed field becomes the last occurrence of its number. -/
theorem DeadletterOf.concat {fields : List Field} {state state' : DeadletterFields}
    (h : DeadletterOf fields state) {f : Field}
    (hf : absorbDeadletter state f.number f.body = some state') :
    DeadletterOf (fields ++ [f]) state' := by
  obtain ⟨horiginal, hreason, hdetail⟩ := h
  rcases deadletterNumber_cases f.number with hn | hn | hn | hdefault
  · rw [hn] at hf
    obtain ⟨content, hdata, hf⟩ := Option.bind_eq_some_iff.mp hf
    obtain ⟨original, hok, rfl⟩ := Option.map_eq_some_iff.mp hf
    have hcontent := content?_of_bodyData hdata
    refine ⟨?_, by simpa [lastReason, lastOf_concat, hn] using hreason,
      by simpa [lastOf_concat, hn] using hdetail⟩
    rw [OriginalOf, lastOf_concat, if_pos hn, hcontent]
    refine ⟨content, rfl, ?_⟩
    cases hdecode : decodeEnvelope content with
    | ok envelope => simpa [hdecode, Except.toOption] using hok
    | error fault => simp [hdecode, Except.toOption] at hok
  · rw [hn] at hf
    obtain ⟨value, hvalue, rfl⟩ := Option.map_eq_some_iff.mp hf
    have hvarint := varint?_of_bodyValue hvalue
    exact ⟨by simpa [OriginalOf, lastOf_concat, hn] using horiginal,
      by simp [lastReason, lastOf_concat, hn, hvarint],
      by simpa [lastOf_concat, hn] using hdetail⟩
  · rw [hn] at hf
    obtain ⟨text, htext, rfl⟩ := Option.map_eq_some_iff.mp hf
    have hcontent := content?_of_bodyText htext
    exact ⟨by simpa [OriginalOf, lastOf_concat, hn] using horiginal,
      by simpa [lastReason, lastOf_concat, hn] using hreason,
      by simp [lastOf_concat, hn, hcontent]⟩
  · rw [absorbDeadletter_default hdefault, Option.some.injEq] at hf
    subst hf
    have hne : ∀ n, isDeadletterNumber n = true → f.number ≠ n :=
      fun n hn heq => by rw [heq, hn] at hdefault; simp at hdefault
    exact ⟨by rw [OriginalOf, lastOf_concat, if_neg (hne 1 rfl)]; exact horiginal,
      by rw [lastReason, lastOf_concat, if_neg (hne 2 rfl)]; exact hreason,
      by rw [lastOf_concat, if_neg (hne 3 rfl)]; exact hdetail⟩

/-- Absorbing a sequence of fields, whatever was absorbed before it. Induction on the sequence. -/
theorem DeadletterOf.append {before fields : List Field} {state state' : DeadletterFields}
    (h : DeadletterOf before state) (hfields : absorbDeadletter.fields state fields = some state') :
    DeadletterOf (before ++ fields) state' := by
  induction fields generalizing before state with
  | nil =>
    rw [Absorb.fields_nil, Option.some.injEq] at hfields
    rw [List.append_nil, ← hfields]
    exact h
  | cons f fields ih =>
    rw [Absorb.fields_cons] at hfields
    obtain ⟨state₁, hf, hrest⟩ := Option.bind_eq_some_iff.mp hfields
    have := ih (h.concat hf) hrest
    rwa [List.append_assoc, List.singleton_append] at this

/-! ## Which fields are absorbed -/

/-- The nested envelope is taken over exactly where its content decodes. -/
theorem isSome_nested_iff {f : Field} (hsmall : f.wire.length < 2 ^ 63) (state : DeadletterFields) :
    ((bodyData f.body).bind fun content =>
        (decodeEnvelope content).toOption.map fun original => { state with original }).isSome
      ↔ ∃ content : Data, f.content? = some content.bytes ∧
          ∃ envelope, decodeEnvelope content = .ok envelope := by
  cases hdata : bodyData f.body with
  | none =>
    have hnone : ¬ f.content?.isSome := by simp [← isSome_bodyData_iff hsmall, hdata]
    constructor
    · intro h; simp at h
    · rintro ⟨content, hcontent, _⟩
      exact absurd (by simp [hcontent]) hnone
  | some content =>
    rw [Option.bind_some, Option.isSome_map, content?_of_bodyData hdata]
    constructor
    · intro h
      cases hdecode : decodeEnvelope content with
      | ok envelope => exact ⟨content, rfl, envelope, hdecode⟩
      | error fault => simp [hdecode, Except.toOption] at h
    · rintro ⟨content', hcontent, envelope, hdecode⟩
      obtain rfl := Data.ext (Option.some.inj hcontent)
      simp [hdecode, Except.toOption]

/-- A field is taken over exactly where it has the wire type and the content of its number. -/
theorem isSome_absorbDeadletter_iff {f : Field} (hsmall : f.wire.length < 2 ^ 63)
    (state : DeadletterFields) :
    (absorbDeadletter state f.number f.body).isSome ↔ DeadletterField f := by
  have hfield : DeadletterField f ↔
      (f.number = 1 → ((bodyData f.body).bind fun content =>
        (decodeEnvelope content).toOption.map fun original => { state with original }).isSome) ∧
      (f.number = 2 → (bodyValue f.body).isSome) ∧ (f.number = 3 → (bodyText f.body).isSome) := by
    rw [isSome_nested_iff hsmall, isSome_bodyValue_iff, isSome_bodyText_iff hsmall]
    exact ⟨fun h => ⟨h.original, h.reason, h.detail⟩, fun ⟨h1, h2, h3⟩ => ⟨h1, h2, h3⟩⟩
  rw [hfield]
  rcases deadletterNumber_cases f.number with hn | hn | hn | hdefault
  · simp [absorbDeadletter, hn]
  · simp [absorbDeadletter, hn]
  · simp [absorbDeadletter, hn]
  · have hne : ∀ n, isDeadletterNumber n = true → f.number ≠ n :=
      fun n hn heq => by rw [heq, hn] at hdefault; simp at hdefault
    simp [absorbDeadletter_default hdefault, hne 1 rfl, hne 2 rfl, hne 3 rfl]

/-- A sequence of fields is, where each of them is. -/
theorem isSome_absorbDeadletter_fields_iff {fields : List Field}
    (hsmall : (wire fields).length < 2 ^ 63) (state : DeadletterFields) :
    (absorbDeadletter.fields state fields).isSome ↔ ∀ f ∈ fields, DeadletterField f := by
  induction fields generalizing state with
  | nil => simp [Absorb.fields_nil]
  | cons f fields ih =>
    rw [wire_cons, List.length_append] at hsmall
    have hf := isSome_absorbDeadletter_iff (f := f) (by omega) state
    rw [Absorb.fields_cons, List.forall_mem_cons]
    cases habsorb : absorbDeadletter state f.number f.body with
    | none =>
      rw [habsorb] at hf
      simp only [Option.isSome_none, Bool.false_eq_true, false_iff] at hf
      simp [hf]
    | some state₁ =>
      rw [habsorb] at hf
      simp only [Option.isSome_some, true_iff] at hf
      rw [Option.bind_some, ih (by omega)]
      simp [hf]

/-! ## `decodeDeadletter`

The loop, then the range check, then the name of the reason.
-/

/-- The fields of a buffer, when it is a deadletter frame. -/
structure FrameOf (data : Data) (fields : List Field) : Prop where
  wire_eq : wire fields = data.bytes
  allowed : ∀ f ∈ fields, DeadletterField f

/-- A buffer is the wire of one sequence of fields at most. -/
theorem FrameOf.unique {data : Data} {fields fields' : List Field} (h : FrameOf data fields)
    (h' : FrameOf data fields') : fields = fields' :=
  wire_injective (h.wire_eq.trans h'.wire_eq.symm)

/-- The loop of `decodeDeadletter` succeeds on the frames, and leaves the last occurrences. -/
theorem decodeFields_deadletter {data : Data} {state : DeadletterFields}
    (h : decodeFields deadletterField {} data = .ok state) :
    ∃ fields, FrameOf data fields ∧ DeadletterOf fields state := by
  obtain ⟨fields, hwire, habsorb⟩ := (decodeFields_ok_iff deadletterField_spec _ _ _).mp h
  have hsmall : (wire fields).length < 2 ^ 63 := by rw [hwire]; exact data.count_lt
  have hallowed := (isSome_absorbDeadletter_fields_iff hsmall {}).mp (by rw [habsorb]; rfl)
  exact ⟨fields, ⟨hwire, hallowed⟩, deadletterOf_nil.append habsorb⟩

/-- On a frame the loop does succeed. -/
theorem FrameOf.decodeFields_ok {data : Data} {fields : List Field} (h : FrameOf data fields) :
    ∃ state, decodeFields deadletterField {} data = .ok state := by
  have hsmall : (wire fields).length < 2 ^ 63 := by rw [h.wire_eq]; exact data.count_lt
  have hsome := (isSome_absorbDeadletter_fields_iff hsmall {}).mpr h.allowed
  obtain ⟨state, hstate⟩ := Option.isSome_iff_exists.mp hsome
  exact ⟨state, (decodeFields_ok_iff deadletterField_spec _ _ _).mpr ⟨fields, h.wire_eq, hstate⟩⟩

/-- The deadletter a successful decoding returns. -/
def DeadletterFields.project (fields : DeadletterFields) (code : UInt32) (name : String) :
    RuntimeDeadletter where
  reasonCode := code
  reason := name
  detail := fields.detail
  originalMessageID := fields.original.messageID
  originalSource := fields.original.source
  originalTarget := fields.original.target

def reasonRefusal : RuntimeError :=
  .invalidArgument "deadletter reason exceeds UInt32 representation"

/-- What a run of `decodeDeadletter` may do, and the codes `reasonName` is asked for in each
case. -/
inductive DeadletterRun (data : Data) (reasonName : UInt32 → Except RuntimeError String) :
    Except Fault RuntimeDeadletter × List UInt32 → Prop where
  | malformed (error : RuntimeError) (hno : ¬ ∃ fields, FrameOf data fields) :
      DeadletterRun data reasonName (.error (.thrown error), [])
  | outOfRange (fields : List Field) (hframe : FrameOf data fields)
      (hreason : 2 ^ 32 ≤ lastReason fields) :
      DeadletterRun data reasonName (.error (.thrown reasonRefusal), [])
  | unnamed (fields : List Field) (code : UInt32) (error : RuntimeError)
      (hframe : FrameOf data fields) (hcode : code.toNat = lastReason fields)
      (hname : reasonName code = .error error) :
      DeadletterRun data reasonName (.error (.thrown error), [code])
  | decoded (fields : List Field) (state : DeadletterFields) (code : UInt32) (name : String)
      (hframe : FrameOf data fields) (hstate : DeadletterOf fields state)
      (hcode : code.toNat = lastReason fields) (hname : reasonName code = .ok name) :
      DeadletterRun data reasonName (.ok (state.project code name), [code])

/-- How a decoding ends, by what the loop left and what the reason is. -/
theorem decodeDeadletter_run (data : Data) (reasonName : UInt32 → Except RuntimeError String) :
    DeadletterRun data reasonName (decodeDeadletter data reasonName) := by
  unfold decodeDeadletter decodeDeadletterM
  cases hfields : decodeFields deadletterField {} data with
  | error fault =>
    -- the loop failed, so the buffer is no sequence of admissible fields
    have hno : ¬ ∃ fields, FrameOf data fields := by
      rintro ⟨fields, hframe⟩
      obtain ⟨state, hstate⟩ := hframe.decodeFields_ok
      rw [hfields] at hstate
      cases hstate
    rcases decodeFields_total deadletterField_spec {} data with ⟨state, h⟩ | ⟨error, h⟩
    · rw [hfields] at h
      cases h
    · rw [hfields, Except.error.injEq] at h
      subst h
      exact .malformed error hno
  | ok state =>
    obtain ⟨fields, hframe, hstate⟩ := decodeFields_deadletter hfields
    -- the range check looks at the reason that was left by the whole loop
    by_cases hreason : state.reason.toNat < 2 ^ 32
    · have hcode : state.reason.toUInt32.toNat = lastReason fields := by
        rw [UInt64.toNat_toUInt32, Nat.mod_eq_of_lt hreason, hstate.reason]
      simp only [uint32Exactly, if_pos hreason]
      cases hname : reasonName state.reason.toUInt32 with
      | ok name =>
        have hrun := DeadletterRun.decoded fields state _ name hframe hstate hcode hname
        simp only [consult, hname]
        exact hrun
      | error error =>
        have hrun := DeadletterRun.unnamed fields _ error hframe hcode hname
        simp only [consult, hname]
        exact hrun
    · simp only [uint32Exactly, if_neg hreason]
      exact .outOfRange fields hframe (by rw [← hstate.reason]; omega)

/-- `letter` is the projection of a frame's fields: nothing but the last occurrence of each
field counts, and the reason is not narrowed. -/
structure LetterOf (reasonName : UInt32 → Except RuntimeError String) (fields : List Field)
    (letter : RuntimeDeadletter) : Prop where
  reasonCode : letter.reasonCode.toNat = lastReason fields
  reason : reasonName letter.reasonCode = .ok letter.reason
  detail : letter.detail.toByteArray.data.toList = (lastOf Field.content? 3 fields).getD []
  original : ∃ envelope, OriginalOf fields envelope ∧
    letter.originalMessageID = envelope.messageID ∧
    letter.originalSource = envelope.source ∧ letter.originalTarget = envelope.target

/-- The letter that is returned is made of the last occurrences and the reason's name. -/
theorem DeadletterOf.project {reasonName : UInt32 → Except RuntimeError String}
    {fields : List Field} {state : DeadletterFields} (h : DeadletterOf fields state)
    {code : UInt32} {name : String} (hcode : code.toNat = lastReason fields)
    (hname : reasonName code = .ok name) : LetterOf reasonName fields (state.project code name) :=
  ⟨hcode, hname, h.detail, state.original, h.original, rfl, rfl, rfl⟩

section Frame

variable {data : Data} {fields : List Field} (hframe : FrameOf data fields)
include hframe

/-- A frame whose reason fits is decoded as far as `reasonName` goes, which is asked for the
reason and nothing else. -/
theorem decodeDeadletter_inRange (hreason : lastReason fields < 2 ^ 32)
    (reasonName : UInt32 → Except RuntimeError String) :
    (decodeDeadletter data reasonName).2 = [UInt32.ofNat (lastReason fields)] ∧
    ((∃ letter, (decodeDeadletter data reasonName).1 = .ok letter)
      ↔ ∃ name, reasonName (UInt32.ofNat (lastReason fields)) = .ok name) := by
  have hcode : ∀ {fields' : List Field} {code : UInt32}, FrameOf data fields' →
      code.toNat = lastReason fields' → code = UInt32.ofNat (lastReason fields) := by
    intro fields' code hframe' h
    rw [hframe.unique hframe', ← h, UInt32.ofNat_toNat]
  have hrun := decodeDeadletter_run data reasonName
  generalize decodeDeadletter data reasonName = run at hrun
  cases hrun with
  | malformed error hno => exact absurd ⟨fields, hframe⟩ hno
  | outOfRange fields' hframe' hreason' =>
    rw [hframe.unique hframe'] at hreason
    omega
  | unnamed fields' code error hframe' hc hname =>
    obtain rfl := hcode hframe' hc
    refine ⟨rfl, fun ⟨_, h⟩ => by simp at h, fun ⟨name, h⟩ => ?_⟩
    rw [hname] at h
    cases h
  | decoded fields' state code name hframe' _ hc hname =>
    obtain rfl := hcode hframe' hc
    exact ⟨rfl, fun _ => ⟨name, hname⟩, fun _ => ⟨_, rfl⟩⟩

/-- A frame whose last reason does not fit is refused before `reasonName` is asked. -/
theorem decodeDeadletter_outOfRange (hreason : 2 ^ 32 ≤ lastReason fields)
    (reasonName : UInt32 → Except RuntimeError String) :
    decodeDeadletter data reasonName = (.error (.thrown reasonRefusal), []) := by
  have hrun := decodeDeadletter_run data reasonName
  have hbound : ∀ {fields' : List Field} {code : UInt32}, FrameOf data fields' →
      code.toNat = lastReason fields' → False := by
    intro fields' code hframe' h
    have := code.toNat_lt
    rw [hframe.unique hframe', ← h] at hreason
    omega
  generalize decodeDeadletter data reasonName = run at hrun ⊢
  cases hrun with
  | malformed error hno => exact absurd ⟨fields, hframe⟩ hno
  | outOfRange => rfl
  | unnamed _ _ _ hframe' hc => exact absurd (hbound hframe' hc) id
  | decoded _ _ _ _ hframe' _ hc => exact absurd (hbound hframe' hc) id

end Frame

/-- What is not a frame is refused before `reasonName` is asked. -/
theorem decodeDeadletter_malformed {data : Data} (hno : ¬ ∃ fields, FrameOf data fields)
    (reasonName : UInt32 → Except RuntimeError String) :
    ∃ error, decodeDeadletter data reasonName = (.error (.thrown error), []) := by
  have hrun := decodeDeadletter_run data reasonName
  generalize decodeDeadletter data reasonName = run at hrun ⊢
  cases hrun with
  | malformed error => exact ⟨error, rfl⟩
  | outOfRange fields hframe => exact absurd ⟨fields, hframe⟩ hno
  | unnamed fields _ _ hframe => exact absurd ⟨fields, hframe⟩ hno
  | decoded fields _ _ _ hframe => exact absurd ⟨fields, hframe⟩ hno

/-- The frame that holds the reason `r` and nothing else, canonically encoded. -/
def reasonField (r : UInt64) : Field :=
  .ofVarint 2 r.toNat (by decide) (by decide) r.toNat_lt

def reasonFrame (r : UInt64) : Data where
  bytes := wire [reasonField r]
  count_lt := by
    have htag := (Varint.ofNat (8 * 2) (by decide)).length_le
    have hbody := (Varint.ofNat r.toNat r.toNat_lt).length_le
    simp only [reasonField, Field.ofVarint, wire_cons, wire_nil, Field.wire, Body.wire,
      List.append_nil, List.length_append]
    omega

/-- A frame of a reason alone. -/
theorem frameOf_reasonFrame (r : UInt64) : FrameOf (reasonFrame r) [reasonField r] := by
  have hnumber : (reasonField r).number = 2 := by
    simp [Field.number, reasonField, Field.ofVarint, Varint.value_ofNat]
  refine ⟨rfl, fun f hf => ?_⟩
  obtain rfl := List.mem_singleton.mp hf
  exact ⟨fun h => by omega, fun _ => rfl, fun h => by omega⟩

theorem lastReason_reasonFrame (r : UInt64) : lastReason [reasonField r] = r.toNat := by
  have hnumber : (reasonField r).number = 2 := by
    simp [Field.number, reasonField, Field.ofVarint, Varint.value_ofNat]
  have hvarint : (reasonField r).varint? = some r.toNat := by
    simp [Field.varint?, reasonField, Field.ofVarint, Varint.value_ofNat]
  have hlast := lastOf_concat Field.varint? 2 [] (reasonField r)
  rw [List.nil_append, if_pos hnumber, hvarint, Option.some_or] at hlast
  rw [lastReason, hlast, Option.getD_some]

/-- **`decodeDeadletter` accepts exactly its grammar and never narrows a reason.** It succeeds
on the frames whose last reason fits a `UInt32` that `reasonName` knows, and throws on every
other buffer; on success the letter is the last-wins projection; `reasonName` is asked once, for
the in-range reason of a whole frame, or never. -/
theorem decodeDeadletter_accepts_and_projects (reasonName : UInt32 → Except RuntimeError String) :
    (∀ data : Data,
      ((∃ letter, (decodeDeadletter data reasonName).1 = .ok letter)
        ↔ ∃ fields, FrameOf data fields ∧ lastReason fields < 2 ^ 32 ∧
            ∃ name, reasonName (UInt32.ofNat (lastReason fields)) = .ok name) ∧
      ((¬ ∃ letter, (decodeDeadletter data reasonName).1 = .ok letter)
        → ∃ error, (decodeDeadletter data reasonName).1 = .error (.thrown error)) ∧
      (∀ fields letter, FrameOf data fields → (decodeDeadletter data reasonName).1 = .ok letter →
        LetterOf reasonName fields letter) ∧
      (∀ fields, FrameOf data fields → lastReason fields < 2 ^ 32 →
        (decodeDeadletter data reasonName).2 = [UInt32.ofNat (lastReason fields)]) ∧
      ((¬ ∃ fields, FrameOf data fields ∧ lastReason fields < 2 ^ 32)
        → (decodeDeadletter data reasonName).2 = [])) ∧
    (∀ r : UInt64,
      (r.toNat < 2 ^ 32 → (decodeDeadletter (reasonFrame r) reasonName).2 = [r.toUInt32] ∧
        ((∃ letter, (decodeDeadletter (reasonFrame r) reasonName).1 = .ok letter)
          ↔ ∃ name, reasonName r.toUInt32 = .ok name) ∧
        ∀ letter, (decodeDeadletter (reasonFrame r) reasonName).1 = .ok letter →
          letter.reasonCode.toNat = r.toNat) ∧
      (2 ^ 32 ≤ r.toNat →
        decodeDeadletter (reasonFrame r) reasonName = (.error (.thrown reasonRefusal), []))) := by
  -- each part is read off the three ends of a run
  have hletter : ∀ data fields letter, FrameOf data fields →
      (decodeDeadletter data reasonName).1 = .ok letter → LetterOf reasonName fields letter := by
    intro data fields letter hframe hok
    have hrun := decodeDeadletter_run data reasonName
    generalize decodeDeadletter data reasonName = run at hrun hok
    cases hrun with
    | malformed | outOfRange | unnamed => cases hok
    | decoded fields' state code name hframe' hstate hcode hname =>
      cases hok
      rw [hframe.unique hframe']
      exact hstate.project hcode hname
  refine ⟨fun data => ⟨⟨?_, ?_⟩, ?_, hletter data, ?_, ?_⟩, fun r => ⟨fun hr => ?_, fun hr => ?_⟩⟩
  · rintro ⟨letter, hok⟩
    have hrun := decodeDeadletter_run data reasonName
    generalize decodeDeadletter data reasonName = run at hrun hok
    cases hrun with
    | malformed | outOfRange | unnamed => cases hok
    | decoded fields state code name hframe hstate hcode hname =>
      refine ⟨fields, hframe, by rw [← hcode]; exact code.toNat_lt, name, ?_⟩
      rwa [← hcode, UInt32.ofNat_toNat]
  · rintro ⟨fields, hframe, hreason, hname⟩
    exact (decodeDeadletter_inRange hframe hreason reasonName).2.mpr hname
  · intro hno
    have hrun := decodeDeadletter_run data reasonName
    generalize decodeDeadletter data reasonName = run at hrun hno ⊢
    cases hrun with
    | malformed | outOfRange | unnamed => exact ⟨_, rfl⟩
    | decoded => exact absurd ⟨_, rfl⟩ hno
  · intro fields hframe hreason
    exact (decodeDeadletter_inRange hframe hreason reasonName).1
  · intro hno
    by_cases hframe : ∃ fields, FrameOf data fields
    · obtain ⟨fields, hframe⟩ := hframe
      have hreason : 2 ^ 32 ≤ lastReason fields :=
        Nat.le_of_not_lt fun h => hno ⟨fields, hframe, h⟩
      rw [decodeDeadletter_outOfRange hframe hreason]
    · obtain ⟨error, h⟩ := decodeDeadletter_malformed hframe reasonName
      rw [h]
  · -- the frame of a reason alone, for both sides of the range check
    have hframe := frameOf_reasonFrame r
    have hreason := lastReason_reasonFrame r
    have hcode : UInt32.ofNat r.toNat = r.toUInt32 := rfl
    have hin := decodeDeadletter_inRange hframe (by rw [hreason]; exact hr) reasonName
    rw [hreason, hcode] at hin
    refine ⟨hin.1, hin.2, fun letter hok => ?_⟩
    rw [(hletter _ _ _ hframe hok).reasonCode, hreason]
  · exact decodeDeadletter_outOfRange (frameOf_reasonFrame r)
      (by rw [lastReason_reasonFrame]; exact hr) reasonName

end CoAkka.Codec
