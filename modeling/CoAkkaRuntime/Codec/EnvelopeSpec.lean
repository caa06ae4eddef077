import CoAkkaRuntime.Codec.FieldLoop

/-!
# Codec — what `decodeEnvelope` accepts and projects

`decodeEnvelope` accepts a buffer exactly when it is a concatenation of complete fields in
which the fields it knows carry the bodies it expects (`EnvelopeField`). The envelope it returns
holds, for each known number, the body of the *last* such field or a default
(`EnvelopeOf`); no other field has any influence.

* `EnvelopeOf` — what a list of fields says of an envelope: each value is that of the last field
  with its number, and the default where there is none.
* `envelopeField_spec` — one turn of the loop against it, one case per field number.
* `decodeEnvelope_ok_iff` — a decode succeeds with an envelope exactly where the buffer is a
  sequence of admissible fields that say it.
* `decodeEnvelope_accepts_and_projects` — with the refusals, for every buffer.
-/

namespace CoAkka.Codec

open Base128

/-! ## Reading a body as a value -/

/-- A length-delimited body, as the `Data` that `readBytes` returns. -/
def bodyData (body : Body) : Option Data :=
  match body with
  | .bytes _ content _ => if h : content.length < 2 ^ 63 then some ⟨content, h⟩ else none
  | _ => none

/-- A length-delimited body, as the text that `readString` returns. -/
def bodyText (body : Body) : Option String := (bodyData body).bind Data.utf8?

/-- A varint body, as the `UInt64` that `readVarint` returns. -/
def bodyValue (body : Body) : Option UInt64 :=
  match body with
  | .varint v => some (UInt64.ofNat v.value)
  | _ => none

/-- A body of the announced type, read by `get`. -/
def bodyAs {α : Type} (get : Body → Option α) (type : Nat) : Grammar α := fun a seg =>
  ∃ body : Body, body.wireType = type ∧ body.wire = seg ∧ get body = some a

/-- Where a body ends is known from its bytes. -/
theorem bodyAs_prefixFree {α : Type} (get : Body → Option α) (type : Nat) :
    (bodyAs get type).PrefixFree := by
  rintro a b _ _ u v ⟨body, htype, rfl, ha⟩ ⟨body', htype', rfl, hb⟩ h
  obtain ⟨rfl, _⟩ := Body.append_inj (htype.trans htype'.symm) h
  exact ⟨Option.some.inj (ha.symm.trans hb), rfl⟩

/-- Length-delimited content is a body of bytes. -/
theorem bodyAs_bodyData (type : Nat) (content : Data) (seg : List UInt8) :
    bytesGrammar type content seg ↔ bodyAs bodyData type content seg := by
  constructor
  · rintro ⟨rfl, len, hlen, rfl⟩
    exact ⟨.bytes len content.bytes hlen, rfl, rfl, dif_pos content.count_lt⟩
  · rintro ⟨body, rfl, rfl, hdata⟩
    cases body with
    | bytes len raw hlen =>
      simp only [bodyData] at hdata
      split at hdata
      · rw [Option.some.injEq] at hdata
        subst hdata
        exact ⟨rfl, len, hlen, rfl⟩
      · simp at hdata
    | varint | fixed64 | fixed32 => simp [bodyData] at hdata

theorem bodyAs_bodyValue (type : Nat) (v : UInt64) (seg : List UInt8) :
    (type = 0 ∧ varintGrammar v seg) ↔ bodyAs bodyValue type v seg := by
  constructor
  · rintro ⟨rfl, g, rfl, hg⟩
    exact ⟨.varint g, rfl, rfl, by rw [bodyValue, hg, UInt64.ofNat_toNat]⟩
  · rintro ⟨body, rfl, rfl, hvalue⟩
    cases body with
    | varint g =>
      rw [bodyValue, Option.some.injEq] at hvalue
      refine ⟨rfl, g, rfl, ?_⟩
      rw [← hvalue, UInt64.toNat_ofNat']
      exact (Nat.mod_eq_of_lt g.value_lt_two_pow).symm
    | fixed64 | bytes | fixed32 => simp [bodyValue] at hvalue

/-- The three readers take a body of their kind and nothing else. -/
theorem readBytes_body (type : Nat) : Reads (bodyAs bodyData type) (FieldReader.readBytes type) :=
  (readBytes_reads type).congr fun content seg _ => bodyAs_bodyData type content seg

theorem readVarint_body (type : Nat) : Reads (bodyAs bodyValue type) (FieldReader.readVarint type) :=
  (readVarint_reads type).congr fun v seg _ => bodyAs_bodyValue type v seg

theorem readString_body (type : Nat) : Reads (bodyAs bodyText type) (FieldReader.readString type) := by
  refine (readString_reads type).congr fun text seg _ => ?_
  constructor
  · rintro ⟨content, hcontent, htext⟩
    obtain ⟨body, htype, hwire, hdata⟩ := (bodyAs_bodyData type content seg).mp hcontent
    exact ⟨body, htype, hwire, by rw [bodyText, hdata]; exact htext⟩
  · rintro ⟨body, htype, hwire, htext⟩
    obtain ⟨content, hdata, htext⟩ := Option.bind_eq_some_iff.mp htext
    exact ⟨content, (bodyAs_bodyData type content seg).mpr ⟨body, htype, hwire, hdata⟩, htext⟩

theorem skip_body (type : Nat) : Reads (bodyAs (fun _ => some ()) type) (FieldReader.skip type) :=
  (skip_reads type).congr fun _ _ _ => by simp [bodyGrammar, bodyAs]

/-- Reading a body and computing with what was read. -/
theorem Reads.bodyAs_bind {α β : Type} {get : Body → Option α} {type : Nat} {x : FieldM α}
    {f : α → FieldM β} {g : α → Option β} (hx : Reads (bodyAs get type) x)
    (hf : ∀ a, Reads (fun b seg => g a = some b ∧ seg = []) (f a)) :
    Reads (bodyAs (fun body => (get body).bind g) type) (x >>= f) := by
  refine (Reads.bind (bodyAs_prefixFree get type) hx hf).congr fun b seg _ => ?_
  constructor
  · rintro ⟨a, s, t, ⟨body, htype, rfl, ha⟩, ⟨hb, rfl⟩, rfl⟩
    exact ⟨body, htype, (List.append_nil _).symm, Option.bind_eq_some_iff.mpr ⟨a, ha, hb⟩⟩
  · rintro ⟨body, htype, rfl, hb⟩
    obtain ⟨a, ha, hb⟩ := Option.bind_eq_some_iff.mp hb
    exact ⟨a, body.wire, [], ⟨body, htype, rfl, ha⟩, ⟨hb, rfl⟩, (List.append_nil _).symm⟩

/-- A reader whose result is used is a reader of what it is used for. -/
theorem Reads.bodyAs_map {α β : Type} {get : Body → Option α} {type : Nat} {x : FieldM α}
    (hx : Reads (bodyAs get type) x) (g : α → β) :
    Reads (bodyAs (fun body => (get body).map g) type) (x >>= fun a => Pure.pure (g a)) := by
  have hpure : ∀ a, Reads (fun b seg => some (g a) = some b ∧ seg = []) (Pure.pure (g a)) :=
    fun a => (Reads.pure (g a)).congr fun b seg _ => by rw [Option.some.injEq, eq_comm]
  exact (hx.bodyAs_bind (g := fun a => some (g a)) hpure).congr
    fun b seg _ => by simp only [bodyAs, Option.map_eq_bind, Function.comp_def]

/-! ## The `switch` of `decodeEnvelope` -/

/-- The accumulator of `decodeEnvelope` after one field. -/
def absorbEnvelope : Absorb RuntimeEnvelope := fun envelope number body =>
  match number with
  | 1 => (bodyText body).map fun messageID => { envelope with messageID }
  | 2 => (bodyText body).map fun correlationID => { envelope with correlationID }
  | 3 => (bodyText body).map fun source => { envelope with source }
  | 4 => (bodyText body).map fun target => { envelope with target }
  | 6 => (bodyValue body).map fun kind => { envelope with kind }
  | 7 => (bodyValue body).map fun (value : UInt64) => { envelope with oneWay := value ≠ 0 }
  | 9 => (bodyData body).map fun payload => { envelope with payload }
  | _ => some envelope

/-- The numbers `decodeEnvelope` has a case for. -/
def isEnvelopeNumber (number : Nat) : Bool := number ∈ [1, 2, 3, 4, 6, 7, 9]

/-- A field that is none of an envelope's is skipped. -/
theorem envelopeField_default {number : Nat} (hnumber : isEnvelopeNumber number = false)
    (type : Nat) (envelope : RuntimeEnvelope) :
    envelopeField ⟨number, type⟩ envelope = (do FieldReader.skip type; return envelope) := by
  unfold envelopeField
  split <;> simp_all [isEnvelopeNumber]

/-- And leaves the envelope what it was. -/
theorem absorbEnvelope_default {number : Nat} (hnumber : isEnvelopeNumber number = false)
    (envelope : RuntimeEnvelope) (body : Body) :
    absorbEnvelope envelope number body = some envelope := by
  unfold absorbEnvelope
  split <;> simp_all [isEnvelopeNumber]

theorem envelopeNumber_cases (number : Nat) :
    (number = 1 ∨ number = 2 ∨ number = 3 ∨ number = 4) ∨ (number = 6 ∨ number = 7) ∨ number = 9
      ∨ isEnvelopeNumber number = false := by
  simp only [isEnvelopeNumber, List.mem_cons, List.not_mem_nil, or_false, decide_eq_false_iff_not]
  omega

/-- Each case of the `switch` reads the body it names and stores it. -/
theorem envelopeField_spec : FieldSpec absorbEnvelope envelopeField := by
  rintro ⟨number, type⟩ envelope
  rcases envelopeNumber_cases number with (rfl | rfl | rfl | rfl) | (rfl | rfl) | rfl | hdefault
  · exact (readString_body type).bodyAs_map _
  · exact (readString_body type).bodyAs_map _
  · exact (readString_body type).bodyAs_map _
  · exact (readString_body type).bodyAs_map _
  · exact (readVarint_body type).bodyAs_map _
  · exact (readVarint_body type).bodyAs_map _
  · exact (readBytes_body type).bodyAs_map _
  · rw [envelopeField_default hdefault]
    simp only [absorbEnvelope_default hdefault]
    exact (skip_body type).bodyAs_map fun _ => envelope

/-! ## The grammar and the projection -/

/-- The fields `decodeEnvelope` accepts: fields 1 to 4 hold UTF-8 text, 6 and 7 a varint, 9 bytes,
and any other number anything at all. -/
structure EnvelopeField (f : Field) : Prop where
  text : f.number ∈ [1, 2, 3, 4] →
    ∃ content, f.content? = some content ∧ (⟨content.toArray⟩ : ByteArray).IsValidUTF8
  varint : f.number ∈ [6, 7] → f.varint?.isSome
  bytes : f.number = 9 → f.content?.isSome

/-- `envelope` holds the last occurrence of each known field, or its default. -/
structure EnvelopeOf (fields : List Field) (envelope : RuntimeEnvelope) : Prop where
  messageID : envelope.messageID.toByteArray.data.toList = (lastOf Field.content? 1 fields).getD []
  correlationID :
    envelope.correlationID.toByteArray.data.toList = (lastOf Field.content? 2 fields).getD []
  source : envelope.source.toByteArray.data.toList = (lastOf Field.content? 3 fields).getD []
  target : envelope.target.toByteArray.data.toList = (lastOf Field.content? 4 fields).getD []
  kind : envelope.kind.toNat = (lastOf Field.varint? 6 fields).getD 0
  oneWay : envelope.oneWay = decide ((lastOf Field.varint? 7 fields).getD 0 ≠ 0)
  payload : envelope.payload.bytes = (lastOf Field.content? 9 fields).getD []

/-- Only the known fields count. -/
theorem envelopeOf_filter (fields : List Field) (envelope : RuntimeEnvelope) :
    EnvelopeOf (fields.filter fun f => isEnvelopeNumber f.number) envelope
      ↔ EnvelopeOf fields envelope := by
  have hcontent : ∀ n, isEnvelopeNumber n = true → lastOf Field.content? n
      (fields.filter fun f => isEnvelopeNumber f.number) = lastOf Field.content? n fields :=
    fun n hn => lastOf_filter _ n _ hn fields
  have hvarint : ∀ n, isEnvelopeNumber n = true → lastOf Field.varint? n
      (fields.filter fun f => isEnvelopeNumber f.number) = lastOf Field.varint? n fields :=
    fun n hn => lastOf_filter _ n _ hn fields
  constructor <;> rintro ⟨h1, h2, h3, h4, h6, h7, h9⟩
  · exact ⟨hcontent 1 rfl ▸ h1, hcontent 2 rfl ▸ h2, hcontent 3 rfl ▸ h3, hcontent 4 rfl ▸ h4,
      hvarint 6 rfl ▸ h6, hvarint 7 rfl ▸ h7, hcontent 9 rfl ▸ h9⟩
  · exact ⟨by rwa [hcontent 1 rfl], by rwa [hcontent 2 rfl], by rwa [hcontent 3 rfl],
      by rwa [hcontent 4 rfl], by rwa [hvarint 6 rfl], by rwa [hvarint 7 rfl],
      by rwa [hcontent 9 rfl]⟩

theorem toByteArray_toList_injective {s t : String}
    (h : s.toByteArray.data.toList = t.toByteArray.data.toList) : s = t := by
  rw [← String.toByteArray_inj]
  exact ByteArray.ext (Array.toList_inj.mp h)

/-- The fields determine the envelope. -/
theorem EnvelopeOf.unique {fields : List Field} {envelope envelope' : RuntimeEnvelope}
    (h : EnvelopeOf fields envelope) (h' : EnvelopeOf fields envelope') : envelope = envelope' := by
  obtain ⟨messageID, correlationID, source, target, kind, oneWay, payload⟩ := envelope
  obtain ⟨messageID', correlationID', source', target', kind', oneWay', payload'⟩ := envelope'
  rw [RuntimeEnvelope.mk.injEq]
  exact ⟨toByteArray_toList_injective (h.messageID.trans h'.messageID.symm),
    toByteArray_toList_injective (h.correlationID.trans h'.correlationID.symm),
    toByteArray_toList_injective (h.source.trans h'.source.symm),
    toByteArray_toList_injective (h.target.trans h'.target.symm),
    UInt64.toNat_inj.mp (h.kind.trans h'.kind.symm), h.oneWay.trans h'.oneWay.symm,
    Data.ext (h.payload.trans h'.payload.symm)⟩

/-! ## Absorbing keeps the projection

One more field changes what the list says at most at its own number.
-/

/-- What is taken over of a body is its content. -/
theorem content?_of_bodyData {f : Field} {content : Data} (h : bodyData f.body = some content) :
    f.content? = some content.bytes := by
  unfold bodyData at h
  unfold Field.content?
  cases hbody : f.body with
  | bytes len raw hlen =>
    rw [hbody] at h
    simp only [Option.dite_none_right_eq_some, Option.some.injEq] at h
    obtain ⟨_, rfl⟩ := h
    rfl
  | varint | fixed64 | fixed32 => rw [hbody] at h; simp at h

theorem content?_of_bodyText {f : Field} {text : String} (h : bodyText f.body = some text) :
    f.content? = some text.toByteArray.data.toList := by
  obtain ⟨content, hdata, htext⟩ := Option.bind_eq_some_iff.mp h
  rw [content?_of_bodyData hdata, Data.utf8?_eq_some_iff.mp htext]

theorem varint?_of_bodyValue {f : Field} {v : UInt64} (h : bodyValue f.body = some v) :
    f.varint? = some v.toNat := by
  unfold bodyValue at h
  unfold Field.varint?
  cases hbody : f.body with
  | varint g =>
    rw [hbody] at h
    simp only [Option.some.injEq] at h
    rw [← h, UInt64.toNat_ofNat', Nat.mod_eq_of_lt g.value_lt_two_pow]
  | fixed64 | bytes | fixed32 => rw [hbody] at h; simp at h

/-- One absorbed field becomes the last occurrence of its number. -/
theorem EnvelopeOf.concat {fields : List Field} {envelope envelope' : RuntimeEnvelope}
    (h : EnvelopeOf fields envelope) {f : Field}
    (hf : absorbEnvelope envelope f.number f.body = some envelope') :
    EnvelopeOf (fields ++ [f]) envelope' := by
  obtain ⟨h1, h2, h3, h4, h6, h7, h9⟩ := h
  rcases envelopeNumber_cases f.number with (hn | hn | hn | hn) | (hn | hn) | hn | hdefault
  all_goals first
    | rw [hn] at hf
      simp only [absorbEnvelope, Option.map_eq_some_iff] at hf
      obtain ⟨value, hvalue, rfl⟩ := hf
    | rw [absorbEnvelope_default hdefault, Option.some.injEq] at hf
      subst hf
  -- the four texts
  case inl.inl | inl.inr.inl | inl.inr.inr.inl | inl.inr.inr.inr =>
    have hcontent := content?_of_bodyText hvalue
    constructor <;> simp [lastOf_concat, hn, hcontent, h1, h2, h3, h4, h6, h7, h9]
  -- the two numbers
  case inr.inl.inl | inr.inl.inr =>
    have hvarint := varint?_of_bodyValue hvalue
    constructor <;>
      simp [lastOf_concat, hn, hvarint, h1, h2, h3, h4, h6, h7, h9, ← UInt64.toNat_inj]
  -- the payload
  case inr.inr.inl =>
    have hcontent := content?_of_bodyData hvalue
    constructor <;> simp [lastOf_concat, hn, hcontent, h1, h2, h3, h4, h6, h7]
  case inr.inr.inr =>
    -- a number the envelope does not know is the last of nothing
    have hne : ∀ n, isEnvelopeNumber n = true → f.number ≠ n :=
      fun n hn heq => by rw [heq, hn] at hdefault; simp at hdefault
    constructor
    · rw [lastOf_concat, if_neg (hne 1 rfl)]; exact h1
    · rw [lastOf_concat, if_neg (hne 2 rfl)]; exact h2
    · rw [lastOf_concat, if_neg (hne 3 rfl)]; exact h3
    · rw [lastOf_concat, if_neg (hne 4 rfl)]; exact h4
    · rw [lastOf_concat, if_neg (hne 6 rfl)]; exact h6
    · rw [lastOf_concat, if_neg (hne 7 rfl)]; exact h7
    · rw [lastOf_concat, if_neg (hne 9 rfl)]; exact h9

/-- Without fields every default stands. -/
theorem envelopeOf_nil : EnvelopeOf [] {} := by
  constructor <;> rfl

/-- Absorbing a sequence of fields, whatever was absorbed before it. Induction on the sequence. -/
theorem EnvelopeOf.append {before fields : List Field} {envelope envelope' : RuntimeEnvelope}
    (h : EnvelopeOf before envelope) (hfields : absorbEnvelope.fields envelope fields = some envelope') :
    EnvelopeOf (before ++ fields) envelope' := by
  induction fields generalizing before envelope with
  | nil =>
    rw [Absorb.fields_nil, Option.some.injEq] at hfields
    rw [List.append_nil, ← hfields]
    exact h
  | cons f fields ih =>
    rw [Absorb.fields_cons] at hfields
    obtain ⟨envelope₁, hf, hrest⟩ := Option.bind_eq_some_iff.mp hfields
    have := ih (h.concat hf) hrest
    rwa [List.append_assoc, List.singleton_append] at this

/-! ## Which fields are absorbed

Those with an unknown number, and those whose body has the type and the content that their number
wants.
-/

/-- A body that fits a buffer is one of bytes, text or a number exactly where its content is. -/
theorem isSome_bodyData_iff {f : Field} (hsmall : f.wire.length < 2 ^ 63) :
    (bodyData f.body).isSome ↔ f.content?.isSome := by
  unfold bodyData Field.content?
  unfold Field.wire at hsmall
  cases hbody : f.body with
  | bytes len content hlen =>
    rw [hbody, Body.wire] at hsmall
    simp only [List.length_append] at hsmall
    simp only [dif_pos (show content.length < 2 ^ 63 by omega), Option.isSome_some]
  | varint | fixed64 | fixed32 => simp

theorem isSome_bodyText_iff {f : Field} (hsmall : f.wire.length < 2 ^ 63) :
    (bodyText f.body).isSome ↔
      ∃ content, f.content? = some content ∧ (⟨content.toArray⟩ : ByteArray).IsValidUTF8 := by
  unfold bodyText
  cases hdata : bodyData f.body with
  | none =>
    have hnone : ¬ f.content?.isSome := by simp [← isSome_bodyData_iff hsmall, hdata]
    constructor
    · intro h; simp at h
    · rintro ⟨content, hcontent, _⟩
      exact absurd (by simp [hcontent]) hnone
  | some content =>
    rw [Option.bind_some, Data.isSome_utf8?_iff, content?_of_bodyData hdata]
    simp

theorem isSome_bodyValue_iff (f : Field) : (bodyValue f.body).isSome ↔ f.varint?.isSome := by
  unfold bodyValue Field.varint?
  cases f.body <;> simp

/-- `decodeEnvelope` gets past a field exactly when the grammar allows it, whatever came before. -/
theorem isSome_absorbEnvelope_iff {f : Field} (hsmall : f.wire.length < 2 ^ 63)
    (envelope : RuntimeEnvelope) :
    (absorbEnvelope envelope f.number f.body).isSome ↔ EnvelopeField f := by
  have hfield : EnvelopeField f ↔
      (f.number ∈ [1, 2, 3, 4] → (bodyText f.body).isSome) ∧
      (f.number ∈ [6, 7] → (bodyValue f.body).isSome) ∧
      (f.number = 9 → (bodyData f.body).isSome) := by
    rw [isSome_bodyText_iff hsmall, isSome_bodyValue_iff, isSome_bodyData_iff hsmall]
    exact ⟨fun h => ⟨h.text, h.varint, h.bytes⟩, fun ⟨h1, h2, h3⟩ => ⟨h1, h2, h3⟩⟩
  rw [hfield]
  rcases envelopeNumber_cases f.number with (hn | hn | hn | hn) | (hn | hn) | hn | hdefault
  case inr.inr.inr =>
    have hne : ∀ n, isEnvelopeNumber n = true → f.number ≠ n :=
      fun n hn heq => by rw [heq, hn] at hdefault; simp at hdefault
    simp [absorbEnvelope_default hdefault, hne 1 rfl, hne 2 rfl, hne 3 rfl, hne 4 rfl, hne 6 rfl,
      hne 7 rfl, hne 9 rfl]
  all_goals simp [absorbEnvelope, hn]

/-- A sequence of fields is absorbed exactly when each of them is allowed. -/
theorem isSome_absorbEnvelope_fields_iff {fields : List Field}
    (hsmall : (wire fields).length < 2 ^ 63) (envelope : RuntimeEnvelope) :
    (absorbEnvelope.fields envelope fields).isSome ↔ ∀ f ∈ fields, EnvelopeField f := by
  induction fields generalizing envelope with
  | nil => simp [Absorb.fields_nil]
  | cons f fields ih =>
    rw [wire_cons, List.length_append] at hsmall
    have hf := isSome_absorbEnvelope_iff (f := f) (by omega) envelope
    rw [Absorb.fields_cons, List.forall_mem_cons]
    cases habsorb : absorbEnvelope envelope f.number f.body with
    | none =>
      rw [habsorb] at hf
      simp only [Option.isSome_none, Bool.false_eq_true, false_iff] at hf
      simp [hf]
    | some envelope₁ =>
      rw [habsorb] at hf
      simp only [Option.isSome_some, true_iff] at hf
      rw [Option.bind_some, ih (by omega)]
      simp [hf]

/-! ## `decodeEnvelope` -/

/-- **The codec's specification.** `decodeEnvelope` returns `envelope` exactly on the buffers that
are a sequence of allowed fields with `envelope` as their last-wins projection. -/
theorem decodeEnvelope_ok_iff (data : Data) (envelope : RuntimeEnvelope) :
    decodeEnvelope data = .ok envelope ↔ ∃ fields, wire fields = data.bytes ∧
      (∀ f ∈ fields, EnvelopeField f) ∧ EnvelopeOf fields envelope := by
  unfold decodeEnvelope
  rw [decodeFields_ok_iff envelopeField_spec]
  refine exists_congr fun fields => and_congr_right fun hwire => ?_
  have hsmall : (wire fields).length < 2 ^ 63 := by rw [hwire]; exact data.count_lt
  rw [← isSome_absorbEnvelope_fields_iff hsmall {}]
  constructor
  · intro h
    exact ⟨by rw [h]; rfl, envelopeOf_nil.append h⟩
  · rintro ⟨hsome, henvelope⟩
    obtain ⟨envelope', h⟩ := Option.isSome_iff_exists.mp hsome
    rw [h, henvelope.unique (envelopeOf_nil.append h)]

/-- Where it does not return, it throws: no buffer makes it trap or run on. -/
theorem decodeEnvelope_total (data : Data) :
    (∃ envelope, decodeEnvelope data = .ok envelope)
      ∨ ∃ error, decodeEnvelope data = .error (.thrown error) :=
  decodeFields_total envelopeField_spec {} data

/-- **`decodeEnvelope` accepts exactly its wire grammar and projects it last-wins.** On every
buffer it succeeds iff the bytes are a concatenation of complete allowed fields, and throws
otherwise; on success the envelope holds the last occurrence of every known field, which is
already determined by the known fields alone. -/
theorem decodeEnvelope_accepts_and_projects (data : Data) :
    ((∃ envelope, decodeEnvelope data = .ok envelope)
        ↔ ∃ fields, wire fields = data.bytes ∧ ∀ f ∈ fields, EnvelopeField f) ∧
    ((¬ ∃ fields, wire fields = data.bytes ∧ ∀ f ∈ fields, EnvelopeField f)
        → ∃ error, decodeEnvelope data = .error (.thrown error)) ∧
    (∀ envelope fields, decodeEnvelope data = .ok envelope → wire fields = data.bytes →
      EnvelopeOf fields envelope ∧
      EnvelopeOf (fields.filter fun f => isEnvelopeNumber f.number) envelope) := by
  have hiff : (∃ envelope, decodeEnvelope data = .ok envelope)
      ↔ ∃ fields, wire fields = data.bytes ∧ ∀ f ∈ fields, EnvelopeField f := by
    constructor
    · rintro ⟨envelope, h⟩
      obtain ⟨fields, hwire, hallowed, _⟩ := (decodeEnvelope_ok_iff data envelope).mp h
      exact ⟨fields, hwire, hallowed⟩
    · rintro ⟨fields, hwire, hallowed⟩
      have hsmall : (wire fields).length < 2 ^ 63 := by rw [hwire]; exact data.count_lt
      have hsome := (isSome_absorbEnvelope_fields_iff hsmall {}).mpr hallowed
      obtain ⟨envelope, h⟩ := Option.isSome_iff_exists.mp hsome
      exact ⟨envelope, (decodeEnvelope_ok_iff data envelope).mpr
        ⟨fields, hwire, hallowed, envelopeOf_nil.append h⟩⟩
  refine ⟨hiff, fun hno => ?_, fun envelope fields h hwire => ?_⟩
  · exact (decodeEnvelope_total data).resolve_left fun h => hno (hiff.mp h)
  · obtain ⟨fields', hwire', _, henvelope⟩ := (decodeEnvelope_ok_iff data envelope).mp h
    obtain rfl := wire_injective (hwire.trans hwire'.symm)
    exact ⟨henvelope, (envelopeOf_filter fields envelope).mpr henvelope⟩

end CoAkka.Codec
