import CoAkkaRuntime.Codec.EnvelopeSpec

/-!
# Codec — the shortest frame of an envelope

`decodeEnvelope` accepts many buffers for one envelope: fields in any order and any number of times,
unknown fields between them, tags and lengths that are overlong, defaults written out. One of them
is the normal form: the fields that are not at their default, once each, in the order of their
numbers, canonically encoded. It is decoded to the envelope, and no buffer that is decoded to it is
shorter.

* `normalFields` — the fields of an envelope, those at their default left out, in the order of their
  numbers, with shortest tags and lengths.
* `envelopeOf_normalFields` — they say the envelope.
* `EnvelopeOf.covers` — any other list of fields that says it has, for each of them, a field at
  least as long. This is where last-wins matters: only the last field of a number is needed.
* `shortest_frame` — so no accepted buffer for that envelope is shorter.
-/

namespace CoAkka.Codec

open Base128

/-! ## The normal form -/

/-- The field `n`, unless its content is empty. -/
def contentField (n : Nat) (content : List UInt8) (hn : 0 < n ∧ n < 16 := by decide) : List Field :=
  if h : 0 < content.length ∧ content.length < 2 ^ 64 then
    [.ofBytes n content hn.1 (by omega) h.2]
  else []

/-- The field `n`, unless its value is zero. -/
def valueField (n value : Nat) (hn : 0 < n ∧ n < 16 := by decide) : List Field :=
  if h : 0 < value ∧ value < 2 ^ 64 then [.ofVarint n value hn.1 (by omega) h.2] else []

def RuntimeEnvelope.normalFields (envelope : RuntimeEnvelope) : List Field :=
  contentField 1 envelope.messageID.toByteArray.data.toList ++
    (contentField 2 envelope.correlationID.toByteArray.data.toList ++
    (contentField 3 envelope.source.toByteArray.data.toList ++
    (contentField 4 envelope.target.toByteArray.data.toList ++
    (valueField 6 envelope.kind.toNat ++
    (valueField 7 envelope.oneWay.toNat ++
    contentField 9 envelope.payload.bytes)))))

/-- The texts of an envelope. -/
def RuntimeEnvelope.texts (envelope : RuntimeEnvelope) : List String :=
  [envelope.messageID, envelope.correlationID, envelope.source, envelope.target]

section Single

variable {n : Nat} {hn : 0 < n ∧ n < 16}

/-- A field of the normal form has its number and its content. -/
theorem number_of_mem_contentField {content : List UInt8} {f : Field}
    (hf : f ∈ contentField n content hn) : f.number = n ∧ f.content? = some content := by
  unfold contentField at hf
  split at hf
  · obtain rfl := List.mem_singleton.mp hf
    refine ⟨?_, rfl⟩
    rw [Field.number, Field.ofBytes, Varint.value_ofNat]
    omega
  · exact absurd hf List.not_mem_nil

theorem number_of_mem_valueField {value : Nat} {f : Field} (hf : f ∈ valueField n value hn) :
    f.number = n ∧ f.varint? = some value := by
  unfold valueField at hf
  split at hf
  · next h =>
    obtain rfl := List.mem_singleton.mp hf
    refine ⟨?_, congrArg some (Varint.value_ofNat value h.2)⟩
    rw [Field.number, Field.ofVarint, Varint.value_ofNat]
    omega
  · exact absurd hf List.not_mem_nil

/-- A sequence in which no field has the number leaves nothing for it. -/
theorem lastOf_of_number_ne {α : Type} (get? : Field → Option α) {m : Nat} {fields : List Field}
    (h : ∀ f ∈ fields, f.number ≠ m) : lastOf get? m fields = none :=
  (lastOf_eq_none_iff get? m fun f hf hm => absurd hm (h f hf)).mpr h

/-- It is the last occurrence of no other number. -/
theorem lastOf_contentField_ne {α : Type} (get? : Field → Option α) {m : Nat} (hm : n ≠ m)
    (content : List UInt8) : lastOf get? m (contentField n content hn) = none :=
  lastOf_of_number_ne get? fun _ hf => by rw [(number_of_mem_contentField hf).1]; exact hm

theorem lastOf_valueField_ne {α : Type} (get? : Field → Option α) {m : Nat} (hm : n ≠ m)
    (value : Nat) : lastOf get? m (valueField n value hn) = none :=
  lastOf_of_number_ne get? fun _ hf => by rw [(number_of_mem_valueField hf).1]; exact hm

/-- What is decoded of it is what it was made of, also where the default was left out. -/
theorem getD_lastOf_contentField {content : List UInt8} (h : content.length < 2 ^ 64) :
    (lastOf Field.content? n (contentField n content hn)).getD [] = content := by
  by_cases hpos : 0 < content.length
  · have hmem : Field.ofBytes n content hn.1 (by omega) h ∈ contentField n content hn := by
      rw [contentField, dif_pos ⟨hpos, h⟩]
      exact List.mem_singleton_self _
    have hfield := number_of_mem_contentField hmem
    have hlast := lastOf_concat Field.content? n [] (Field.ofBytes n content hn.1 (by omega) h)
    rw [contentField, dif_pos ⟨hpos, h⟩]
    rw [List.nil_append, if_pos hfield.1, hfield.2, Option.some_or] at hlast
    rw [hlast, Option.getD_some]
  · rw [contentField, dif_neg fun h => hpos h.1, lastOf_nil, Option.getD_none]
    exact (List.length_eq_zero_iff.mp (Nat.eq_zero_of_not_pos hpos)).symm

theorem getD_lastOf_valueField {value : Nat} (h : value < 2 ^ 64) :
    (lastOf Field.varint? n (valueField n value hn)).getD 0 = value := by
  by_cases hpos : 0 < value
  · have hmem : Field.ofVarint n value hn.1 (by omega) h ∈ valueField n value hn := by
      rw [valueField, dif_pos ⟨hpos, h⟩]
      exact List.mem_singleton_self _
    have hfield := number_of_mem_valueField hmem
    have hlast := lastOf_concat Field.varint? n [] (Field.ofVarint n value hn.1 (by omega) h)
    rw [valueField, dif_pos ⟨hpos, h⟩]
    rw [List.nil_append, if_pos hfield.1, hfield.2, Option.some_or] at hlast
    rw [hlast, Option.getD_some]
  · rw [valueField, dif_neg fun h => hpos h.1, lastOf_nil, Option.getD_none]
    exact (Nat.eq_zero_of_not_pos hpos).symm

end Single

/-! ## It is decoded to the envelope -/

/-- What the fields of the normal form hold. -/
inductive NormalField (envelope : RuntimeEnvelope) (f : Field) : Prop where
  | text (text : String) (htext : text ∈ envelope.texts) (hnumber : f.number ∈ [1, 2, 3, 4])
      (hcontent : f.content? = some text.toByteArray.data.toList)
  | kind (hnumber : f.number = 6) (hvalue : f.varint? = some envelope.kind.toNat)
  | oneWay (hnumber : f.number = 7) (hvalue : f.varint? = some envelope.oneWay.toNat)
  | payload (hnumber : f.number = 9) (hcontent : f.content? = some envelope.payload.bytes)

/-- Every field of the normal form is one of these. -/
theorem normalField_of_mem {envelope : RuntimeEnvelope} {f : Field}
    (hf : f ∈ envelope.normalFields) : NormalField envelope f := by
  simp only [RuntimeEnvelope.normalFields, List.mem_append] at hf
  rcases hf with hf | hf | hf | hf | hf | hf | hf
  · obtain ⟨hnumber, hcontent⟩ := number_of_mem_contentField hf
    exact .text _ (by simp [RuntimeEnvelope.texts]) (by simp [hnumber]) hcontent
  · obtain ⟨hnumber, hcontent⟩ := number_of_mem_contentField hf
    exact .text _ (by simp [RuntimeEnvelope.texts]) (by simp [hnumber]) hcontent
  · obtain ⟨hnumber, hcontent⟩ := number_of_mem_contentField hf
    exact .text _ (by simp [RuntimeEnvelope.texts]) (by simp [hnumber]) hcontent
  · obtain ⟨hnumber, hcontent⟩ := number_of_mem_contentField hf
    exact .text _ (by simp [RuntimeEnvelope.texts]) (by simp [hnumber]) hcontent
  · obtain ⟨hnumber, hvalue⟩ := number_of_mem_valueField hf
    exact .kind hnumber hvalue
  · obtain ⟨hnumber, hvalue⟩ := number_of_mem_valueField hf
    exact .oneWay hnumber hvalue
  · obtain ⟨hnumber, hcontent⟩ := number_of_mem_contentField hf
    exact .payload hnumber hcontent

/-- All of them are decoded. -/
theorem NormalField.allowed {envelope : RuntimeEnvelope} {f : Field} (h : NormalField envelope f) :
    EnvelopeField f ∧ isEnvelopeNumber f.number = true := by
  cases h with
  | text text _ hnumber hcontent =>
    have hvalid : (⟨text.toByteArray.data.toList.toArray⟩ : ByteArray).IsValidUTF8 := by
      rw [Array.toArray_toList]
      exact text.isValidUTF8
    simp only [List.mem_cons, List.not_mem_nil, or_false] at hnumber
    refine ⟨⟨fun _ => ⟨_, hcontent, hvalid⟩, fun h => ?_, fun h => ?_⟩, ?_⟩
    · simp only [List.mem_cons, List.not_mem_nil, or_false] at h
      omega
    · omega
    · simp only [isEnvelopeNumber, List.mem_cons, List.not_mem_nil, or_false, decide_eq_true_eq]
      omega
  | kind hnumber hvalue =>
    exact ⟨⟨by simp [hnumber], fun _ => by simp [hvalue], by simp [hnumber]⟩,
      by simp [hnumber, isEnvelopeNumber]⟩
  | oneWay hnumber hvalue =>
    exact ⟨⟨by simp [hnumber], fun _ => by simp [hvalue], by simp [hnumber]⟩,
      by simp [hnumber, isEnvelopeNumber]⟩
  | payload hnumber hcontent =>
    exact ⟨⟨by simp [hnumber], by simp [hnumber], fun _ => by simp [hcontent]⟩,
      by simp [hnumber, isEnvelopeNumber]⟩

/-- Each known number is left what the envelope holds. -/
theorem envelopeOf_normalFields {envelope : RuntimeEnvelope}
    (htexts : ∀ text ∈ envelope.texts, text.toByteArray.data.toList.length < 2 ^ 64) :
    EnvelopeOf envelope.normalFields envelope := by
  simp only [RuntimeEnvelope.texts, List.forall_mem_cons] at htexts
  obtain ⟨h1, h2, h3, h4, -⟩ := htexts
  have hkind := envelope.kind.toNat_lt
  have honeWay : envelope.oneWay.toNat < 2 ^ 64 := Nat.lt_of_le_of_lt (Bool.toNat_le _) (by decide)
  have hpayload : envelope.payload.bytes.length < 2 ^ 64 :=
    Nat.lt_trans envelope.payload.count_lt (by decide)
  constructor <;>
    simp only [RuntimeEnvelope.normalFields, lastOf_append, ne_eq, not_false_eq_true,
      Nat.reduceEqDiff, lastOf_contentField_ne, lastOf_valueField_ne, Option.none_or, Option.or_none]
  · exact (getD_lastOf_contentField h1).symm
  · exact (getD_lastOf_contentField h2).symm
  · exact (getD_lastOf_contentField h3).symm
  · exact (getD_lastOf_contentField h4).symm
  · exact (getD_lastOf_valueField hkind).symm
  · rw [getD_lastOf_valueField honeWay]
    cases envelope.oneWay <;> rfl
  · exact (getD_lastOf_contentField hpayload).symm

/-! ## Its fields are in order -/

/-- In ascending order, from above `m`. -/
structure OrderedAbove (m : Nat) (fields : List Field) : Prop where
  ordered : fields.Pairwise fun f g => f.number < g.number
  above : ∀ f ∈ fields, m < f.number

theorem OrderedAbove.nil (m : Nat) : OrderedAbove m [] := ⟨.nil, by simp⟩

/-- A field of the number `n`, or none, in front of fields from above `n`. -/
theorem OrderedAbove.append {m n : Nat} (hmn : m < n) {front fields : List Field}
    (hlength : front.length ≤ 1) (hnumber : ∀ f ∈ front, f.number = n) (h : OrderedAbove n fields) :
    OrderedAbove m (front ++ fields) where
  ordered := by
    refine List.pairwise_append.mpr ⟨?_, h.ordered, fun f hf g hg => ?_⟩
    · match front, hlength with
      | [], _ => exact .nil
      | [f], _ => exact List.pairwise_singleton _ f
    · rw [hnumber f hf]
      exact h.above g hg
  above := by
    intro f hf
    rcases List.mem_append.mp hf with hf | hf
    · rw [hnumber f hf]
      exact hmn
    · exact Nat.lt_trans hmn (h.above f hf)

/-- Each number occurs once at most. -/
theorem length_contentField_le (n : Nat) (content : List UInt8) (hn : 0 < n ∧ n < 16) :
    (contentField n content hn).length ≤ 1 := by
  unfold contentField
  split <;> simp

theorem length_valueField_le (n value : Nat) (hn : 0 < n ∧ n < 16) :
    (valueField n value hn).length ≤ 1 := by
  unfold valueField
  split <;> simp

/-- And in the order of the numbers. -/
theorem orderedAbove_normalFields (envelope : RuntimeEnvelope) :
    OrderedAbove 0 envelope.normalFields := by
  have hcontent : ∀ {m n : Nat} {content : List UInt8} {hn : 0 < n ∧ n < 16} {fields : List Field},
      m < n → OrderedAbove n fields → OrderedAbove m (contentField n content hn ++ fields) :=
    fun hmn h => h.append hmn (length_contentField_le _ _ _)
      fun _ hf => (number_of_mem_contentField hf).1
  have hvalue : ∀ {m n value : Nat} {hn : 0 < n ∧ n < 16} {fields : List Field},
      m < n → OrderedAbove n fields → OrderedAbove m (valueField n value hn ++ fields) :=
    fun hmn h => h.append hmn (length_valueField_le _ _ _)
      fun _ hf => (number_of_mem_valueField hf).1
  have hlast : OrderedAbove 7 (contentField 9 envelope.payload.bytes (by decide) ++ []) :=
    hcontent (by decide) (.nil 9)
  rw [List.append_nil] at hlast
  exact hcontent (by decide) (hcontent (by decide) (hcontent (by decide) (hcontent (by decide)
    (hvalue (by decide) (hvalue (by decide) hlast)))))

/-! ## No frame of the envelope is shorter

Overlong tags, overlong lengths, fields that are overwritten and fields that say the default only
make a frame longer.
-/

section Cover

variable {n : Nat} {hn : 0 < n ∧ n < 16} {fields : List Field} {f : Field}

/-- `f` is no longer than a field of its number in the sequence. -/
def Covered (fields : List Field) (f : Field) : Prop :=
  ∃ g ∈ fields, g.number = f.number ∧ f.wire.length ≤ g.wire.length

/-- A field of the normal form is covered by any other encoding: the same content stands there, or a
longer one. -/
theorem covered_content {content : List UInt8} (hf : f ∈ contentField n content hn)
    (hlast : content = (lastOf Field.content? n fields).getD []) : Covered fields f := by
  have hnumber := (number_of_mem_contentField hf).1
  unfold contentField at hf
  split at hf
  · next h =>
    obtain rfl := List.mem_singleton.mp hf
    cases hsome : lastOf Field.content? n fields with
    | none => simp [hlast, hsome] at h
    | some content' =>
      obtain rfl : content = content' := by rw [hlast, hsome, Option.getD_some]
      obtain ⟨g, hg, hgnumber, hget⟩ := exists_of_lastOf_eq_some _ _ hsome
      exact ⟨g, hg, hgnumber.trans hnumber.symm, Field.length_ofBytes_le hn.1 _ h.2 hgnumber hget⟩
  · exact absurd hf List.not_mem_nil

/-- For a number, a varint of no fewer bytes does. -/
theorem covered_value {value : Nat} (hf : f ∈ valueField n value hn)
    (hlast : 0 < value → ∃ w, lastOf Field.varint? n fields = some w ∧
      (encode value).length ≤ (encode w).length) : Covered fields f := by
  have hnumber := (number_of_mem_valueField hf).1
  unfold valueField at hf
  split at hf
  · next h =>
    obtain rfl := List.mem_singleton.mp hf
    obtain ⟨w, hsome, hle⟩ := hlast h.1
    obtain ⟨g, hg, hgnumber, hget⟩ := exists_of_lastOf_eq_some _ _ hsome
    exact ⟨g, hg, hgnumber.trans hnumber.symm,
      Field.length_ofVarint_le hn.1 _ h.2 hgnumber hget hle⟩
  · exact absurd hf List.not_mem_nil

end Cover

/-- What an envelope holds and is not a default, some field of its frame holds. -/
theorem EnvelopeOf.covers {fields : List Field} {envelope : RuntimeEnvelope}
    (h : EnvelopeOf fields envelope) {f : Field} (hf : f ∈ envelope.normalFields) :
    Covered fields f := by
  simp only [RuntimeEnvelope.normalFields, List.mem_append] at hf
  rcases hf with hf | hf | hf | hf | hf | hf | hf
  · exact covered_content hf h.messageID
  · exact covered_content hf h.correlationID
  · exact covered_content hf h.source
  · exact covered_content hf h.target
  · refine covered_value hf fun hpos => ?_
    have hkind := h.kind
    cases hsome : lastOf Field.varint? 6 fields with
    | none => rw [hkind, hsome, Option.getD_none] at hpos; exact absurd hpos (Nat.lt_irrefl 0)
    | some w =>
      rw [hsome, Option.getD_some] at hkind
      exact ⟨w, rfl, by rw [hkind]⟩
  · refine covered_value hf fun hpos => ?_
    have honeWay := h.oneWay
    cases hsome : lastOf Field.varint? 7 fields with
    | none => simp [honeWay, hsome] at hpos
    | some w =>
      have hone : envelope.oneWay.toNat = 1 := Nat.le_antisymm (Bool.toNat_le _) hpos
      refine ⟨w, rfl, ?_⟩
      -- one is encoded in a single byte
      rw [hone, encode_lt (by decide)]
      exact (isGroup_encode w).length_pos
  · exact covered_content hf h.payload

/-- A decoded text is no longer than the buffer it came from. -/
theorem EnvelopeOf.length_text_le {fields : List Field} {envelope : RuntimeEnvelope}
    (h : EnvelopeOf fields envelope) {text : String} (htext : text ∈ envelope.texts) :
    text.toByteArray.data.toList.length ≤ (wire fields).length := by
  simp only [RuntimeEnvelope.texts, List.mem_cons, List.not_mem_nil, or_false] at htext
  rcases htext with rfl | rfl | rfl | rfl
  · rw [h.messageID]; exact length_getD_lastOf_le 1 fields
  · rw [h.correlationID]; exact length_getD_lastOf_le 2 fields
  · rw [h.source]; exact length_getD_lastOf_le 3 fields
  · rw [h.target]; exact length_getD_lastOf_le 4 fields

/-- **Every envelope has a shortest frame.** Its normal form is decoded to it, holds known fields
only, each once and in ascending order; and whatever buffer is decoded to it is at least as long. -/
theorem shortest_frame (envelope : RuntimeEnvelope) :
    ((∀ text ∈ envelope.texts, text.toByteArray.data.toList.length < 2 ^ 63) →
      ∀ hsmall : (wire envelope.normalFields).length < 2 ^ 63,
        decodeEnvelope ⟨wire envelope.normalFields, hsmall⟩ = .ok envelope) ∧
    (envelope.normalFields.Pairwise fun f g => f.number < g.number) ∧
    (∀ f ∈ envelope.normalFields, isEnvelopeNumber f.number = true) ∧
    ∀ data : Data, decodeEnvelope data = .ok envelope →
      (wire envelope.normalFields).length ≤ data.count ∧
      ∃ hsmall, decodeEnvelope ⟨wire envelope.normalFields, hsmall⟩ = .ok envelope := by
  have hallowed : ∀ f ∈ envelope.normalFields, EnvelopeField f ∧ isEnvelopeNumber f.number = true :=
    fun f hf => (normalField_of_mem hf).allowed
  have hdecode : (∀ text ∈ envelope.texts, text.toByteArray.data.toList.length < 2 ^ 64) →
      ∀ hsmall : (wire envelope.normalFields).length < 2 ^ 63,
        decodeEnvelope ⟨wire envelope.normalFields, hsmall⟩ = .ok envelope :=
    fun htexts hsmall => (decodeEnvelope_ok_iff _ _).mpr
      ⟨_, rfl, fun f hf => (hallowed f hf).1, envelopeOf_normalFields htexts⟩
  have hordered := (orderedAbove_normalFields envelope).ordered
  refine ⟨fun htexts => hdecode fun text htext => Nat.lt_trans (htexts text htext) (by decide),
    hordered, fun f hf => (hallowed f hf).2, fun data h => ?_⟩
  obtain ⟨fields, hwire, _, henvelope⟩ := (decodeEnvelope_ok_iff data envelope).mp h
  -- each normal field is covered by a field of the buffer, and by different ones
  have hle : (wire envelope.normalFields).length ≤ data.count := by
    rw [Data.count, ← hwire]
    exact length_wire_le (hordered.imp Nat.ne_of_lt) fun f hf => henvelope.covers hf
  have hcount := data.count_lt
  -- so it is short enough for a `Data`, as the buffer is
  refine ⟨hle, Nat.lt_of_le_of_lt hle hcount, hdecode (fun text htext => ?_) _⟩
  have htext := henvelope.length_text_le htext
  rw [hwire] at htext
  omega

end CoAkka.Codec
