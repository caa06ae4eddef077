import CoAkkaRuntime.Codec.DeadletterSpec

/-!
# Codec — decoding goes on where it stopped

The field loops have no end of message: a buffer that is a frame may be followed by another one. A
loop that reads both ends as it would had it been left after the first and entered again with what
it had, so decoding a buffer in pieces, each of them a frame, is decoding it at once. The second
frame overlays the first: the fields it carries count, the others are left as they were.

* `Absorb.Stateless` — a loop body whose effect on a field does not depend on where the loop stands.
* `decodeFields_append` — two buffers one after the other are decoded as one.
* `EnvelopeOf.overlay` — the envelope of the second part over that of the first.
* `frames_resume` — the law for both decoders, over every cut between two fields.
-/

namespace CoAkka.Codec

open Base128

/-! ## The loop -/

section Resume

variable {σ : Type} {absorb : Absorb σ} {field : FieldTag → σ → FieldM σ}

/-- Whether a sequence of fields is absorbed does not depend on what was absorbed before it. -/
def Absorb.Stateless (absorb : Absorb σ) : Prop :=
  ∀ (fields : List Field) (state state' : σ), (wire fields).length < 2 ^ 63 →
    (absorb.fields state fields).isSome → (absorb.fields state' fields).isSome

/-- Fields may be taken over in two goes. -/
theorem Absorb.fields_append (absorb : Absorb σ) (state : σ) (fields more : List Field) :
    absorb.fields state (fields ++ more)
      = (absorb.fields state fields).bind fun state' => absorb.fields state' more :=
  List.foldlM_append

/-- Behind a buffer that it read to the end, a loop goes on with what the buffer left. -/
theorem decodeFields_append (hfield : FieldSpec absorb field) {first second whole : Data}
    (hbytes : whole.bytes = first.bytes ++ second.bytes) {state state₁ : σ}
    (hfirst : decodeFields field state first = .ok state₁) (state₂ : σ) :
    decodeFields field state whole = .ok state₂ ↔ decodeFields field state₁ second = .ok state₂ := by
  obtain ⟨fields, hwire, habsorb⟩ := (decodeFields_ok_iff hfield _ _ _).mp hfirst
  rw [decodeFields_ok_iff hfield, decodeFields_ok_iff hfield]
  constructor
  · rintro ⟨all, hall, h⟩
    -- the fields of the whole start with those of the first part
    obtain ⟨more, rfl, hmore⟩ := exists_append_of_wire (hall.trans (hwire ▸ hbytes))
    rw [Absorb.fields_append, habsorb, Option.bind_some] at h
    exact ⟨more, hmore, h⟩
  · rintro ⟨more, hmore, h⟩
    refine ⟨fields ++ more, by rw [wire_append, hwire, hmore, hbytes], ?_⟩
    rw [Absorb.fields_append, habsorb, Option.bind_some]
    exact h

/-- What a loop accepts from one accumulator it accepts from every other. -/
theorem Absorb.Stateless.decodeFields_ok (hstateless : absorb.Stateless)
    (hfield : FieldSpec absorb field) {state state₁ : σ} {data : Data}
    (h : decodeFields field state data = .ok state₁) (state' : σ) :
    ∃ state₂, decodeFields field state' data = .ok state₂ := by
  obtain ⟨fields, hwire, habsorb⟩ := (decodeFields_ok_iff hfield _ _ _).mp h
  have hsmall : (wire fields).length < 2 ^ 63 := by rw [hwire]; exact data.count_lt
  have hsome := hstateless fields state state' hsmall (by rw [habsorb]; rfl)
  obtain ⟨state₂, h₂⟩ := Option.isSome_iff_exists.mp hsome
  exact ⟨state₂, (decodeFields_ok_iff hfield _ _ _).mpr ⟨fields, hwire, h₂⟩⟩

/-- **A buffer may be decoded in pieces.** Induction on the pieces. -/
theorem Absorb.Stateless.decodeFields_flatMap (hstateless : absorb.Stateless)
    (hfield : FieldSpec absorb field) {chunks : List Data} (initial : σ)
    (hchunks : ∀ chunk ∈ chunks, ∃ state, decodeFields field initial chunk = .ok state)
    (state : σ) {whole : Data} (hbytes : whole.bytes = chunks.flatMap Data.bytes) :
    ∃ state', decodeFields field state whole = .ok state' ∧
      chunks.foldlM (decodeFields field) state = .ok state' := by
  induction chunks generalizing state whole with
  | nil =>
    exact ⟨state, (decodeFields_ok_iff hfield _ _ _).mpr ⟨[], hbytes.symm, rfl⟩, rfl⟩
  | cons chunk chunks ih =>
    rw [List.forall_mem_cons] at hchunks
    obtain ⟨⟨_, hchunk⟩, hrest⟩ := hchunks
    obtain ⟨state₁, hfirst⟩ := hstateless.decodeFields_ok hfield hchunk state
    have hlength := congrArg List.length hbytes
    have hcount := whole.count_lt
    rw [List.flatMap_cons, List.length_append] at hlength
    let rest : Data := ⟨chunks.flatMap Data.bytes, by omega⟩
    have hbytes' : rest.bytes = chunks.flatMap Data.bytes := rfl
    obtain ⟨state', hwhole, hfold⟩ := ih hrest state₁ hbytes'
    refine ⟨state', (decodeFields_append hfield hbytes hfirst state').mpr hwhole, ?_⟩
    rw [List.foldlM_cons, hfirst]
    exact hfold

end Resume

/-- What is written of a field does not depend on what was there. -/
theorem absorbEnvelope_stateless : absorbEnvelope.Stateless := fun _ envelope envelope' hsmall h =>
  (isSome_absorbEnvelope_fields_iff hsmall envelope').mpr
    ((isSome_absorbEnvelope_fields_iff hsmall envelope).mp h)

theorem absorbDeadletter_stateless : absorbDeadletter.Stateless := fun _ state state' hsmall h =>
  (isSome_absorbDeadletter_fields_iff hsmall state').mpr
    ((isSome_absorbDeadletter_fields_iff hsmall state).mp h)

/-! ## Overlays

Laying one envelope over another keeps, for each field, the later one where it was sent.
-/

/-- Some field has the number. -/
def carries (fields : List Field) (number : Nat) : Bool := fields.any (·.number == number)

/-- `after` over `before`: the fields in `set` are those of `after`. -/
def RuntimeEnvelope.overlay (before : RuntimeEnvelope) (set : Nat → Bool)
    (after : RuntimeEnvelope) : RuntimeEnvelope where
  messageID := if set 1 then after.messageID else before.messageID
  correlationID := if set 2 then after.correlationID else before.correlationID
  source := if set 3 then after.source else before.source
  target := if set 4 then after.target else before.target
  kind := if set 6 then after.kind else before.kind
  oneWay := if set 7 then after.oneWay else before.oneWay
  payload := if set 9 then after.payload else before.payload

/-- **The envelope of two sequences is that of the second laid over that of the first.** -/
theorem EnvelopeOf.overlay {fields more : List Field} {before after : RuntimeEnvelope}
    (hbefore : EnvelopeOf fields before) (hafter : EnvelopeOf more after)
    (hmore : ∀ f ∈ more, EnvelopeField f) :
    EnvelopeOf (fields ++ more) (before.overlay (carries more) after) := by
  have htext : ∀ n ∈ [1, 2, 3, 4], ∀ f ∈ more, f.number = n → f.content?.isSome := by
    intro n hn f hf hnumber
    obtain ⟨content, hcontent, _⟩ := (hmore f hf).text (hnumber ▸ hn)
    rw [hcontent, Option.isSome_some]
  have hvarint : ∀ n ∈ [6, 7], ∀ f ∈ more, f.number = n → f.varint?.isSome :=
    fun n hn f hf hnumber => (hmore f hf).varint (hnumber ▸ hn)
  have hbytes : ∀ f ∈ more, f.number = 9 → f.content?.isSome := fun f hf => (hmore f hf).bytes
  obtain ⟨h1, h2, h3, h4, h6, h7, h9⟩ := hbefore
  obtain ⟨h1', h2', h3', h4', h6', h7', h9'⟩ := hafter
  constructor
  · rw [getD_lastOf_append _ _ (htext 1 (by simp)), ← h1, ← h1']
    exact apply_ite (fun text : String => text.toByteArray.data.toList) _ _ _
  · rw [getD_lastOf_append _ _ (htext 2 (by simp)), ← h2, ← h2']
    exact apply_ite (fun text : String => text.toByteArray.data.toList) _ _ _
  · rw [getD_lastOf_append _ _ (htext 3 (by simp)), ← h3, ← h3']
    exact apply_ite (fun text : String => text.toByteArray.data.toList) _ _ _
  · rw [getD_lastOf_append _ _ (htext 4 (by simp)), ← h4, ← h4']
    exact apply_ite (fun text : String => text.toByteArray.data.toList) _ _ _
  · rw [getD_lastOf_append _ _ (hvarint 6 (by simp)), ← h6, ← h6']
    exact apply_ite UInt64.toNat _ _ _
  · rw [getD_lastOf_append _ _ (hvarint 7 (by simp)),
      apply_ite (fun value : Nat => decide (value ≠ 0)), ← h7, ← h7']
    rfl
  · rw [getD_lastOf_append _ _ hbytes, ← h9, ← h9']
    exact apply_ite Data.bytes _ _ _

/-- An accepted frame, then a buffer: both together are a frame iff the buffer is one, and then it
overlays the frame. -/
theorem decodeEnvelope_append {first second whole : Data}
    (hbytes : whole.bytes = first.bytes ++ second.bytes) {before : RuntimeEnvelope}
    (hfirst : decodeEnvelope first = .ok before) (envelope : RuntimeEnvelope) :
    decodeEnvelope whole = .ok envelope ↔ ∃ fields after, wire fields = second.bytes ∧
      decodeEnvelope second = .ok after ∧ envelope = before.overlay (carries fields) after := by
  obtain ⟨fields, hwire, hfields, hbefore⟩ := (decodeEnvelope_ok_iff first before).mp hfirst
  constructor
  · intro h
    have hresumed := (decodeFields_append envelopeField_spec hbytes hfirst envelope).mp h
    obtain ⟨after, hsecond⟩ := absorbEnvelope_stateless.decodeFields_ok envelopeField_spec hresumed {}
    obtain ⟨more, hmore, hallowed, hafter⟩ := (decodeEnvelope_ok_iff second after).mp hsecond
    obtain ⟨all, hall, _, henvelope⟩ := (decodeEnvelope_ok_iff whole envelope).mp h
    have hboth : wire all = wire (fields ++ more) := by
      rw [hall, wire_append, hwire, hmore, hbytes]
    obtain rfl := wire_injective hboth
    exact ⟨more, after, hmore, hsecond, henvelope.unique (hbefore.overlay hafter hallowed)⟩
  · rintro ⟨more, after, hmore, hsecond, rfl⟩
    obtain ⟨more', hmore', hallowed, hafter⟩ := (decodeEnvelope_ok_iff second after).mp hsecond
    obtain rfl := wire_injective (hmore.trans hmore'.symm)
    refine (decodeEnvelope_ok_iff whole _).mpr ⟨fields ++ more, ?_, ?_, hbefore.overlay hafter hallowed⟩
    · rw [wire_append, hwire, hmore, hbytes]
    · exact List.forall_mem_append.mpr ⟨hfields, hallowed⟩

/-! ## Both decoders -/

/-- **Frames may be read in pieces.** A buffer that is cut into frames is a frame, and both loops end
on it as they do when they read piece after piece, each with what the ones before it left. Behind a
frame exactly the frames are accepted, and the envelope of the two is the second over the first. -/
theorem frames_resume :
    (∀ (chunks : List Data) (whole : Data), whole.bytes = chunks.flatMap Data.bytes →
      ((∀ chunk ∈ chunks, ∃ envelope, decodeEnvelope chunk = .ok envelope) →
        ∃ envelope, decodeEnvelope whole = .ok envelope ∧
          chunks.foldlM (decodeFields envelopeField) {} = .ok envelope) ∧
      ((∀ chunk ∈ chunks, ∃ state, decodeFields deadletterField {} chunk = .ok state) →
        ∃ state, decodeFields deadletterField {} whole = .ok state ∧
          chunks.foldlM (decodeFields deadletterField) {} = .ok state)) ∧
    ∀ (first second whole : Data) (before envelope : RuntimeEnvelope),
      whole.bytes = first.bytes ++ second.bytes → decodeEnvelope first = .ok before →
      (decodeEnvelope whole = .ok envelope ↔ ∃ fields after, wire fields = second.bytes ∧
        decodeEnvelope second = .ok after ∧ envelope = before.overlay (carries fields) after) := by
  refine ⟨fun chunks whole hbytes => ⟨fun hchunks => ?_, fun hchunks => ?_⟩, ?_⟩
  · exact absorbEnvelope_stateless.decodeFields_flatMap envelopeField_spec {} hchunks {} hbytes
  · exact absorbDeadletter_stateless.decodeFields_flatMap deadletterField_spec {} hchunks {} hbytes
  · exact fun first second whole before envelope hbytes hfirst =>
      decodeEnvelope_append hbytes hfirst envelope

/-- Two frames of one field each, of which the second overwrites the first. -/
theorem frames_resume_kind :
    ∃ envelope, decodeEnvelope ⟨[0x30, 0x01, 0x30, 0x02], by decide⟩ = .ok envelope ∧
      [⟨[0x30, 0x01], by decide⟩, ⟨[0x30, 0x02], by decide⟩].foldlM
        (decodeFields envelopeField) {} = .ok envelope :=
  (frames_resume.1 [⟨[0x30, 0x01], by decide⟩, ⟨[0x30, 0x02], by decide⟩]
    ⟨[0x30, 0x01, 0x30, 0x02], by decide⟩ rfl).1 fun chunk hchunk => by
      rcases List.mem_pair.mp hchunk with rfl | rfl
      · exact ⟨{ kind := 1 }, by decide⟩
      · exact ⟨{ kind := 2 }, by decide⟩

end CoAkka.Codec
