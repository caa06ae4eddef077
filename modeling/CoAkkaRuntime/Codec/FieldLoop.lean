import CoAkkaRuntime.Codec.EnvelopeCodec
import CoAkkaRuntime.Codec.FieldGrammar

/-!
# Codec — the field loop reads a whole buffer

`fieldLoop` accepts a buffer exactly when it is a concatenation of complete fields that the
loop's body accepts one after the other. What the body does with one field is given as a
function `absorb` of the accumulator, the field number and the body read
(`FieldSpec`); the loop is then the left fold of `absorb` over the fields of the buffer.

* `Absorb` — what the body of a loop does with one field, as a function of the record it builds.
* `LoopSpec.cons` — one turn of the loop.
* `fieldLoop_spec` — the whole loop, by induction on the fuel; each turn moves the offset, so the
  length of the buffer is fuel enough (`decodeFields_total`).
* `decodeFields_ok_iff` — the loop accepts a buffer exactly where its fields are absorbed one by
  one.
-/

namespace CoAkka.Codec

open Base128 Throwing

section Loop

variable {σ : Type}

/-- The body of a loop, described field by field: `absorb state number body` is the accumulator
after the field, or `none` when the field is refused. -/
abbrev Absorb (σ : Type) := σ → Nat → Body → Option σ

/-- Absorbing one complete field. -/
def Absorb.field (absorb : Absorb σ) (state : σ) (f : Field) : Option σ :=
  absorb state f.number f.body

/-- Absorbing a sequence of fields, first to last. -/
def Absorb.fields (absorb : Absorb σ) (state : σ) (fields : List Field) : Option σ :=
  fields.foldlM absorb.field state

theorem Absorb.fields_nil (absorb : Absorb σ) (state : σ) : absorb.fields state [] = some state := rfl

theorem Absorb.fields_cons (absorb : Absorb σ) (state : σ) (f : Field) (fields : List Field) :
    absorb.fields state (f :: fields)
      = (absorb state f.number f.body).bind fun state' => absorb.fields state' fields := rfl

/-- `field` reads the body its tag announces and absorbs it. -/
def FieldSpec (absorb : Absorb σ) (field : FieldTag → σ → FieldM σ) : Prop :=
  ∀ tag state, Reads (fun state' seg => ∃ body : Body,
    body.wireType = tag.type ∧ body.wire = seg ∧ absorb state tag.number body = some state')
    (field tag state)

variable {absorb : Absorb σ} {field : FieldTag → σ → FieldM σ}

/-- What a run of the loop may do: absorb every field up to the end of the buffer, or throw
because the unread bytes are not such a sequence of fields. -/
inductive LoopSpec (absorb : Absorb σ) (state : σ) (r : FieldReader) :
    Except Fault σ × FieldReader → Prop where
  | done (fields : List Field) (state' : σ) (hrest : r.rest = wire fields)
      (habsorb : absorb.fields state fields = some state') :
      LoopSpec absorb state r (.ok state', r.advance r.rest.length)
  | refused {error : RuntimeError} {r' : FieldReader} (hbytes : r'.bytes = r.bytes)
      (hoffset : r.offset ≤ r'.offset) (hvalid : r'.Valid)
      (hno : ∀ fields, r.rest = wire fields → absorb.fields state fields = none) :
      LoopSpec absorb state r (.error (.thrown error), r')

/-- One more field in front of what the loop goes on to read. -/
theorem LoopSpec.cons {state state₁ : σ} {r : FieldReader} {f : Field} {tail : List UInt8}
    (hrest : r.rest = f.wire ++ tail) (hf : absorb state f.number f.body = some state₁)
    {out : Except Fault σ × FieldReader} (h : LoopSpec absorb state₁ (r.advance f.wire.length) out) :
    LoopSpec absorb state r out := by
  have htail := FieldReader.rest_advance hrest
  cases h with
  | done fields state' hrest' habsorb =>
    have hall : r.rest = wire (f :: fields) := by
      rw [hrest, wire_cons, ← hrest', htail]
    have hlen : (r.advance f.wire.length).advance (r.advance f.wire.length).rest.length
        = r.advance r.rest.length := by
      rw [FieldReader.advance_advance, htail, hrest, List.length_append]
    rw [hlen]
    refine .done (f :: fields) state' hall ?_
    rw [Absorb.fields_cons, hf]
    exact habsorb
  | refused hbytes hoffset hvalid hno =>
    refine .refused hbytes (Nat.le_trans (Nat.le_add_right _ _) hoffset) hvalid ?_
    intro fields hfields
    cases fields with
    | nil =>
      have hlength := congrArg List.length (hrest.symm.trans hfields)
      have hpos := f.length_wire_pos
      rw [wire_nil, List.length_append, List.length_nil] at hlength
      omega
    | cons g more =>
      obtain ⟨rfl, hmore⟩ := Field.append_inj (hrest.symm.trans hfields)
      rw [Absorb.fields_cons, hf]
      exact hno more (htail.trans hmore)

/-- **The loop.** With fuel for every unread byte, `fieldLoop` absorbs the fields of the rest of
the buffer or throws. Induction on the fuel: an iteration consumes a whole field. -/
theorem fieldLoop_spec (hfield : FieldSpec absorb field) (fuel : Nat) :
    ∀ (state : σ) (r : FieldReader), r.Valid → r.rest.length < fuel →
      LoopSpec absorb state r (exec (fieldLoop field fuel state) r) := by
  induction fuel with
  | zero => intro _ r _ hfuel; exact absurd hfuel (Nat.not_lt_zero _)
  | succ fuel ih =>
    intro state r hr hfuel
    rw [fieldLoop]
    by_cases hend : r.rest = []
    · rw [exec_bind_ok (nextTag_end hr hend), exec_pure]
      have hdone : LoopSpec absorb state r (.ok state, r.advance r.rest.length) :=
        .done [] state hend rfl
      rwa [hend] at hdone
    · have htag := nextTag_spec hr hend
      generalize hout : exec FieldReader.nextTag r = out at htag
      cases htag with
      | refused hbytes hoffset hvalid hno =>
        rw [exec_bind_error hout]
        refine .refused hbytes hoffset hvalid fun fields hfields => ?_
        cases fields with
        | nil => exact absurd hfields hend
        | cons f more =>
          -- the first field's tag would have been read
          refine absurd ⟨f.tag, rfl, f.number_ne_zero, rfl⟩
            (hno (some ⟨f.number, f.tag.value % 8⟩) f.tag.bytes (f.body.wire ++ wire more) ?_)
          rw [hfields, wire_cons, Field.wire, List.append_assoc]
      | read seg tail hrest ha =>
        obtain ⟨g, rfl, hnumber, rfl⟩ := ha
        rw [exec_bind_ok hout]
        have hbody := hfield ⟨g.value / 8, g.value % 8⟩ state _ (hr.advance hrest)
        have htail := FieldReader.rest_advance hrest
        dsimp only
        generalize hout' : exec (field ⟨g.value / 8, g.value % 8⟩ state) (r.advance g.bytes.length)
          = out' at hbody
        cases hbody with
        | refused hbytes hoffset hvalid hno =>
          rw [exec_bind_error hout']
          refine .refused hbytes (Nat.le_trans (Nat.le_add_right _ _) hoffset) hvalid
            fun fields hfields => ?_
          cases fields with
          | nil => exact absurd hfields hend
          | cons f more =>
            have hsplit : g.bytes ++ tail = f.tag.bytes ++ (f.body.wire ++ wire more) := by
              rw [← hrest, hfields, wire_cons, Field.wire, List.append_assoc]
            obtain ⟨rfl, rfl⟩ := Varint.append_inj hsplit
            rw [Absorb.fields_cons]
            cases habsorb : absorb state f.number f.body with
            | none => rfl
            | some state' =>
              exact absurd ⟨f.body, f.type_eq.symm, rfl, habsorb⟩
                (hno state' f.body.wire (wire more) htail)
        | read seg' tail' hrest' ha' =>
          obtain ⟨body, htype, rfl, habsorb⟩ := ha'
          rw [exec_bind_ok hout']
          let f : Field := ⟨g, body, hnumber, htype.symm⟩
          have hwire : r.rest = f.wire ++ tail' := by
            rw [hrest, ← htail, hrest', ← List.append_assoc]
            rfl
          have hadvance : (r.advance g.bytes.length).advance body.wire.length
              = r.advance f.wire.length := by
            rw [FieldReader.advance_advance, ← List.length_append]
            rfl
          rw [hadvance]
          refine .cons hwire habsorb (ih _ _ (hr.advance hwire) ?_)
          have hpos := f.length_wire_pos
          rw [FieldReader.rest_advance hwire]
          rw [hwire, List.length_append] at hfuel
          omega

/-- A decoder succeeds exactly on the buffers that are a sequence of fields it absorbs. -/
theorem decodeFields_ok_iff (hfield : FieldSpec absorb field) (state state' : σ) (data : Data) :
    decodeFields field state data = .ok state'
      ↔ ∃ fields, wire fields = data.bytes ∧ absorb.fields state fields = some state' := by
  have hloop := fieldLoop_spec hfield (data.count + 1) state (.init data)
    (FieldReader.valid_init data) (Nat.lt_succ_self _)
  unfold decodeFields
  generalize exec (fieldLoop field (data.count + 1) state) (.init data) = out at hloop
  cases hloop with
  | done fields state₁ hrest habsorb =>
    rw [FieldReader.rest_init] at hrest
    constructor
    · rintro ⟨⟩
      exact ⟨fields, hrest.symm, habsorb⟩
    · rintro ⟨fields', hfields', habsorb'⟩
      obtain rfl := wire_injective (hfields'.trans hrest)
      rw [habsorb, Option.some.injEq] at habsorb'
      rw [habsorb']
  | refused hbytes hoffset hvalid hno =>
    constructor
    · rintro ⟨⟩
    · rintro ⟨fields, hfields, habsorb⟩
      rw [hno fields hfields.symm] at habsorb
      exact absurd habsorb (by simp)

/-- A decoder that does not succeed throws: it neither traps nor fails to finish. -/
theorem decodeFields_total (hfield : FieldSpec absorb field) (state : σ) (data : Data) :
    (∃ state', decodeFields field state data = .ok state')
      ∨ ∃ error, decodeFields field state data = .error (.thrown error) := by
  have hloop := fieldLoop_spec hfield (data.count + 1) state (.init data)
    (FieldReader.valid_init data) (Nat.lt_succ_self _)
  unfold decodeFields
  generalize exec (fieldLoop field (data.count + 1) state) (.init data) = out at hloop
  cases hloop with
  | done fields state' _ _ => exact .inl ⟨state', rfl⟩
  | refused _ _ _ _ => exact .inr ⟨_, rfl⟩

end Loop

end CoAkka.Codec
