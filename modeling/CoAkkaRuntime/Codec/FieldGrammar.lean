import CoAkkaRuntime.Codec.ReadSpec

/-!
# Codec — the grammar of each `FieldReader` method

Each method of `FieldReader` parses a grammar built from the bodies of `Base128.Field`:
`readVarintRaw` a 64-bit group, `readBytes` a length and its content, `skip` any body of
the type it is given, `nextTag` a tag with a non-zero field number. The only loop is
`readVarintLoop`; its induction carries the continuation bytes already accumulated.

* `readVarintRaw_reads`, `readBytes_reads`, `readString_reads`, `skip_reads`, `nextTag_spec` — one
  specification per method of the reader. Nothing after this module unfolds the methods.
* `varintGrammarAfter` — a group that is entered in the middle, which is what the loop of
  `readVarintRaw` needs for its induction: the shift says how many bytes are behind it.
-/

namespace CoAkka.Codec

open Base128 Throwing

/-! ## 64-bit arithmetic of the accumulator

The loop shifts seven bits at a time into a 64-bit word; the tenth byte has room for one bit.
-/

/-- A byte ends a group exactly where its first bit is clear. -/
theorem byte_continues_iff (b : UInt8) : b &&& 0x80 = 0 ↔ b < 128 := by
  have h : ∀ i : Fin UInt8.size, UInt8.ofFin i &&& 0x80 = 0 ↔ UInt8.ofFin i < 128 := by
    decide +kernel
  exact h b.toFin

/-- What it contributes are its other seven bits. -/
theorem toNat_low_bits (b : UInt8) : (b &&& 0x7f).toUInt64.toNat = b.toNat % 128 := by
  have h : ∀ i : Fin UInt8.size,
      (UInt8.ofFin i &&& 0x7f).toUInt64.toNat = (UInt8.ofFin i).toNat % 128 := by
    decide +kernel
  exact h b.toFin

/-- OR-ing seven fresh bits in above an accumulator is addition, as long as they fit. -/
theorem toNat_or_shiftLeft {result shift x : UInt64} {k : Nat} (hshift : shift.toNat = k)
    (hk : k < 64) (hresult : result.toNat < 2 ^ k) (hfit : x.toNat * 2 ^ k < 2 ^ 64) :
    (result ||| x <<< shift).toNat = result.toNat + x.toNat * 2 ^ k := by
  rw [UInt64.toNat_or, UInt64.toNat_shiftLeft, hshift, Nat.mod_eq_of_lt hk, Nat.shiftLeft_eq,
    Nat.mod_eq_of_lt hfit, Nat.or_comm, Nat.mul_comm, ← Nat.two_pow_add_eq_or_of_lt hresult]
  omega

/-! The loop has `k` bytes behind it when `shift` is `7 * k`; the tenth byte may hold one bit. -/

section Shift

variable {b : UInt8} {shift : UInt64} {k : Nat}

/-- The loop is at its last byte exactly where its shift is 63. -/
theorem shift_eq_last_iff (hshift : shift.toNat = 7 * k) : shift = 63 ↔ k = 9 := by
  rw [← UInt64.toNat_inj, hshift]
  simp only [UInt64.reduceToNat]
  omega

/-- The seven bits of a byte that passed the tenth-byte check still fit. -/
theorem low_bits_fit (hk : k ≤ 9) (hsmall : k = 9 → b.toNat ≤ 1) :
    b.toNat % 128 * 2 ^ (7 * k) < 2 ^ 64 := by
  rcases Nat.lt_or_ge k 9 with h8 | h9
  · have hle : (2 : Nat) ^ (7 * k) ≤ 2 ^ 56 := Nat.pow_le_pow_right (by decide) (by omega)
    have hmod := Nat.mod_lt b.toNat (show 0 < 128 by decide)
    calc b.toNat % 128 * 2 ^ (7 * k) ≤ 127 * 2 ^ 56 := Nat.mul_le_mul (by omega) hle
      _ < 2 ^ 64 := by decide
  · have hnine : k = 9 := by omega
    have := hsmall hnine
    rw [hnine]
    omega

/-- A continuation byte that passed the check is not the tenth. -/
theorem lt_nine_of_continues (hk : k ≤ 9) (hsmall : k = 9 → b.toNat ≤ 1) (hmore : ¬ b < 128) :
    k < 9 := by
  by_contra hge
  have := hsmall (by omega)
  rw [UInt8.lt_iff_toNat_lt] at hmore
  simp only [UInt8.reduceToNat] at hmore
  omega

theorem toNat_next_shift (hshift : shift.toNat = 7 * k) (hk : k < 9) :
    (shift + 7).toNat = 7 * (k + 1) := by
  rw [UInt64.toNat_add, hshift]
  simp only [UInt64.reduceToNat]
  omega

/-- Before that the next shift is still one. -/
theorem not_overshift (hshift : shift.toNat = 7 * k) (hk : k < 9) : ¬ shift + 7 ≥ 64 := by
  rw [ge_iff_le, UInt64.le_iff_toNat_le, toNat_next_shift hshift hk]
  simp only [UInt64.reduceToNat]
  omega

end Shift

/-! ## `readVarintRaw` -/

/-- What `readVarintRaw` parses: a 64-bit base-128 group, overlong ones included. -/
def varintGrammar : Grammar UInt64 := fun v seg => ∃ g : Varint64, g.bytes = seg ∧ g.value = v.toNat

/-- Where a varint ends is known from its bytes. -/
theorem varintGrammar_prefixFree : varintGrammar.PrefixFree := by
  rintro a b _ _ u v ⟨g, rfl, ha⟩ ⟨g', rfl, hb⟩ h
  obtain ⟨rfl, _⟩ := Varint.append_inj h
  exact ⟨UInt64.toNat_inj.mp (by rw [← ha, ← hb]), rfl⟩

/-- What the loop still has to find when the continuation bytes `acc` are behind it. -/
def varintGrammarAfter (acc : List UInt8) : Grammar UInt64 := fun v seg => varintGrammar v (acc ++ seg)

section After

variable {acc : List UInt8}

/-- Continuation bytes alone are no group: more bytes are needed. -/
theorem not_varintGrammarAfter_nil (hacc : AllContinue acc) (v : UInt64) :
    ¬ varintGrammarAfter acc v [] := by
  rintro ⟨g, hg, _⟩
  have := g.isGroup
  rw [hg, hacc.isGroup_append] at this
  exact isGroup_nil this

/-- Nine bytes carry 63 bits: a tenth byte ends the group and holds at most the last one. -/
theorem varintGrammarAfter_tenth (hacc : AllContinue acc) (hnine : acc.length = 9) {v : UInt64}
    {b : UInt8} {seg : List UInt8} (h : varintGrammarAfter acc v (b :: seg)) : b.toNat ≤ 1 := by
  obtain ⟨g, hg, _⟩ := h
  have hten := g.length_le
  rw [hg, List.length_append, List.length_cons] at hten
  have hseg : seg = [] := List.length_eq_zero_iff.mp (by omega)
  subst hseg
  have hgroup := g.isGroup
  rw [hg, hacc.isGroup_append] at hgroup
  have hfinal : b < 128 := by
    by_contra hc
    exact isGroup_nil ((isGroup_more hc []).mp hgroup)
  have hfit := g.value_lt
  rw [hg, value_append, hnine, value_cons, value_nil] at hfit
  rw [UInt8.lt_iff_toNat_lt] at hfinal
  simp only [UInt8.reduceToNat] at hfinal
  omega

/-- A further continuation byte moves from the unread bytes into the accumulated ones. -/
theorem ReadSpec.varintGrammarAfter_cons {tail : List UInt8} {b : UInt8} {r : FieldReader}
    {out : Except Fault UInt64 × FieldReader} (hrest : r.rest = b :: tail)
    (hacc : AllContinue acc) (h : ReadSpec (varintGrammarAfter (acc ++ [b])) (r.advance 1) out) :
    ReadSpec (varintGrammarAfter acc) r out := by
  have htail : (r.advance 1).rest = tail := FieldReader.rest_advance (show r.rest = [b] ++ tail from hrest)
  cases h with
  | read seg tail' hrest' ha =>
    rw [FieldReader.advance_advance, Nat.add_comm, ← List.length_cons (a := b)]
    refine .read (b :: seg) tail' ?_ ?_
    · rw [hrest, ← htail, hrest', List.cons_append]
    · simpa [varintGrammarAfter, List.append_assoc] using ha
  | refused hbytes hoffset hvalid hno =>
    refine .refused hbytes (Nat.le_trans (Nat.le_add_right _ _) hoffset) hvalid ?_
    intro v seg tail' hsplit hv
    cases seg with
    | nil => exact not_varintGrammarAfter_nil hacc v hv
    | cons c seg =>
      rw [hrest, List.cons_append, List.cons.injEq] at hsplit
      obtain ⟨rfl, hsplit⟩ := hsplit
      refine hno v seg tail' (htail.trans hsplit) ?_
      simpa [varintGrammarAfter, List.append_assoc] using hv

/-- One accumulation step: the new `result` is the value of the bytes read so far. -/
theorem toNat_accumulate {b : UInt8} {result shift : UInt64} (hlen : acc.length ≤ 9)
    (hsmall : acc.length = 9 → b.toNat ≤ 1) (hshift : shift.toNat = 7 * acc.length)
    (hresult : result.toNat = Base128.value acc) :
    (result ||| (b &&& 0x7f).toUInt64 <<< shift).toNat = Base128.value (acc ++ [b]) := by
  have hvalue : result.toNat < 2 ^ (7 * acc.length) := by
    rw [hresult, pow_mul]
    exact Base128.value_lt acc
  rw [toNat_or_shiftLeft hshift (by omega) hvalue
      (by rw [toNat_low_bits]; exact low_bits_fit hlen hsmall),
    toNat_low_bits, hresult, value_append, value_cons, value_nil,
    show (128 : Nat) = 2 ^ 7 from rfl, ← pow_mul]
  ring

end After

/-- **The loop.** With the continuation bytes `acc` accumulated in `result` and `shift` seven
bits past each of them, the loop parses the rest of the group. Induction on the fuel. -/
theorem readVarintLoop_spec (fuel : Nat) :
    ∀ (acc : List UInt8) (result shift : UInt64) (r : FieldReader), r.Valid →
      r.rest.length < fuel → AllContinue acc → acc.length ≤ 9 →
      shift.toNat = 7 * acc.length → result.toNat = Base128.value acc →
      ReadSpec (varintGrammarAfter acc) r (exec (FieldReader.readVarintLoop fuel result shift) r) := by
  induction fuel with
  | zero => intro _ _ _ r _ hfuel; exact absurd hfuel (Nat.not_lt_zero _)
  | succ fuel ih =>
    intro acc result shift r hr hfuel hacc hlen hshift hresult
    rw [FieldReader.readVarintLoop, exec_get_bind]
    cases hrest : r.rest with
    | nil =>
      -- the buffer ends inside the group
      rw [if_neg ((FieldReader.rest_eq_nil_iff hr).mp hrest), exec_raise]
      refine .throw hr fun v seg tail hsplit => ?_
      obtain ⟨rfl, rfl⟩ := List.append_eq_nil_iff.mp (hrest.symm.trans hsplit).symm
      exact not_varintGrammarAfter_nil hacc v
    | cons b tail =>
      have hlt : r.offset < r.bytes.count := by
        by_contra hge
        rw [(FieldReader.rest_eq_nil_iff hr).mpr hge] at hrest
        simp at hrest
      have hbyte : r.bytes.bytes[r.offset]? = some b := by
        have := congrArg List.head? hrest
        rwa [FieldReader.rest, List.head?_drop] at this
      have hcount := r.bytes.count_lt
      rw [if_pos hlt, exec_subscript_bind r hbyte,
        exec_addInt_bind r (show r.offset + 1 < 2 ^ 63 by unfold Data.count at hlt; omega),
        exec_setOffset_bind]
      rw [show ({ r with offset := r.offset + 1 } : FieldReader) = r.advance 1 from rfl]
      have hvalid : (r.advance 1).Valid := hlt
      have hnine := shift_eq_last_iff hshift
      by_cases hbig : ¬ (shift ≠ 63 ∨ b ≤ 1)
      · -- the tenth byte is too large for any group
        rw [if_pos hbig, exec_raise_bind]
        rw [not_or, not_not, hnine, UInt8.le_iff_toNat_le] at hbig
        refine .refused rfl (Nat.le_add_right _ _) hvalid fun v seg tail' hsplit hv => ?_
        cases seg with
        | nil => exact not_varintGrammarAfter_nil hacc v hv
        | cons c seg =>
          rw [hrest, List.cons_append, List.cons.injEq] at hsplit
          obtain ⟨rfl, _⟩ := hsplit
          exact hbig.2 (varintGrammarAfter_tenth hacc hbig.1 hv)
      · rw [if_neg hbig]
        have hsmall : acc.length = 9 → b.toNat ≤ 1 := by
          intro h9
          rw [not_not, ← imp_iff_not_or, hnine, UInt8.le_iff_toNat_le] at hbig
          exact hbig h9
        have hsum := toNat_accumulate hlen hsmall hshift hresult
        by_cases hlast : b < 128
        · -- the final byte: the loop returns right behind it
          simp only [(byte_continues_iff b).mpr hlast, if_true, exec_pure]
          have hfits : Base128.value (acc ++ [b]) < 2 ^ 64 := hsum ▸ UInt64.toNat_lt _
          have hten : (acc ++ [b]).length ≤ 10 := by rw [List.length_append, List.length_singleton]; omega
          exact .read [b] tail hrest
            ⟨⟨acc ++ [b], hacc.isGroup_concat hlast, hten, hfits⟩, rfl, hsum.symm⟩
        · -- a continuation byte: fewer than nine came before it, so `shift` stays below 64
          have hcont : ¬ (b &&& 0x80 = 0) := fun h => hlast ((byte_continues_iff b).mp h)
          have h8 := lt_nine_of_continues hlen hsmall hlast
          have hshift' : (shift + 7).toNat = 7 * (acc ++ [b]).length := by
            rw [List.length_append]
            exact toNat_next_shift hshift h8
          have hmore := not_overshift hshift h8
          simp only [hcont, if_false, hmore]
          refine .varintGrammarAfter_cons hrest hacc ?_
          refine ih (acc ++ [b]) _ _ (r.advance 1) hvalid ?_ (hacc.concat hlast) ?_ hshift' hsum
          · have hlength := FieldReader.length_rest (r := r)
            rw [FieldReader.length_rest, FieldReader.advance_bytes, FieldReader.advance_offset]
            omega
          · rw [List.length_append, List.length_singleton]
            omega

/-- **`readVarintRaw` reads the varints**, and nothing else. -/
theorem readVarintRaw_reads : Reads varintGrammar FieldReader.readVarintRaw := by
  intro r hr
  rw [FieldReader.readVarintRaw, exec_get_bind]
  refine (readVarintLoop_spec _ [] 0 0 r hr ?_ (by simp) (by simp) rfl rfl).congr fun v seg _ => ?_
  · rw [FieldReader.length_rest]
    omega
  · rfl

/-! ## The typed reads -/

/-- `readVarint`: a group, if the tag announced one. -/
theorem readVarint_reads (expected : Nat) :
    Reads (fun v seg => expected = 0 ∧ varintGrammar v seg) (FieldReader.readVarint expected) := by
  unfold FieldReader.readVarint fieldVarint
  by_cases h : expected = 0
  · simp only [h, not_true, if_false, true_and]
    exact readVarintRaw_reads
  · simp only [h, not_false_eq_true, if_true, false_and]
    intro r hr
    rw [exec_raise_bind]
    exact .throw hr fun _ _ _ _ => id

/-- `readBytes`: a length and that many bytes, if the tag announced them. -/
def bytesGrammar (expected : Nat) : Grammar Data := fun content seg =>
  expected = 2 ∧ ∃ (len : Varint64) (hlen : len.value = content.bytes.length),
    (Body.bytes len content.bytes hlen).wire = seg

/-- Where length-delimited content ends is known too. -/
theorem bytesGrammar_prefixFree (expected : Nat) : (bytesGrammar expected).PrefixFree := by
  rintro a b _ _ u v ⟨_, len, hlen, rfl⟩ ⟨_, len', hlen', rfl⟩ h
  obtain ⟨hbody, _⟩ := Body.append_inj (a := .bytes len a.bytes hlen) (b := .bytes len' b.bytes hlen') rfl h
  rw [Body.bytes.injEq] at hbody
  exact ⟨Data.ext hbody.2, by simp only [hbody]⟩

/-- The content behind a length that has been read. -/
def contentGrammar (length : UInt64) : Grammar Data := fun content seg =>
  content.bytes = seg ∧ length.toNat = seg.length

/-- Length-delimited content is its length and as many bytes. -/
theorem seq_contentGrammar_iff (content : Data) (seg : List UInt8) :
    varintGrammar.seq contentGrammar content seg ↔ bytesGrammar 2 content seg := by
  constructor
  · rintro ⟨length, s, t, ⟨g, rfl, hg⟩, ⟨rfl, hlen⟩, rfl⟩
    exact ⟨rfl, g, by rw [hg, hlen], rfl⟩
  · rintro ⟨_, g, hlen, rfl⟩
    have hg : (UInt64.ofNat g.value).toNat = g.value := by
      rw [UInt64.toNat_ofNat']
      exact Nat.mod_eq_of_lt g.value_lt_two_pow
    exact ⟨UInt64.ofNat g.value, g.bytes, content.bytes, ⟨g, rfl, hg.symm⟩, ⟨rfl, by rw [hg, hlen]⟩, rfl⟩

/-- Behind a length, `readBytes` returns exactly that many bytes, or throws when fewer are left.
A length `Int` cannot hold is longer than every buffer. -/
theorem readBytes_reads (expected : Nat) :
    Reads (bytesGrammar expected) (FieldReader.readBytes expected) := by
  unfold FieldReader.readBytes fieldBytes
  by_cases h : expected = 2
  · subst h
    simp only [not_true, if_false]
    refine (Reads.bind varintGrammar_prefixFree readVarintRaw_reads ?_).congr
      fun content seg _ => seq_contentGrammar_iff content seg
    intro length r hr
    have hcount := r.bytes.count_lt
    have hlength := FieldReader.length_rest (r := r)
    have hvalid := hr
    unfold FieldReader.Valid at hvalid
    rw [exec_get_bind]
    -- the length must be an `Int` and must fit into what is left; each failure refuses the buffer
    by_cases hint : length.toNat < 2 ^ 63
    · simp only [intExactly, if_pos hint]
      by_cases hfits : length.toNat ≤ r.bytes.count - r.offset
      · have hbound : r.offset + length.toNat ≤ r.bytes.count := by omega
        simp only [hfits, not_true, if_false]
        rw [exec_addInt_bind r (by unfold Data.count at hbound; omega),
          exec_subrange_bind r ⟨Nat.le_add_right _ _, hbound⟩, exec_setOffset_bind, exec_pure]
        have htake : (r.rest.take length.toNat).length = length.toNat := by
          rw [List.length_take, hlength]
          omega
        have hread := ReadSpec.read (P := contentGrammar length) (r := r)
          (a := r.bytes.slice r.offset (r.offset + length.toNat))
          _ _ (List.take_append_drop length.toNat r.rest).symm
          ⟨by simp [Data.slice, FieldReader.rest], htake.symm⟩
        rwa [htake] at hread
      · simp only [hfits, not_false_eq_true, if_true, exec_raise_bind]
        -- content of that length would not fit either
        refine .throw hr fun content seg tail hsplit hcontent => hfits ?_
        have hlen := hcontent.2
        have := congrArg List.length hsplit
        rw [hlength, List.length_append] at this
        omega
    · simp only [intExactly, if_neg hint, exec_raise]
      refine .throw hr fun content seg tail hsplit hcontent => hint ?_
      have hlen := hcontent.2
      have := congrArg List.length hsplit
      rw [hlength, List.length_append] at this
      unfold Data.count at this
      omega
  · simp only [h, not_false_eq_true, if_true]
    intro r hr
    rw [exec_raise_bind]
    exact .throw hr fun _ _ _ _ hg => h hg.1

/-- `readString`: a length-delimited body whose content is UTF-8. -/
theorem readString_reads (expected : Nat) :
    Reads (fun text seg => ∃ content, bytesGrammar expected content seg ∧ content.utf8? = some text)
      (FieldReader.readString expected) := by
  unfold FieldReader.readString
  refine (Reads.bind (Q := fun content text seg => content.utf8? = some text ∧ seg = [])
    (bytesGrammar_prefixFree expected) (readBytes_reads expected) ?_).congr ?_
  · intro content
    cases hutf8 : content.utf8? with
    | some text =>
      refine (Reads.pure text).congr fun a seg _ => ?_
      rw [Option.some.injEq, eq_comm]
    | none => exact Reads.raise _ fun a seg h => absurd h.1 (by simp)
  · intro text seg _
    constructor
    · rintro ⟨content, s, t, hs, ⟨htext, rfl⟩, rfl⟩
      exact ⟨content, by rwa [List.append_nil], htext⟩
    · rintro ⟨content, hs, htext⟩
      exact ⟨content, seg, [], hs, ⟨htext, rfl⟩, (List.append_nil seg).symm⟩

/-! ## Skipping

A field of an unknown number is read past by its wire type.
-/

/-- `skip`: any body of the announced type. -/
def bodyGrammar (type : Nat) : Grammar Unit := fun _ seg =>
  ∃ body : Body, body.wireType = type ∧ body.wire = seg

/-- A fixed-size body is skipped by moving the offset. -/
theorem skip_fixed {r : FieldReader} (hr : r.Valid) {size : Nat} :
    ReadSpec (fun (_ : Unit) seg => seg.length = size) r
      (exec (do
        if ¬ size ≤ r.bytes.count - r.offset then
          raise "truncated fixed field"
        setOffset (← addInt r.offset size)) r) := by
  have hlength := FieldReader.length_rest (r := r)
  have hcount := r.bytes.count_lt
  have hvalid := hr
  unfold FieldReader.Valid at hvalid
  by_cases hfits : size ≤ r.bytes.count - r.offset
  · simp only [hfits, not_true, if_false]
    rw [exec_addInt_bind r (by unfold Data.count at hfits hvalid; omega), exec_setOffset]
    have htake : (r.rest.take size).length = size := by
      rw [List.length_take, hlength]
      omega
    have hread := ReadSpec.read (P := fun (_ : Unit) seg => seg.length = size) (r := r) (a := ())
      _ _ (List.take_append_drop size r.rest).symm htake
    rwa [htake] at hread
  · simp only [hfits, not_false_eq_true, if_true, exec_raise_bind]
    refine .throw hr fun _ seg tail hsplit hseg => hfits ?_
    have := congrArg List.length hsplit
    rw [hlength, List.length_append] at this
    omega

/-- Reading a value and dropping it. -/
theorem Reads.ignore {α : Type} {P : Grammar α} (hP : P.PrefixFree) {x : FieldM α}
    (hx : Reads P x) : Reads (fun (_ : Unit) seg => ∃ a, P a seg) (do let _ ← x) := by
  refine (Reads.bind (Q := fun _ _ seg => seg = []) hP hx
    fun _ => (Reads.pure ()).congr fun _ seg _ => by simp).congr fun _ seg _ => ?_
  constructor
  · rintro ⟨a, s, t, ha, rfl, rfl⟩
    exact ⟨a, by rwa [List.append_nil]⟩
  · rintro ⟨a, ha⟩
    exact ⟨a, seg, [], ha, rfl, (List.append_nil seg).symm⟩

/-- The bodies of each wire type, as they are skipped. -/
theorem bodyGrammar_varint (seg : List UInt8) : (∃ v, varintGrammar v seg) ↔ bodyGrammar 0 () seg := by
  constructor
  · rintro ⟨v, g, rfl, _⟩
    exact ⟨.varint g, rfl, rfl⟩
  · rintro ⟨body, htype, rfl⟩
    cases body with
    | varint g =>
      refine ⟨UInt64.ofNat g.value, g, rfl, ?_⟩
      rw [UInt64.toNat_ofNat']
      exact (Nat.mod_eq_of_lt g.value_lt_two_pow).symm
    | fixed64 | bytes | fixed32 => simp [Body.wireType] at htype

theorem bodyGrammar_bytes {seg : List UInt8} (hseg : seg.length < 2 ^ 63) :
    (∃ content, bytesGrammar 2 content seg) ↔ bodyGrammar 2 () seg := by
  constructor
  · rintro ⟨content, _, len, hlen, rfl⟩
    exact ⟨.bytes len content.bytes hlen, rfl, rfl⟩
  · rintro ⟨body, htype, rfl⟩
    cases body with
    | bytes len content hlen =>
      have hcount : content.length < 2 ^ 63 := by
        rw [Body.wire, List.length_append] at hseg
        omega
      exact ⟨⟨content, hcount⟩, rfl, len, hlen, rfl⟩
    | varint | fixed64 | fixed32 => simp [Body.wireType] at htype

theorem bodyGrammar_fixed64 (seg : List UInt8) : seg.length = 8 ↔ bodyGrammar 1 () seg := by
  constructor
  · exact fun h => ⟨.fixed64 seg h, rfl, rfl⟩
  · rintro ⟨body, htype, rfl⟩
    cases body with
    | fixed64 raw hraw => exact hraw
    | varint | bytes | fixed32 => simp [Body.wireType] at htype

theorem bodyGrammar_fixed32 (seg : List UInt8) : seg.length = 4 ↔ bodyGrammar 5 () seg := by
  constructor
  · exact fun h => ⟨.fixed32 seg h, rfl, rfl⟩
  · rintro ⟨body, htype, rfl⟩
    cases body with
    | fixed32 raw hraw => exact hraw
    | varint | bytes | fixed64 => simp [Body.wireType] at htype

/-- `skip` reads one body of the announced type and refuses every type without one. -/
theorem skip_reads (type : Nat) : Reads (bodyGrammar type) (FieldReader.skip type) := by
  unfold FieldReader.skip fieldVarint fieldBytes
  by_cases hvarint : type = 0
  · subst hvarint
    rw [if_pos rfl]
    exact (Reads.ignore varintGrammar_prefixFree readVarintRaw_reads).congr
      fun _ seg _ => bodyGrammar_varint seg
  by_cases hbytes : type = 2
  · subst hbytes
    rw [if_neg hvarint, if_pos rfl]
    exact (Reads.ignore (bytesGrammar_prefixFree 2) (readBytes_reads 2)).congr
      fun _ seg hseg => bodyGrammar_bytes hseg
  rw [if_neg hvarint, if_neg hbytes]
  by_cases hfixed64 : type = 1
  · subst hfixed64
    exact fun r hr => (skip_fixed hr).congr fun _ seg _ => bodyGrammar_fixed64 seg
  by_cases hfixed32 : type = 5
  · subst hfixed32
    exact fun r hr => (skip_fixed hr).congr fun _ seg _ => bodyGrammar_fixed32 seg
  rw [if_neg (by omega)]
  refine Reads.raise _ ?_
  rintro _ _ ⟨body, htype, _⟩
  cases body <;> simp [Body.wireType] at htype <;> omega

/-! ## Tags -/

/-- A tag group and the number and type it carries; field number zero is no tag. -/
def tagGrammar : Grammar (Option FieldTag) := fun tag seg => ∃ g : Varint64,
  g.bytes = seg ∧ g.value / 8 ≠ 0 ∧ tag = some ⟨g.value / 8, g.value % 8⟩

/-- A tag is the number of its field and a wire type. -/
theorem toNat_tag_number (value : UInt64) : (value >>> 3).toNat = value.toNat / 8 := by
  rw [UInt64.toNat_shiftRight]
  simp [Nat.shiftRight_eq_div_pow]

theorem toNat_tag_type (value : UInt64) : (value &&& 0x7).toNat = value.toNat % 8 := by
  rw [UInt64.toNat_and]
  exact Nat.and_two_pow_sub_one_eq_mod value.toNat 3

/-- At the end of the buffer there is no further tag. -/
theorem nextTag_end {r : FieldReader} (hr : r.Valid) (hrest : r.rest = []) :
    exec FieldReader.nextTag r = (.ok none, r) := by
  rw [FieldReader.nextTag, exec_get_bind]
  simp only [(FieldReader.rest_eq_nil_iff hr).mp hrest, not_false_eq_true, if_true, exec_pure]

/-- Before it, `nextTag` reads a tag or throws. -/
theorem nextTag_spec {r : FieldReader} (hr : r.Valid) (hrest : r.rest ≠ []) :
    ReadSpec tagGrammar r (exec FieldReader.nextTag r) := by
  rw [FieldReader.nextTag, exec_get_bind]
  have hmore : r.offset < r.bytes.count := by
    by_contra h
    exact hrest ((FieldReader.rest_eq_nil_iff hr).mpr h)
  simp only [hmore, not_true, if_false]
  refine (ReadSpec.bind (Q := fun value tag seg => seg = [] ∧ value.toNat / 8 ≠ 0 ∧
      tag = some ⟨value.toNat / 8, value.toNat % 8⟩)
    varintGrammar_prefixFree (readVarintRaw_reads r hr) ?_).congr ?_
  · intro value seg tail _ hsplit
    have hvalid := hr.advance hsplit
    generalize r.advance seg.length = r' at hvalid
    have hshift := toNat_tag_number value
    have hlow := toNat_tag_type value
    have hzero : value >>> 3 = 0 ↔ value.toNat / 8 = 0 := by
      rw [← UInt64.toNat_inj, hshift]
      rfl
    have hlt := value.toNat_lt
    -- a field number of zero is refused after the group was read
    by_cases hnum : value >>> 3 = 0
    · simp only [hnum, ne_eq, not_true, not_false_eq_true, if_true, exec_raise_bind]
      refine .throw hvalid ?_
      rintro _ _ _ _ ⟨_, hne, _⟩
      exact hne (hzero.mp hnum)
    · simp only [ne_eq, hnum, not_false_eq_true, not_true, if_false]
      rw [exec_intOf_bind r' (by rw [hshift]; omega), exec_intOf_bind r' (by rw [hlow]; omega),
        hshift, hlow, exec_pure]
      exact .read [] r'.rest rfl ⟨rfl, fun h => hnum (hzero.mpr h), rfl⟩
  · -- a group with nothing behind it is a tag, and a tag is such a group
    intro tag seg _
    constructor
    · rintro ⟨value, s, t, ⟨g, rfl, hg⟩, ⟨rfl, hne, rfl⟩, rfl⟩
      exact ⟨g, (List.append_nil _).symm, by rwa [hg], by rw [hg]⟩
    · rintro ⟨g, rfl, hne, rfl⟩
      have hg : (UInt64.ofNat g.value).toNat = g.value := by
        rw [UInt64.toNat_ofNat']
        exact Nat.mod_eq_of_lt g.value_lt_two_pow
      exact ⟨UInt64.ofNat g.value, g.bytes, [], ⟨g, rfl, hg.symm⟩, ⟨rfl, by rwa [hg], by rw [hg]⟩,
        (List.append_nil _).symm⟩

/-- A tag is at least one byte long. -/
theorem nextTag_progress {r r' : FieldReader} {tag : Option FieldTag} (hr : r.Valid)
    (hmore : r.offset < r.bytes.count) (hrun : exec FieldReader.nextTag r = (.ok tag, r')) :
    tag.isSome ∧ r.offset < r'.offset := by
  have htag := nextTag_spec hr (mt (FieldReader.rest_eq_nil_iff hr).mp (not_not.mpr hmore))
  rw [hrun] at htag
  cases htag with
  | read seg tail hrest ha =>
    obtain ⟨g, rfl, _, rfl⟩ := ha
    exact ⟨rfl, Nat.lt_add_of_pos_right g.length_pos⟩

end CoAkka.Codec
