import CoAkkaRuntime.Codec.DeadletterSpec
import CoAkkaRuntime.Codec.ProbedDecoder
import CoAkkaRuntime.Throwing.Simulation

/-!
# Codec — the decoders neither trap nor run on

The watched reader follows the reader of `FieldReader.lean`: the same outcomes, the same offsets,
and every probe left on the way is safe. `Follows` is that relation. Each watched method simulates
its model under it, so that what `FieldGrammar.lean` says about the models (that they advance, that
they never trap) carries over, and no probe has to be looked at twice.

* `Agree`, `Simulates` of `Throwing.Simulation` relate a decoder to its probed copy: same result,
  and every probe that was recorded is safe.
* `Follows` — the relation between the two states, a reader with a valid offset.
* `skip_follows`, `nextTag_follows`, `fieldLoop_agrees` — one lemma per operation of the reader.
* `decoders_never_trap` — for both decoders and every buffer.
-/

namespace CoAkka.Codec

open Base128 Throwing

namespace Probed

/-- The watched reader `r` is where `r'` is, in the iteration `n` of a field loop over `data`. -/
structure Follows (data : Data) (n : Nat) (r : Reader) (r' : FieldReader) : Prop where
  bytes : r.bytes = data
  bytes' : r'.bytes = data
  offset : r.offset = r'.offset
  valid : r'.offset ≤ data.count
  iterations : r.iterations = n
  safe : ∀ p ∈ r.probes, p.Safe

section Follows

variable {data : Data} {n : Nat} {r : Reader} {r' : FieldReader}

/-- A safe probe keeps the two readers together. -/
theorem Follows.note (h : Follows data n r r') {p : Probe} (hp : p.Safe) :
    Follows data n (r.note p) r' where
  bytes := h.bytes
  bytes' := h.bytes'
  offset := h.offset
  valid := h.valid
  iterations := h.iterations
  safe q hq := by
    rcases List.mem_append.mp hq with hq | hq
    · exact h.safe q hq
    · rwa [List.mem_singleton.mp hq]

/-- So does a step to the same offset within the buffer. -/
theorem Follows.setOffset (h : Follows data n r r') {offset : Int} {offset' : Nat}
    (heq : offset = offset') (hoffset : offset' ≤ data.count) :
    Follows data n { r with offset } { r' with offset := offset' } where
  bytes := h.bytes
  bytes' := h.bytes'
  offset := heq
  valid := hoffset
  iterations := h.iterations
  safe := h.safe

/-- Inside the buffer, the cursor is safe to look at. -/
theorem Follows.cursor_safe (h : Follows data n r r') :
    (Probe.cursor r.offset r.bytes.count).Safe := by
  have hvalid := h.valid
  rw [h.bytes, h.offset]
  exact ⟨Int.natCast_nonneg _, Int.ofNat_le.mpr hvalid⟩

/-- The reader without probes stays within its buffer. -/
theorem Follows.reader_valid (h : Follows data n r r') : r'.Valid := by
  rw [FieldReader.Valid, h.bytes']
  exact h.valid

/-- Both readers start at the beginning, and nothing has been probed. -/
theorem Follows.init (data : Data) : Follows data 0 (.init data) (.init data) where
  bytes := rfl
  bytes' := rfl
  offset := rfl
  valid := Nat.zero_le _
  iterations := rfl
  safe _ hp := absurd hp (List.not_mem_nil)

end Follows

/-! ## Running a watched step

Each operation of the probed reader does what the operation of the reader does, and its probe is
safe under the stated bound.
-/

theorem natCast_safe {exact : Nat} (h : exact < 2 ^ 63) : (Probe.int exact).Safe := by
  constructor
  · exact Int.le_trans (by decide) (Int.natCast_nonneg exact)
  · omega

section Exec

variable {α β : Type} (r : Reader)

@[simp] theorem exec_raise (message : String) :
    exec (raise message : ProbedM α) r = (.error (.thrown (.invalidArgument message)), r) := rfl

@[simp] theorem exec_note_bind (p : Probe) (f : Unit → ProbedM β) :
    exec (note p >>= f) r = exec (f ()) (r.note p) :=
  exec_modify_bind _ _

@[simp] theorem exec_setOffset_bind (offset : Int) (f : Unit → ProbedM β) :
    exec (setOffset offset >>= f) r = exec (f ()) { r with offset } :=
  exec_modify_bind _ _

/-- Arithmetic that is safe leaves its probe and goes on, and so do the other partial operations
below. -/
theorem exec_int {exact : Int} (h : (Probe.int exact).Safe) :
    exec (int exact) r = (.ok exact, r.note (.int exact)) := by
  rw [int, exec_note_bind, if_pos (by exact h), exec_pure]

theorem exec_addInt_bind {a b : Int} (h : (Probe.int (a + b)).Safe) (f : Int → ProbedM β) :
    exec (addInt a b >>= f) r = exec (f (a + b)) (r.note (.int (a + b))) :=
  exec_bind_ok (exec_int r h) f

theorem exec_subInt_bind {a b : Int} (h : (Probe.int (a - b)).Safe) (f : Int → ProbedM β) :
    exec (subInt a b >>= f) r = exec (f (a - b)) (r.note (.int (a - b))) :=
  exec_bind_ok (exec_int r h) f

theorem exec_intOf_bind {value : UInt64} (h : (Probe.int value.toNat).Safe) (f : Int → ProbedM β) :
    exec (intOf value >>= f) r = exec (f value.toNat) (r.note (.int value.toNat)) :=
  exec_bind_ok (exec_int r h) f

/-- A value that fits is converted. -/
theorem exec_intExactly_some {value : UInt64} (h : value.toNat < 2 ^ 63) :
    exec (intExactly value) r = (.ok (some (value.toNat : Int)), r.note (.int value.toNat)) := by
  rw [intExactly, if_pos h, exec_map, exec_int r (natCast_safe h)]
  rfl

/-- One that does not is reported, without a trap. -/
theorem exec_intExactly_none {value : UInt64} (h : ¬ value.toNat < 2 ^ 63) :
    exec (intExactly value) r = (.ok none, r) := by
  rw [intExactly, if_neg h, exec_pure]

theorem exec_addUInt64_bind {a b : UInt64} (h : (Probe.uint64 (a.toNat + b.toNat)).Safe)
    (f : UInt64 → ProbedM β) :
    exec (addUInt64 a b >>= f) r = exec (f (a + b)) (r.note (.uint64 (a.toNat + b.toNat))) := by
  refine exec_bind_ok ?_ f
  rw [addUInt64, exec_note_bind, if_pos (by exact h), exec_pure]

/-- Below 64, Swift's shift is the machine's. -/
theorem exec_shiftLeft_bind {value amount : UInt64} (h : (Probe.shift value amount).Safe)
    (f : UInt64 → ProbedM β) :
    exec (shiftLeft value amount >>= f) r = exec (f (value <<< amount)) (r.note (.shift value amount)) := by
  refine exec_bind_ok ?_ f
  rw [shiftLeft, exec_note_bind, if_pos (UInt64.lt_iff_toNat_lt.mpr h.1), exec_pure]

theorem exec_subscript_bind {bytes : Data} {index : Nat} {byte : UInt8}
    (h : bytes.bytes[index]? = some byte) (f : UInt8 → ProbedM β) :
    exec (subscript bytes index >>= f) r = exec (f byte) (r.note (.subscript index bytes.count)) := by
  refine exec_bind_ok ?_ f
  rw [subscript, exec_note_bind, if_pos (Int.natCast_nonneg index), Int.toNat_natCast, h, exec_pure]

theorem exec_subrange_bind {bytes : Data} {start stop : Nat}
    (h : start ≤ stop ∧ stop ≤ bytes.count) (f : Data → ProbedM β) :
    exec (subrange bytes start stop >>= f) r
      = exec (f (bytes.slice start stop)) (r.note (.range start stop bytes.count)) := by
  refine exec_bind_ok ?_ f
  rw [subrange, exec_note_bind, if_pos ⟨Int.natCast_nonneg _, Int.ofNat_le.mpr h.1,
    Int.ofNat_le.mpr h.2⟩, Int.toNat_natCast, Int.toNat_natCast, exec_pure]

end Exec

/-- Watching a method changes nothing but the probes. -/
theorem Simulates.method {data : Data} {n : Nat} {α : Type} {x : ProbedM α} {y : FieldM α}
    (h : Simulates (Follows data n) x y) : Simulates (Follows data n) (method x) y := by
  intro r r' hr
  rw [Probed.method, exec_liftM_bind, exec_deferring]
  obtain ⟨hout, hend⟩ := h _ r' (hr.note hr.cursor_safe)
  exact ⟨hout, hend.note hend.cursor_safe⟩

/-! ## `readVarintRaw` -/

variable {data : Data} {n : Nat}

/-- What fits into the buffer fits into an `Int`. -/
theorem int_safe (exact : Nat) (h : exact ≤ data.count) : (Probe.int exact).Safe :=
  natCast_safe (Nat.lt_of_le_of_lt h data.count_lt)

/-- **The loop.** With `k` bytes behind it, it reads at most `10 - k` more. Induction on the fuel. -/
theorem readVarintLoop_agrees (fuel : Nat) {limit : Nat} :
    ∀ (k : Nat) (result shift : UInt64) (r : Reader) (r' : FieldReader), Follows data n r r' →
      k ≤ 9 → shift.toNat = 7 * k → r'.offset + (10 - k) ≤ limit →
      Agree (fun s s' => Follows data n s s' ∧ s'.offset ≤ limit)
        (exec (readVarintLoop fuel result shift) r)
        (exec (FieldReader.readVarintLoop fuel result shift) r') := by
  induction fuel with
  | zero => exact fun _ _ _ r r' hr _ _ hlimit => ⟨rfl, hr, by show r'.offset ≤ limit; omega⟩
  | succ fuel ih =>
    intro k result shift r r' hr hk hshift hlimit
    rw [readVarintLoop, FieldReader.readVarintLoop, exec_get_bind, exec_get_bind, hr.bytes, hr.bytes',
      hr.offset]
    by_cases hlt : r'.offset < data.count
    · rw [if_pos (Int.ofNat_lt.mpr hlt), if_pos hlt]
      obtain ⟨b, hbyte⟩ : ∃ b, data.bytes[r'.offset]? = some b := ⟨_, List.getElem?_eq_getElem hlt⟩
      have hsum : (Probe.int ((r'.offset : Int) + 1)).Safe := int_safe (r'.offset + 1) hlt
      rw [exec_subscript_bind r hbyte, exec_addInt_bind _ hsum, exec_setOffset_bind,
        Codec.exec_subscript_bind r' hbyte,
        Codec.exec_addInt_bind r' (show r'.offset + 1 < 2 ^ 63 by have := hsum.2; omega),
        Codec.exec_setOffset_bind]
      -- both readers are behind the byte
      have hnext := ((hr.note (p := .subscript r'.offset data.count)
        ⟨Int.natCast_nonneg _, Int.ofNat_lt.mpr hlt⟩).note hsum).setOffset
          (Int.natCast_succ _).symm (show r'.offset + 1 ≤ data.count from hlt)
      generalize ({ (r.note _).note _ with offset := (r'.offset : Int) + 1 } : Reader) = s at hnext ⊢
      generalize hs' : ({ r' with offset := r'.offset + 1 } : FieldReader) = s' at hnext ⊢
      have hlimit' : s'.offset + (10 - (k + 1)) ≤ limit := by
        rw [← hs']
        show r'.offset + 1 + (10 - (k + 1)) ≤ limit
        omega
      by_cases hbig : shift ≠ 63 ∨ b ≤ 1
      · rw [if_pos hbig, if_neg (not_not.mpr hbig)]
        have hsmall : k = 9 → b.toNat ≤ 1 := by
          intro h9
          rw [← imp_iff_not_or, shift_eq_last_iff hshift, UInt8.le_iff_toNat_le] at hbig
          exact hbig h9
        have hbits : (Probe.shift (b &&& 0x7f).toUInt64 shift).Safe := by
          refine ⟨by omega, ?_⟩
          -- seven bits at most, or the one bit of the tenth byte
          rw [toNat_low_bits, hshift]
          exact low_bits_fit hk hsmall
        rw [exec_shiftLeft_bind s hbits]
        have hshifted := hnext.note hbits
        generalize s.note _ = s at hshifted ⊢
        by_cases hlast : b < 128
        · simp only [(byte_continues_iff b).mpr hlast, if_true, exec_pure]
          exact ⟨rfl, hshifted, Nat.le_trans (Nat.le_add_right _ _) hlimit'⟩
        · have hcont : ¬ (b &&& 0x80 = 0) := fun h => hlast ((byte_continues_iff b).mp h)
          have h9 := lt_nine_of_continues hk hsmall hlast
          have hmore := not_overshift hshift h9
          have hadd : (Probe.uint64 (shift.toNat + (7 : UInt64).toNat)).Safe := by
            show shift.toNat + 7 < 2 ^ 64
            omega
          simp only [hcont, if_false]
          rw [exec_addUInt64_bind s hadd, if_neg hmore, if_neg hmore]
          exact ih (k + 1) _ _ _ s' (hshifted.note hadd) h9 (toNat_next_shift hshift h9) hlimit'
      · rw [if_neg hbig, if_pos hbig, exec_raise, Codec.exec_raise_bind]
        exact ⟨rfl, hnext, Nat.le_trans (Nat.le_add_right _ _) hlimit'⟩
    · rw [if_neg (mt Int.ofNat_lt.mp hlt), if_neg hlt]
      exact ⟨rfl, hr, by show r'.offset ≤ limit; omega⟩

/-- **The probed varint loop is the decoder's**, and each of its probes is safe: the shift stays
below 64 and the offset within the buffer. -/
theorem readVarintRaw_follows :
    Simulates (Follows data n) readVarintRaw FieldReader.readVarintRaw := by
  refine Simulates.method (Simulates.get_bind fun r r' hr => ?_)
  rw [exec_deferring, hr.bytes, hr.bytes']
  obtain ⟨hout, hend, hlimit⟩ :=
    readVarintLoop_agrees (data.count + 1) 0 0 0 r r' hr (by decide) rfl (Nat.le_refl _)
  refine ⟨hout, hend.note ?_⟩
  show (_ : Int) - r.offset ≤ 10
  rw [hend.offset, hr.offset]
  omega

/-! ## The typed reads -/

/-- The readers that are built on it follow it. -/
theorem readVarint_follows (expected : Nat) :
    Simulates (Follows data n) (readVarint expected) (FieldReader.readVarint expected) := by
  refine Simulates.method ?_
  unfold FieldReader.readVarint
  by_cases h : expected = fieldVarint
  · simp only [h, not_true, if_true, if_false]
    exact readVarintRaw_follows
  · simp only [h, not_false_eq_true, if_true, if_false]
    exact fun r r' hr => ⟨rfl, hr⟩

/-- `bytes.count - offset` is not negative. -/
theorem Follows.remaining {r : Reader} {r' : FieldReader} (hr : Follows data n r r') :
    ((r.bytes.count : Int) - r.offset = (data.count - r'.offset : Nat))
      ∧ (Probe.int ((r.bytes.count : Int) - r.offset)).Safe := by
  have hvalid := hr.valid
  have heq : (r.bytes.count : Int) - r.offset = (data.count - r'.offset : Nat) := by
    rw [hr.bytes, hr.offset]
    omega
  exact ⟨heq, heq ▸ int_safe _ (Nat.sub_le _ _)⟩

/-- Behind `size <= bytes.count - offset`, moving by `size` stays inside the buffer. -/
theorem Follows.fits {r : Reader} {r' : FieldReader} (hr : Follows data n r r') {size : Nat}
    (hfits : size ≤ data.count - r'.offset) :
    r'.offset + size ≤ data.count ∧ r'.offset + size < 2 ^ 63
      ∧ (Probe.int ((r'.offset : Int) + size)).Safe := by
  have hvalid := hr.valid
  have hbound : r'.offset + size ≤ data.count := by omega
  exact ⟨hbound, Nat.lt_of_le_of_lt hbound data.count_lt, int_safe (r'.offset + size) hbound⟩

/-- The length is compared with what is left before it is added to the offset. -/
theorem readBytes_follows (expected : Nat) :
    Simulates (Follows data n) (readBytes expected) (FieldReader.readBytes expected) := by
  refine Simulates.method ?_
  unfold FieldReader.readBytes
  by_cases h : expected = fieldBytes
  · simp only [h, not_true, if_true, if_false]
    refine readVarintRaw_follows.bind fun value r r' hr => ?_
    rw [exec_get_bind]
    by_cases hint : value.toNat < 2 ^ 63
    · rw [exec_bind_ok (exec_intExactly_some r hint)]
      have hr := hr.note (natCast_safe hint)
      generalize r.note _ = r at hr ⊢
      -- the length is an `Int`: both sides compare it with what is left
      obtain ⟨heq, hremaining⟩ := hr.remaining
      simp only [Codec.intExactly, if_pos hint]
      rw [exec_get_bind, exec_subInt_bind r hremaining, heq, hr.bytes']
      have hr := hr.note hremaining
      rw [heq] at hr
      by_cases hfits : value.toNat ≤ data.count - r'.offset
      · obtain ⟨hbound, hlt, hsum⟩ := hr.fits hfits
        have hrange := And.intro (Nat.le_add_right r'.offset value.toNat) hbound
        simp only [hfits, not_true, if_false]
        rw [if_pos (Int.ofNat_le.mpr hfits), show r.offset = r'.offset from hr.offset,
          show r.bytes = data from hr.bytes, exec_addInt_bind _ hsum, ← Int.natCast_add,
          exec_subrange_bind _ hrange, Int.natCast_add, exec_addInt_bind _ hsum, exec_setOffset_bind,
          Codec.exec_addInt_bind r' hlt, Codec.exec_subrange_bind r' hrange, Codec.exec_setOffset_bind]
        refine ⟨rfl, (((hr.note hsum).note ?_).note hsum).setOffset rfl hbound⟩
        exact ⟨Int.natCast_nonneg _, Int.ofNat_le.mpr hrange.1, Int.ofNat_le.mpr hrange.2⟩
      · simp only [hfits, not_false_eq_true, if_true]
        rw [if_neg (mt Int.ofNat_le.mp hfits), Codec.exec_raise_bind, exec_raise]
        exact ⟨rfl, hr⟩
    · rw [exec_bind_ok (exec_intExactly_none r hint)]
      simp only [Codec.intExactly, if_neg hint]
      exact ⟨rfl, hr⟩
  · simp only [h, not_false_eq_true, if_true, if_false]
    exact fun r r' hr => ⟨rfl, hr⟩

theorem readString_follows (expected : Nat) :
    Simulates (Follows data n) (readString expected) (FieldReader.readString expected) := by
  refine Simulates.method ((readBytes_follows expected).bind fun content => ?_)
  cases content.utf8? with
  | some text => exact Simulates.pure text
  | none => exact Simulates.throw _

/-- Every wire type is skipped within the buffer. -/
theorem skip_follows (type : Nat) :
    Simulates (Follows data n) (skip type) (FieldReader.skip type) := by
  refine Simulates.method ?_
  unfold FieldReader.skip
  by_cases hvarint : type = fieldVarint
  · rw [if_pos hvarint, if_pos hvarint]
    exact readVarintRaw_follows.bind fun _ => Simulates.pure ()
  by_cases hbytes : type = fieldBytes
  · rw [if_neg hvarint, if_neg hvarint, if_pos hbytes, if_pos hbytes]
    exact (readBytes_follows type).bind fun _ => Simulates.pure ()
  rw [if_neg hvarint, if_neg hvarint, if_neg hbytes, if_neg hbytes]
  by_cases hfixed : type = 1 ∨ type = 5
  · rw [if_pos hfixed, if_pos hfixed]
    refine Simulates.get_bind fun r r' hr => ?_
    -- the size is a literal of either type
    have hsize : (if type = 1 then 8 else 4 : Int) = (if type = 1 then 8 else 4 : Nat) := by
      split <;> rfl
    rw [hsize]
    generalize (if type = 1 then 8 else 4) = size
    obtain ⟨heq, hremaining⟩ := hr.remaining
    rw [exec_subInt_bind r hremaining, heq, hr.bytes']
    have hr := hr.note hremaining
    rw [heq] at hr
    by_cases hfits : size ≤ data.count - r'.offset
    · obtain ⟨hbound, hlt, hsum⟩ := hr.fits hfits
      simp only [hfits, not_true, if_false]
      rw [if_pos (Int.ofNat_le.mpr hfits), show r.offset = r'.offset from hr.offset,
        exec_addInt_bind _ hsum, Codec.exec_addInt_bind r' hlt]
      exact ⟨rfl, (hr.note hsum).setOffset rfl hbound⟩
    · simp only [hfits, not_false_eq_true, if_true]
      rw [if_neg (mt Int.ofNat_le.mp hfits)]
      exact ⟨rfl, hr⟩
  · rw [if_neg hfixed, if_neg hfixed]
    exact Simulates.throw _

/-- The number of a field is a shift away from its tag. -/
theorem nextTag_follows : Simulates (Follows data n) nextTag FieldReader.nextTag := by
  refine Simulates.method ?_
  unfold FieldReader.nextTag
  refine Simulates.get_bind fun r r' hr => ?_
  rw [hr.bytes, hr.bytes', hr.offset]
  by_cases hlt : r'.offset < data.count
  · simp only [hlt, not_true, if_false]
    rw [if_pos (Int.ofNat_lt.mpr hlt)]
    refine (readVarintRaw_follows r r' hr).bind fun value s s' _ _ hs => ?_
    by_cases hnum : value >>> 3 = 0
    · simp only [hnum, ne_eq, not_true, not_false_eq_true, if_true, if_false]
      exact ⟨rfl, hs⟩
    · simp only [ne_eq, hnum, not_false_eq_true, not_true, if_true, if_false]
      have hlt := value.toNat_lt
      -- three bits shifted out leave 61
      have hnumber : (value >>> 3).toNat < 2 ^ 63 := by
        rw [toNat_tag_number]
        omega
      have htype : (value &&& 0x7).toNat < 2 ^ 63 := by
        rw [toNat_tag_type]
        omega
      rw [exec_intOf_bind s (natCast_safe hnumber), exec_intOf_bind _ (natCast_safe htype),
        Codec.exec_intOf_bind s' hnumber, Codec.exec_intOf_bind s' htype]
      exact ⟨rfl, (hs.note (natCast_safe hnumber)).note (natCast_safe htype)⟩
  · simp only [hlt, not_false_eq_true, if_true]
    rw [if_neg (mt Int.ofNat_lt.mp hlt)]
    exact ⟨rfl, hr⟩

/-! ## The field loops

A turn moves the offset forward, so the length that is left bounds the number of turns.
-/

section Loop

variable {σ : Type} {absorb : Absorb σ} {field : FieldTag → σ → ProbedM σ}
  {field' : FieldTag → σ → FieldM σ}

/-- A turn of the loop that is begun has its room in the counter, since each turn takes a byte. -/
theorem Follows.begin {r : Reader} {r' : FieldReader} (hr : Follows data n r r')
    (hmore : r'.offset < data.count) : Follows data (n + 1) r.begin r' := by
  have hlt : r.offset < r.bytes.count := by
    rw [hr.offset, hr.bytes]
    exact Int.ofNat_lt.mpr hmore
  rw [Reader.begin, if_pos hlt]
  exact ⟨hr.bytes, hr.bytes', hr.offset, hr.valid, congrArg (· + 1) hr.iterations, hr.safe⟩

theorem Follows.begin_end {r : Reader} {r' : FieldReader} (hr : Follows data n r r')
    (hend : ¬ r'.offset < data.count) : r.begin = r := by
  rw [Reader.begin, hr.offset, hr.bytes, if_neg (mt Int.ofNat_lt.mp hend)]

/-- A field loop is left inside the buffer, after no more iterations than the buffer has bytes. -/
def LoopEnd (data : Data) (r : Reader) (r' : FieldReader) : Prop :=
  ∃ n ≤ data.count, Follows data n r r'

/-- **The loop.** Every iteration moves the offset on, so the iterations so far never exceed it.
Induction on the fuel. -/
theorem fieldLoop_agrees (hspec : FieldSpec absorb field')
    (hfield : ∀ n tag state, Simulates (Follows data n) (field tag state) (field' tag state))
    (fuel : Nat) : ∀ (n : Nat) (state : σ) (r : Reader) (r' : FieldReader), Follows data n r r' →
      n ≤ r'.offset →
      Agree (LoopEnd data) (exec (fieldLoop field fuel state) r)
        (exec (Codec.fieldLoop field' fuel state) r') := by
  induction fuel with
  | zero => exact fun n _ r r' hr hn => ⟨rfl, n, Nat.le_trans hn hr.valid, hr⟩
  | succ fuel ih =>
    intro n state r r' hr hn
    have hvalid := hr.reader_valid
    rw [fieldLoop, Codec.fieldLoop, exec_get_bind, exec_modify_bind]
    by_cases hmore : r'.offset < data.count
    -- bytes are left, so this is an iteration: `nextTag` takes one of them at least
    · refine (nextTag_follows r.begin r' (hr.begin hmore)).bind_mono
        (fun s s' hs => ⟨n + 1, Nat.lt_of_le_of_lt hn hmore, hs⟩) fun tag s s' _ hrun hs => ?_
      obtain ⟨hsome, hprogress⟩ := nextTag_progress hvalid (hr.bytes' ▸ hmore) hrun
      obtain ⟨tag, rfl⟩ := Option.isSome_iff_exists.mp hsome
      refine (hfield (n + 1) tag state s s' hs).bind_mono
        (fun t t' ht => ⟨n + 1, Nat.lt_of_le_of_lt hn hmore, ht⟩) fun state' t t' _ hrun' ht => ?_
      have hle := (hspec tag state s' hs.reader_valid).offset_le
      rw [hrun'] at hle
      have hlt : r'.offset < t'.offset := Nat.lt_of_lt_of_le hprogress hle
      rw [exec_get_bind, exec_note_bind]
      refine ih (n + 1) state' _ t' (ht.note ?_) (Nat.lt_of_le_of_lt hn hlt)
      show r.offset < t.offset
      rw [hr.offset, ht.offset]
      exact Int.ofNat_lt.mpr hlt
    · -- no bytes are left: `nextTag` returns `nil` and the loop ends
      have hrest : r'.rest = [] := (FieldReader.rest_eq_nil_iff hvalid).mpr (hr.bytes' ▸ hmore)
      have hnil := nextTag_end hvalid hrest
      rw [hr.begin_end hmore]
      refine (nextTag_follows r r' hr).bind_mono
        (fun s s' hs => ⟨n, Nat.le_trans hn hr.valid, hs⟩) fun tag s s' _ hrun hs => ?_
      rw [hnil] at hrun
      cases hrun
      exact ⟨rfl, n, Nat.le_trans hn hr.valid, hs⟩

/-- A watched decoder has the outcome of its model, and leaves only safe probes. -/
theorem decodeFields_safe (hspec : FieldSpec absorb field')
    (hfield : ∀ data n tag state, Simulates (Follows data n) (field tag state) (field' tag state))
    (state : σ) (data : Data) :
    (decodeFields field state data).1 = Codec.decodeFields field' state data
      ∧ ∀ p ∈ (decodeFields field state data).2, p.Safe := by
  have hloop := fieldLoop_agrees hspec (hfield data) (data.count + 1) 0 state
    (.init data) (.init data) (.init data) (Nat.le_refl 0)
  rw [decodeFields, Codec.decodeFields]
  generalize exec (fieldLoop field (data.count + 1) state) (.init data) = run at hloop
  obtain ⟨hout, n, hn, hend⟩ := hloop
  refine ⟨hout, fun p hp => ?_⟩
  rcases List.mem_append.mp hp with hp | hp
  · exact hend.safe p hp
  · rw [List.mem_singleton.mp hp, hend.iterations]
    exact hn

end Loop

/-! ## The two decoders -/

theorem envelopeField_default {number : Nat} (hnumber : isEnvelopeNumber number = false)
    (type : Nat) (envelope : RuntimeEnvelope) :
    envelopeField ⟨number, type⟩ envelope = (do skip type; return envelope) := by
  unfold envelopeField
  split <;> simp_all [isEnvelopeNumber]

/-- The fields of an envelope, number by number. -/
theorem envelopeField_follows (tag : FieldTag) (envelope : RuntimeEnvelope) :
    Simulates (Follows data n) (envelopeField tag envelope) (Codec.envelopeField tag envelope) := by
  obtain ⟨number, type⟩ := tag
  rcases envelopeNumber_cases number with (rfl | rfl | rfl | rfl) | (rfl | rfl) | rfl | hdefault
  · exact (readString_follows type).bind fun _ => Simulates.pure _
  · exact (readString_follows type).bind fun _ => Simulates.pure _
  · exact (readString_follows type).bind fun _ => Simulates.pure _
  · exact (readString_follows type).bind fun _ => Simulates.pure _
  · exact (readVarint_follows type).bind fun _ => Simulates.pure _
  · exact (readVarint_follows type).bind fun _ => Simulates.pure _
  · exact (readBytes_follows type).bind fun _ => Simulates.pure _
  · rw [envelopeField_default hdefault, Codec.envelopeField_default hdefault]
    exact (skip_follows type).bind fun _ => Simulates.pure _

/-- No operation of an envelope's decoding can trap. -/
theorem decodeEnvelope_safe (data : Data) :
    (decodeEnvelope data).1 = Codec.decodeEnvelope data ∧ ∀ p ∈ (decodeEnvelope data).2, p.Safe :=
  decodeFields_safe envelopeField_spec (fun _ _ => envelopeField_follows) {} data

/-- The probes of the nested decode are those of a decoder of its own. -/
theorem decodeNested_follows (content : Data) :
    Simulates (Follows data n) (decodeNested content)
      (ofExcept (Codec.decodeEnvelope content) : FieldM RuntimeEnvelope) := by
  intro r r' hr
  obtain ⟨hout, hsafe⟩ := decodeEnvelope_safe content
  rw [decodeNested, exec_modify_bind, exec_ofExcept, exec_ofExcept, hout]
  refine ⟨rfl, hr.bytes, hr.bytes', hr.offset, hr.valid, hr.iterations, fun p hp => ?_⟩
  rcases List.mem_append.mp hp with hp | hp
  · exact hr.safe p hp
  · exact hsafe p hp

theorem deadletterField_default {number : Nat} (hnumber : isDeadletterNumber number = false)
    (type : Nat) (fields : DeadletterFields) :
    deadletterField ⟨number, type⟩ fields = (do skip type; return fields) := by
  unfold deadletterField
  split <;> simp_all [isDeadletterNumber]

/-- The fields of a dead letter, of which one decodes a buffer of its own. -/
theorem deadletterField_follows (tag : FieldTag) (fields : DeadletterFields) :
    Simulates (Follows data n) (deadletterField tag fields) (Codec.deadletterField tag fields) := by
  obtain ⟨number, type⟩ := tag
  rcases deadletterNumber_cases number with rfl | rfl | rfl | hdefault
  · refine (readBytes_follows type).bind fun content => ?_
    have hnested : Simulates (Follows data n) _ _ := (decodeNested_follows content).bind
      fun original => Simulates.pure ({ fields with original } : DeadletterFields)
    cases hcontent : Codec.decodeEnvelope content with
    | ok original => rwa [hcontent] at hnested
    | error fault => rwa [hcontent] at hnested
  · exact (readVarint_follows type).bind fun _ => Simulates.pure _
  · exact (readString_follows type).bind fun _ => Simulates.pure _
  · rw [deadletterField_default hdefault, Codec.deadletterField_default hdefault]
    exact (skip_follows type).bind fun _ => Simulates.pure _

/-- No operation of a dead letter's decoding can trap, the nested one included. -/
theorem decodeDeadletter_safe (data : Data) (reasonName : UInt32 → Except RuntimeError String) :
    (decodeDeadletter data reasonName).1 = Codec.decodeDeadletter data reasonName
      ∧ ∀ p ∈ (decodeDeadletter data reasonName).2, p.Safe := by
  obtain ⟨hout, hsafe⟩ := decodeFields_safe deadletterField_spec
    (fun _ _ => deadletterField_follows) {} data
  refine ⟨?_, hsafe⟩
  rw [Codec.decodeDeadletter, decodeDeadletterM, ← hout]
  rfl

/-- What ends a deadletter decoding without a value is an error it threw. -/
theorem decodeDeadletter_total (data : Data) (reasonName : UInt32 → Except RuntimeError String)
    {fault : Fault} (h : (Codec.decodeDeadletter data reasonName).1 = .error fault) :
    ∃ error, fault = .thrown error := by
  have hrun := decodeDeadletter_run data reasonName
  generalize Codec.decodeDeadletter data reasonName = out at h hrun
  cases hrun <;> cases h <;> exact ⟨_, rfl⟩

/-- **The decoders neither trap nor run on.** For every buffer and every `reasonName`, the watched
decoders end as the decoders do, with a value or an error thrown by the source; and every probe they
leave, those of the nested decode included, is safe. -/
theorem decoders_never_trap (data : Data) (reasonName : UInt32 → Except RuntimeError String) :
    ((decodeEnvelope data).1 = Codec.decodeEnvelope data
      ∧ (∀ fault, (decodeEnvelope data).1 = .error fault → ∃ error, fault = .thrown error)
      ∧ ∀ p ∈ (decodeEnvelope data).2, p.Safe)
    ∧ (decodeDeadletter data reasonName).1 = Codec.decodeDeadletter data reasonName
      ∧ (∀ fault, (decodeDeadletter data reasonName).1.1 = .error fault →
          ∃ error, fault = .thrown error)
      ∧ ∀ p ∈ (decodeDeadletter data reasonName).2, p.Safe := by
  obtain ⟨henvelope, hsafe⟩ := decodeEnvelope_safe data
  obtain ⟨hdeadletter, hsafe'⟩ := decodeDeadletter_safe data reasonName
  refine ⟨⟨henvelope, fun fault hfault => ?_, hsafe⟩, hdeadletter, fun fault hfault => ?_, hsafe'⟩
  · rw [henvelope] at hfault
    rcases decodeEnvelope_total data with ⟨envelope, h⟩ | ⟨error, h⟩
    · rw [h] at hfault
      cases hfault
    · rw [h, Except.error.injEq] at hfault
      exact ⟨error, hfault.symm⟩
  · rw [hdeadletter] at hfault
    exact decodeDeadletter_total data reasonName hfault

/-- What an envelope of one field, `kind = 1`, leaves. -/
example : (decodeEnvelope ⟨[0x30, 0x01], by decide⟩).2 = [
    .cursor 0 2, .cursor 0 2, .subscript 0 2, .int 1, .shift 0x30 0, .consumed 1, .cursor 1 2,
    .int 6, .int 0, .cursor 1 2,
    .cursor 1 2, .cursor 1 2, .subscript 1 2, .int 2, .shift 1 0, .consumed 1, .cursor 2 2,
    .cursor 2 2, .iteration 0 2, .cursor 2 2, .cursor 2 2, .ended 1 2] := by
  decide

end Probed

end CoAkka.Codec
