import CoAkkaRuntime.Codec.FieldGrammar

/-!
# Codec — `readVarintRaw` is exact on 64 bits

The bytes at the offset decide everything: `readVarintRaw` succeeds exactly when they start with a
group of at most ten bytes whose value 64 bits can hold, returns that value and stops right behind
the group. The canonical encoding of a number is such a group.

* `groupValue_eq` — the value of a group as the sum over its bytes.
* `readVarintRaw_of_group`, `group_of_readVarintRaw` — the two directions.
* `readVarintRaw_exact` — both with the offset, and the shortest group of a value as a corollary.
-/

namespace CoAkka.Codec

open Base128 Throwing

/-- The number that the bytes of a group add up to. -/
def groupValue (g : List UInt8) : Nat := (g.mapIdx fun i b => b.toNat % 128 * 2 ^ (7 * i)).sum

/-- At most ten bytes, of which exactly the last has its high bit clear, and a value of 64 bits. -/
structure Group64 (g : List UInt8) : Prop where
  length : 1 ≤ g.length ∧ g.length ≤ 10
  final : ∀ (i : Nat) (hi : i < g.length), g[i] < 128 ↔ i + 1 = g.length
  fits : groupValue g < 2 ^ 64

/-- The value of a group, as the claim of the code has it and as the library has it. -/
theorem groupValue_eq (g : List UInt8) : groupValue g = Base128.value g := (value_eq_sum g).symm

/-- A group of 64 bits is a varint of the library. -/
theorem Group64.exists_varint {g : List UInt8} (h : Group64 g) :
    ∃ v : Varint64, v.bytes = g ∧ v.value = groupValue g := by
  have hne : g ≠ [] := List.ne_nil_of_length_pos h.length.1
  have hfits := h.fits
  rw [groupValue_eq] at hfits
  exact ⟨⟨g, (isGroup_iff_getElem g).mpr ⟨hne, h.final⟩, h.length.2, hfits⟩, rfl, (groupValue_eq g).symm⟩

theorem group64_bytes (v : Varint64) : Group64 v.bytes where
  length := ⟨v.length_pos, v.length_le⟩
  final := ((isGroup_iff_getElem v.bytes).mp v.isGroup).2
  fits := by
    rw [groupValue_eq]
    exact v.value_lt

/-! ## The canonical encoding -/

theorem toNat_shiftRight_seven (value : UInt64) : (value >>> 7).toNat = value.toNat / 128 := by
  rw [UInt64.toNat_shiftRight, Nat.shiftRight_eq_div_pow]
  rfl

theorem lt_128_iff (value : UInt64) : value.toNat < 128 ↔ ¬ value > 127 := by
  rw [gt_iff_lt, UInt64.lt_iff_toNat_lt]
  simp only [UInt64.reduceToNat]
  omega

/-- The writer of a varint in the tests of the decoder. -/
def canonicalVarint (value : UInt64) : List UInt8 :=
  if value > 127 then
    ((value &&& 127).toUInt8 ||| 128) :: canonicalVarint (value >>> 7)
  else
    [value.toUInt8]
termination_by value.toNat
decreasing_by
  next h =>
  have hge := mt (lt_128_iff value).mp (not_not.mpr h)
  rw [toNat_shiftRight_seven]
  omega

/-- The byte that the source's loop makes of a value that goes on. -/
theorem more_byte (value : UInt64) :
    (value &&& 127).toUInt8 ||| 128 = UInt8.ofNat (value.toNat % 128 + 128) := by
  have hlow : value.toNat % 128 < 2 ^ 7 := Nat.mod_lt _ (by decide)
  have hor : (value.toNat % 128) ||| 128 = 128 + value.toNat % 128 := by
    have := Nat.two_pow_add_eq_or_of_lt hlow 1
    rw [Nat.or_comm]
    simpa using this.symm
  rw [← UInt8.toNat_inj, UInt8.toNat_or, UInt64.toNat_toUInt8, UInt64.toNat_and, UInt8.toNat_ofNat']
  have hand : value.toNat &&& 127 = value.toNat % 128 := Nat.and_two_pow_sub_one_eq_mod _ 7
  simp only [UInt64.reduceToNat, UInt8.reduceToNat]
  rw [hand, Nat.mod_eq_of_lt (show value.toNat % 128 < 2 ^ 8 by omega), hor]
  omega

/-- The source's encoder is the library's. -/
theorem canonicalVarint_eq (value : UInt64) : canonicalVarint value = encode value.toNat := by
  fun_induction canonicalVarint value with
  | case1 value h ih =>
    have hge := mt (lt_128_iff value).mp (not_not.mpr h)
    rw [encode_ge hge, more_byte, ih, toNat_shiftRight_seven]
  | case2 value h =>
    rw [encode_lt ((lt_128_iff value).mpr h)]
    rfl

/-- So it writes one group, which has the value. -/
theorem canonicalVarint_group64 (value : UInt64) :
    Group64 (canonicalVarint value) ∧ groupValue (canonicalVarint value) = value.toNat := by
  have hvarint := group64_bytes (Varint.ofNat value.toNat value.toNat_lt)
  rw [canonicalVarint_eq]
  exact ⟨hvarint, by rw [groupValue_eq, value_encode]⟩

/-! ## The read -/

section Read

variable {r : FieldReader}

/-- A reader at the end of its buffer, or outside it, finds no group. -/
theorem readVarintRaw_rest_nil (h : ¬ r.offset < r.bytes.count) :
    ∃ error r', exec FieldReader.readVarintRaw r = (.error error, r') := by
  rw [FieldReader.readVarintRaw, exec_get_bind, FieldReader.readVarintLoop, exec_get_bind, if_neg h]
  exact ⟨_, _, exec_raise r _⟩

/-- A group at the offset is read. -/
theorem readVarintRaw_of_group {g tail : List UInt8} (hg : Group64 g) (hrest : r.rest = g ++ tail) :
    ∃ v, exec FieldReader.readVarintRaw r = (.ok v, r.advance g.length) ∧ v.toNat = groupValue g := by
  obtain ⟨w, rfl, hw⟩ := hg.exists_varint
  have hvalid : r.Valid := by
    by_contra hout
    have hlength := congrArg List.length hrest
    rw [FieldReader.length_rest, List.length_append] at hlength
    have hpos := w.length_pos
    unfold FieldReader.Valid at hout
    omega
  have hfits : (UInt64.ofNat w.value).toNat = w.value := by
    rw [UInt64.toNat_ofNat']
    exact Nat.mod_eq_of_lt w.value_lt_two_pow
  have hread := readVarintRaw_reads r hvalid
  generalize exec FieldReader.readVarintRaw r = out at hread
  cases hread with
  | @read v seg tail' hrest' hv =>
    -- groups are prefix-free, so the one that was read is the one that is there
    obtain ⟨w', rfl, hvalue⟩ := hv
    obtain ⟨rfl, -⟩ := Varint.append_inj (hrest'.symm.trans hrest)
    exact ⟨v, rfl, hvalue.symm.trans hw⟩
  | refused _ _ _ hno => exact absurd ⟨w, rfl, hfits.symm⟩ (hno (UInt64.ofNat w.value) w.bytes tail hrest)

/-- What is read is a group at the offset. -/
theorem group_of_readVarintRaw {v : UInt64} {r' : FieldReader}
    (h : exec FieldReader.readVarintRaw r = (.ok v, r')) : ∃ g, Group64 g ∧ g <+: r.rest := by
  have hvalid : r.Valid := by
    by_contra hout
    obtain ⟨error, r'', herror⟩ := readVarintRaw_rest_nil
      (show ¬ r.offset < r.bytes.count from fun hlt => hout (Nat.le_of_lt hlt))
    rw [herror] at h
    cases h
  have hread := readVarintRaw_reads r hvalid
  rw [h] at hread
  cases hread with
  | read seg tail hrest hv =>
    obtain ⟨w, rfl, -⟩ := hv
    exact ⟨w.bytes, group64_bytes w, tail, hrest.symm⟩

end Read

/-- **`readVarintRaw` is exact.** It succeeds if and only if a 64-bit group starts at the offset; it
then returns the value of the group and stops behind it, where the rest of the bytes still is. So
it reads back the canonical encoding of any number, whatever follows. -/
theorem readVarintRaw_exact (data : Data) (offset : Nat) :
    ((∃ v r', exec FieldReader.readVarintRaw ⟨data, offset⟩ = (.ok v, r')) ↔
      ∃ g, Group64 g ∧ g <+: data.bytes.drop offset) ∧
    (∀ g tail, Group64 g → data.bytes.drop offset = g ++ tail →
      ∃ v, exec FieldReader.readVarintRaw ⟨data, offset⟩ = (.ok v, ⟨data, offset + g.length⟩) ∧
        v.toNat = groupValue g ∧ data.bytes.drop (offset + g.length) = tail) ∧
    ∀ v tail, data.bytes.drop offset = canonicalVarint v ++ tail →
      exec FieldReader.readVarintRaw ⟨data, offset⟩
          = (.ok v, ⟨data, offset + (canonicalVarint v).length⟩) ∧
        data.bytes.drop (offset + (canonicalVarint v).length) = tail := by
  have hread : ∀ g tail, Group64 g → data.bytes.drop offset = g ++ tail →
      ∃ v, exec FieldReader.readVarintRaw ⟨data, offset⟩ = (.ok v, ⟨data, offset + g.length⟩) ∧
        v.toNat = groupValue g ∧ data.bytes.drop (offset + g.length) = tail := by
    intro g tail hg hrest
    obtain ⟨v, hexec, hvalue⟩ := readVarintRaw_of_group (r := ⟨data, offset⟩) hg hrest
    exact ⟨v, hexec, hvalue, FieldReader.rest_advance (r := ⟨data, offset⟩) hrest⟩
  refine ⟨⟨fun ⟨v, r', h⟩ => group_of_readVarintRaw h, ?_⟩, hread, ?_⟩
  · rintro ⟨g, hg, tail, hrest⟩
    obtain ⟨v, hexec, -⟩ := hread g tail hg hrest.symm
    exact ⟨v, _, hexec⟩
  · intro v tail hrest
    obtain ⟨hg, hvalue⟩ := canonicalVarint_group64 v
    obtain ⟨w, hexec, hw, htail⟩ := hread _ tail hg hrest
    -- the value of the shortest group is the number it encodes
    obtain rfl : w = v := UInt64.toNat_inj.mp (hw.trans hvalue)
    exact ⟨hexec, htail⟩

end CoAkka.Codec
