import Mathlib.Data.List.Basic
import Mathlib.Data.Nat.Digits.Defs

/-!
# Text — numbered texts

A text that ends in a separator and a decimal number. No digit is the separator, so the last
separator of the text is where the number starts, whatever stands before it: the text determines
the number. For C the UTF-8 bytes of a text have a zero exactly where the text has a NUL.

* `numbered_inj` — the text and the number, from the whole.
* `ascii_of_toByteArray` — a text all of whose bytes are below 128 is ASCII.
-/

namespace Text

/-! ## Zero bytes -/

/-- The bytes of a text are those of its characters, one after the other. -/
theorem toByteArray_data_toList (s : String) :
    s.toByteArray.data.toList = s.toList.flatMap String.utf8EncodeChar := by
  rw [← String.utf8Encode_toList]
  simp [List.utf8Encode]

/-- Every byte of a longer encoding has its first bit set. -/
theorem or_ne_zero {a b : UInt8} (hb : b ≠ 0) : (0 : UInt8) ≠ a ||| b := by
  intro h
  exact hb (UInt8.or_eq_zero_iff.mp h.symm).2

/-- Only NUL is encoded with a zero byte. -/
theorem eq_nul_of_mem_utf8EncodeChar {c : Char} (h : 0 ∈ String.utf8EncodeChar c) :
    c = '\x00' := by
  rw [String.utf8EncodeChar_eq_utf8EncodeCharFast] at h
  simp only [String.utf8EncodeCharFast] at h
  split at h
  · next hascii =>
    rw [List.mem_singleton] at h
    have hbyte := congrArg UInt8.toNat h
    rw [UInt32.toNat_toUInt8, UInt8.toNat_zero] at hbyte
    have hsmall : c.val.toNat ≤ 127 := UInt32.le_iff_toNat_le.mp hascii
    have hzero : c.val.toNat = 0 := by omega
    exact Char.ext (UInt32.toNat_inj.mp hzero)
  · split at h
    · simp [or_ne_zero] at h
    · split at h <;> simp [or_ne_zero] at h

/-- A text without NUL has no zero byte. -/
theorem zero_notMem_toByteArray {s : String} (h : '\x00' ∉ s.toList) :
    0 ∉ s.toByteArray.data.toList := by
  rw [toByteArray_data_toList, List.mem_flatMap]
  rintro ⟨c, hc, hzero⟩
  exact h (eq_nul_of_mem_utf8EncodeChar hzero ▸ hc)

/-- And conversely. -/
theorem nul_notMem_toList {s : String} (h : 0 ∉ s.toByteArray.data.toList) :
    '\x00' ∉ s.toList := by
  intro hnul
  apply h
  rw [toByteArray_data_toList, List.mem_flatMap]
  exact ⟨'\x00', hnul, by decide⟩

/-- A character whose encoding has bytes below 128 only is ASCII: the last byte of a longer encoding
has its first bit set. -/
theorem ascii_of_utf8EncodeChar {c : Char} (h : ∀ b ∈ String.utf8EncodeChar c, b.toNat < 128) :
    c.toNat < 128 := by
  rw [String.utf8EncodeChar_eq_utf8EncodeCharFast] at h
  simp only [String.utf8EncodeCharFast] at h
  split at h
  · next hascii =>
    have hsmall : c.val.toNat ≤ 127 := UInt32.le_iff_toNat_le.mp hascii
    exact Nat.lt_succ_of_le hsmall
  · have hlast : (c.val.toUInt8 &&& 0x3f ||| 0x80).toNat < 128 := by
      refine h _ ?_
      split
      · simp
      · split <;> simp
    have hbit : 128 ≤ (c.val.toUInt8 &&& 0x3f ||| 0x80).toNat := by
      rw [UInt8.toNat_or]
      exact Nat.right_le_or
    omega

/-- A text all of whose bytes are below 128 is one of ASCII characters. -/
theorem ascii_of_toByteArray {s : String} (h : ∀ b ∈ s.toByteArray.data.toList, b.toNat < 128) :
    ∀ c ∈ s.toList, c.toNat < 128 := by
  intro c hc
  refine ascii_of_utf8EncodeChar fun b hb => h b ?_
  rw [toByteArray_data_toList]
  exact List.mem_flatMap.mpr ⟨c, hc, hb⟩

/-! ## Numbers

A decimal number has digits only, so the text before the last separator is determined.
-/

/-- What is no digit is in no decimal number. -/
theorem notMem_toDigits {c : Char} (hc : c.isDigit = false) (n : Nat) :
    c ∉ Nat.toDigits 10 n := by
  intro hmem
  rw [Nat.isDigit_of_mem_toDigits (by decide) (by decide) hmem] at hc
  cases hc

/-- A decimal number determines its value. -/
theorem toDigits_inj {m n : Nat} (h : Nat.toDigits 10 m = Nat.toDigits 10 n) : m = n := by
  have hread := congrArg (fun digits => Nat.ofDigitChars 10 digits 0) h
  simpa using hread

/-- What follows the last separator of a list. -/
theorem append_cons_inj_of_notMem_right {α : Type*} {sep : α} {l l' rest rest' : List α}
    (hrest : sep ∉ rest) (hrest' : sep ∉ rest') (h : l ++ sep :: rest = l' ++ sep :: rest') :
    l = l' ∧ rest = rest' := by
  rcases List.append_eq_append_iff.mp h with ⟨between, rfl, hbetween⟩ | ⟨between, rfl, hbetween⟩
  all_goals
    cases between with
    | nil => simpa [eq_comm] using hbetween
    | cons x between =>
      -- the other separator would stand in the rest
      obtain ⟨-, rfl⟩ := List.cons.inj hbetween
      simp at hrest hrest'

/-- **The text determines the number.** -/
theorem numbered_inj {sep : Char} (hsep : sep.isDigit = false) {l l' : List Char} {m n : Nat}
    (h : l ++ sep :: Nat.toDigits 10 m = l' ++ sep :: Nat.toDigits 10 n) : l = l' ∧ m = n := by
  obtain ⟨hl, hdigits⟩ :=
    append_cons_inj_of_notMem_right (notMem_toDigits hsep m) (notMem_toDigits hsep n) h
  exact ⟨hl, toDigits_inj hdigits⟩

end Text
