import CoAkkaRuntime.Text.Numbered

/-!
# Text — decoding bytes that may not be UTF-8

A repairing decoder reads a character where the bytes start with one, and puts U+FFFD in the place
of bytes that do not. How many bytes one U+FFFD stands for is not fixed by UTF-8, and `broken` says
it. Bytes that are UTF-8 are decoded exactly, whatever `broken` is.

* `repair_utf8Encode` — what was encoded is decoded as it was.
* `repair_exact_iff` — the repaired text has the bytes it was read from exactly where they were
  UTF-8.
-/

namespace Text

/-- The character that the bytes start with. -/
def decodeChar? (bytes : List UInt8) : Option Char :=
  (ByteArray.mk bytes.toArray).utf8DecodeChar? 0

/-- The characters of the bytes; `broken rest` bytes after the first are replaced with it. -/
def repair (broken : List UInt8 → Nat) : List UInt8 → List Char
  | [] => []
  | b :: rest =>
    match decodeChar? (b :: rest) with
    | some c => c :: repair broken (rest.drop (c.utf8Size - 1))
    | none => '\uFFFD' :: repair broken (rest.drop (broken rest))
termination_by bytes => bytes.length

/-- A character is read off the front of what begins with its encoding. -/
theorem decodeChar?_utf8EncodeChar_append (c : Char) (rest : List UInt8) :
    decodeChar? (String.utf8EncodeChar c ++ rest) = some c := by
  have hdecode := ByteArray.utf8DecodeChar?_utf8EncodeChar_append (b := ⟨rest.toArray⟩) (c := c)
  unfold decodeChar?
  rw [← hdecode]
  congr 1
  apply ByteArray.ext
  simp

/-- **What is UTF-8 is not repaired.** -/
theorem repair_utf8Encode (broken : List UInt8 → Nat) (l : List Char) :
    repair broken (l.flatMap String.utf8EncodeChar) = l := by
  induction l with
  | nil => simp [repair]
  | cons c l ih =>
    rw [List.flatMap_cons]
    have hdecode := decodeChar?_utf8EncodeChar_append c (l.flatMap String.utf8EncodeChar)
    have hlength := String.length_utf8EncodeChar c
    cases hbytes : String.utf8EncodeChar c with
    | nil =>
      have := c.utf8Size_pos
      rw [hbytes, List.length_nil] at hlength
      omega
    | cons b tail =>
      rw [hbytes, List.cons_append] at hdecode
      rw [hbytes, List.length_cons] at hlength
      rw [List.cons_append, repair, hdecode]
      have hdrop : (tail ++ l.flatMap String.utf8EncodeChar).drop (c.utf8Size - 1)
          = l.flatMap String.utf8EncodeChar := List.drop_left' (by omega)
      simp only [hdrop, ih]

/-- A text needs no repair. -/
theorem ofList_repair_toByteArray (broken : List UInt8 → Nat) (s : String) :
    String.ofList (repair broken s.toByteArray.data.toList) = s := by
  rw [toByteArray_data_toList, repair_utf8Encode, String.ofList_toList]

/-- **Only UTF-8 is decoded exactly.** -/
theorem repair_exact_iff (broken : List UInt8 → Nat) (bytes : List UInt8) :
    (String.ofList (repair broken bytes)).toByteArray.data.toList = bytes
      ↔ (ByteArray.mk bytes.toArray).IsValidUTF8 := by
  constructor
  · intro h
    have hvalid := (String.ofList (repair broken bytes)).isValidUTF8
    rwa [← h]
  · intro h
    exact congrArg (·.toByteArray.data.toList)
      (ofList_repair_toByteArray broken ⟨⟨bytes.toArray⟩, h⟩)

/-- A character is decoded from its own encoding. -/
theorem exists_of_decodeChar?_eq_some {bytes : List UInt8} {c : Char} (h : decodeChar? bytes = some c) :
    ∃ rest, bytes = String.utf8EncodeChar c ++ rest := by
  obtain ⟨rest, hrest⟩ := ByteArray.exists_of_utf8DecodeChar?_eq_some h
  refine ⟨rest.data.toList, ?_⟩
  have hlist := congrArg (·.data.toList) hrest
  simpa using hlist

/-- A repair makes no more characters than there were bytes. -/
theorem length_repair_le (broken : List UInt8 → Nat) (bytes : List UInt8) :
    (repair broken bytes).length ≤ bytes.length := by
  fun_induction repair broken bytes with
  | case1 => exact Nat.le_refl 0
  | case2 b rest c hdecode ih =>
    rw [List.length_drop] at ih
    rw [List.length_cons, List.length_cons]
    omega
  | case3 b rest hdecode ih =>
    rw [List.length_drop] at ih
    rw [List.length_cons, List.length_cons]
    omega

/-- No NUL comes from bytes without a zero. -/
theorem nul_notMem_repair (broken : List UInt8 → Nat) {bytes : List UInt8} (h : 0 ∉ bytes) :
    '\x00' ∉ repair broken bytes := by
  fun_induction repair broken bytes with
  | case1 => exact List.not_mem_nil
  | case2 b rest c hdecode ih =>
    rw [List.mem_cons, not_or] at h ⊢
    refine ⟨?_, ih fun hmem => h.2 (List.mem_of_mem_drop hmem)⟩
    rintro rfl
    obtain ⟨rest', hbytes⟩ := exists_of_decodeChar?_eq_some hdecode
    exact h.1 (List.cons.inj hbytes).1.symm
  | case3 b rest hdecode ih =>
    rw [List.mem_cons, not_or] at h ⊢
    exact ⟨by decide, ih fun hmem => h.2 (List.mem_of_mem_drop hmem)⟩

end Text
