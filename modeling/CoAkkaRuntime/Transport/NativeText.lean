import CoAkkaRuntime.Text.CMemory
import CoAkkaRuntime.Text.Repair
import CoAkkaRuntime.Throwing.Exec
import CoAkkaRuntime.Transport.StartupOptions

/-!
# Transport — text over the C boundary and back

`NativeCStringStorage` owns the copies that one call of C borrows (`RuntimeModels.swift`), and
`fixedString` reads the text that Core left in a fixed array (`LaneOwnerGrant.swift`). A string that
C could not read back whole is refused before anything is allocated.

* `nativeCStringStorage` — the check of all strings, then the copies.
* `Crosses` — each string as C reads it is the string that was given.
* `storedWhole` — a storage that was made has every string whole.
* `fixedString_reads` — the text of an array: up to the first zero, or all of it where there is
  none.
* `text_crosses_losslessly` — the two directions together, for every size of the array.
-/

namespace CoAkka.Transport

open Text Throwing

/-! ## To C

All strings are checked before the first is copied.
-/

/-- `String.utf8CString`. -/
def utf8CString (value : String) : List UInt8 := value.toByteArray.data.toList ++ [0]

/-- A turn of the loop that copies: the copy's pointer is appended to `pointers`. -/
def storeCString (pointers : List Nat) (value : String) : StateM Heap (List Nat) := do
  let bytes := utf8CString value
  let pointer ← modifyGet (allocate bytes.length)
  modify (fill pointer bytes)
  return pointers ++ [pointer]

/-- `NativeCStringStorage.init`, with the `pointers` that it leaves. -/
def nativeCStringStorage (values : List String) : ExceptT RuntimeError (StateM Heap) (List Nat) := do
  -- every string is validated before the first allocation
  ofExcept (values.forM fun value => validateCString value "native text")
  liftM (values.foldlM storeCString [])

/-- The bytes that C reads through a stored pointer. -/
def cReading (heap : Heap) (pointer : Nat) : Option (List UInt8) :=
  heap[pointer]?.bind readCString

/-- C reads of a Swift string what stands before its first zero. -/
theorem readCString_utf8CString (value : String) :
    readCString ((utf8CString value).map some) = some (cString value).bytes := by
  unfold utf8CString
  rw [List.map_append]
  exact readCString_terminated value.toByteArray.data.toList []

theorem run_storeCString (pointers : List Nat) (value : String) (heap : Heap) :
    (storeCString pointers value).run heap
      = (pointers ++ [heap.length], heap ++ [(utf8CString value).map some]) := by
  have hfill := fill_allocate (utf8CString value) heap
  rw [← hfill]
  rfl

/-- The copies are new blocks at the end of the heap, one for each string. Induction on the strings
that are left. -/
theorem run_storeCStrings (values : List String) (pointers : List Nat) (heap : Heap) :
    (values.foldlM storeCString pointers).run heap
      = (pointers ++ List.range' heap.length values.length,
        heap ++ values.map fun value => (utf8CString value).map some) := by
  induction values generalizing pointers heap with
  | nil =>
    rw [List.length_nil, List.range'_zero, List.map_nil, List.append_nil, List.append_nil]
    rfl
  | cons value values ih =>
    have hstep : ((value :: values).foldlM storeCString pointers).run heap
        = (values.foldlM storeCString ((storeCString pointers value).run heap).1).run
            ((storeCString pointers value).run heap).2 := rfl
    rw [hstep, run_storeCString, ih]
    simp [List.range'_succ]

/-- The strings that C can read back whole. -/
def Crosses (value : String) : Prop :=
  0 ∉ value.toByteArray.data.toList ∧ value.utf8ByteSize ≤ 2 ^ 31 - 1

/-- A string fails to cross for one of two reasons. -/
theorem not_crosses_iff {value : String} : ¬ Crosses value ↔
    0 ∈ value.toByteArray.data.toList ∨ 2 ^ 31 - 1 < value.utf8ByteSize := by
  unfold Crosses
  rw [not_and_or, not_not, Nat.not_le]

section Storage

variable {values : List String} {heap heap' : Heap}

/-- Strings that cross are stored one behind the other. -/
theorem exec_nativeCStringStorage_ok (h : ∀ value ∈ values, Crosses value) :
    exec (nativeCStringStorage values) heap
      = (.ok (List.range' heap.length values.length),
        heap ++ values.map fun value => (utf8CString value).map some) := by
  have hvalid : (values.forM fun value => validateCString value "native text") = .ok ⟨⟩ :=
    forM_eq_ok_iff.mpr fun value hmem => validateCString_eq_ok_iff.mpr (h value hmem)
  unfold nativeCStringStorage
  rw [exec_bind_ok (by rw [hvalid, exec_ofExcept]), exec_liftM, run_storeCStrings]
  rfl

/-- Nothing is allocated for a list with a string that does not cross. -/
theorem exec_nativeCStringStorage_error (heap : Heap) (h : ∃ value ∈ values, ¬ Crosses value) :
    ∃ error, exec (nativeCStringStorage values) heap = (.error error, heap) := by
  unfold nativeCStringStorage
  cases hvalid : values.forM fun value => validateCString value "native text" with
  | ok =>
    obtain ⟨value, hmem, hrefused⟩ := h
    exact absurd (validateCString_eq_ok_iff.mp (forM_eq_ok_iff.mp hvalid value hmem)) hrefused
  | error e => exact ⟨e, exec_bind_error (exec_ofExcept heap (.error e)) _⟩

/-- And only those are. -/
theorem crosses_of_exec_ok {pointers : List Nat}
    (h : exec (nativeCStringStorage values) heap = (.ok pointers, heap')) :
    ∀ value ∈ values, Crosses value := by
  by_contra hnot
  push Not at hnot
  obtain ⟨error, herror⟩ := exec_nativeCStringStorage_error heap hnot
  rw [herror] at h
  cases h

/-- A refusal names such a string, and leaves nothing on the heap. -/
theorem of_exec_error {error : RuntimeError}
    (h : exec (nativeCStringStorage values) heap = (.error error, heap')) :
    (∃ value ∈ values, ¬ Crosses value) ∧ heap' = heap := by
  by_cases hall : ∀ value ∈ values, Crosses value
  · rw [exec_nativeCStringStorage_ok hall] at h
    cases h
  · push Not at hall
    obtain ⟨error', herror⟩ := exec_nativeCStringStorage_error heap hall
    rw [herror] at h
    cases h
    exact ⟨hall, rfl⟩

end Storage

/-- What a list of strings is stored as: the copies are in blocks of their own, C reads each of them
whole, and what was stored before is left as it was. -/
structure StoredWhole (values : List String) (heap : Heap) (pointers : List Nat) (heap' : Heap) :
    Prop where
  length : pointers.length = values.length
  nodup : pointers.Nodup
  reading : ∀ i (hi : i < values.length), ∃ pointer, pointers[i]? = some pointer ∧
    cReading heap' pointer = some values[i].toByteArray.data.toList
  kept : ∀ pointer < heap.length, heap'[pointer]? = heap[pointer]?

/-- A storage that did not throw stored what it was given. -/
theorem storedWhole {values : List String} {heap heap' : Heap} {pointers : List Nat}
    (h : exec (nativeCStringStorage values) heap = (.ok pointers, heap')) :
    StoredWhole values heap pointers heap' := by
  have hcrosses := crosses_of_exec_ok h
  rw [exec_nativeCStringStorage_ok hcrosses] at h
  cases h
  refine ⟨List.length_range', List.nodup_range', ?_, ?_⟩
  · intro i hi
    refine ⟨heap.length + i, ?_, ?_⟩
    · rw [List.getElem?_range' hi, Nat.one_mul]
    · have hblock : (heap ++ values.map fun value => (utf8CString value).map some)[heap.length + i]?
          = some ((utf8CString values[i]).map some) := by
        rw [List.getElem?_append_right (Nat.le_add_right _ _), Nat.add_sub_cancel_left,
          List.getElem?_map, List.getElem?_eq_getElem hi]
        rfl
      unfold cReading
      rw [hblock, Option.bind_some, readCString_utf8CString,
        bytes_cString (hcrosses _ (List.getElem_mem hi)).1]
  · intro pointer hlt
    exact List.getElem?_append_left hlt

example : (exec (nativeCStringStorage ["", "😺", " "]) []).2.map readCString
    = [some [], some [0xF0, 0x9F, 0x98, 0xBA], some [0x20]] := by decide +kernel

/-! ## From C -/

/-- `fixedString` of the array of `n` bytes at `base`, with the addresses that it reads. In a text
that is not UTF-8, how many bytes a U+FFFD stands for depends on the version of the library. -/
def fixedString (broken : List UInt8 → Nat) (memory : Nat → UInt8) (base n : Nat) :
    StateM (List Nat) String := do
  let count ← countNonZero memory base n
  let bytes ← readBytes memory base count
  return String.ofList (repair broken bytes)

section FixedString

variable (broken : List UInt8 → Nat) (memory : Nat → UInt8) (base n : Nat)

theorem run_fixedString (reads : List Nat) : (fixedString broken memory base n).run reads =
    let count := (countNonZero memory base n).run reads
    (String.ofList (repair broken ((readBytes memory base count.1).run count.2).1),
      ((readBytes memory base count.1).run count.2).2) := rfl

/-- The text is the bytes of the array up to its first zero, or all of them. -/
theorem fixedString_text (reads : List Nat) : ((fixedString broken memory base n).run reads).1
    = String.ofList (repair broken ((window memory base n).takeWhile (· ≠ 0))) := by
  have hinit : (window memory base n).takeWhile (· ≠ 0) <+: window memory base n :=
    List.takeWhile_prefix _
  have hle := hinit.length_le
  rw [length_window] at hle
  simp only [run_fixedString, countNonZero_run, readBytes_run]
  rw [← take_window memory base hle, ← List.prefix_iff_eq_take.mp hinit]

/-- Both scans stay in the array. -/
theorem fixedString_reads {a : Nat} (h : a ∈ ((fixedString broken memory base n).run []).2) :
    base ≤ a ∧ a < base + n := by
  rw [run_fixedString] at h
  have hcount := countNonZero_run memory base n []
  have hle := (List.takeWhile_prefix (l := window memory base n) (· ≠ 0)).length_le
  rw [length_window, ← hcount] at hle
  rcases readBytes_reads memory base _ _ h with hscan | hin
  · rcases countNonZero_reads memory base n [] hscan with hnone | hin
    · cases hnone
    · exact hin
  · omega

/-- A text at the start of an array that is zero after it, with or without room for a zero. -/
theorem fixedString_echoed {value : String} (hnul : 0 ∉ value.toByteArray.data.toList)
    (hwindow : window memory base n
      = value.toByteArray.data.toList ++ List.replicate (n - value.utf8ByteSize) 0)
    (reads : List Nat) : ((fixedString broken memory base n).run reads).1 = value := by
  have htext : (window memory base n).takeWhile (· ≠ 0) = value.toByteArray.data.toList := by
    have hzeros : (List.replicate (n - value.utf8ByteSize) (0 : UInt8)).takeWhile (· ≠ 0) = [] := by
      cases n - value.utf8ByteSize with
      | zero => rfl
      | succ k => rw [List.replicate_succ, List.takeWhile_cons_of_neg (by simp)]
    have hwhole := takeWhile_ne_zero hnul
    rw [hwindow, List.takeWhile_append, hwhole, if_pos rfl, hzeros, List.append_nil]
  rw [fixedString_text, htext, ofList_repair_toByteArray]

end FixedString

/-! ## Both ways -/

/-- **Text crosses the boundary losslessly or not at all.** Storing a list of strings throws exactly
when one of them has a NUL or more than `2 ^ 31 - 1` bytes, and has then allocated nothing; otherwise
C reads every string whole, so that strings with different bytes are different texts in C, whatever
they were stored with. On the way back, no byte outside of the array is read, and a string that Core
echoes into an array of zeros comes back with the bytes that it had. -/
theorem text_crosses_losslessly :
    (∀ (values : List String) (heap : Heap),
      ((∃ error heap', exec (nativeCStringStorage values) heap = (.error error, heap')) ↔
        ∃ value ∈ values,
          0 ∈ value.toByteArray.data.toList ∨ 2 ^ 31 - 1 < value.utf8ByteSize) ∧
      (∀ error heap', exec (nativeCStringStorage values) heap = (.error error, heap') →
        heap' = heap) ∧
      ∀ pointers heap', exec (nativeCStringStorage values) heap = (.ok pointers, heap') →
        StoredWhole values heap pointers heap') ∧
    (∀ (values₁ values₂ : List String) (heap₁ heap₂ : Heap) (pointers₁ pointers₂ : List Nat)
      (heap₁' heap₂' : Heap),
      exec (nativeCStringStorage values₁) heap₁ = (.ok pointers₁, heap₁') →
      exec (nativeCStringStorage values₂) heap₂ = (.ok pointers₂, heap₂') →
      ∀ i (hi : i < values₁.length) j (hj : j < values₂.length),
        values₁[i].toByteArray.data.toList ≠ values₂[j].toByteArray.data.toList →
        ∀ pointer₁ pointer₂, pointers₁[i]? = some pointer₁ → pointers₂[j]? = some pointer₂ →
          cReading heap₁' pointer₁ ≠ cReading heap₂' pointer₂) ∧
    ∀ (broken : List UInt8 → Nat) (memory : Nat → UInt8) (base n : Nat),
      (∀ a ∈ ((fixedString broken memory base n).run []).2, base ≤ a ∧ a < base + n) ∧
      ∀ value : String, Crosses value → value.utf8ByteSize ≤ n →
        window memory base n
          = value.toByteArray.data.toList ++ List.replicate (n - value.utf8ByteSize) 0 →
        ((fixedString broken memory base n).run []).1.toByteArray.data.toList
          = value.toByteArray.data.toList := by
  refine ⟨fun values heap => ⟨⟨?_, ?_⟩, fun error heap' h => (of_exec_error h).2,
    fun pointers heap' h => storedWhole h⟩, ?_, ?_⟩
  · rintro ⟨error, heap', herror⟩
    obtain ⟨value, hmem, hrefused⟩ := (of_exec_error herror).1
    exact ⟨value, hmem, not_crosses_iff.mp hrefused⟩
  · rintro ⟨value, hmem, hbad⟩
    obtain ⟨error, herror⟩ := exec_nativeCStringStorage_error heap
      ⟨value, hmem, not_crosses_iff.mpr hbad⟩
    exact ⟨error, heap, herror⟩
  · intro values₁ values₂ heap₁ heap₂ pointers₁ pointers₂ heap₁' heap₂' h₁ h₂ i hi j hj hne
      pointer₁ pointer₂ hp₁ hp₂ heq
    -- both strings are read back whole, so equal readings are equal strings
    obtain ⟨p₁, hat₁, hread₁⟩ := (storedWhole h₁).reading i hi
    obtain ⟨p₂, hat₂, hread₂⟩ := (storedWhole h₂).reading j hj
    obtain rfl : p₁ = pointer₁ := Option.some.inj (hat₁.symm.trans hp₁)
    obtain rfl : p₂ = pointer₂ := Option.some.inj (hat₂.symm.trans hp₂)
    rw [hread₁, hread₂, Option.some.injEq] at heq
    exact hne heq
  · intro broken memory base n
    refine ⟨fun a ha => fixedString_reads broken memory base n ha, ?_⟩
    intro value hcrosses _ hwindow
    rw [fixedString_echoed broken memory base n hcrosses.1 hwindow]

end CoAkka.Transport
