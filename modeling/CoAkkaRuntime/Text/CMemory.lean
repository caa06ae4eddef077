import Mathlib.Data.List.TakeWhile
import Mathlib.Tactic.Common

/-!
# Text — C strings in memory

A heap is a list of blocks whose bytes may not have been written; C reads a string from the start of
a block up to its first zero, and has no business past the block or in what was not written. A
fixed buffer is a window of memory; a scan of it notes every address that it reads.

* `readCString_terminated` — C reads back the bytes of a terminated string.
* `readBytes_reads`, `countNonZero_reads` — a scan reads no address outside its window.
-/

namespace Text

/-! ## Blocks -/

/-- A block of memory; a byte that was not written has no value. -/
abbrev Block := List (Option UInt8)

/-- The blocks of a heap; a pointer is the index of its block. -/
abbrev Heap := List Block

/-- A new block, with nothing written. -/
def allocate (capacity : Nat) (heap : Heap) : Nat × Heap :=
  (heap.length, heap ++ [List.replicate capacity none])

/-- Write bytes to the start of a block. -/
def fill (pointer : Nat) (bytes : List UInt8) (heap : Heap) : Heap :=
  heap.modify pointer fun block => bytes.map some ++ block.drop bytes.length

/-- The bytes that C reads up to the first zero, if all of them are there. -/
def readCString : Block → Option (List UInt8)
  | some b :: rest => if b = 0 then some [] else (readCString rest).map (b :: ·)
  | _ => none

/-- C reads up to the first zero, whatever stands behind it. -/
theorem readCString_terminated (bytes : List UInt8) (rest : Block) :
    readCString (bytes.map some ++ some 0 :: rest) = some (bytes.takeWhile (· ≠ 0)) := by
  induction bytes with
  | nil => rfl
  | cons b bytes ih =>
    rw [List.map_cons, List.cons_append, readCString]
    by_cases hzero : b = 0
    · rw [if_pos hzero, List.takeWhile_cons_of_neg (by simp [hzero])]
    · rw [if_neg hzero, ih, List.takeWhile_cons_of_pos (by simpa using hzero)]
      rfl

/-- Allocating a block and filling it adds a block, and changes no other. -/
theorem fill_allocate (bytes : List UInt8) (heap : Heap) :
    fill (allocate bytes.length heap).1 bytes (allocate bytes.length heap).2
      = heap ++ [bytes.map some] := by
  unfold fill allocate
  induction heap with
  | nil => simp
  | cons block heap ih => simpa using ih

/-! ## Windows

A fixed array in memory, read byte by byte.
-/

/-- The bytes of memory from `start` on. -/
def window (memory : Nat → UInt8) (start : Nat) : Nat → List UInt8
  | 0 => []
  | n + 1 => memory start :: window memory (start + 1) n

theorem length_window (memory : Nat → UInt8) (start n : Nat) :
    (window memory start n).length = n := by
  induction n generalizing start with
  | zero => rfl
  | succ n ih => rw [window, List.length_cons, ih]

theorem take_window (memory : Nat → UInt8) (start : Nat) {k n : Nat} (h : k ≤ n) :
    (window memory start n).take k = window memory start k := by
  induction k generalizing start n with
  | zero => rfl
  | succ k ih =>
    obtain ⟨n, rfl⟩ : ∃ m, n = m + 1 := ⟨n - 1, by omega⟩
    rw [window, window, List.take_succ_cons, ih (start + 1) (by omega)]

/-- Read a byte, and note its address. -/
def readByte (memory : Nat → UInt8) (address : Nat) : StateM (List Nat) UInt8 := do
  modify fun reads => reads ++ [address]
  return memory address

/-- How many of the `n` bytes from `start` on come before the first zero. -/
def countNonZero (memory : Nat → UInt8) (start : Nat) : Nat → StateM (List Nat) Nat
  | 0 => pure 0
  | n + 1 => do
    if (← readByte memory start) ≠ 0 then
      return (← countNonZero memory (start + 1) n) + 1
    else return 0

/-- The `n` bytes from `start` on. -/
def readBytes (memory : Nat → UInt8) (start : Nat) : Nat → StateM (List Nat) (List UInt8)
  | 0 => pure []
  | n + 1 => do
    let b ← readByte memory start
    return b :: (← readBytes memory (start + 1) n)

section Scan

variable (memory : Nat → UInt8) (start n : Nat) (reads : List Nat)

theorem countNonZero_succ : (countNonZero memory start (n + 1)).run reads =
    if memory start = 0 then (0, reads ++ [start])
    else (((countNonZero memory (start + 1) n).run (reads ++ [start])).1 + 1,
      ((countNonZero memory (start + 1) n).run (reads ++ [start])).2) := by
  show (if memory start ≠ 0 then _ else _ : StateM (List Nat) Nat).run (reads ++ [start]) = _
  by_cases hzero : memory start = 0
  · rw [if_pos hzero, if_neg (not_not.mpr hzero)]
    rfl
  · rw [if_neg hzero, if_pos hzero]
    rfl

/-- Counting stops at the first zero of the window. -/
theorem countNonZero_run : ((countNonZero memory start n).run reads).1
    = ((window memory start n).takeWhile (· ≠ 0)).length := by
  induction n generalizing start reads with
  | zero => rfl
  | succ n ih =>
    rw [window, countNonZero_succ]
    by_cases hzero : memory start = 0
    · simp [hzero]
    · rw [if_neg hzero, List.takeWhile_cons_of_pos (by simpa using hzero), List.length_cons]
      simp only
      rw [ih]

/-- Reading a window is reading its bytes. -/
theorem readBytes_run :
    ((readBytes memory start n).run reads).1 = window memory start n := by
  induction n generalizing start reads with
  | zero => rfl
  | succ n ih =>
    have hrest := ih (start + 1) (reads ++ [start])
    rw [window, readBytes, ← hrest]
    rfl

/-- The scan for a zero stays in the window. -/
theorem countNonZero_reads {a : Nat} (h : a ∈ ((countNonZero memory start n).run reads).2) :
    a ∈ reads ∨ start ≤ a ∧ a < start + n := by
  induction n generalizing start reads with
  | zero => exact .inl h
  | succ n ih =>
    rw [countNonZero_succ] at h
    have hstep : a ∈ reads ++ [start] ∨ start + 1 ≤ a ∧ a < start + 1 + n := by
      by_cases hzero : memory start = 0
      · rw [if_pos hzero] at h
        exact .inl h
      · rw [if_neg hzero] at h
        exact ih (start + 1) (reads ++ [start]) h
    rcases hstep with hmem | hin
    · rcases List.mem_append.mp hmem with hold | hnew
      · exact .inl hold
      · rw [List.mem_singleton] at hnew
        omega
    · omega

/-- Reading the window stays in it. -/
theorem readBytes_reads {a : Nat} (h : a ∈ ((readBytes memory start n).run reads).2) :
    a ∈ reads ∨ start ≤ a ∧ a < start + n := by
  induction n generalizing start reads with
  | zero => exact .inl h
  | succ n ih =>
    rcases ih (start + 1) (reads ++ [start]) h with hmem | hin
    · rcases List.mem_append.mp hmem with hold | hnew
      · exact .inl hold
      · rw [List.mem_singleton] at hnew
        omega
    · omega

end Scan

end Text
