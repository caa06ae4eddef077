import Mathlib.Data.List.Nodup
import Mathlib.Tactic.Common

/-!
# Memory — blocks with an owner

A store is the blocks that were allocated, each until it is given back. What is done to a block that
is not there is a fault, and a fault stays. `Owns` says what a scope has allocated and not given
back yet: those blocks are its own, and every other block is as the scope found it. A scope that
owns nothing at its end has given back all that it took, and nothing else.

* `Owns.allocate`, `Owns.deallocate` — a block that is taken is owned, one that is given back is
  not.
* `Owns.deallocateAll` — a list of blocks, in any order.
* `Owns.perm` — the order in which blocks were taken does not matter.
-/

namespace Memory

/-- One cell for each allocation; a block that was given back is gone. -/
structure Store (β : Type*) where
  cells : List (Option β) := []
  /-- A block that is not there was read, written or given back. -/
  fault : Bool := false

namespace Store

variable {β : Type*} (s : Store β)

def read (p : Nat) : Option β := s.cells[p]?.join

def allocate (b : β) : Nat × Store β := (s.cells.length, { s with cells := s.cells ++ [some b] })

def write (p : Nat) (b : β) : Store β :=
  if (s.read p).isSome then { s with cells := s.cells.set p (some b) } else { s with fault := true }

def deallocate (p : Nat) : Store β :=
  if (s.read p).isSome then { s with cells := s.cells.set p none } else { s with fault := true }

variable {s} {b : β} {p : Nat}

/-- What can be read was allocated. -/
theorem lt_of_isSome_read (h : (s.read p).isSome) : p < s.cells.length := by
  by_contra hge
  unfold read at h
  rw [List.getElem?_eq_none (Nat.le_of_not_lt hge)] at h
  cases h

/-- A new block is the only difference. -/
theorem read_allocate (b : β) (q : Nat) :
    (s.allocate b).2.read q = if q = (s.allocate b).1 then some b else s.read q := by
  show (s.cells ++ [some b])[q]?.join = if q = s.cells.length then _ else s.cells[q]?.join
  split
  · next h => rw [h, List.getElem?_concat_length, Option.join_some]
  · next h =>
    by_cases hq : q < s.cells.length
    · rw [List.getElem?_append_left hq]
    · rw [List.getElem?_eq_none (by simp only [List.length_append, List.length_singleton]; omega),
        List.getElem?_eq_none (by omega)]

theorem read_allocate_self (b : β) : (s.allocate b).2.read (s.allocate b).1 = some b := by
  rw [read_allocate, if_pos rfl]

/-- The next block is new. -/
theorem read_next : s.read s.cells.length = none := by
  unfold read
  rw [List.getElem?_eq_none (Nat.le_refl _)]
  rfl

/-- A freed block is the only difference. -/
theorem read_deallocate (h : (s.read p).isSome) (q : Nat) :
    (s.deallocate p).read q = if q = p then none else s.read q := by
  unfold deallocate
  rw [if_pos h]
  show (s.cells.set p none)[q]?.join = _
  split
  · next hq =>
    rw [hq, List.getElem?_set_self (lt_of_isSome_read h)]
    rfl
  · next hq =>
    rw [List.getElem?_set_ne (Ne.symm hq)]
    rfl

/-- Freeing what is there is no fault. -/
theorem fault_deallocate (h : (s.read p).isSome) : (s.deallocate p).fault = s.fault := by
  unfold deallocate
  rw [if_pos h]

/-- A new block that is filled at once. -/
theorem write_allocate (b b' : β) :
    (s.allocate b).2.write (s.allocate b).1 b' = (s.allocate b').2 := by
  have hlive : ((s.allocate b).2.read (s.allocate b).1).isSome := by
    rw [read_allocate_self]
    rfl
  unfold write
  rw [if_pos hlive]
  show (⟨(s.cells ++ [some b]).set s.cells.length (some b'), s.fault⟩ : Store β) = _
  rw [List.set_append_right _ _ (Nat.le_refl _), Nat.sub_self]
  rfl

/-! ## Blocks that stay -/

/-- Every block of `s` is in `s'`. -/
def Le (s s' : Store β) : Prop := ∀ p b, s.read p = some b → s'.read p = some b

theorem Le.trans {s₁ s₂ s₃ : Store β} (h : Le s₁ s₂) (h' : Le s₂ s₃) : Le s₁ s₃ :=
  fun p b hread => h' p b (h p b hread)

/-- An allocation takes nothing away. -/
theorem le_allocate (s : Store β) (b : β) : Le s (s.allocate b).2 := by
  intro p b' hread
  rw [read_allocate, if_neg, hread]
  rintro rfl
  rw [show s.read (s.allocate b).1 = none from read_next] at hread
  cases hread

end Store

/-! ## Ownership

What a scope owns is a list of blocks; at its end the list is empty.
-/

variable {β : Type*} {s₀ s : Store β} {owned : List Nat}

/-- What a scope that found `s₀` has allocated and not given back. -/
structure Owns (s₀ s : Store β) (owned : List Nat) : Prop where
  fault : s.fault = s₀.fault
  others : ∀ p, p ∉ owned → s.read p = s₀.read p
  live : ∀ p ∈ owned, (s.read p).isSome
  fresh : ∀ p ∈ owned, s₀.read p = none
  nodup : owned.Nodup

theorem Owns.refl (s : Store β) : Owns s s [] :=
  ⟨rfl, fun _ _ => rfl, nofun, nofun, List.nodup_nil⟩

/-- The order in which blocks are owned does not matter. -/
theorem Owns.perm {owned' : List Nat} (h : Owns s₀ s owned) (hperm : owned.Perm owned') :
    Owns s₀ s owned' :=
  ⟨h.fault, fun p hp => h.others p fun hmem => hp (hperm.mem_iff.mp hmem),
    fun p hp => h.live p (hperm.mem_iff.mpr hp), fun p hp => h.fresh p (hperm.mem_iff.mpr hp),
    hperm.nodup_iff.mp h.nodup⟩

/-- Who allocates owns one block more. -/
theorem Owns.allocate (h : Owns s₀ s owned) (b : β) :
    Owns s₀ (s.allocate b).2 ((s.allocate b).1 :: owned) := by
  have hnext : s.read (s.allocate b).1 = none := Store.read_next
  have hnew : (s.allocate b).1 ∉ owned := by
    intro hmem
    have hlive := h.live _ hmem
    rw [hnext] at hlive
    cases hlive
  refine ⟨h.fault, ?_, ?_, ?_, List.nodup_cons.mpr ⟨hnew, h.nodup⟩⟩
  · intro p hp
    simp only [List.mem_cons, not_or] at hp
    rw [Store.read_allocate, if_neg hp.1, h.others p hp.2]
  · intro p hp
    rw [Store.read_allocate]
    split
    · rfl
    · next hne => exact h.live p ((List.mem_cons.mp hp).resolve_left hne)
  · intro p hp
    rcases List.mem_cons.mp hp with rfl | hold
    · rw [← h.others _ hnew, hnext]
    · exact h.fresh p hold

/-- Who frees a block owns one less, and no fault is made of it. -/
theorem Owns.deallocate {p : Nat} (h : Owns s₀ s (p :: owned)) :
    Owns s₀ (s.deallocate p) owned := by
  obtain ⟨hnot, hnodup⟩ := List.nodup_cons.mp h.nodup
  have hlive := h.live p List.mem_cons_self
  refine ⟨(Store.fault_deallocate hlive).trans h.fault, ?_, ?_,
    fun q hq => h.fresh q (List.mem_cons_of_mem _ hq), hnodup⟩
  · intro q hq
    rw [Store.read_deallocate hlive]
    split
    · next heq => rw [heq, h.fresh p List.mem_cons_self]
    · next hne => exact h.others q (by simp [hne, hq])
  · intro q hq
    rw [Store.read_deallocate hlive, if_neg]
    · exact h.live q (List.mem_cons_of_mem _ hq)
    · rintro rfl
      exact hnot hq

/-- **A scope gives back all that it owns.** -/
theorem Owns.deallocateAll (h : Owns s₀ s owned) : Owns s₀ (owned.foldl Store.deallocate s) [] := by
  induction owned generalizing s with
  | nil => exact h
  | cons p owned ih => exact ih h.deallocate

end Memory
