import Mathlib.Algebra.Ring.Nat
import Mathlib.Data.Finset.Card
import Mathlib.Data.List.Basic

/-!
# Transition — threads over a shared state

A pool is a shared state and the positions of any number of threads. One thread at a time takes an
atomic step, which reads and writes the shared state and moves its own position. An invariant
counts the threads at a position; `countP_set` is how such a count moves in a step.

* `advance_eq_some` — what a step of a pool is.
* `countP_set`, `sum_map_set` — one thread's move in a count and in a sum.
* `card_le_countP` — threads that are named apart are counted apart.
-/

namespace Transition

/-- A shared state and the positions of the threads over it. -/
structure Pool (σ π : Type*) where
  shared : σ
  threads : List π

namespace Pool

variable {σ π : Type*}

/-- Thread `i` takes the step `next`, which may not be enabled. -/
def advance (next : σ → π → Option (σ × π)) (p : Pool σ π) (i : Nat) : Option (Pool σ π) :=
  match p.threads[i]? with
  | none => none
  | some pc => (next p.shared pc).map fun r => ⟨r.1, p.threads.set i r.2⟩

/-- A step of one thread changes what is shared and that thread alone. -/
theorem advance_eq_some {next : σ → π → Option (σ × π)} {p p' : Pool σ π} {i : Nat}
    (h : p.advance next i = some p') :
    ∃ pc s pc', p.threads[i]? = some pc ∧ next p.shared pc = some (s, pc') ∧
      p' = ⟨s, p.threads.set i pc'⟩ := by
  unfold advance at h
  cases hpc : p.threads[i]? with
  | none =>
    rw [hpc] at h
    cases h
  | some pc =>
    rw [hpc] at h
    obtain ⟨⟨s, pc'⟩, hnext, rfl⟩ := Option.map_eq_some_iff.mp h
    exact ⟨pc, s, pc', rfl, hnext, rfl⟩

/-- A thread that can go on does. -/
theorem advance_of_next {next : σ → π → Option (σ × π)} {p : Pool σ π} {i : Nat} {pc pc' : π}
    {s : σ} (hpc : p.threads[i]? = some pc) (hnext : next p.shared pc = some (s, pc')) :
    p.advance next i = some ⟨s, p.threads.set i pc'⟩ := by
  unfold advance
  rw [hpc]
  show (next p.shared pc).map _ = _
  rw [hnext]
  rfl

end Pool

section Threads

variable {π : Type*} {threads : List π} {i : Nat} {pc : π}

/-- A thread's move leaves the old position and enters the new one. -/
theorem countP_set (hpc : threads[i]? = some pc) (pc' : π) (q : π → Bool) :
    (threads.set i pc').countP q + (if q pc then 1 else 0)
      = threads.countP q + (if q pc' then 1 else 0) := by
  obtain ⟨hi, rfl⟩ := List.getElem?_eq_some_iff.mp hpc
  have hpos : q threads[i] → 0 < threads.countP q := fun hq =>
    List.countP_pos_iff.mpr ⟨_, List.getElem_mem hi, hq⟩
  rw [List.countP_set hi]
  split
  · next hq =>
    have := hpos hq
    omega
  · omega

/-- A thread's move in a sum over the threads. -/
theorem sum_map_set (hpc : threads[i]? = some pc) (pc' : π) (f : π → Nat) :
    ((threads.set i pc').map f).sum + f pc = (threads.map f).sum + f pc' := by
  induction threads generalizing i with
  | nil => cases hpc
  | cons first threads ih =>
    cases i with
    | zero =>
      obtain rfl := Option.some.inj hpc
      simp only [List.set_cons_zero, List.map_cons, List.sum_cons]
      omega
    | succ i =>
      have hrest := ih (i := i) hpc
      simp only [List.set_cons_succ, List.map_cons, List.sum_cons]
      omega

theorem countP_pos_of_getElem? (hpc : threads[i]? = some pc) {q : π → Bool} (hq : q pc) :
    0 < threads.countP q :=
  List.countP_pos_iff.mpr ⟨pc, List.mem_of_getElem? hpc, hq⟩

/-- The thread that moves is at its new position. -/
theorem getElem?_set_moved (hpc : threads[i]? = some pc) (pc' : π) :
    (threads.set i pc')[i]? = some pc' :=
  List.getElem?_set_self (List.getElem?_eq_some_iff.mp hpc).1

/-- The threads that do not move keep their positions. -/
theorem mem_set_of_mem (hpc : threads[i]? = some pc) (pc' : π) {other : π}
    (h : other ∈ threads) : other = pc ∨ other ∈ threads.set i pc' := by
  obtain ⟨j, hj⟩ := List.mem_iff_getElem?.mp h
  by_cases hij : j = i
  · left
    rw [hij, hpc] at hj
    exact (Option.some.inj hj).symm
  · right
    apply List.mem_iff_getElem?.mpr
    exact ⟨j, by rw [List.getElem?_set_ne (Ne.symm hij), hj]⟩

/-- At most one thread is at such a position, so no thread but the one that moves is. -/
theorem eq_or_not_of_countP_le_one {q : π → Bool} (hle : threads.countP q ≤ 1)
    (hpc : threads[i]? = some pc) (hq : q pc) (pc' : π) {other : π}
    (h : other ∈ threads.set i pc') : other = pc' ∨ q other = false := by
  obtain ⟨hi, rfl⟩ := List.getElem?_eq_some_iff.mp hpc
  have hsplit : threads = threads.take i ++ threads[i] :: threads.drop (i + 1) := by
    rw [← List.drop_eq_getElem_cons hi, List.take_append_drop]
  have hcount : (threads.take i).countP q = 0 ∧ (threads.drop (i + 1)).countP q = 0 := by
    rw [hsplit, List.countP_append, List.countP_cons_of_pos hq] at hle
    omega
  rw [List.set_eq_take_append_cons_drop, if_pos hi, List.mem_append, List.mem_cons] at h
  rcases h with hbefore | rfl | hafter
  · exact .inr (by simpa using List.countP_eq_zero.mp hcount.1 other hbefore)
  · exact .inl rfl
  · exact .inr (by simpa using List.countP_eq_zero.mp hcount.2 other hafter)

/-- Any set of threads at such positions is counted. -/
theorem card_le_countP {q : π → Bool} (s : Finset Nat)
    (h : ∀ i ∈ s, ∃ pc, threads[i]? = some pc ∧ q pc) : s.card ≤ threads.countP q := by
  let at? : Nat → Bool := fun i => (threads[i]?).any q
  have hmap : (List.range threads.length).map (threads[·]?) = threads.map some := by
    apply List.ext_getElem?
    intro i
    by_cases hi : i < threads.length <;> simp [hi]
  have hcount : ((List.range threads.length).filter at?).length = threads.countP q := by
    calc ((List.range threads.length).filter at?).length
        = ((List.range threads.length).map (threads[·]?)).countP (·.any q) := by
          rw [List.countP_map, ← List.countP_eq_length_filter]
          rfl
      _ = threads.countP q := by
          rw [hmap, List.countP_map]
          rfl
  have hsub : s ⊆ ((List.range threads.length).filter at?).toFinset := by
    intro i hi
    obtain ⟨pc, hpc, hq⟩ := h i hi
    obtain ⟨hlt, rfl⟩ := List.getElem?_eq_some_iff.mp hpc
    simp [at?, hq, hlt]
  calc s.card ≤ ((List.range threads.length).filter at?).toFinset.card := Finset.card_le_card hsub
    _ ≤ ((List.range threads.length).filter at?).length := List.toFinset_card_le _
    _ = threads.countP q := hcount

end Threads

end Transition
