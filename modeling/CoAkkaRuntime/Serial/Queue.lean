import Mathlib.Data.Int.CardIntervalMod
import Mathlib.Data.List.Basic

/-!
# Serial — serial queues, and placing in turn

A serial queue runs its jobs one at a time, in the order in which they came. It remembers what it
was given and what it has finished, so that the order is a fact about one state (`InOrder`), kept by
each of its three operations. `turns` is the sequence of queues that takes every one of them in
turn.

* `InOrder` — what was finished, what runs and what waits are, in this order, what was submitted.
* `InOrder.submit`, `InOrder.start`, `InOrder.finish` — the three operations keep it.
* `count_turns_le` — each of the queues gets its share of what is placed in turn.
-/

namespace Serial

/-- A serial queue, with the jobs that it was given and those that it has finished. -/
structure Queue (α : Type*) where
  submitted : List α := []
  finished : List α := []
  running : Option α := none
  waiting : List α := []
  deriving DecidableEq, Repr

namespace Queue

variable {α : Type*} {q q' : Queue α} {a : α}

def submit (q : Queue α) (a : α) : Queue α :=
  { q with submitted := q.submitted ++ [a], waiting := q.waiting ++ [a] }

/-- The first job that waits runs, where none does. -/
def start (q : Queue α) : Option (Queue α) :=
  match q.running, q.waiting with
  | none, a :: rest => some { q with running := some a, waiting := rest }
  | _, _ => none

def finish (q : Queue α) : Option (Queue α) :=
  match q.running with
  | some a => some { q with running := none, finished := q.finished ++ [a] }
  | none => none

/-- What the queue was given is what it has finished, what it runs and what waits. -/
def InOrder (q : Queue α) : Prop := q.submitted = q.finished ++ q.running.toList ++ q.waiting

/-- A start takes the front of the queue, if nothing runs. -/
theorem start_eq_some (h : q.start = some q') :
    ∃ a rest, q.running = none ∧ q.waiting = a :: rest ∧
      q' = { q with running := some a, waiting := rest } := by
  unfold start at h
  split at h
  · next a rest hrunning hwaiting => exact ⟨a, rest, hrunning, hwaiting, (Option.some.inj h).symm⟩
  · cases h

/-- What finishes is what ran. -/
theorem finish_eq_some (h : q.finish = some q') :
    ∃ a, q.running = some a ∧
      q' = { q with running := none, finished := q.finished ++ [a] } := by
  unfold finish at h
  split at h
  · next a hrunning => exact ⟨a, hrunning, (Option.some.inj h).symm⟩
  · cases h

/-- A queue that runs nothing starts the first job that waits. -/
theorem start_of_waiting {rest : List α} (hrunning : q.running = none)
    (hwaiting : q.waiting = a :: rest) :
    q.start = some { q with running := some a, waiting := rest } := by
  unfold start
  rw [hrunning, hwaiting]

theorem finish_of_running (hrunning : q.running = some a) :
    q.finish = some { q with running := none, finished := q.finished ++ [a] } := by
  unfold finish
  rw [hrunning]

theorem inOrder_empty : InOrder ({} : Queue α) := rfl

/-- **The order of submission is kept** by each of the three steps. -/
theorem InOrder.submit (h : q.InOrder) (a : α) : (q.submit a).InOrder := by
  show q.submitted ++ [a] = q.finished ++ q.running.toList ++ (q.waiting ++ [a])
  rw [h, List.append_assoc]

theorem InOrder.start (h : q.InOrder) (hstart : q.start = some q') : q'.InOrder := by
  obtain ⟨a, rest, hrunning, hwaiting, rfl⟩ := start_eq_some hstart
  unfold InOrder at h ⊢
  rw [hrunning, hwaiting] at h
  simpa using h

theorem InOrder.finish (h : q.InOrder) (hfinish : q.finish = some q') : q'.InOrder := by
  obtain ⟨a, hrunning, rfl⟩ := finish_eq_some hfinish
  unfold InOrder at h ⊢
  rw [hrunning] at h
  simpa using h

end Queue

/-! ## Placing in turn

The places of `n` jobs over `m` queues, one after the other.
-/

/-- The first `n` places, of `m` queues taken in turn. -/
def turns (m n : Nat) : List Nat := (List.range n).map (· % m)

/-- The next turn. -/
theorem turns_succ (m n : Nat) : turns m (n + 1) = turns m n ++ [n % m] := by
  unfold turns
  rw [List.range_succ, List.map_append]
  rfl

/-- Each round of `m` places takes every queue once. -/
theorem count_turns {m l : Nat} (hl : l < m) (n : Nat) :
    (turns m n).count l = n / m + if l < n % m then 1 else 0 := by
  have hmod : ∀ k : Nat, (k % m == l) = decide (k ≡ l [MOD m]) := by
    intro k
    simp [Nat.ModEq, Nat.mod_eq_of_lt hl, beq_eq_decide]
  have hcount : (turns m n).count l = n.count (· ≡ l [MOD m]) := by
    induction n with
    | zero => rfl
    | succ n ih =>
      rw [turns_succ, List.count_append, ih, List.count_singleton, hmod, Nat.count_succ]
      simp
  rw [hcount, Nat.count_modEq_card n (by omega) l, Nat.mod_eq_of_lt hl]

/-- No queue is given two places more than another. -/
theorem count_turns_le {m l l' : Nat} (hl : l < m) (hl' : l' < m) (n : Nat) :
    (turns m n).count l ≤ (turns m n).count l' + 1 := by
  rw [count_turns hl, count_turns hl']
  split <;> split <;> omega

end Serial
