import Mathlib.Data.List.Basic

/-!
# Transition — logs whose events follow a rule

A protocol says of each event what must have come before it. `Justified P log` holds when every
event of `log` meets `P` of the events before it; a step that appends an event has to check the
rule for this event alone.

* `Justified.concat` — a log with one more event.
* `Justified.count_le_one` — an event whose rule is that it has not happened happens once at most.
-/

namespace Transition

variable {ε : Type*} {P : List ε → ε → Prop} {log : List ε}

/-- Every event of the log meets the rule of the events before it. -/
def Justified (P : List ε → ε → Prop) (log : List ε) : Prop :=
  ∀ before e after, log = before ++ e :: after → P before e

theorem Justified.nil : Justified P [] := by
  intro before e after h
  simp at h

/-- What was justified stays so when the log is cut. -/
theorem Justified.of_append {events : List ε} (h : Justified P (log ++ events)) :
    Justified P log := by
  intro before e after hsplit
  exact h before e (after ++ events) (by rw [hsplit, List.append_assoc, List.cons_append])

/-- New events are checked against the log so far. -/
theorem Justified.append {events : List ε} (h : Justified P log)
    (hevents : Justified (fun before e => P (log ++ before) e) events) :
    Justified P (log ++ events) := by
  intro before e after hsplit
  rcases List.append_eq_append_iff.mp hsplit with ⟨new, rfl, hnew⟩ | ⟨old, rfl, hold⟩
  · exact hevents new e after hnew
  · cases old with
    | nil =>
      -- the split is at the end of the old log
      have hpre := hevents [] e after hold.symm
      simpa using hpre
    | cons x old =>
      obtain ⟨rfl, -⟩ := List.cons.inj hold
      exact h before e old rfl

theorem Justified.cons {e : ε} (he : P [] e)
    (h : Justified (fun before e' => P (e :: before) e') log) : Justified P (e :: log) := by
  intro before e' after hsplit
  cases before with
  | nil =>
    obtain ⟨rfl, -⟩ := List.cons.inj hsplit
    exact he
  | cons x before =>
    obtain ⟨rfl, hrest⟩ := List.cons.inj hsplit
    exact h before e' after hrest

/-- An event is justified by what stands before it. -/
theorem Justified.concat {e : ε} (h : Justified P log) (he : P log e) :
    Justified P (log ++ [e]) := by
  apply h.append
  apply Justified.cons
  · rwa [List.append_nil]
  · exact .nil

/-- Events that meet the rule in any order. -/
theorem Justified.append_of_forall {events : List ε} (h : Justified P log)
    (hevents : ∀ before e, before ⊆ events → e ∈ events → P (log ++ before) e) :
    Justified P (log ++ events) := by
  apply h.append
  intro before e after hsplit
  apply hevents before e <;> rw [hsplit]
  · exact List.subset_append_left _ _
  · simp

/-- An event that may not repeat occurs at most once. -/
theorem Justified.count_le_one [DecidableEq ε] {e : ε} (h : Justified P log)
    (honce : ∀ before, P before e → e ∉ before) : log.count e ≤ 1 := by
  by_cases hmem : e ∈ log
  · obtain ⟨before, after, rfl, hbefore⟩ := List.eq_append_cons_of_mem hmem
    have hafter : e ∉ after := by
      intro hagain
      obtain ⟨between, rest, rfl⟩ := List.append_of_mem hagain
      have := honce (before ++ e :: between) (h _ e rest (by simp))
      simp at this
    have hcount : (before ++ e :: after).count e = 1 := by
      rw [List.count_append, List.count_cons_self, List.count_eq_zero.mpr hbefore,
        List.count_eq_zero.mpr hafter]
    exact Nat.le_of_eq hcount
  · rw [List.count_eq_zero.mpr hmem]
    exact Nat.zero_le 1

end Transition
