import Mathlib.Tactic.Common

/-!
# Transition — labelled transition systems and their invariants

A system is a set of initial states and a labelled step relation. An invariant is proved once
for the initial states and once for a step; `Reachable.invariant` carries it to every state of
every run. `restrict` keeps the steps that meet a condition, for facts that hold as long as the
environment behaves.

* `Reachable.invariant` — the induction over a run from the start, `Reaches.invariant` over a run
  from any state.
* `Reaches.foldlM` — a list of labels that can be taken one after the other is a run.
-/

namespace Transition

/-- A labelled transition system. -/
structure System (σ α : Type*) where
  init : σ → Prop
  step : σ → α → σ → Prop

namespace System

variable {σ α : Type*} {T : System σ α}

/-- The states that some run reaches. -/
inductive Reachable (T : System σ α) : σ → Prop where
  | init {s : σ} (h : T.init s) : Reachable T s
  | step {s s' : σ} {a : α} (hs : Reachable T s) (h : T.step s a s') : Reachable T s'

/-- **The invariant rule.** What holds initially and is kept by every step from a reachable state
holds in every reachable state. -/
theorem Reachable.invariant {I : σ → Prop} (hinit : ∀ s, T.init s → I s)
    (hstep : ∀ s a s', T.Reachable s → I s → T.step s a s' → I s') {s : σ}
    (hs : T.Reachable s) : I s := by
  induction hs with
  | init h => exact hinit _ h
  | step hs h ih => exact hstep _ _ _ hs ih h

/-- The runs whose steps all meet `allowed`. -/
def restrict (T : System σ α) (allowed : σ → α → Prop) : System σ α where
  init := T.init
  step s a s' := allowed s a ∧ T.step s a s'

/-- A condition that every step meets restricts nothing. -/
theorem Reachable.restrict {allowed : σ → α → Prop} (hallowed : ∀ s a, allowed s a) {s : σ}
    (hs : T.Reachable s) : (T.restrict allowed).Reachable s := by
  induction hs with
  | init h => exact .init h
  | step _ h ih => exact .step ih ⟨hallowed _ _, h⟩

/-! ## Runs from a state -/

/-- Some run leads from `s` to `s'`. -/
inductive Reaches (T : System σ α) (s : σ) : σ → Prop where
  | refl : Reaches T s s
  | step {s' s'' : σ} {a : α} (hs : Reaches T s s') (h : T.step s' a s'') : Reaches T s s''

/-- What a reachable state reaches is reachable. -/
theorem Reachable.trans {s s' : σ} (hs : T.Reachable s) (h : T.Reaches s s') :
    T.Reachable s' := by
  induction h with
  | refl => exact hs
  | step _ h ih => exact .step ih h

theorem Reaches.trans {s s' s'' : σ} (h : T.Reaches s s') (h' : T.Reaches s' s'') :
    T.Reaches s s'' := by
  induction h' with
  | refl => exact h
  | step _ hstep ih => exact .step ih hstep

/-- A relation to the state a run starts from, kept by every step on the way. -/
theorem Reaches.invariant {I : σ → Prop} {s s' : σ} (h : T.Reaches s s') (hs : I s)
    (hstep : ∀ s a s', I s → T.step s a s' → I s') : I s' := by
  induction h with
  | refl => exact hs
  | step _ h ih => exact hstep _ _ _ ih h

/-- Where the steps are computed, so is a run over a list of actions. -/
theorem Reaches.foldlM {f : σ → α → Option σ} (hf : ∀ s a s', f s a = some s' → T.step s a s')
    {s s' : σ} (actions : List α) (h : actions.foldlM f s = some s') : T.Reaches s s' := by
  induction actions generalizing s with
  | nil =>
    obtain rfl : s = s' := Option.some.inj h
    exact .refl
  | cons a actions ih =>
    rw [List.foldlM_cons] at h
    obtain ⟨middle, hmiddle, hrest⟩ := Option.bind_eq_some_iff.mp h
    have hfirst : T.Reaches s middle := .step .refl (hf s a middle hmiddle)
    exact hfirst.trans (ih hrest)

end System

end Transition
