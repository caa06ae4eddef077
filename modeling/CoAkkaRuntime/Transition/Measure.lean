import CoAkkaRuntime.Transition.System
import Mathlib.Algebra.Ring.Nat

/-!
# Transition — measured runs

A measure that every step lowers by one, and that is not zero only where a step is enabled: then
every run that goes on as long as it can has the same length, the measure it starts from, and ends
where the measure is zero. Where other steps come between, and some put work in, the measure and
what was put in pay for the steps that count.

* `Measured.runs` — the length of a run; `Measured.exists_run` that there is one to the end.
* `Amortised.run` — what was done is paid for by the measure at the start and by what was put in.
-/

namespace Transition.System

variable {σ α : Type*} {T : System σ α}

/-- A run of `n` steps from `s` to `s'`. -/
inductive Runs (T : System σ α) (s : σ) : Nat → σ → Prop where
  | refl : Runs T s 0 s
  | step {s' s'' : σ} {n : Nat} {a : α} (hs : Runs T s n s') (h : T.step s' a s'') :
      Runs T s (n + 1) s''

/-- A run begins with a step. -/
theorem Runs.cons {s s₁ s' : σ} {a : α} {n : Nat} (h : T.step s a s₁) (hs : T.Runs s₁ n s') :
    T.Runs s (n + 1) s' := by
  induction hs with
  | refl => exact .step .refl h
  | step _ hstep ih => exact .step ih hstep

/-- What holds of the states on the way, where every step lowers the measure by one. -/
structure Measured (T : System σ α) (I : σ → Prop) (measure : σ → Nat) : Prop where
  kept : ∀ s a s', I s → T.step s a s' → I s'
  lowers : ∀ s a s', I s → T.step s a s' → measure s' + 1 = measure s
  enabled : ∀ s, I s → measure s ≠ 0 → ∃ a s', T.step s a s'

variable {I : σ → Prop} {measure : σ → Nat} {s s' : σ} {n : Nat}

/-- **A measured run is as long as what it takes off the measure.** -/
theorem Measured.runs (h : Measured T I measure) (hs : I s) (hrun : T.Runs s n s') :
    I s' ∧ n + measure s' = measure s := by
  induction hrun with
  | refl => exact ⟨hs, Nat.zero_add _⟩
  | step _ hstep ih =>
    have hlower := h.lowers _ _ _ ih.1 hstep
    exact ⟨h.kept _ _ _ ih.1 hstep, by omega⟩

/-- **A measured system comes to its end.** -/
theorem Measured.exists_run (h : Measured T I measure) (hs : I s) :
    ∃ s', T.Runs s (measure s) s' ∧ measure s' = 0 := by
  generalize hn : measure s = n
  induction n generalizing s with
  | zero => exact ⟨s, .refl, hn⟩
  | succ n ih =>
    obtain ⟨a, s₁, hstep⟩ := h.enabled s hs (by omega)
    have hlower := h.lowers s a s₁ hs hstep
    obtain ⟨s', hrun, hzero⟩ := ih (h.kept s a s₁ hs hstep) (by omega)
    exact ⟨s', hrun.cons hstep, hzero⟩

/-! ## Costs

Steps that count, and steps that may put work in.
-/

/-- Every step costs something and puts something in, and the measure pays the difference. -/
structure Amortised (f : σ → α → Option σ) (I : σ → Prop) (measure : σ → Nat)
    (cost gain : α → Nat) : Prop where
  kept : ∀ s a s', I s → f s a = some s' → I s'
  pays : ∀ s a s', I s → f s a = some s' → measure s' + cost a ≤ measure s + gain a

/-- What a run costs is paid by the measure it starts from and by what it puts in. -/
theorem Amortised.run {f : σ → α → Option σ} {cost gain : α → Nat}
    (h : Amortised f I measure cost gain) (hs : I s) (actions : List α)
    (hrun : actions.foldlM f s = some s') :
    I s' ∧ measure s' + (actions.map cost).sum ≤ measure s + (actions.map gain).sum := by
  induction actions generalizing s with
  | nil =>
    obtain rfl : s = s' := Option.some.inj hrun
    exact ⟨hs, Nat.le_refl _⟩
  | cons a actions ih =>
    rw [List.foldlM_cons] at hrun
    obtain ⟨middle, hmiddle, hrest⟩ := Option.bind_eq_some_iff.mp hrun
    have hpays := h.pays s a middle hs hmiddle
    obtain ⟨hkept, htotal⟩ := ih (h.kept s a middle hs hmiddle) hrest
    refine ⟨hkept, ?_⟩
    simp only [List.map_cons, List.sum_cons]
    omega

end Transition.System
