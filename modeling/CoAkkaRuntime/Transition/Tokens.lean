import Mathlib.Logic.Function.Basic

/-!
# Transition — tokens that are spent once

Tokens are issued to holders, who spend them. A ledger says that a token that was issued is with
one holder, or was spent once, and not both; `issue` and `spend` keep it.

* `Ledger` — the three numbers of each token: issued, held, spent.
* `issue`, `spend` — the two moves. Nothing else changes a number, so a token is spent once at most.
-/

namespace Transition

variable {κ ι : Type*}

/-- What holds of tokens `κ` and their holders `ι`, where `spent` counts how often each was spent. -/
structure Ledger (issued : κ → Prop) (holds : ι → Option κ) (spent : κ → Nat) : Prop where
  unique : ∀ k i j, holds i = some k → holds j = some k → i = j
  placed : ∀ k, issued k ↔ (∃ i, holds i = some k) ∨ 0 < spent k
  exclusive : ∀ k, 0 < spent k → ∀ i, holds i ≠ some k
  once : ∀ k, spent k ≤ 1

namespace Ledger

variable {issued issued' : κ → Prop} {holds holds' : ι → Option κ} {spent spent' : κ → Nat}
  {k : κ} {i : ι}

/-- Before anything is issued there is nothing to account for. -/
theorem empty (hissued : ∀ k, ¬ issued k) (hholds : ∀ i, holds i = none)
    (hspent : ∀ k, spent k = 0) : Ledger issued holds spent := by
  refine ⟨?_, ?_, ?_, ?_⟩
  · intro k i j hi
    rw [hholds] at hi
    cases hi
  · intro k
    simp [hissued, hholds, hspent]
  · intro k hpos
    rw [hspent] at hpos
    exact absurd hpos (Nat.lt_irrefl 0)
  · intro k
    rw [hspent]
    exact Nat.zero_le 1

/-- Only what is issued, held and spent matters. -/
theorem congr (h : Ledger issued holds spent) (hissued : ∀ k, issued' k ↔ issued k)
    (hholds : ∀ i, holds' i = holds i) (hspent : ∀ k, spent' k = spent k) :
    Ledger issued' holds' spent' := by
  obtain rfl : issued' = issued := funext fun k => propext (hissued k)
  obtain rfl : holds' = holds := funext hholds
  obtain rfl : spent' = spent := funext hspent
  exact h

/-- A token is where it is once: with one holder, or spent. -/
theorem one (h : Ledger issued holds spent) (hk : issued k) :
    ((∃! i, holds i = some k) ∧ spent k = 0) ∨ ((∀ i, holds i ≠ some k) ∧ spent k = 1) := by
  by_cases hpos : 0 < spent k
  · have hle := h.once k
    exact .inr ⟨h.exclusive k hpos, by omega⟩
  · obtain ⟨i, hi⟩ := ((h.placed k).mp hk).resolve_right hpos
    exact .inl ⟨⟨i, hi, fun j hj => h.unique k j i hj hi⟩, by omega⟩

/-- What is held was issued. -/
theorem issued_of_holds (h : Ledger issued holds spent) (hi : holds i = some k) : issued k :=
  (h.placed k).mpr (.inl ⟨i, hi⟩)

/-- And was not spent. -/
theorem spent_of_holds (h : Ledger issued holds spent) (hi : holds i = some k) : spent k = 0 := by
  by_contra hne
  exact h.exclusive k (Nat.pos_of_ne_zero hne) i hi

variable [DecidableEq ι]

/-- A token that was not issued is issued to `i`, who has none. -/
theorem issue (h : Ledger issued holds spent) (hnew : ¬ issued k) (hnone : holds i = none)
    (hissued : ∀ k', issued' k' ↔ issued k' ∨ k' = k) :
    Ledger issued' (Function.update holds i (some k)) spent := by
  have hmoved : ∀ j k', Function.update holds i (some k) j = some k' ↔
      (j = i ∧ k' = k) ∨ holds j = some k' := by
    intro j k'
    by_cases hj : j = i
    · subst hj
      simp [hnone, eq_comm]
    · simp [hj]
  -- a token that was not issued is with nobody
  have hfresh : ∀ j, holds j ≠ some k := fun j hj => hnew (h.issued_of_holds hj)
  refine ⟨?_, ?_, ?_, h.once⟩
  · intro k' j j' hj hj'
    rcases (hmoved j k').mp hj with ⟨rfl, rfl⟩ | hj
    · rcases (hmoved j' _).mp hj' with ⟨rfl, -⟩ | hj'
      · rfl
      · exact absurd hj' (hfresh j')
    · rcases (hmoved j' k').mp hj' with ⟨-, hkk⟩ | hj'
      · exact absurd (hkk ▸ hj) (hfresh j)
      · exact h.unique k' j j' hj hj'
  · intro k'
    simp only [hissued, hmoved, h.placed k']
    constructor
    · rintro ((⟨j, hj⟩ | hpos) | rfl)
      · exact .inl ⟨j, .inr hj⟩
      · exact .inr hpos
      · exact .inl ⟨i, .inl ⟨rfl, rfl⟩⟩
    · rintro (⟨j, ⟨-, rfl⟩ | hj⟩ | hpos)
      · exact .inr rfl
      · exact .inl (.inl ⟨j, hj⟩)
      · exact .inl (.inr hpos)
  · intro k' hpos j hj
    rcases (hmoved j k').mp hj with ⟨-, rfl⟩ | hj
    · exact hnew ((h.placed _).mpr (.inr hpos))
    · exact h.exclusive k' hpos j hj

/-- The holder of a token spends it. -/
theorem spend [DecidableEq κ] (h : Ledger issued holds spent) (hi : holds i = some k)
    (hspent : ∀ k', spent' k' = spent k' + if k = k' then 1 else 0) :
    Ledger issued (Function.update holds i none) spent' := by
  have hmoved : ∀ j k', Function.update holds i none j = some k' ↔
      k' ≠ k ∧ holds j = some k' := by
    intro j k'
    by_cases hj : j = i
    · subst hj
      simp [hi, eq_comm]
    · have hother : holds j ≠ some k := fun hk => hj (h.unique k j i hk hi)
      rw [Function.update_of_ne hj]
      exact ⟨fun hk' => ⟨fun hkk => hother (hkk ▸ hk'), hk'⟩, And.right⟩
  -- a token that is held has not been spent
  have hzero := h.spent_of_holds hi
  refine ⟨?_, ?_, ?_, ?_⟩
  · intro k' j j' hj hj'
    exact h.unique k' j j' ((hmoved j k').mp hj).2 ((hmoved j' k').mp hj').2
  · intro k'
    simp only [h.placed k', hmoved, hspent]
    by_cases hk' : k' = k
    · subst hk'
      have hheld : ∃ j, holds j = some k' := ⟨i, hi⟩
      simp [hzero, hheld]
    · simp [hk', Ne.symm hk']
  · intro k' hpos j hj
    obtain ⟨hne, hold⟩ := (hmoved j k').mp hj
    rw [hspent, if_neg (Ne.symm hne), Nat.add_zero] at hpos
    exact h.exclusive k' hpos j hold
  · intro k'
    rw [hspent]
    by_cases hk' : k = k'
    · subst hk'
      rw [if_pos rfl]
      omega
    · rw [if_neg hk']
      exact h.once k'

end Ledger

end Transition
