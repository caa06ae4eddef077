import CoAkkaRuntime.Throwing.Exec

/-!
# Throwing — how a computation ends

`Ends x s Q E` says of the run of `x` from `s` that it returns a value and a state which meet `Q`,
or throws an error and leaves a state which meet `E`. There is one rule for each way to build a
computation, `try`–`catch` included, so that what a method guarantees however it is left is proved
statement by statement.

The rule for `try` and `catch` is `ends_tryCatch`, and `ends_forM` is the one for a loop over a
list, whose invariant is a function of what is left of the list.
-/

namespace Throwing

variable {ε σ α β : Type}

/-- The run of `x` from `s` returns with `Q`, or throws with `E`. -/
def Ends (x : ExceptT ε (StateM σ) α) (s : σ) (Q : α → σ → Prop) (E : ε → σ → Prop) : Prop :=
  (∀ a s', exec x s = (.ok a, s') → Q a s') ∧ ∀ e s', exec x s = (.error e, s') → E e s'

theorem exec_tryCatch (x : ExceptT ε (StateM σ) α) (handler : ε → ExceptT ε (StateM σ) α) (s : σ) :
    exec (tryCatch x handler) s = match exec x s with
      | (.ok a, s') => (.ok a, s')
      | (.error e, s') => exec (handler e) s' := by
  show (ExceptT.tryCatch x handler) s = _
  simp only [ExceptT.tryCatch, ExceptT.mk, bind, StateT.bind, exec, ExceptT.run, StateT.run]
  obtain ⟨out, s'⟩ := x s
  cases out <;> rfl

section Rules

variable {x : ExceptT ε (StateM σ) α} {s : σ} {Q : α → σ → Prop} {E : ε → σ → Prop}

/-- Postconditions may be weakened. -/
theorem Ends.mono {Q' : α → σ → Prop} {E' : ε → σ → Prop} (h : Ends x s Q E)
    (hQ : ∀ a s', Q a s' → Q' a s') (hE : ∀ e s', E e s' → E' e s') : Ends x s Q' E' :=
  ⟨fun a s' hrun => hQ a s' (h.1 a s' hrun), fun e s' hrun => hE e s' (h.2 e s' hrun)⟩

/-- The run itself. -/
theorem Ends.of_exec {outcome : Except ε α} {s' : σ} (hrun : exec x s = (outcome, s'))
    (hQ : ∀ a, outcome = .ok a → Q a s') (hE : ∀ e, outcome = .error e → E e s') : Ends x s Q E := by
  constructor
  · intro a final h
    rw [hrun] at h
    cases h
    exact hQ a rfl
  · intro e final h
    rw [hrun] at h
    cases h
    exact hE e rfl

theorem ends_pure {a : α} (h : Q a s) : Ends (pure a) s Q E :=
  Ends.of_exec (exec_pure s a) (fun _ hok => by cases hok; exact h) (fun _ herror => by cases herror)

theorem ends_throw {e : ε} (h : E e s) : Ends (throw e) s Q E :=
  Ends.of_exec (exec_throw s e) (fun _ hok => by cases hok) (fun _ herror => by cases herror; exact h)

/-- The rule of composition: the rest has to end well from wherever the first part ends. -/
theorem ends_bind {f : α → ExceptT ε (StateM σ) β} {Q : β → σ → Prop}
    (h : Ends x s (fun a s' => Ends (f a) s' Q E) E) : Ends (x >>= f) s Q E := by
  unfold Ends
  rw [exec_bind]
  obtain ⟨hok, herror⟩ := h
  generalize exec x s = r at hok herror
  obtain ⟨out, s'⟩ := r
  cases out with
  | ok a => exact hok a s' rfl
  | error e =>
    refine ⟨fun _ _ h => (by cases h), fun e' final h => ?_⟩
    cases h
    exact herror e s' rfl

theorem ends_modify {g : σ → σ} {Q : PUnit → σ → Prop} (h : Q ⟨⟩ (g s)) :
    Ends (modify g : ExceptT ε (StateM σ) PUnit) s Q E :=
  Ends.of_exec (exec_modify s g) (fun _ hok => by cases hok; exact h) (fun _ herror => by cases herror)

theorem ends_modify_bind {g : σ → σ} {f : PUnit → ExceptT ε (StateM σ) α}
    (h : Ends (f ⟨⟩) (g s) Q E) : Ends (modify g >>= f) s Q E := by
  unfold Ends
  rw [exec_modify_bind]
  exact h

theorem ends_get_bind {f : σ → ExceptT ε (StateM σ) α} (h : Ends (f s) s Q E) :
    Ends (get >>= f) s Q E := by
  unfold Ends
  rw [exec_get_bind]
  exact h

/-- An outcome that is known is a case distinction. -/
theorem ends_ofExcept {outcome : Except ε α} (hQ : ∀ a, outcome = .ok a → Q a s)
    (hE : ∀ e, outcome = .error e → E e s) : Ends (ofExcept outcome) s Q E :=
  Ends.of_exec (exec_ofExcept s outcome) hQ hE

theorem ends_ofExcept_bind {outcome : Except ε β} {f : β → ExceptT ε (StateM σ) α}
    (hE : ∀ e, outcome = .error e → E e s) (h : ∀ b, outcome = .ok b → Ends (f b) s Q E) :
    Ends (ofExcept outcome >>= f) s Q E :=
  ends_bind (ends_ofExcept h hE)

/-- **The `catch` rule.** The handler meets what the computation left behind. -/
theorem ends_tryCatch {handler : ε → ExceptT ε (StateM σ) α}
    (h : Ends x s Q fun e s' => Ends (handler e) s' Q E) : Ends (tryCatch x handler) s Q E := by
  unfold Ends
  rw [exec_tryCatch]
  obtain ⟨hok, herror⟩ := h
  generalize exec x s = r at hok herror
  obtain ⟨out, s'⟩ := r
  cases out with
  | ok a =>
    refine ⟨fun a' final h => ?_, fun _ _ h => (by cases h)⟩
    cases h
    exact hok a s' rfl
  | error e => exact herror e s' rfl

/-- **The loop rule.** `I done` holds before every turn, where `done` are the elements of the turns
before it. Induction on the elements that are left. -/
theorem ends_forM {f : α → ExceptT ε (StateM σ) PUnit} {l : List α} (I : List α → σ → Prop)
    (hstep : ∀ done a rest s, l = done ++ a :: rest → I done s →
      Ends (f a) s (fun _ s' => I (done ++ [a]) s') E) (hinit : I [] s) :
    Ends (l.forM f) s (fun _ s' => I l s') E := by
  have hrest : ∀ (rest done : List α) (s : σ), l = done ++ rest → I done s →
      Ends (rest.forM f) s (fun _ s' => I l s') E := by
    intro rest
    induction rest with
    | nil =>
      intro done s hl hdone
      rw [List.append_nil] at hl
      exact ends_pure (hl ▸ hdone)
    | cons a rest ih =>
      intro done s hl hdone
      refine ends_bind ((hstep done a rest s hl hdone).mono ?_ fun _ _ herror => herror)
      intro _ s' hnext
      exact ih (done ++ [a]) s' (by rw [hl, List.append_assoc]; rfl) hnext
  exact hrest l [] s rfl hinit

end Rules

end Throwing
