import Mathlib.Tactic.Common

/-!
# Throwing — programs that run statement by statement

A program that may throw, as what is left of it to run: an outcome, or a statement and, for the
state that one leaves, the rest. Between two statements the state is there to look at, for another
thread or for an invariant. `Along` says what holds of every statement of a program and of its end;
it has one rule for each way to build a program.

* `run_bind`, `run_statement_bind` — the outcome and the last state of a program.
* `along_bind`, `along_statement`, `along_forEach` — the rules of `Along`; the last is an induction
  on the list of a loop.
-/

namespace Throwing

inductive Steps (ε σ α : Type) where
  | ret (outcome : Except ε α)
  | next (statement : σ → σ) (rest : σ → Steps ε σ α)

namespace Steps

variable {ε σ α β : Type}

def bind : Steps ε σ α → (α → Steps ε σ β) → Steps ε σ β
  | .ret (.ok a), f => f a
  | .ret (.error e), _ => .ret (.error e)
  | .next g rest, f => .next g fun s => (rest s).bind f

instance : Monad (Steps ε σ) where
  pure a := .ret (.ok a)
  bind := bind

def throw (e : ε) : Steps ε σ α := .ret (.error e)

def ofExcept (outcome : Except ε α) : Steps ε σ α := .ret outcome

/-- One statement. -/
def statement (f : σ → σ) : Steps ε σ Unit := .next f fun _ => .ret (.ok ())

/-- The state the next statement meets. -/
def current : Steps ε σ σ := .next id fun s => .ret (.ok s)

/-- `for b in l { f(b) }`. -/
def forEach (f : β → Steps ε σ Unit) : List β → Steps ε σ Unit
  | [] => pure ()
  | b :: l => do
    f b
    forEach f l

/-! ## Whole runs -/

def run : Steps ε σ α → σ → Except ε α × σ
  | .ret outcome, s => (outcome, s)
  | .next f rest, s => (rest (f s)).run (f s)

section Run

variable (s : σ)

@[simp] theorem run_pure (a : α) : (pure a : Steps ε σ α).run s = (.ok a, s) := rfl

@[simp] theorem run_throw (e : ε) : (throw e : Steps ε σ α).run s = (.error e, s) := rfl

@[simp] theorem run_statement (f : σ → σ) :
    (statement f : Steps ε σ Unit).run s = (.ok (), f s) := rfl

/-- A bind goes on where its first part ended, and stops where that threw. -/
theorem run_bind (x : Steps ε σ α) (f : α → Steps ε σ β) :
    (x >>= f).run s = match x.run s with
      | (.ok a, s') => (f a).run s'
      | (.error e, s') => (.error e, s') := by
  show (x.bind f).run s = _
  induction x generalizing s with
  | ret outcome => cases outcome <;> rfl
  | next g rest ih => exact ih (g s) (g s)

theorem run_bind_ok {x : Steps ε σ α} {s s' : σ} {a : α} (h : x.run s = (.ok a, s'))
    (f : α → Steps ε σ β) : (x >>= f).run s = (f a).run s' := by
  rw [run_bind, h]

@[simp] theorem run_statement_bind (g : σ → σ) (f : Unit → Steps ε σ β) :
    (statement g >>= f).run s = (f ()).run (g s) := rfl

theorem run_bind_error {x : Steps ε σ α} {s s' : σ} {e : ε} (h : x.run s = (.error e, s'))
    (f : α → Steps ε σ β) : (x >>= f).run s = (.error e, s') := by
  rw [run_bind, h]

@[simp] theorem run_current_bind (f : σ → Steps ε σ β) : (current >>= f).run s = (f s).run s := rfl

end Run

/-! ## Every statement of a run

The rules go along the program; a loop has an invariant.
-/

/-- Each statement of the program leads from its state to the next by `R`, and what the program
ends with meets `Q`. -/
def Along (R : σ → σ → Prop) (Q : Except ε α → σ → Prop) : Steps ε σ α → σ → Prop
  | .ret outcome, s => Q outcome s
  | .next f rest, s => R s (f s) ∧ Along R Q (rest (f s)) (f s)

variable {R : σ → σ → Prop} {Q : Except ε α → σ → Prop} {s : σ}

/-- What holds along the way and at the end may be weakened. -/
theorem Along.mono {R' : σ → σ → Prop} {Q' : Except ε α → σ → Prop} {x : Steps ε σ α}
    (h : Along R Q x s) (hR : ∀ s s', R s s' → R' s s')
    (hQ : ∀ outcome s, Q outcome s → Q' outcome s) : Along R' Q' x s := by
  induction x generalizing s with
  | ret outcome => exact hQ outcome s h
  | next f rest ih => exact ⟨hR _ _ h.1, ih (f s) h.2⟩

theorem along_pure {a : α} (h : Q (.ok a) s) : Along R Q (pure a) s := h

theorem along_throw {e : ε} (h : Q (.error e) s) : Along R Q (throw e) s := h

theorem along_ofExcept {outcome : Except ε α} (h : Q outcome s) :
    Along R Q (ofExcept outcome) s := h

/-- The rule of composition: the rest is walked from wherever the first part ends. -/
theorem along_bind {x : Steps ε σ β} {f : β → Steps ε σ α}
    (h : Along R (fun outcome s' => match outcome with
      | .ok b => Along R Q (f b) s'
      | .error e => Q (.error e) s') x s) : Along R Q (x >>= f) s := by
  show Along R Q (x.bind f) s
  induction x generalizing s with
  | ret outcome => cases outcome <;> exact h
  | next g rest ih => exact ⟨h.1, ih (g s) h.2⟩

/-- A statement is one step. -/
theorem along_statement {g : σ → σ} (hR : R s (g s)) {Q : Except ε Unit → σ → Prop}
    (hQ : Q (.ok ()) (g s)) : Along R Q (statement g) s := ⟨hR, hQ⟩

theorem along_statement_bind {g : σ → σ} {f : Unit → Steps ε σ α} (hR : R s (g s))
    (h : Along R Q (f ()) (g s)) : Along R Q (statement g >>= f) s := ⟨hR, h⟩

theorem along_current_bind {f : σ → Steps ε σ α} (hR : R s s) (h : Along R Q (f s) s) :
    Along R Q (current >>= f) s := ⟨hR, h⟩

theorem along_ofExcept_bind {outcome : Except ε β} {f : β → Steps ε σ α}
    (herror : ∀ e, outcome = .error e → Q (.error e) s)
    (hok : ∀ b, outcome = .ok b → Along R Q (f b) s) : Along R Q (ofExcept outcome >>= f) s := by
  cases outcome with
  | error e => exact herror e rfl
  | ok b => exact hok b rfl

/-- A program that finishes, and what follows it. -/
theorem along_bind_of_ok {x : Steps ε σ β} {f : β → Steps ε σ α} {P : σ → Prop}
    (hx : Along R (fun outcome s' => (∃ b, outcome = .ok b) ∧ P s') x s)
    (h : ∀ b s', P s' → Along R Q (f b) s') : Along R Q (x >>= f) s := by
  refine along_bind (hx.mono (fun _ _ h => h) ?_)
  rintro _ s' ⟨⟨b, rfl⟩, hs'⟩
  exact h b s' hs'

/-- A program whose end is known, and what follows it. -/
theorem along_bind_of_run {x : Steps ε σ β} {f : β → Steps ε σ α} {b : β} {s' : σ}
    (hx : Along R (fun _ _ => True) x s) (hrun : x.run s = (.ok b, s')) (h : Along R Q (f b) s') :
    Along R Q (x >>= f) s := by
  apply along_bind
  induction x generalizing s with
  | ret outcome =>
    cases hrun
    exact h
  | next g rest ih => exact ⟨hx.1, ih (g s) hx.2 hrun⟩

/-- **The loop rule.** `I l` holds when the loop still has to run over `l`. -/
theorem along_forEach {f : β → Steps ε σ Unit} {I : List β → σ → Prop}
    (hbody : ∀ b l s, I (b :: l) s → Along R (fun outcome s' => (∃ u, outcome = .ok u) ∧ I l s') (f b) s)
    {l : List β} (hs : I l s) :
    Along R (fun outcome s' => (∃ u, outcome = .ok u) ∧ I [] s') (forEach f l) s := by
  induction l generalizing s with
  | nil => exact ⟨⟨(), rfl⟩, hs⟩
  | cons b l ih => exact along_bind_of_ok (hbody b l s hs) fun _ _ => ih

end Steps

end Throwing
