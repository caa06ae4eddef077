import Mathlib.Tactic.Common

/-!
# Throwing — running a computation that may throw

`ExceptT ε (StateM σ)` is a computation that throws *and keeps the state it reached*, which is
what a throwing method of an imperative language does. `exec` runs one; the rules below
evaluate a run step by step. `deferring` is the `defer` statement: a cleanup that runs however
the rest of its scope is left.

* `exec_bind`, `exec_deferring` — the rules for sequence and for `defer`.
* `exec_bind_ok`, `exec_bind_error` — the first of them where the outcome of the first part is
  known.
* `forM_eq_ok_iff`, `exists_of_forM_eq_error` — a list of checks: all of them passed, or a first
  failed.
-/

namespace Throwing

variable {ε σ α β : Type}

/-- Run a computation: its outcome, and the state it leaves behind. -/
def exec (x : ExceptT ε (StateM σ) α) (s : σ) : Except ε α × σ := x.run.run s

/-- `defer { cleanup }` in front of the rest of a scope. -/
def deferring (cleanup : StateM σ Unit) (scope : ExceptT ε (StateM σ) α) :
    ExceptT ε (StateM σ) α :=
  ExceptT.mk do
    let outcome ← scope.run
    cleanup
    return outcome

section Exec

variable (s : σ)

@[simp] theorem exec_pure (a : α) : exec (pure a : ExceptT ε (StateM σ) α) s = (.ok a, s) := rfl

@[simp] theorem exec_throw (e : ε) : exec (throw e : ExceptT ε (StateM σ) α) s = (.error e, s) := rfl

@[simp] theorem exec_get : exec (get : ExceptT ε (StateM σ) σ) s = (.ok s, s) := rfl

@[simp] theorem exec_modify (f : σ → σ) :
    exec (modify f : ExceptT ε (StateM σ) PUnit) s = (.ok ⟨⟩, f s) := rfl

/-- A step that cannot throw. -/
@[simp] theorem exec_liftM (x : StateM σ α) :
    exec (liftM x : ExceptT ε (StateM σ) α) s = (.ok (x.run s).1, (x.run s).2) := rfl

/-- An outcome that does not depend on the state. -/
@[simp] theorem exec_ofExcept (x : Except ε α) :
    exec (ofExcept x : ExceptT ε (StateM σ) α) s = (x, s) := by
  cases x <;> rfl

/-- A bind goes on where its first part ended, and stops where that threw. -/
theorem exec_bind (x : ExceptT ε (StateM σ) α) (f : α → ExceptT ε (StateM σ) β) :
    exec (x >>= f) s = match exec x s with
      | (.ok a, s') => exec (f a) s'
      | (.error e, s') => (.error e, s') := by
  show (ExceptT.bind x f) s = _
  simp only [ExceptT.bind, ExceptT.mk, bind, StateT.bind, exec, ExceptT.run, StateT.run]
  obtain ⟨out, s'⟩ := x s
  cases out <;> rfl

@[simp] theorem exec_map (f : α → β) (x : ExceptT ε (StateM σ) α) :
    exec (f <$> x) s = ((exec x s).1.map f, (exec x s).2) := by
  rw [map_eq_pure_bind, exec_bind]
  obtain ⟨out, s'⟩ := exec x s
  cases out <;> rfl

/-- The cleanup runs on what the scope left, and does not touch its outcome. -/
@[simp] theorem exec_deferring (cleanup : StateM σ Unit) (x : ExceptT ε (StateM σ) α) :
    exec (deferring cleanup x) s = ((exec x s).1, (cleanup.run (exec x s).2).2) := rfl

end Exec

section Bind

variable {s s' : σ} {x : ExceptT ε (StateM σ) α}

/-- The two cases as rules of their own. -/
theorem exec_bind_ok {a : α} (h : exec x s = (.ok a, s')) (f : α → ExceptT ε (StateM σ) β) :
    exec (x >>= f) s = exec (f a) s' := by
  rw [exec_bind, h]

theorem exec_bind_error {e : ε} (h : exec x s = (.error e, s')) (f : α → ExceptT ε (StateM σ) β) :
    exec (x >>= f) s = (.error e, s') := by
  rw [exec_bind, h]

@[simp] theorem exec_get_bind (f : σ → ExceptT ε (StateM σ) β) :
    exec (get >>= f) s = exec (f s) s :=
  exec_bind_ok rfl f

@[simp] theorem exec_modify_bind (g : σ → σ) (f : PUnit → ExceptT ε (StateM σ) β) :
    exec (modify g >>= f) s = exec (f ⟨⟩) (g s) :=
  exec_bind_ok rfl f

@[simp] theorem exec_liftM_bind (y : StateM σ α) (f : α → ExceptT ε (StateM σ) β) :
    exec (liftM y >>= f) s = exec (f (y.run s).1) (y.run s).2 :=
  exec_bind_ok rfl f

end Bind

/-- `do { … } catch { … }`: what follows sees how the computation ended. -/
theorem run_run_bind (x : ExceptT ε (StateM σ) α) (f : Except ε α → StateM σ β) (s : σ) :
    (x.run >>= f).run s = (f (exec x s).1).run (exec x s).2 := rfl

/-! ## Checks of a list -/

section Checks

variable {f : α → Except ε PUnit} {l : List α}

/-- A loop of checks passes exactly where each of them does. -/
theorem forM_eq_ok_iff : l.forM f = .ok ⟨⟩ ↔ ∀ a ∈ l, f a = .ok ⟨⟩ := by
  induction l with
  | nil => simp [pure, Except.pure]
  | cons a l ih =>
    show (f a >>= fun _ => l.forM f) = .ok ⟨⟩ ↔ _
    rw [List.forall_mem_cons, ← ih]
    cases hfirst : f a with
    | ok => simp [bind, Except.bind]
    | error e => simp [bind, Except.bind]

/-- A check of a list fails as one of its checks does. -/
theorem exists_of_forM_eq_error {e : ε} (h : l.forM f = .error e) : ∃ a ∈ l, f a = .error e := by
  induction l with
  | nil => cases h
  | cons a l ih =>
    replace h : (f a >>= fun _ => l.forM f) = .error e := h
    cases hfirst : f a with
    | ok =>
      rw [hfirst] at h
      obtain ⟨b, hb, herror⟩ := ih h
      exact ⟨b, List.mem_cons_of_mem a hb, herror⟩
    | error e' =>
      rw [hfirst] at h
      obtain rfl : e' = e := Except.error.inj h
      exact ⟨a, List.mem_cons_self, hfirst⟩

end Checks

/-- A loop that only modifies the state is a fold. Induction on the list. -/
theorem run_forIn_modify (f : σ → α → σ) (l : List α) (s : σ) :
    (forIn l PUnit.unit fun a _ => do
      modify fun s => f s a
      pure (ForInStep.yield PUnit.unit) : StateM σ PUnit).run s = (⟨⟩, l.foldl f s) := by
  induction l generalizing s with
  | nil => rfl
  | cons a l ih =>
    rw [List.forIn_cons, List.foldl_cons, ← ih]
    rfl

end Throwing
