import CoAkkaRuntime.Throwing.Ends

/-!
# Throwing — one computation simulates another

Two computations that may throw, over two state types that a relation connects: `x` and `y` agree
on a pair of related states when they end in the same outcome and leave related states. The rules
take an agreement apart along `>>=`; a relation that is an invariant of one side only is the case of
a function between the states.

* `Agree.bind` — two sequences agree if their parts do.
* `Simulates` — agreement on all pairs of related states, with a rule for each way to build a
  computation.
-/

namespace Throwing

variable {ε σ τ α β : Type} {R : σ → τ → Prop}

/-- The same outcome, and related states. -/
def Agree (R : σ → τ → Prop) (a : Except ε α × σ) (b : Except ε α × τ) : Prop :=
  a.1 = b.1 ∧ R a.2 b.2

/-- `x` and `y` agree on every pair of related states. -/
def Simulates (R : σ → τ → Prop) (x : ExceptT ε (StateM σ) α) (y : ExceptT ε (StateM τ) α) : Prop :=
  ∀ s t, R s t → Agree R (exec x s) (exec y t)

/-- The first parts agree by `R`, the whole by `R'`. -/
theorem Agree.bind_mono {R' : σ → τ → Prop} {x : ExceptT ε (StateM σ) α} {y : ExceptT ε (StateM τ) α}
    {f : α → ExceptT ε (StateM σ) β} {g : α → ExceptT ε (StateM τ) β} {s : σ} {t : τ}
    (h : Agree R (exec x s) (exec y t)) (herror : ∀ s' t', R s' t' → R' s' t')
    (hrest : ∀ a s' t', exec x s = (.ok a, s') → exec y t = (.ok a, t') → R s' t' →
      Agree R' (exec (f a) s') (exec (g a) t')) :
    Agree R' (exec (x >>= f) s) (exec (y >>= g) t) := by
  rw [exec_bind, exec_bind]
  obtain ⟨hout, hstates⟩ := h
  generalize hx : exec x s = a at hout hstates hrest
  generalize hy : exec y t = b at hout hstates hrest
  obtain ⟨out, s'⟩ := a
  obtain ⟨out', t'⟩ := b
  obtain rfl : out = out' := hout
  -- both threw the same error, or both returned the same value
  cases out with
  | error e => exact ⟨rfl, herror s' t' hstates⟩
  | ok a => exact hrest a s' t' rfl rfl hstates

/-- Two runs that agree on an outcome and on related states go on in agreement. -/
theorem Agree.bind {x : ExceptT ε (StateM σ) α} {y : ExceptT ε (StateM τ) α}
    {f : α → ExceptT ε (StateM σ) β} {g : α → ExceptT ε (StateM τ) β} {s : σ} {t : τ}
    (h : Agree R (exec x s) (exec y t))
    (hrest : ∀ a s' t', exec x s = (.ok a, s') → exec y t = (.ok a, t') → R s' t' →
      Agree R (exec (f a) s') (exec (g a) t')) :
    Agree R (exec (x >>= f) s) (exec (y >>= g) t) :=
  h.bind_mono (fun _ _ hst => hst) hrest

/-- **Simulations compose.** -/
theorem Simulates.bind {x : ExceptT ε (StateM σ) α} {y : ExceptT ε (StateM τ) α}
    {f : α → ExceptT ε (StateM σ) β} {g : α → ExceptT ε (StateM τ) β} (h : Simulates R x y)
    (hrest : ∀ a, Simulates R (f a) (g a)) : Simulates R (x >>= f) (y >>= g) :=
  fun s t hst => (h s t hst).bind fun a s' t' _ _ hst' => hrest a s' t' hst'

theorem Simulates.pure (a : α) :
    Simulates R (pure a : ExceptT ε (StateM σ) α) (pure a : ExceptT ε (StateM τ) α) :=
  fun _ _ hst => ⟨rfl, hst⟩

theorem Simulates.throw (e : ε) :
    Simulates R (throw e : ExceptT ε (StateM σ) α) (throw e : ExceptT ε (StateM τ) α) :=
  fun _ _ hst => ⟨rfl, hst⟩

theorem Simulates.ofExcept (x : Except ε α) :
    Simulates R (ofExcept x : ExceptT ε (StateM σ) α) (ofExcept x : ExceptT ε (StateM τ) α) := by
  intro s t hst
  rw [exec_ofExcept, exec_ofExcept]
  exact ⟨rfl, hst⟩

/-- A step that only changes the state. -/
theorem Simulates.modify {f : σ → σ} {g : τ → τ} (h : ∀ s t, R s t → R (f s) (g t)) :
    Simulates R (modify f : ExceptT ε (StateM σ) PUnit) (modify g : ExceptT ε (StateM τ) PUnit) :=
  fun s t hst => ⟨rfl, h s t hst⟩

/-- What depends on the state may use that the states are related. -/
theorem Simulates.get_bind {f : σ → ExceptT ε (StateM σ) α} {g : τ → ExceptT ε (StateM τ) α}
    (h : ∀ s t, R s t → Agree R (exec (f s) s) (exec (g t) t)) :
    Simulates R (get >>= f) (get >>= g) := by
  intro s t hst
  rw [exec_get_bind, exec_get_bind]
  exact h s t hst

/-- A cleanup that keeps the relation may be deferred on both sides. -/
theorem Simulates.deferring {x : ExceptT ε (StateM σ) α} {y : ExceptT ε (StateM τ) α}
    {cleanup : StateM σ Unit} {cleanup' : StateM τ Unit} (h : Simulates R x y)
    (hcleanup : ∀ s t, R s t → R (cleanup.run s).2 (cleanup'.run t).2) :
    Simulates R (deferring cleanup x) (deferring cleanup' y) := by
  intro s t hst
  obtain ⟨hout, hstates⟩ := h s t hst
  rw [exec_deferring, exec_deferring]
  exact ⟨hout, hcleanup _ _ hstates⟩

/-- So may a failure be caught on both sides. -/
theorem Simulates.tryCatch {x : ExceptT ε (StateM σ) α} {y : ExceptT ε (StateM τ) α}
    {handler : ε → ExceptT ε (StateM σ) α} {handler' : ε → ExceptT ε (StateM τ) α}
    (h : Simulates R x y) (hhandler : ∀ e, Simulates R (handler e) (handler' e)) :
    Simulates R (tryCatch x handler) (tryCatch y handler') := by
  intro s t hst
  obtain ⟨hout, hstates⟩ := h s t hst
  rw [exec_tryCatch, exec_tryCatch]
  generalize exec x s = a at hout hstates
  generalize exec y t = b at hout hstates
  obtain ⟨out, s'⟩ := a
  obtain ⟨out', t'⟩ := b
  obtain rfl : out = out' := hout
  cases out with
  | ok a => exact ⟨rfl, hstates⟩
  | error e => exact hhandler e s' t' hstates

end Throwing
