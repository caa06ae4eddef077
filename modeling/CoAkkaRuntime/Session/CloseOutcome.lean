import CoAkkaRuntime.Session.SessionLifecycle

/-!
# Session — how `close` ends

`close` may fail before it takes its lock, in either of its waits and at the stop, and each time a
different part of the session has changed. `CloseStep` says what a caller's step is to `close`;
`CloseInv` what a `close` relies on at each of its positions, whatever the runner, the borrowers and
the other callers do. The outcome law and the success of a retry follow.

* `CallerPc.Relies` — what a position of `close` relies on.
* `CloseStep`, `closeStep_of_callerStep` — one case for each way a caller's step can touch a
  `close`.
* `CloseInv.runnerStep`, `CloseInv.callerStep` — the others keep what a `close` relies on.
* `closeInv_reachable` — so it holds in every run.
-/

namespace CoAkka.Session

open Transition

/-! ## Positions of `close` -/

namespace CallerPc

/-- In `close`, which holds `closeLock`. -/
def inClose : CallerPc → Bool
  | .requesting | .joiningReader | .stopping | .joiningBorrowers | .leaving _ => true
  | .idle | .asking _ _ => false

/-- What `close` relies on at its positions. -/
def Relies (s : SessionState) : CallerPc → Prop
  | .idle | .asking _ _ | .requesting => True
  | .joiningReader => s.closing = true
  | .stopping => s.closing = true ∧ s.readerDone = true
  | .joiningBorrowers => s.closing = true ∧ s.readerDone = true ∧ s.stopped = true
  | .leaving none => s.closing = true ∧ s.readerDone = true ∧ s.runtime = false
  | .leaving (some (.nativeStatus status _)) =>
    s.closing = true ∧ s.readerDone = true ∧ s.stopFailure = some status
  | .leaving (some _) => s.closing = true

/-- Nobody but a closer relies on anything. -/
theorem relies_of_not_inClose {s : SessionState} {pc : CallerPc} (h : pc.inClose = false) :
    pc.Relies s := by
  cases pc with
  | idle | asking => trivial
  | _ => cases h

end CallerPc

/-- A step, to `close`. The cases are those of `close`, in its order, and the steps outside it. -/
inductive CloseStep (s : SessionState) :
    CallerPc → CallerAction → SessionState → CallerPc → Prop where
  | outside {pc pc' : CallerPc} {s' : SessionState} (action : CallerAction)
      (hpc : pc.inClose = false) (hpc' : pc'.inClose = false) (hlock : s'.closeLock = s.closeLock)
      (hreader : s'.readerDone = s.readerDone) (hrunner : s'.runner = s.runner)
      (hfailure : s'.stopFailure = s.stopFailure)
      (hasks : s.closing = true → s'.activeAsks ≤ s.activeAsks) : CloseStep s pc action s' pc'
  | entered (hfree : s.closeLock = false) :
      CloseStep s .idle (.close false) { s with closeLock := true } .requesting
  | requested : CloseStep s .requesting .request (requestRetirement s) .joiningReader
  | joinedReader (hdone : s.readerDone = true) :
      CloseStep s .joiningReader (.joinReader true) s .stopping
  | readerTimeout : CloseStep s .joiningReader (.joinReader false) s (.leaving (some
      (.shutdown "request runner did not join within 1000 ms; native owners retained")))
  | refused (status failure : Int32) (hfailure : (stopAndRetire status s).stopFailure = some failure) :
      CloseStep s .stopping (.stop status) (stopAndRetire status s)
        (.leaving (some (.nativeStatus failure "stop runtime; native owners retained")))
  | stopped (status : Int32) (hfailure : (stopAndRetire status s).stopFailure = none) :
      CloseStep s .stopping (.stop status) (stopAndRetire status s) .joiningBorrowers
  | joinedBorrowers (hdone : s.retirementDone = true) :
      CloseStep s .joiningBorrowers (.joinBorrowers true) s (.leaving none)
  | borrowersTimeout :
      CloseStep s .joiningBorrowers (.joinBorrowers false) s (.leaving (some
        (.shutdown "ask borrowers did not retire within 1000 ms; native owners retained")))
  | left (failure : Option RuntimeError) : CloseStep s (.leaving failure) .leave
      ({ s with closeLock := false }.logged [.closed failure]) .idle

section Step

variable {s s' : SessionState} {pc pc' : CallerPc} {threads : List CallerPc} {i : Nat}

@[simp] theorem retireLocked_runner : (retireLocked s).runner = s.runner := by
  unfold retireLocked
  split <;> rfl

@[simp] theorem retireLocked_closeLock : (retireLocked s).closeLock = s.closeLock := by
  unfold retireLocked
  split <;> rfl

@[simp] theorem retireLocked_readerDone : (retireLocked s).readerDone = s.readerDone := by
  unfold retireLocked
  split <;> rfl

@[simp] theorem retireLocked_stopFailure : (retireLocked s).stopFailure = s.stopFailure := by
  unfold retireLocked
  split <;> rfl

/-- `retireLocked` touches neither the runner, the groups, the borrows nor the recorded failure. -/
@[simp] theorem retireLocked_activeAsks : (retireLocked s).activeAsks = s.activeAsks := by
  unfold retireLocked
  split <;> rfl

@[simp] theorem stopAndRetire_closeLock (status : Int32) :
    (stopAndRetire status s).closeLock = s.closeLock := by
  unfold stopAndRetire stopLocked
  split_ifs <;> simp [SessionState.logged]

@[simp] theorem stopAndRetire_readerDone (status : Int32) :
    (stopAndRetire status s).readerDone = s.readerDone := by
  unfold stopAndRetire stopLocked
  split_ifs <;> simp [SessionState.logged]

@[simp] theorem stopAndRetire_runner (status : Int32) :
    (stopAndRetire status s).runner = s.runner := by
  unfold stopAndRetire stopLocked
  split_ifs <;> simp [SessionState.logged]

/-- The locked section of `close` leaves what the other activities rely on. -/
@[simp] theorem stopAndRetire_activeAsks (status : Int32) :
    (stopAndRetire status s).activeAsks = s.activeAsks := by
  unfold stopAndRetire stopLocked
  split_ifs <;> simp [SessionState.logged]

/-- A borrower is in no `close`. -/
theorem awaiting_inClose (ticket : Nat) (rest : List TicketEvent) :
    (CallerPc.awaiting ticket rest).inClose = false := by
  cases rest <;> rfl

/-- Every step of a caller is one of the steps of `close`, or none of its business. -/
theorem closeStep_of_callerStep {action : CallerAction}
    (h : callerStep s pc action = some (s', pc')) : CloseStep s pc action s' pc' := by
  unfold callerStep at h
  split at h
  case h_1 operation =>
    cases h
    unfold withOpen
    cases requireOpenLocked s <;> exact .outside _ rfl rfl rfl rfl rfl rfl fun _ => Int.le_refl _
  case h_2 answer messageID call =>
    have hbegins := begin_begins answer s
    generalize begin answer s = result at h hbegins
    cases hbegins with
    | refused | failed =>
      cases h
      exact .outside _ rfl rfl rfl rfl rfl rfl fun _ => Int.le_refl _
    | begun hopen =>
      cases h
      refine .outside _ rfl (awaiting_inClose _ _) rfl rfl rfl rfl fun hclosing => ?_
      rw [hopen] at hclosing
      cases hclosing
  case h_3 ticket rest =>
    cases h
    refine .outside _ rfl (awaiting_inClose _ _) ?_ ?_ ?_ ?_ fun _ => ?_
    case refine_5 =>
      show (retireLocked _).activeAsks ≤ _
      rw [retireLocked_activeAsks]
      exact Int.sub_le_self _ (by decide)
    all_goals simp [endBorrow, SessionState.logged]
  case h_4 =>
    cases h
    exact .outside _ rfl (awaiting_inClose _ _) rfl rfl rfl rfl fun _ => Int.le_refl _
  case h_5 =>
    cases h
    exact .outside _ rfl rfl rfl rfl rfl rfl fun _ => Int.le_refl _
  case h_6 onQueue =>
    split_ifs at h with hqueue hlock
    · cases h
      exact .outside _ rfl rfl rfl rfl rfl rfl fun _ => Int.le_refl _
    · cases h
      exact .outside _ rfl rfl rfl rfl rfl rfl fun _ => Int.le_refl _
    · cases h
      obtain rfl : onQueue = false := by simpa using hqueue
      exact .entered (by simpa using hlock)
  case h_7 =>
    cases h
    exact .requested
  case h_8 joined =>
    split_ifs at h with hjoined hdone
    -- the group has been left; otherwise the wait goes on, and no step is taken
    · cases h
      obtain rfl := hjoined
      exact .joinedReader hdone
    · cases h
      obtain rfl : joined = false := by simpa using hjoined
      exact .readerTimeout
  case h_9 status =>
    dsimp only at h
    split at h
    · next failure hfailure =>
      cases h
      exact .refused status failure hfailure
    · next hfailure =>
      cases h
      exact .stopped status hfailure
  case h_10 joined =>
    split_ifs at h with hjoined hdone
    · cases h
      obtain rfl := hjoined
      exact .joinedBorrowers hdone
    · cases h
      obtain rfl : joined = false := by simpa using hjoined
      exact .borrowersTimeout
  case h_11 failure =>
    cases h
    exact .left failure
  case h_12 => cases h

/-! ## The invariant

Two things are tied together: the lock of `close`, and what each `close` on its way has already
seen.
-/

/-- `close` is in progress exactly where `closeLock` is held, and what it relies on holds. -/
structure CloseInv (s : SessionState) (threads : List CallerPc) : Prop where
  readerDone : s.readerDone = true ↔ s.runner = .finished
  locked : threads.countP CallerPc.inClose = s.closeLock.toNat
  relies : ∀ pc ∈ threads, pc.Relies s

/-- What a `close` relies on is not taken back, as long as no stop is called after the runner's. -/
theorem CallerPc.Relies.keep (h : pc.Relies s)
    (hgrows : Grows s.toSessionFlags s'.toSessionFlags)
    (hreader : s.readerDone = true → s'.readerDone = true ∧ s'.stopFailure = s.stopFailure) :
    pc.Relies s' := by
  cases pc with
  | idle | asking | requesting => trivial
  | joiningReader => exact hgrows.closing h
  | stopping => exact ⟨hgrows.closing h.1, (hreader h.2).1⟩
  | joiningBorrowers => exact ⟨hgrows.closing h.1, (hreader h.2.1).1, hgrows.stopped h.2.2⟩
  | leaving failure =>
    cases failure with
    | none => exact ⟨hgrows.closing h.1, (hreader h.2.1).1, hgrows.runtime h.2.2⟩
    | some error =>
      cases error with
      | nativeStatus status operation =>
        obtain ⟨hclosing, hdone, hfailure⟩ := h
        exact ⟨hgrows.closing hclosing, (hreader hdone).1, (hreader hdone).2.trans hfailure⟩
      | _ => exact hgrows.closing h

/-- The runner leaves `close` alone: after `readerDone` it takes no step. -/
theorem CloseInv.runnerStep {action : RunnerAction} (h : CloseInv s threads)
    (hstep : runnerStep s action = some s') : CloseInv s' threads := by
  -- a runner that has a step is not done
  have hnot : s.readerDone = false := by
    by_contra hdone
    have hfinished := h.readerDone.mp (by simpa using hdone)
    unfold Session.runnerStep at hstep
    rw [hfinished] at hstep
    cases action <;> cases hstep
  have hrelies : ∀ pc ∈ threads, pc.Relies s' := fun pc hpc =>
    (h.relies pc hpc).keep (runnerStep_grows hstep) fun hdone => by
      rw [hnot] at hdone
      cases hdone
  have hmoves : s'.closeLock = s.closeLock ∧ (s'.readerDone = true ↔ s'.runner = .finished) := by
    unfold Session.runnerStep at hstep
    split at hstep
    -- its last step leaves the group
    case h_11 =>
      cases hstep
      exact ⟨rfl, by simp⟩
    case h_10 =>
      cases hstep
      constructor
      · simp only [retireLocked_closeLock, stopLocked]
        split <;> rfl
      · simp only [retireLocked_readerDone, retireLocked_runner, stopLocked]
        split <;> simp [SessionState.logged, hnot]
    case h_12 => cases hstep
    all_goals
      cases hstep
      refine ⟨rfl, ?_⟩
      show s.readerDone = true ↔ _
      simp only [hnot, SessionState.logged, afterRead, afterData, afterSize, Bool.false_eq_true,
        false_iff]
      (repeat' split) <;> nofun
  exact ⟨hmoves.2, by rw [hmoves.1]; exact h.locked, hrelies⟩

/-- **A step of a caller keeps the invariant.** -/
theorem CloseInv.callerStep {action : CallerAction} (h : CloseInv s threads)
    (hrest : AtRest s threads) (hpc : threads[i]? = some pc)
    (hstep : callerStep s pc action = some (s', pc')) : CloseInv s' (threads.set i pc') := by
  have hgrows := callerStep_grows hstep
  have hrest' := hrest.callerStep hpc hstep
  have hcount := countP_set hpc pc' CallerPc.inClose
  have hlocked := h.locked
  have hmove := closeStep_of_callerStep hstep
  have hrelies := h.relies pc (List.mem_of_getElem? hpc)
  have hheld : pc.inClose = true → pc'.inClose = true → s'.closeLock = s.closeLock →
      (threads.set i pc').countP CallerPc.inClose = s'.closeLock.toNat := by
    intro hin hin' hlock
    rw [hin, hin'] at hcount
    rw [hlock, ← hlocked]
    exact Nat.add_right_cancel hcount
  -- the other callers, when no stop is called
  have hothers : s'.readerDone = s.readerDone → s'.stopFailure = s.stopFailure → pc'.Relies s' →
      ∀ other ∈ threads.set i pc', other.Relies s' := by
    intro hreader hfailure hself other hmem
    rcases List.mem_or_eq_of_mem_set hmem with hold | rfl
    · exact (h.relies other hold).keep hgrows fun hdone => ⟨hreader.trans hdone, hfailure⟩
    · exact hself
  -- the other callers, when this one calls a stop: they are not in `close`
  have halone : pc = .stopping → pc'.Relies s' → ∀ other ∈ threads.set i pc', other.Relies s' := by
    intro hstopping hself other hmem
    have hle : threads.countP CallerPc.inClose ≤ 1 := by
      rw [h.locked]
      exact Bool.toNat_le _
    rcases eq_or_not_of_countP_le_one hle hpc (by rw [hstopping]; rfl) pc' hmem with rfl | hnot
    · exact hself
    · exact CallerPc.relies_of_not_inClose hnot
  cases hmove with
  | outside _ hout hout' hlock hreader hrunner hfailure =>
    rw [hout, hout'] at hcount
    refine ⟨?_, ?_, hothers hreader hfailure (CallerPc.relies_of_not_inClose hout')⟩
    · rw [hreader, hrunner]
      exact h.readerDone
    · rw [hlock, ← hlocked]
      simpa using hcount
  | entered hfree =>
    -- the lock was free, so nobody else is in `close`
    rw [hfree] at hlocked
    refine ⟨h.readerDone, ?_, hothers rfl rfl trivial⟩
    simp only [CallerPc.inClose, if_true, if_false, Bool.false_eq_true] at hcount
    show _ = 1
    rw [hlocked] at hcount
    simpa using hcount
  | left failure =>
    refine ⟨h.readerDone, ?_, hothers rfl rfl trivial⟩
    simp only [CallerPc.inClose, if_true, if_false, Bool.false_eq_true] at hcount
    show _ = 0
    have hle := Bool.toNat_le s.closeLock
    omega
  | requested => exact ⟨h.readerDone, hheld rfl rfl rfl, hothers rfl rfl rfl⟩
  | joinedReader hdone =>
    exact ⟨h.readerDone, hheld rfl rfl rfl, hothers rfl rfl ⟨hrelies, hdone⟩⟩
  | readerTimeout => exact ⟨h.readerDone, hheld rfl rfl rfl, hothers rfl rfl hrelies⟩
  | borrowersTimeout => exact ⟨h.readerDone, hheld rfl rfl rfl, hothers rfl rfl hrelies.1⟩
  | joinedBorrowers hdone =>
    -- the group of the borrowers is left when the runtime is gone
    have hruntime : s.runtime = false := by
      rw [hrest.inv.retirementDone] at hdone
      simpa using hdone
    exact ⟨h.readerDone, hheld rfl rfl rfl, hothers rfl rfl ⟨hrelies.1, hrelies.2.1, hruntime⟩⟩
  | refused status failure hfailure =>
    have hclosing := hgrows.closing hrelies.1
    have hdone := (stopAndRetire_readerDone status).trans hrelies.2
    refine ⟨?_, hheld rfl rfl (stopAndRetire_closeLock status),
      halone rfl ⟨hclosing, hdone, hfailure⟩⟩
    rw [stopAndRetire_readerDone, stopAndRetire_runner]
    exact h.readerDone
  | stopped status hfailure =>
    have hclosing := hgrows.closing hrelies.1
    have hdone := (stopAndRetire_readerDone status).trans hrelies.2
    have hrunner := (stopAndRetire_runner status).trans (h.readerDone.mp hrelies.2)
    -- the runner has retired, so a stop was attempted, and none is refused
    have hretired : (stopAndRetire status s).readerRetired = true := by
      rw [hrest'.inv.retired, hrunner]
      rfl
    have hstopped := (hrest'.attempted hretired).resolve_right (by simp [hfailure])
    exact ⟨⟨fun _ => hrunner, fun _ => hdone⟩, hheld rfl rfl (stopAndRetire_closeLock status),
      halone rfl ⟨hclosing, hdone, hstopped⟩⟩

end Step

/-! ## The runs -/

section Runs

variable {p p' : Pool SessionState CallerPc}

theorem closeInv_init (h : sessionSystem.init p) : CloseInv p.shared p.threads := by
  obtain ⟨hshared, hidle⟩ := h
  rw [hshared]
  refine ⟨⟨nofun, nofun⟩, ?_, ?_⟩
  · apply List.countP_eq_zero.mpr
    intro pc hpc
    rw [hidle pc hpc]
    decide
  · intro pc hpc
    rw [hidle pc hpc]
    trivial

/-- One step keeps what the closers rely on. -/
theorem closeInv_step {a : SessionAction} (h : CloseInv p.shared p.threads)
    (hrest : AtRest p.shared p.threads) (hstep : sessionSystem.step p a p') :
    CloseInv p'.shared p'.threads := by
  cases a with
  | runner action =>
    obtain ⟨s', hrunner, rfl⟩ := Option.map_eq_some_iff.mp hstep
    exact h.runnerStep hrunner
  | caller i action =>
    have hadvance : p.advance (fun s pc => callerStep s pc action) i = some p' := hstep
    obtain ⟨pc, s', pc', hpc, hcaller, rfl⟩ := Pool.advance_eq_some hadvance
    exact h.callerStep hrest hpc hcaller

/-- They may rely on it in every reachable state. -/
theorem closeInv_reachable (hp : sessionSystem.Reachable p) : CloseInv p.shared p.threads :=
  System.Reachable.invariant (I := fun p => CloseInv p.shared p.threads)
    (fun _ h => closeInv_init h)
    (fun _ _ _ hq h hstep => closeInv_step h (atRest_reachable hq) hstep) hp

end Runs

end CoAkka.Session
