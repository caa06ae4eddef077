import CoAkkaRuntime.Session.CloseOutcome

/-!
# Session — the outcome law of `close`

What a `close` that returns or throws says of the session, and that a retry succeeds: once the
runner has finished and no ask is borrowed, only the stop and the ends of the waits decide, and a
wait does not time out on a group that has been left.

* `CloseEnded` — for each outcome of `close`, what it says of the flags and the owners.
* `Settled` — a state in which the runner has finished and no ask is borrowed.
* `Settled.step`, `Settled.progress` — a retry from there stays in such states, and always has a
  step that gets it closer to its end.
* `close_outcome` — both parts, over all runs.
-/

namespace CoAkka.Session

open Transition

/-! ## What an outcome says -/

/-- The reader, the client, the handles and the runtime are destroyed. -/
def Destroyed (log : List SessionEvent) : Prop :=
  .readerDestroy ∈ log ∧ .askClientDestroy ∈ log ∧ .handlesClose ∈ log ∧ .runtimeDestroy ∈ log

/-- The client, the handles and the runtime are not. -/
def Retained (log : List SessionEvent) : Prop :=
  .askClientDestroy ∉ log ∧ .handlesClose ∉ log ∧ .runtimeDestroy ∉ log

/-- The session after a `close` that ended with `failure`. -/
def CloseEnded (s : SessionState) : Option RuntimeError → Prop
  | none => Destroyed s.log
  | some error => s.closing = true ∧
    (Retained s.log ∨ s.runner.retired = true ∧ .stop Status.ok ∈ s.log ∧ s.activeAsks = 0) ∧
    ∀ status operation, error = .nativeStatus status operation →
      status ≠ Status.ok ∧ lastStop s.log = some status

section Outcome

variable {s : SessionState} {threads : List CallerPc}

/-- The native owners of a session are destroyed together. -/
theorem SessionInv.retained_or (h : SessionInv s threads) :
    Retained s.log ∨ s.runner.retired = true ∧ .stop Status.ok ∈ s.log ∧ s.activeAsks = 0 := by
  have hcount := h.stops.retirement
  cases hruntime : s.runtime with
  | true =>
    -- the runtime is destroyed together with the client and the handles, or not at all
    have hnot : ∀ e ∈ retirement, e ∉ s.log := by
      intro e he
      apply List.count_eq_zero.mp
      rw [hcount e he, hruntime]
      rfl
    exact .inl ⟨hnot _ (by decide), hnot _ (by decide), hnot _ (by decide)⟩
  | false =>
    obtain ⟨hstopped, hasks⟩ := h.flags.runtime hruntime
    have hlast := h.stops.last
    rw [hstopped, if_pos rfl] at hlast
    refine .inr ⟨?_, mem_of_lastStop hlast, hasks⟩
    rw [← h.retired]
    exact (h.flags.stopped hstopped).1

/-- A finished runner and a released runtime: everything was destroyed. -/
theorem SessionInv.destroyed (h : SessionInv s threads) (hruntime : s.runtime = false)
    (hrunner : s.runner = .finished) : Destroyed s.log := by
  have hmem : ∀ e ∈ retirement, e ∈ s.log := by
    intro e he
    apply List.count_pos_iff.mp
    rw [h.stops.retirement e he, hruntime]
    decide
  have hreader : .readerDestroy ∈ s.log := by
    apply List.count_pos_iff.mp
    rw [h.reader.destroyed, hrunner]
    decide
  exact ⟨hreader, hmem _ (by decide), hmem _ (by decide), hmem _ (by decide)⟩

/-- What `close` relies on as it leaves is what its outcome says. -/
theorem CloseInv.ended (h : CloseInv s threads) (hrest : AtRest s threads)
    {failure : Option RuntimeError} (hmem : .leaving failure ∈ threads) : CloseEnded s failure := by
  have hrelies := h.relies _ hmem
  cases failure with
  | none => exact hrest.inv.destroyed hrelies.2.2 (h.readerDone.mp hrelies.2.1)
  | some error =>
    have hclosing : s.closing = true := by
      cases error with
      | nativeStatus => exact hrelies.1
      | _ => exact hrelies
    refine ⟨hclosing, hrest.inv.retained_or, ?_⟩
    rintro status operation rfl
    have hfailure : s.stopFailure = some status := hrelies.2.2
    -- an accepted stop would have cleared the failure
    have hstopped : s.stopped = false := by
      by_contra hstopped
      rw [(hrest.inv.flags.stopped (by simpa using hstopped)).2] at hfailure
      cases hfailure
    have hlast := hrest.inv.stops.last
    rw [hstopped, hfailure] at hlast
    exact ⟨fun hok => hrest.inv.flags.nonzero (by rw [hfailure, hok]), hlast⟩

/-- The outcome is recorded as the lock is given back. -/
theorem CloseEnded.left {failure : Option RuntimeError} (h : CloseEnded s failure) :
    CloseEnded ({ s with closeLock := false }.logged [.closed failure]) failure := by
  cases failure with
  | none =>
    obtain ⟨hreader, hclient, hhandles, hruntime⟩ := h
    exact ⟨List.mem_append_left _ hreader, List.mem_append_left _ hclient,
      List.mem_append_left _ hhandles, List.mem_append_left _ hruntime⟩
  | some error =>
    obtain ⟨hclosing, howners, hstatus⟩ := h
    refine ⟨hclosing, howners.imp ?_ ?_, fun status operation herror => ?_⟩
    · rintro ⟨hclient, hhandles, hruntime⟩
      refine ⟨?_, ?_, ?_⟩ <;> simpa [SessionState.logged]
    · rintro ⟨hrunner, hstop, hasks⟩
      exact ⟨hrunner, List.mem_append_left _ hstop, hasks⟩
    · obtain ⟨hrefused, hlast⟩ := hstatus status operation herror
      exact ⟨hrefused, (lastStop_append (by simp [SessionEvent.stopStatus?])).trans hlast⟩

end Outcome

/-! ## A retry

Once the runner is done and nobody borrows, what a `close` meets depends on the stop alone.
-/

/-- The steps of a run in which every stop that is called returns 0, and no wait times out on a
group that has been left. -/
def CloseAllowed (p : Pool SessionState CallerPc) : SessionAction → Prop
  | .caller _ (.stop status) => p.shared.stopped = true ∨ status = Status.ok
  | .caller _ (.joinReader false) => p.shared.readerDone = false
  | .caller _ (.joinBorrowers false) => p.shared.retirementDone = false
  | _ => True

/-- The position after a step of a `close` that succeeds. -/
def CallerPc.next : CallerPc → CallerPc
  | .idle => .requesting
  | .requesting => .joiningReader
  | .joiningReader => .stopping
  | .stopping => .joiningBorrowers
  | .joiningBorrowers => .leaving none
  | .leaving _ | .asking _ _ => .idle

/-- The runner has finished, no ask is borrowed, and no `close` has failed. -/
structure Settled (s : SessionState) (threads : List CallerPc) : Prop where
  finished : s.runner = .finished
  asks : s.activeAsks = 0
  succeeds : ∀ failure, .leaving failure ∈ threads → failure = none

section Retry

variable {s s' : SessionState} {threads : List CallerPc} {pc pc' : CallerPc}

/-- A runner that has finished has retired its reader. -/
theorem AtRest.retired_of_finished (h : AtRest s threads) (hfinished : s.runner = .finished) :
    s.readerRetired = true := by
  rw [h.inv.retired, hfinished]
  rfl

/-- A stop that is not refused leaves no failure. -/
theorem stopAndRetire_stopFailure (h : AtRest s threads) (hfinished : s.runner = .finished)
    {status : Int32} (hstatus : s.stopped = true ∨ status = Status.ok) :
    (stopAndRetire status s).stopFailure = none := by
  unfold stopAndRetire
  split
  · next hstopped => exact (h.inv.flags.stopped hstopped).2
  · next hstopped =>
    have hstopped : s.stopped = false := by simpa using hstopped
    obtain rfl : status = Status.ok := hstatus.resolve_left (by simp [hstopped])
    have hguard : (s.readerRetired && !s.stopped && s.runtime) = true := by
      rw [h.retired_of_finished hfinished, hstopped, h.inv.flags.runtime_of_not_stopped hstopped]
      rfl
    rw [retireLocked_stopFailure, stopLocked, if_pos hguard]
    rfl

/-- Once a stop was accepted and nothing is borrowed, the second wait does not wait. -/
theorem Settled.retirementDone (h : Settled s threads) (hrest : AtRest s threads)
    (hstopped : s.stopped = true) : s.retirementDone = true := by
  rw [hrest.inv.retirementDone, hrest.unstranded hstopped h.asks]
  rfl

/-- A settled session stays settled under every step that a retry of `close` may meet. -/
theorem Settled.step {p p' : Pool SessionState CallerPc} {a : SessionAction}
    (h : Settled p.shared p.threads) (hrest : AtRest p.shared p.threads)
    (hclose : CloseInv p.shared p.threads) (hallowed : CloseAllowed p a)
    (hstep : sessionSystem.step p a p') : Settled p'.shared p'.threads := by
  have hrest' := atRest_step hrest hstep
  have hdone := hclose.readerDone.mpr h.finished
  cases a with
  | runner action =>
    obtain ⟨s', hrunner, rfl⟩ := Option.map_eq_some_iff.mp hstep
    unfold runnerStep at hrunner
    rw [h.finished] at hrunner
    cases action <;> cases hrunner
  | caller i action =>
    have hadvance : p.advance (fun s pc => callerStep s pc action) i = some p' := hstep
    obtain ⟨pc, s', pc', hpc, hcaller, rfl⟩ := Pool.advance_eq_some hadvance
    have hactive : s'.activeAsks = (p.threads.set i pc').countP CallerPc.isAsking :=
      hrest'.inv.borrows.active
    have hmem := List.mem_of_getElem? hpc
    have hrelies := hclose.relies _ hmem
    have hothers : (∀ failure, pc' = .leaving failure → failure = none) →
        ∀ failure, .leaving failure ∈ p.threads.set i pc' → failure = none := by
      intro hself failure hleaving
      rcases List.mem_or_eq_of_mem_set hleaving with hold | hnew
      · exact h.succeeds failure hold
      · exact hself failure hnew.symm
    have hmove := closeStep_of_callerStep hcaller
    cases hmove with
    | outside _ _ hout _ _ hrunner _ hasks =>
      -- admission is closed, so no ask begins that could hold up the second wait
      have hclosing := hrest.inv.flags.closing (hrest.retired_of_finished h.finished)
      have hle := hasks hclosing
      rw [h.asks] at hle
      have hasks : s'.activeAsks = 0 := by omega
      refine ⟨hrunner.trans h.finished, hasks, hothers ?_⟩
      rintro failure rfl
      cases hout
    | entered | requested | joinedReader | left => exact ⟨h.finished, h.asks, hothers nofun⟩
    | joinedBorrowers =>
      exact ⟨h.finished, h.asks, hothers fun _ heq => (CallerPc.leaving.inj heq).symm⟩
    | readerTimeout =>
      -- the group has been left, and a wait on it does not time out
      rw [show p.shared.readerDone = false from hallowed] at hdone
      cases hdone
    | borrowersTimeout =>
      have hretired := h.retirementDone hrest hrelies.2.2
      rw [show p.shared.retirementDone = false from hallowed] at hretired
      cases hretired
    | refused status failure hfailure =>
      rw [stopAndRetire_stopFailure hrest h.finished hallowed] at hfailure
      cases hfailure
    | stopped status hfailure =>
      refine ⟨(stopAndRetire_runner status).trans h.finished,
        (stopAndRetire_activeAsks status).trans h.asks, hothers nofun⟩

/-- The next step of a `close` is there, and goes on to the success. -/
theorem Settled.progress {p : Pool SessionState CallerPc} (h : Settled p.shared p.threads)
    (hrest : AtRest p.shared p.threads) (hclose : CloseInv p.shared p.threads) {i : Nat}
    {pc : CallerPc} (hpc : p.threads[i]? = some pc)
    (hturn : pc.inClose = true ∨ pc = .idle ∧ ∀ other ∈ p.threads, other.inClose = false) :
    ∃ action p', CloseAllowed p (.caller i action) ∧ sessionSystem.step p (.caller i action) p' ∧
      p'.threads[i]? = some pc.next := by
  have hdone := hclose.readerDone.mpr h.finished
  have hmem := List.mem_of_getElem? hpc
  have hrelies := hclose.relies _ hmem
  have hstep : ∀ action s', callerStep p.shared pc action = some (s', pc.next) →
      CloseAllowed p (.caller i action) →
      ∃ action p', CloseAllowed p (.caller i action) ∧
        sessionSystem.step p (.caller i action) p' ∧ p'.threads[i]? = some pc.next := by
    intro action s' hnext hallowed
    refine ⟨action, ⟨s', p.threads.set i pc.next⟩, hallowed, ?_, ?_⟩
    · show p.advance (fun s pc => callerStep s pc action) i = _
      exact Pool.advance_of_next hpc hnext
    · exact getElem?_set_moved hpc pc.next
  cases pc with
  | idle =>
    -- nobody is in `close`, so nobody holds its lock
    have hfree : p.shared.closeLock = false := by
      have hlocked := hclose.locked
      rw [List.countP_eq_zero.mpr fun other hother => by
        rw [(hturn.resolve_left nofun).2 other hother]; decide] at hlocked
      cases hlock : p.shared.closeLock with
      | false => rfl
      | true =>
        rw [hlock] at hlocked
        cases hlocked
    exact hstep (.close false) _ (by simp [callerStep, hfree, CallerPc.next]; rfl) trivial
  | asking => exact absurd hturn (by simp [CallerPc.inClose])
  | requesting => exact hstep .request _ rfl trivial
  | joiningReader => exact hstep (.joinReader true) p.shared (by simp [callerStep, hdone, CallerPc.next]) trivial
  | stopping =>
    have hfailure := stopAndRetire_stopFailure hrest h.finished (.inr rfl)
    refine hstep (.stop Status.ok) (stopAndRetire Status.ok p.shared) ?_ (.inr rfl)
    simp only [callerStep, hfailure, CallerPc.next]
  | joiningBorrowers =>
    have hretired := h.retirementDone hrest hrelies.2.2
    exact hstep (.joinBorrowers true) p.shared (by simp [callerStep, hretired, CallerPc.next]) trivial
  | leaving failure => exact hstep .leave _ rfl trivial

end Retry

/-! ## The law -/

/-- **The outcome law of `close`.** In every reachable state: a `close` on the request queue or
during another one throws, and changes nothing; any other ends as `CloseEnded` says; and once the
runner has finished, no ask is borrowed and no `close` is in progress, no `close` fails whose stop
is not refused, nor does one after it, and each of them can go on to its end. -/
theorem close_outcome {p : Pool SessionState CallerPc} (hp : sessionSystem.Reachable p) :
    (∀ i onQueue p', sessionSystem.step p (.caller i (.close onQueue)) p' →
      (onQueue = true ∨ ∃ pc ∈ p.threads, pc.inClose = true) →
      ∃ reason, p' = ⟨p.shared.logged [.closed (some (.shutdown reason))], p.threads⟩) ∧
    (∀ i failure p', p.threads[i]? = some (.leaving failure) →
      sessionSystem.step p (.caller i .leave) p' →
      p'.shared.log = p.shared.log ++ [.closed failure] ∧ CloseEnded p'.shared failure) ∧
    (p.shared.runner = .finished → p.shared.activeAsks = 0 →
      (∀ pc ∈ p.threads, pc.inClose = false) →
      ∀ p', (sessionSystem.restrict CloseAllowed).Reaches p p' →
        (∀ failure, .leaving failure ∈ p'.threads → failure = none) ∧
        ∀ i pc, p'.threads[i]? = some pc →
          (pc.inClose = true ∨ pc = .idle ∧ ∀ other ∈ p'.threads, other.inClose = false) →
          ∃ action p'', CloseAllowed p' (.caller i action) ∧
            sessionSystem.step p' (.caller i action) p'' ∧ p''.threads[i]? = some pc.next) := by
  have hrest := atRest_reachable hp
  have hclose := closeInv_reachable hp
  refine ⟨?_, ?_, ?_⟩
  · intro i onQueue p' hstep hrefused
    have hadvance : p.advance (fun s pc => callerStep s pc (.close onQueue)) i = some p' := hstep
    obtain ⟨pc, s', pc', hpc, hcaller, rfl⟩ := Pool.advance_eq_some hadvance
    obtain rfl : pc = .idle := by
      cases pc <;> first | rfl | simp [callerStep] at hcaller
    have hset : p.threads.set i .idle = p.threads := by
      obtain ⟨hi, hidle⟩ := List.getElem?_eq_some_iff.mp hpc
      rw [← hidle, List.set_getElem_self]
    -- off the queue it is the other `close` that holds the lock
    have hlock : onQueue = false → p.shared.closeLock = true := by
      intro hqueue
      obtain ⟨pc, hmem, hin⟩ := hrefused.resolve_left (by simp [hqueue])
      have hpos := List.countP_pos_iff.mpr ⟨pc, hmem, hin⟩
      rw [hclose.locked] at hpos
      cases hheld : p.shared.closeLock with
      | true => rfl
      | false =>
        rw [hheld] at hpos
        cases hpos
    cases onQueue with
    | true =>
      cases hcaller
      exact ⟨_, by rw [hset]⟩
    | false =>
      simp only [Session.callerStep, hlock rfl, Bool.false_eq_true, if_false, if_true] at hcaller
      cases hcaller
      exact ⟨_, by rw [hset]⟩
  · intro i failure p' hpc hstep
    have hadvance : p.advance (fun s pc => callerStep s pc .leave) i = some p' := hstep
    obtain ⟨pc, s', pc', hpc', hcaller, rfl⟩ := Pool.advance_eq_some hadvance
    obtain rfl : pc = .leaving failure := Option.some.inj (hpc'.symm.trans hpc)
    cases hcaller
    exact ⟨rfl, (hclose.ended hrest (List.mem_of_getElem? hpc)).left⟩
  · intro hfinished hasks hfree p' hreaches
    have hsettled : Settled p.shared p.threads := by
      refine ⟨hfinished, hasks, fun failure hmem => ?_⟩
      cases hfree _ hmem
    have hkept : Settled p'.shared p'.threads ∧ sessionSystem.Reachable p' := by
      apply hreaches.invariant
        (I := fun q => Settled q.shared q.threads ∧ sessionSystem.Reachable q) ⟨hsettled, hp⟩
      rintro q a q' ⟨h, hq⟩ ⟨hallowed, hstep⟩
      exact ⟨h.step (atRest_reachable hq) (closeInv_reachable hq) hallowed hstep, hq.step hstep⟩
    obtain ⟨h, hp'⟩ := hkept
    exact ⟨h.succeeds, fun i pc hpc hturn =>
      h.progress (atRest_reachable hp') (closeInv_reachable hp') hpc hturn⟩

/-- A retry after the runner's own stop was refused. -/
theorem close_outcome_retry :
    ∃ p, sessionSystem.Reachable p ∧ p.shared.stopFailure = some Status.badState ∧
      ∀ p', (sessionSystem.restrict CloseAllowed).Reaches p p' →
        ∀ failure, .leaving failure ∈ p'.threads → failure = none := by
  let start : Pool SessionState CallerPc := ⟨{}, [.idle, .idle]⟩
  have hstart : sessionSystem.Reachable start := .init ⟨rfl, by simp [start]⟩
  obtain ⟨p, hrun, hfailure, hfinished, hasks, hfree⟩ : ∃ p,
      [SessionAction.caller 0 .requestRetirement, .runner .check, .runner .destroyReader,
        .runner (.retire Status.badState), .runner .leave].foldlM sessionStep start = some p ∧
      p.shared.stopFailure = some Status.badState ∧ p.shared.runner = .finished ∧
      p.shared.activeAsks = 0 ∧ ∀ pc ∈ p.threads, pc.inClose = false :=
    ⟨_, rfl, rfl, rfl, rfl, by decide⟩
  have hp : sessionSystem.Reachable p :=
    hstart.trans (System.Reaches.foldlM (fun _ _ _ h => h) _ hrun)
  exact ⟨p, hp, hfailure, fun p' hreaches =>
    ((close_outcome hp).2.2 hfinished hasks hfree p' hreaches).1⟩

end CoAkka.Session
