import CoAkkaRuntime.Session.CloseOutcome
import CoAkkaRuntime.Transition.Measure

/-!
# Session — a closing session comes to its end

Once a session is closing, nobody gets a new ticket, and the runner, the borrowers and the closers
have only so much left to do (`workLeft`). Each of their steps does a piece of it, and one of them
always has a step until nothing is left. What the other callers do in between changes nothing,
except that a new `close` brings its own five steps.

* `workLeft` — the steps that the runner, the borrowers and the closers still have before them.
* `sessionStep_work` — a step that works takes one away, the others add what a new `close` brings.
* `sessionStep_enabled` — where work is left, somebody has a step that works.
* `session_shuts_down` — the bound on every run from a closing state, and what the end of one is.

The bound is amortised: other callers may come and go as often as they like, and only a `close` of
theirs adds to it.
-/

namespace CoAkka.Session

open Transition

/-! ## What is left to do -/

/-- The longest way of the runner of a closing session to its end. -/
def RunnerPc.work : RunnerPc → Nat
  | .reading => 10
  | .answered _ _ => 9
  | .examining => 8
  | .sizing => 7
  | .dispatching | .failing _ _ => 6
  | .releasing _ _ => 5
  | .checking => 4
  | .leaving => 3
  | .retiring => 2
  | .departing => 1
  | .finished => 0

def CallerPc.work : CallerPc → Nat
  | .idle => 0
  | .asking _ rest => rest.length
  | .requesting => 5
  | .joiningReader => 4
  | .stopping => 3
  | .joiningBorrowers => 2
  | .leaving _ => 1

def workLeft (p : Pool SessionState CallerPc) : Nat :=
  p.shared.runner.work + (p.threads.map CallerPc.work).sum

/-- A step of the runner, of a borrower or of a `close` in progress. -/
def SessionAction.works : SessionAction → Bool
  | .runner _ => true
  | .caller _ (.withOpen _) | .caller _ (.begin _ _ _) | .caller _ .requestRetirement
  | .caller _ (.close _) => false
  | .caller _ _ => true

/-- A `close` that may take the lock. -/
def SessionAction.enters : SessionAction → Bool
  | .caller _ (.close onQueue) => !onQueue
  | _ => false

section Steps

variable {s s' : SessionState} {pc pc' : CallerPc} {p p' : Pool SessionState CallerPc}

/-- Behind a read the runner has at most this much to do before it looks at `closing` again. -/
theorem afterRead_work (status : Int32) (frame : Bool) : (afterRead status frame).work ≤ 8 := by
  unfold afterRead
  split_ifs <;> simp [RunnerPc.work]

theorem afterData_work (readable : Bool) : (afterData readable).work ≤ 7 := by
  cases readable <;> simp [afterData, RunnerPc.work]

theorem afterSize_work (size : Int64) : (afterSize size).work ≤ 6 := by
  unfold afterSize
  split <;> simp [RunnerPc.work]

/-- **Every step of the runner of a closing session does a piece of its work.** -/
theorem runnerStep_work {action : RunnerAction} (hclosing : s.closing = true)
    (h : runnerStep s action = some s') : s'.runner.work + 1 ≤ s.runner.work := by
  unfold runnerStep at h
  split at h
  case h_1 hpc =>
    -- the loop is left at its condition
    cases h
    rw [hpc, hclosing]
    exact Nat.le_refl 4
  case h_3 status frame hpc =>
    cases h
    rw [hpc]
    exact Nat.succ_le_succ (afterRead_work status frame)
  case h_4 readable hpc =>
    cases h
    rw [hpc]
    exact Nat.succ_le_succ (afterData_work readable)
  case h_5 size hpc =>
    cases h
    rw [hpc]
    exact Nat.succ_le_succ (afterSize_work size)
  case h_8 frame again hpc =>
    cases h
    rw [hpc]
    show (if again then RunnerPc.checking else .leaving).work + 1 ≤ 5
    cases again <;> simp [RunnerPc.work]
  case h_10 status hpc =>
    cases h
    rw [hpc, retireLocked_runner]
    unfold stopLocked
    split <;> exact Nat.le_refl 2
  case h_12 => cases h
  all_goals
    next hpc =>
    cases h
    rw [hpc]
    exact Nat.le_refl _

/-- A borrower has as much to do as its `awaitResult` has events left. -/
theorem CallerPc.awaiting_work (ticket : Nat) (rest : List TicketEvent) :
    (CallerPc.awaiting ticket rest).work = rest.length := by
  cases rest <;> rfl

/-- A caller of a closing session does not get a ticket. -/
theorem callerStep_work {i : Nat} {action : CallerAction} (hclosing : s.closing = true)
    (h : callerStep s pc action = some (s', pc')) :
    pc'.work + (SessionAction.caller i action).works.toNat
      ≤ pc.work + 5 * (SessionAction.caller i action).enters.toNat := by
  unfold callerStep at h
  split at h
  case h_2 answer messageID call =>
    have hbegins := begin_begins answer s
    generalize begin answer s = result at h hbegins
    cases hbegins with
    | refused | failed =>
      cases h
      exact Nat.le_refl _
    | begun hopen =>
      rw [hopen] at hclosing
      cases hclosing
  case h_3 ticket rest | h_4 ticket event rest hne =>
    cases h
    rw [CallerPc.awaiting_work]
    exact Nat.le_refl _
  case h_6 onQueue =>
    -- the lock is taken only off the queue
    split_ifs at h with hqueue <;> cases h <;>
      simp [CallerPc.work, SessionAction.works, SessionAction.enters, hqueue]
  case h_8 joined | h_10 joined =>
    split_ifs at h <;> cases h <;>
      simp [CallerPc.work, SessionAction.works, SessionAction.enters]
  case h_9 status =>
    dsimp only at h
    split at h <;> cases h <;> simp [CallerPc.work, SessionAction.works, SessionAction.enters]
  case h_12 => cases h
  all_goals
    cases h
    exact Nat.le_refl _

/-- A caller does not move the runner. -/
theorem callerStep_runner {action : CallerAction} (h : callerStep s pc action = some (s', pc')) :
    s'.runner = s.runner := by
  cases closeStep_of_callerStep h with
  | outside _ _ _ _ _ hrunner => exact hrunner
  | refused status | stopped status => exact stopAndRetire_runner status
  | _ => rfl

/-- Every step of a closing session does a piece of work, or is a new `close`, which brings five. -/
theorem sessionStep_work {a : SessionAction} (hclosing : p.shared.closing = true)
    (h : sessionStep p a = some p') :
    workLeft p' + a.works.toNat ≤ workLeft p + 5 * a.enters.toNat := by
  cases a with
  | runner action =>
    obtain ⟨s', hrunner, rfl⟩ := Option.map_eq_some_iff.mp h
    have hwork := runnerStep_work hclosing hrunner
    show s'.runner.work + (p.threads.map CallerPc.work).sum + 1 ≤ _
    unfold workLeft
    omega
  | caller i action =>
    have hadvance : p.advance (fun s pc => callerStep s pc action) i = some p' := h
    obtain ⟨pc, s', pc', hpc, hcaller, rfl⟩ := Pool.advance_eq_some hadvance
    have hwork := callerStep_work (i := i) hclosing hcaller
    have hsum := sum_map_set hpc pc' CallerPc.work
    show s'.runner.work + ((p.threads.set i pc').map CallerPc.work).sum + _ ≤ _
    rw [callerStep_runner hcaller]
    unfold workLeft
    omega

/-- The runner is never stuck before its end. -/
theorem runnerStep_enabled (h : s.runner.work ≠ 0) : ∃ action s', runnerStep s action = some s' := by
  unfold runnerStep
  cases hpc : s.runner with
  | checking => exact ⟨.check, _, rfl⟩
  | reading => exact ⟨.read Status.wouldBlock false, _, rfl⟩
  | answered => exact ⟨.inspect, _, rfl⟩
  | examining => exact ⟨.data true, _, rfl⟩
  | sizing => exact ⟨.size 1, _, rfl⟩
  | dispatching => exact ⟨.dispatch, _, rfl⟩
  | failing => exact ⟨.fail, _, rfl⟩
  | releasing => exact ⟨.release, _, rfl⟩
  | leaving => exact ⟨.destroyReader, _, rfl⟩
  | retiring => exact ⟨.retire Status.ok, _, rfl⟩
  | departing => exact ⟨.leave, _, rfl⟩
  | finished =>
    rw [hpc] at h
    exact absurd rfl h

/-- Nor is a borrower or a `close`, whose waits end by themselves. -/
theorem callerStep_enabled (h : pc.work ≠ 0) (s : SessionState) : ∃ action r,
    callerStep s pc action = some r ∧ ∀ i, (SessionAction.caller i action).works = true := by
  cases pc with
  | idle => exact absurd rfl h
  | asking ticket rest =>
    cases rest with
    | nil => exact absurd rfl h
    | cons event rest =>
      refine ⟨.ask, ?_⟩
      cases event <;> exact ⟨_, rfl, fun _ => rfl⟩
  | requesting => exact ⟨.request, _, rfl, fun _ => rfl⟩
  | joiningReader => exact ⟨.joinReader false, _, rfl, fun _ => rfl⟩
  | stopping =>
    refine ⟨.stop Status.ok, ?_⟩
    unfold callerStep
    dsimp only
    split <;> exact ⟨_, rfl, fun _ => rfl⟩
  | joiningBorrowers => exact ⟨.joinBorrowers false, _, rfl, fun _ => rfl⟩
  | leaving failure => exact ⟨.leave, _, rfl, fun _ => rfl⟩

/-- **While something is left to do, somebody can do it.** -/
theorem sessionStep_enabled (h : workLeft p ≠ 0) :
    ∃ a p', a.works = true ∧ sessionStep p a = some p' := by
  by_cases hrunner : p.shared.runner.work = 0
  · -- a caller has something left
    have hsum : 0 < (p.threads.map CallerPc.work).sum := by
      unfold workLeft at h
      omega
    obtain ⟨n, hn, hpos⟩ := List.sum_pos_iff_exists_pos_nat.mp hsum
    obtain ⟨pc, hmem, rfl⟩ := List.mem_map.mp hn
    obtain ⟨i, hpc⟩ := List.mem_iff_getElem?.mp hmem
    obtain ⟨action, ⟨s', pc'⟩, hcaller, hworks⟩ :=
      callerStep_enabled (Nat.pos_iff_ne_zero.mp hpos) p.shared
    refine ⟨.caller i action, ⟨s', p.threads.set i pc'⟩, hworks i, ?_⟩
    show p.advance (fun s pc => callerStep s pc action) i = _
    exact Pool.advance_of_next hpc hcaller
  · obtain ⟨action, s', hstep⟩ := runnerStep_enabled hrunner
    exact ⟨.runner action, ⟨s', p.threads⟩, rfl, Option.map_eq_some_iff.mpr ⟨s', hstep, rfl⟩⟩

end Steps

/-! ## The end

Nothing left to do means a finished runner, no borrower and no closer on its way; what became of
the owners follows from the invariant.
-/

/-- A session after its shutdown: the native owners are gone, or the last stop was refused and the
session retains itself with all of them. -/
structure Ended (p : Pool SessionState CallerPc) : Prop where
  runner : p.shared.runner = .finished
  callers : ∀ pc ∈ p.threads, pc = .idle
  reader : p.shared.log.count .readerDestroy = 1
  frames : p.shared.log.countP SessionEvent.delivers = p.shared.log.count .frameRelease
  tickets : ∀ ticket, Begun p.shared.log ticket → .ticket ticket .destroy ∈ p.shared.log
  owners : (.stop Status.ok ∈ p.shared.log ∧ ∀ e ∈ retirement, p.shared.log.count e = 1) ∨
    ((∃ status, lastStop p.shared.log = some status ∧ status ≠ Status.ok) ∧
      p.shared.failedStopOwner = true ∧ ∀ e ∈ retirement, e ∉ p.shared.log)

section Ends

variable {p p' : Pool SessionState CallerPc}

theorem RunnerPc.work_eq_zero {pc : RunnerPc} : pc.work = 0 ↔ pc = .finished := by
  cases pc <;> simp [RunnerPc.work]

/-- An ask that is not over has its `endBorrow` left. -/
theorem idle_of_work (hrest : AtRest p.shared p.threads) {pc : CallerPc} (hmem : pc ∈ p.threads)
    (hwork : pc.work = 0) : pc = .idle := by
  cases pc with
  | idle => rfl
  | asking ticket rest =>
    obtain ⟨-, body, hends, -⟩ := hrest.inv.borrows.asking ticket rest hmem
    rw [hends] at hwork
    simp [CallerPc.work] at hwork
  | _ => simp [CallerPc.work] at hwork

/-- Without work left, the session has ended. -/
theorem ended_of_work (hrest : AtRest p.shared p.threads) (hwork : workLeft p = 0) : Ended p := by
  obtain ⟨hrunner, hcallers⟩ := Nat.add_eq_zero_iff.mp hwork
  have hfinished := RunnerPc.work_eq_zero.mp hrunner
  -- no work left means that everybody is at a position without any
  have hidle : ∀ pc ∈ p.threads, pc = .idle := fun pc hmem =>
    idle_of_work hrest hmem
      (List.sum_eq_zero_iff_forall_eq_nat.mp hcallers _ (List.mem_map_of_mem hmem))
  obtain ⟨hinv, hattempted, hunstranded⟩ := hrest
  have hdestroyed := hinv.reader.destroyed
  have hframes := hinv.reader.frames
  rw [hfinished] at hdestroyed hframes
  have hasks : p.shared.activeAsks = 0 := by
    rw [hinv.borrows.active, List.countP_eq_zero.mpr]
    · rfl
    · intro pc hmem
      rw [hidle pc hmem]
      decide
  refine ⟨hfinished, hidle, hdestroyed, hframes, ?_, ?_⟩
  · intro ticket hbegun
    refine (hinv.borrows.destroyed ticket hbegun).resolve_right ?_
    rintro ⟨rest, hmem, -⟩
    cases hidle _ hmem
  · have hlast := hinv.stops.last
    have hretired : p.shared.readerRetired = true := by
      rw [hinv.retired, hfinished]
      rfl
    -- an accepted stop and all owners retired, or a refused one and none
    cases hstopped : p.shared.stopped with
    | true =>
      left
      rw [hstopped, if_pos rfl] at hlast
      refine ⟨mem_of_lastStop hlast, fun e he => ?_⟩
      rw [hinv.stops.retirement e he, hunstranded hstopped hasks]
      rfl
    | false =>
      right
      have hfailure := (hattempted hretired).resolve_left (by rw [hstopped]; decide)
      obtain ⟨status, hstatus⟩ := Option.isSome_iff_exists.mp hfailure
      rw [hstopped, if_neg Bool.false_ne_true, hstatus] at hlast
      refine ⟨⟨status, hlast, fun hok => hinv.flags.nonzero (by rw [hstatus, hok])⟩, ?_, ?_⟩
      · rw [hinv.flags.owner]
        exact hfailure
      · intro e he
        have hcount := hinv.stops.retirement e he
        rw [hinv.flags.runtime_of_not_stopped hstopped] at hcount
        exact List.count_eq_zero.mp hcount

/-- The account of a run: what it does is paid by what was left and by what the new closers bring.
-/
theorem closing_amortised : System.Amortised sessionStep
    (fun p => AtRest p.shared p.threads ∧ p.shared.closing = true) workLeft
    (fun a => a.works.toNat) (fun a => 5 * a.enters.toNat) := by
  refine ⟨?_, fun p a p' h hstep => sessionStep_work h.2 hstep⟩
  rintro p a p' ⟨hrest, hclosing⟩ hstep
  have hreaches : sessionSystem.Reaches p p' := .step .refl hstep
  exact ⟨atRest_step hrest hstep, (reaches_grows hreaches).closing hclosing⟩

/-- **A closing session shuts down.** In every run from a reachable state in which the session is
closing, the steps of the runner, of the borrowers and of the closers are bounded by what they have
left to do, and by five for each new `close`; while something is left, one of them has a step; and
when nothing is left, the session has ended. -/
theorem session_shuts_down (hp : sessionSystem.Reachable p) (hclosing : p.shared.closing = true)
    (actions : List SessionAction) (hrun : actions.foldlM sessionStep p = some p') :
    workLeft p' + (actions.map fun a => a.works.toNat).sum
      ≤ workLeft p + (actions.map fun a => 5 * a.enters.toNat).sum ∧
    (workLeft p' ≠ 0 → ∃ a p'', a.works = true ∧ sessionStep p' a = some p'') ∧
    (workLeft p' = 0 → Ended p') := by
  obtain ⟨⟨hrest, -⟩, hcost⟩ := closing_amortised.run ⟨atRest_reachable hp, hclosing⟩ actions hrun
  exact ⟨hcost, sessionStep_enabled, ended_of_work hrest⟩

end Ends

/-- The runner has a frame in hand, an ask is open and a `close` has just begun to wait. The runner's
stop is refused, the closer's is accepted, and the borrower retires the session. -/
theorem session_shuts_down_lastBorrower : ∃ p p', sessionSystem.Reachable p ∧
    sessionSystem.Reaches p p' ∧ workLeft p = 15 ∧ Ended p' := by
  let start : Pool SessionState CallerPc := ⟨{}, [.idle, .idle]⟩
  have hstart : sessionSystem.Reachable start := .init ⟨rfl, by simp [start]⟩
  obtain ⟨p, hfirst, hclosing, hleft⟩ : ∃ p,
      (lastBorrowerRetires.take 8).foldlM sessionStep start = some p ∧
      p.shared.closing = true ∧ workLeft p = 15 := ⟨_, rfl, rfl, rfl⟩
  have hp : sessionSystem.Reachable p :=
    hstart.trans (System.Reaches.foldlM (fun _ _ _ h => h) _ hfirst)
  obtain ⟨p', hrun, hzero⟩ : ∃ p',
      (lastBorrowerRetires.drop 8).foldlM sessionStep p = some p' ∧ workLeft p' = 0 := by
    cases hfirst
    exact ⟨_, rfl, rfl⟩
  exact ⟨p, p', hp, System.Reaches.foldlM (fun _ _ _ h => h) _ hrun, hleft,
    (session_shuts_down hp hclosing _ hrun).2.2 hzero⟩

end CoAkka.Session
