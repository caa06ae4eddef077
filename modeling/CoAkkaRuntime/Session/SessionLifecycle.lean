import CoAkkaRuntime.Session.SessionProtocol

/-!
# Session — the lifecycle and retention laws

The two laws of a `RuntimeSession` over all its runs: the order of its native calls, and that its
native owners are retired as soon as nothing holds them back.

* `Grows` — the flags that never go back.
* `session_lifecycle` — the protocol of the native calls, in every reachable state.
* `session_never_strands` — in every state between sections, for all answers of Core and all
  outcomes of the waits.
-/

namespace CoAkka.Session

open Transition

/-! ## Flags never go back -/

/-- What a session has closed, retired, stopped or destroyed stays so. -/
structure Grows (f f' : SessionFlags) : Prop where
  closing : f.closing = true → f'.closing = true
  readerRetired : f.readerRetired = true → f'.readerRetired = true
  stopped : f.stopped = true → f'.stopped = true
  runtime : f.runtime = false → f'.runtime = false

section Grows

variable {f f' f'' : SessionFlags} {s s' : SessionState}

theorem Grows.refl : Grows f f := ⟨id, id, id, id⟩

theorem Grows.trans (h : Grows f f') (h' : Grows f' f'') : Grows f f'' :=
  ⟨h'.closing ∘ h.closing, h'.readerRetired ∘ h.readerRetired, h'.stopped ∘ h.stopped,
    h'.runtime ∘ h.runtime⟩

/-- A stop takes nothing back. -/
theorem stopLocked_grows (status : Int32) (s : SessionState) :
    Grows s.toSessionFlags (stopLocked status s).toSessionFlags := by
  unfold stopLocked
  split
  · next hguard =>
    -- the stop is not called on a stopped session
    refine ⟨id, id, fun hstopped => ?_, id⟩
    simp [hstopped] at hguard
  · exact .refl

/-- Nor does the retirement. -/
theorem retireLocked_grows (s : SessionState) :
    Grows s.toSessionFlags (retireLocked s).toSessionFlags := by
  unfold retireLocked
  split
  · exact ⟨id, id, id, fun _ => rfl⟩
  · exact .refl

/-- Every step of the runner leaves closed, retired, stopped and destroyed what is. -/
theorem runnerStep_grows {action : RunnerAction} (h : runnerStep s action = some s') :
    Grows s.toSessionFlags s'.toSessionFlags := by
  unfold runnerStep at h
  split at h
  case h_10 status _ =>
    cases h
    let retiring : SessionState :=
      { s with readerRetired := true, closing := true, runner := .departing }
    have hsealed : Grows s.toSessionFlags retiring.toSessionFlags :=
      ⟨fun _ => rfl, fun _ => rfl, id, id⟩
    exact (hsealed.trans (stopLocked_grows status retiring)).trans (retireLocked_grows _)
  case h_12 => cases h
  all_goals
    cases h
    exact .refl

/-- So does every step of a caller. -/
theorem callerStep_grows {pc pc' : CallerPc} {action : CallerAction}
    (h : callerStep s pc action = some (s', pc')) : Grows s.toSessionFlags s'.toSessionFlags := by
  have hclosing : Grows s.toSessionFlags { s.toSessionFlags with closing := true } :=
    ⟨fun _ => rfl, id, id, id⟩
  unfold callerStep at h
  split at h
  case h_1 operation =>
    cases h
    unfold withOpen
    cases requireOpenLocked s <;> exact .refl
  case h_2 answer messageID call =>
    have hbegins := begin_begins answer s
    generalize begin answer s = result at h hbegins
    cases hbegins with
    | refused | failed =>
      cases h
      exact .refl
    | begun =>
      cases h
      exact ⟨id, id, id, id⟩
  case h_3 ticket rest =>
    cases h
    let ended : SessionState :=
      { s with activeAsks := s.activeAsks - 1 }.logged [.ticket ticket .endBorrow]
    have hended : Grows s.toSessionFlags ended.toSessionFlags := ⟨id, id, id, id⟩
    exact hended.trans (retireLocked_grows ended)
  case h_4 =>
    cases h
    exact .refl
  -- the two positions that set `closing`
  case h_5 | h_7 =>
    cases h
    exact hclosing
  case h_6 | h_8 | h_10 =>
    split_ifs at h <;> cases h <;> exact .refl
  case h_9 status =>
    have hmoves : s' = stopAndRetire status s := by
      dsimp only at h
      split at h <;> cases h <;> rfl
    rw [hmoves]
    unfold stopAndRetire
    split
    · exact .refl
    · exact (stopLocked_grows status s).trans (retireLocked_grows _)
  case h_11 =>
    cases h
    exact .refl
  case h_12 => cases h

/-- And every run. -/
theorem reaches_grows {p p' : Pool SessionState CallerPc} (h : sessionSystem.Reaches p p') :
    Grows p.shared.toSessionFlags p'.shared.toSessionFlags := by
  apply h.invariant (I := fun q => Grows p.shared.toSessionFlags q.shared.toSessionFlags) .refl
  intro q a q' hgrown hstep
  apply hgrown.trans
  cases a with
  | runner action =>
    obtain ⟨s', hrunner, rfl⟩ := Option.map_eq_some_iff.mp hstep
    exact runnerStep_grows hrunner
  | caller i action =>
    have hadvance : q.advance (fun s pc => callerStep s pc action) i = some q' := hstep
    obtain ⟨pc, s', pc', -, hcaller, rfl⟩ := Pool.advance_eq_some hadvance
    exact callerStep_grows hcaller

end Grows

/-! ## The lifecycle -/

/-- **The native lifecycle of a session.** In every run of the runner and any number of callers
and borrowers, whatever Core answers and however the waits of `close` end: every native call comes
after what the protocol asks for; the reader is destroyed once, by the runner; the retirement
happens once at most; there are 0 to 64 asks; and what is closed, retired, stopped or destroyed
stays so. -/
theorem session_lifecycle {p : Pool SessionState CallerPc} (hp : sessionSystem.Reachable p) :
    Justified Protocol p.shared.log ∧
    p.shared.log.count .readerDestroy = p.shared.runner.pastReader.toNat ∧
    (∀ e ∈ retirement, p.shared.log.count e ≤ 1) ∧
    (0 ≤ p.shared.activeAsks ∧ p.shared.activeAsks ≤ 64) ∧
    ∀ p', sessionSystem.Reaches p p' → Grows p.shared.toSessionFlags p'.shared.toSessionFlags := by
  have h := (atRest_reachable hp).inv
  have hactive := h.borrows.active
  refine ⟨h.log, h.reader.destroyed, ?_, ⟨by omega, h.borrows.bound⟩, fun _ => reaches_grows⟩
  intro e he
  rw [h.stops.retirement e he]
  exact Bool.toNat_le _

/-- An ask is open while a `close` stops the session and its second wait is over; the borrower
retires the session. -/
def lastBorrowerRetires : List SessionAction :=
  [.caller 0 (.begin ⟨Status.ok, true⟩ "client-swift-1"
      ⟨0, true, none, ⟨Status.closed, 0, none, 0⟩, ⟨Status.ok, none, 0⟩, fun _ => 0⟩),
    .runner .check, .runner (.read Status.ok true), .runner .inspect, .runner (.data true),
    .runner (.size 8), .caller 1 (.close false), .caller 1 .request, .runner .dispatch,
    .runner .release, .runner .check, .runner .destroyReader, .runner (.retire Status.badState),
    .runner .leave, .caller 1 (.joinReader true), .caller 1 (.stop Status.ok),
    .caller 1 (.joinBorrowers false), .caller 1 .leave, .caller 0 .ask, .caller 0 .ask,
    .caller 0 .ask, .caller 0 .ask, .caller 0 .ask]

/-- The borrower that is last destroys the runtime, once, behind the reader's destroy. -/
theorem session_lifecycle_lastBorrower :
    ∃ p, sessionSystem.Reachable p ∧ p.shared.log.count .retired = 1 ∧
      Justified Protocol p.shared.log ∧ p.shared.log.count .readerDestroy = 1 := by
  let start : Pool SessionState CallerPc := ⟨{}, [.idle, .idle]⟩
  have hstart : sessionSystem.Reachable start := .init ⟨rfl, by simp [start]⟩
  obtain ⟨p, hrun, hretired, hrunner⟩ : ∃ p,
      lastBorrowerRetires.foldlM sessionStep start = some p ∧
      p.shared.log.count .retired = 1 ∧ p.shared.runner = .finished :=
    ⟨_, rfl, by decide, rfl⟩
  have hp : sessionSystem.Reachable p :=
    hstart.trans (System.Reaches.foldlM (fun _ _ _ h => h) _ hrun)
  have h := session_lifecycle hp
  have hdestroyed := h.2.1
  rw [hrunner] at hdestroyed
  exact ⟨p, hp, hretired, h.1, hdestroyed⟩

/-! ## Nothing is stranded

The owners are retired by whoever comes last: the runner, a borrower or a `close`.
-/

/-- **No native owner is orphaned or stranded.** In every state between the sections of every run:
if the runner has retired and the runtime is not destroyed, then the last stop was refused and the
session retains itself, or a stop was accepted and a borrower still has its ticket; a stopped
session without borrowers has destroyed its runtime; `stopFailure` is set exactly when the last
stop was refused; and nothing retains the session after an accepted stop. -/
theorem session_never_strands {p : Pool SessionState CallerPc} (hp : sessionSystem.Reachable p) :
    (p.shared.readerRetired = true → .runtimeDestroy ∉ p.shared.log →
      ((∃ status, lastStop p.shared.log = some status ∧ status ≠ Status.ok) ∧
        p.shared.failedStopOwner = true) ∨
      (p.shared.stopped = true ∧ ∃ ticket rest, .asking ticket rest ∈ p.threads)) ∧
    ¬ (p.shared.stopped = true ∧ p.shared.activeAsks = 0 ∧ .runtimeDestroy ∉ p.shared.log) ∧
    (p.shared.stopFailure.isSome ↔
      ∃ status, lastStop p.shared.log = some status ∧ status ≠ Status.ok) ∧
    (.stop Status.ok ∈ p.shared.log → p.shared.failedStopOwner = false) := by
  obtain ⟨h, hattempted, hunstranded⟩ := atRest_reachable hp
  have hdestroy := h.stops.retirement .runtimeDestroy (by decide)
  have hgone : p.shared.runtime = false → .runtimeDestroy ∈ p.shared.log := by
    intro hruntime
    rw [hruntime] at hdestroy
    exact List.count_pos_iff.mp (by rw [hdestroy]; decide)
  have hfailure : p.shared.stopFailure.isSome ↔
      ∃ status, lastStop p.shared.log = some status ∧ status ≠ Status.ok := by
    rw [h.stops.last]
    constructor
    · intro hsome
      obtain ⟨status, hstatus⟩ := Option.isSome_iff_exists.mp hsome
      have hstopped : p.shared.stopped = false := by
        by_contra hstopped
        rw [(h.flags.stopped (by simpa using hstopped)).2] at hstatus
        cases hstatus
      rw [hstopped]
      refine ⟨status, hstatus, fun hok => h.flags.nonzero ?_⟩
      rw [hstatus, hok]
    · intro ⟨status, hlast, hne⟩
      split at hlast
      · exact absurd (Option.some.inj hlast).symm hne
      · rw [hlast]
        rfl
  refine ⟨?_, ?_, hfailure, ?_⟩
  · intro hretired hruntime
    rcases hattempted hretired with hstopped | hrefused
    · right
      refine ⟨hstopped, ?_⟩
      -- the runtime is not destroyed, so somebody borrows
      have hasks : p.shared.activeAsks ≠ 0 := fun hzero => hruntime (hgone (hunstranded hstopped hzero))
      have hactive := h.borrows.active
      obtain ⟨pc, hmem, hasking⟩ :=
        List.countP_pos_iff.mp (by omega : 0 < p.threads.countP CallerPc.isAsking)
      cases pc <;> first | exact ⟨_, _, hmem⟩ | cases hasking
    · left
      refine ⟨hfailure.mp hrefused, ?_⟩
      rw [h.flags.owner]
      exact hrefused
  · intro ⟨hstopped, hzero, hruntime⟩
    exact hruntime (hgone (hunstranded hstopped hzero))
  · intro hok
    have hnone := (h.flags.stopped (h.stops.once hok)).2
    rw [h.flags.owner, hnone]
    rfl

/-- A refused stop at the runner's exit. -/
theorem session_never_strands_refused :
    ∃ p, sessionSystem.Reachable p ∧ p.shared.readerRetired = true ∧
      .runtimeDestroy ∉ p.shared.log ∧ p.shared.failedStopOwner = true := by
  let start : Pool SessionState CallerPc := ⟨{}, [.idle]⟩
  have hstart : sessionSystem.Reachable start := .init ⟨rfl, by simp [start]⟩
  obtain ⟨p, hrun, hretired, hruntime, hnot⟩ : ∃ p,
      [SessionAction.caller 0 .requestRetirement, .runner .check, .runner .destroyReader,
        .runner (.retire Status.badState)].foldlM sessionStep start = some p ∧
      p.shared.readerRetired = true ∧ .runtimeDestroy ∉ p.shared.log ∧
      p.shared.stopped = false := ⟨_, rfl, rfl, by decide, rfl⟩
  have hp : sessionSystem.Reachable p :=
    hstart.trans (System.Reaches.foldlM (fun _ _ _ h => h) _ hrun)
  rcases (session_never_strands hp).1 hretired hruntime with hrefused | hstopped
  · exact ⟨p, hp, hretired, hruntime, hrefused.2⟩
  · rw [hnot] at hstopped
    cases hstopped.1

end CoAkka.Session
