import CoAkkaRuntime.Lane.CloseProtocol

/-!
# Lane — a refused stop

`close` destroys the lane and detaches its callback roots whatever the native stop has answered,
and reports a refusal only afterwards. So a lane keeps its owners, for a later `close` to stop it
again, exactly when the stop was not refused.

* `AcceptedStop`, `OwnersKept` — what a stop was answered, and that the lane still has its owners.
* `exists_drained`, `exists_destroyed` — a closing thread can always go on to the destroy, whoever
  is in its way.
* `ownersKept_iff` — from the return of a stop, the owners are kept until an accepted one, in every
  continuation, exactly when this one was accepted.
* `refused_stop_destroys` — a lane whose stop was refused, and the second `close` of it.
-/

namespace CoAkka.Lane

open Transition

/-- Core has stopped the lane, now or before. -/
def Accepted (status : Int32) : Prop := status = Status.ok ∨ status = Status.closed

def AcceptedStop (before : List LaneEvent) : Prop :=
  ∃ status, .stopReturned status ∈ before ∧ Accepted status

/-- The ownership law: the lane and its roots go, and a `close` succeeds, only after a stop that
Core accepted. As long as stops are refused the owners stay, and a `close` has to stop again. -/
def OwnersKept (before : List LaneEvent) : LaneEvent → Prop
  | .destroyed | .detached | .released => AcceptedStop before
  | .joined | .closed none => AcceptedStop before ∧ .destroyed ∈ before
  | _ => True

/-! ## One stop decides

There is one destroy in a log at most, and one stop before it.
-/

section OneStop

variable {kind : LaneKind} {p p' : Pool LaneState Pc}

/-- The log of a run goes on where it was. -/
theorem log_prefix (h : (laneSystem kind).Reaches p p') :
    ∃ events, p'.shared.log = p.shared.log ++ events := by
  let extended : Pool LaneState Pc → Prop := fun q => ∃ events,
    q.shared.log = p.shared.log ++ events
  apply h.invariant (I := extended) ⟨[], (List.append_nil _).symm⟩
  intro q a q' ⟨events, hevents⟩ hstep
  obtain ⟨pc, s', pc', -, hnext, rfl⟩ := Pool.advance_eq_some hstep
  obtain ⟨more, hmore⟩ := (laneStep_of_next hnext).log_append
  exact ⟨events ++ more, by rw [hmore, hevents, List.append_assoc]⟩

/-- A lane is stopped once, so there is one answer. -/
theorem LaneInv.stopReturned_unique (h : LaneInv p) {first second : Int32}
    (hfirst : .stopReturned first ∈ p.shared.log) (hsecond : .stopReturned second ∈ p.shared.log) :
    first = second := by
  have hle : p.shared.log.countP LaneEvent.isStopReturn ≤ 1 := by
    have := h.counts.stopReturned
    have := h.counts.closing_le_one
    omega
  rw [List.countP_eq_length_filter] at hle
  have hmem : ∀ status, .stopReturned status ∈ p.shared.log →
      .stopReturned status ∈ p.shared.log.filter LaneEvent.isStopReturn :=
    fun status h => List.mem_filter.mpr ⟨h, rfl⟩
  match hstops : p.shared.log.filter LaneEvent.isStopReturn with
  | [] => simpa [hstops] using hmem first hfirst
  | [stop] =>
    have hone := hmem first hfirst
    have htwo := hmem second hsecond
    rw [hstops, List.mem_singleton] at hone htwo
    exact LaneEvent.stopReturned.inj (hone.trans htwo.symm)
  | _ :: _ :: _ => simp [hstops] at hle

/-- Destroy comes after a returned stop, and so does everything that comes after destroy. -/
theorem stopped_of_destroyed {before : List LaneEvent} (h : Justified Protocol before)
    (hdestroyed : .destroyed ∈ before) : Stopped before := by
  obtain ⟨earlier, later, rfl⟩ := List.append_of_mem hdestroyed
  obtain ⟨-, ⟨status, hstatus⟩, -⟩ := h earlier .destroyed later rfl
  exact ⟨status, List.mem_append_left _ hstatus⟩

end OneStop

/-! ## A closing thread always gets to the destroy

Behind the stop there is only the wait for the borrowers, and each of them can leave.
-/

section Drain

variable {kind : LaneKind} {p : Pool LaneState Pc} {i : Nat} {status : Int32}

/-- Whoever is in a `withLane` body can leave it, while the closing thread waits. -/
theorem exists_drained (hpc : p.threads[i]? = some (.draining status)) :
    ∃ q, (laneSystem kind).Reaches p q ∧ q.threads[i]? = some (.draining status) ∧
      q.threads.countP Pc.isInside = 0 := by
  induction hn : p.threads.countP Pc.isInside generalizing p with
  | zero => exact ⟨p, .refl, hpc, hn⟩
  | succ n ih =>
    obtain ⟨pc, hmem, hinside⟩ := List.countP_pos_iff.mp (by omega : 0 < p.threads.countP Pc.isInside)
    obtain ⟨j, hj⟩ := List.mem_iff_getElem?.mp hmem
    obtain rfl : pc = .inside := by
      cases pc <;> simp_all [Pc.isInside]
    have hji : j ≠ i := by
      rintro rfl
      rw [hpc] at hj
      cases hj
    have hexit : (laneSystem kind).step p (j, .exitLane)
        ⟨(exitLane p.shared).1, p.threads.set j .idle⟩ := Pool.advance_of_next hj rfl
    have hcount := countP_set hj .idle Pc.isInside
    simp only [Pc.isInside, if_true, Bool.false_eq_true, if_false] at hcount
    have hleft : (p.threads.set j .idle).countP Pc.isInside = n := by omega
    obtain ⟨q, hq, hqpc, hqcount⟩ := ih
      (p := ⟨(exitLane p.shared).1, p.threads.set j .idle⟩)
      (by rw [List.getElem?_set_ne hji, hpc]) hleft
    exact ⟨q, (System.Reaches.step .refl hexit).trans hq, hqpc, hqcount⟩

/-- The closing thread reaches the destroy. -/
theorem exists_destroyed (hp : (laneSystem kind).Reachable p)
    (hpc : p.threads[i]? = some (.draining status)) :
    ∃ q before after, (laneSystem kind).Reaches p q ∧
      q.shared.log = before ++ .destroyed :: after := by
  obtain ⟨q, hq, hqpc, hcount⟩ := exists_drained hpc
  have hactive := (laneInv_reachable (hp.trans hq)).counts.active
  have hdrained : q.shared.activeCalls = 0 := by omega
  have hretire : (laneSystem kind).step q (i, .retire)
      ⟨retire kind q.shared, q.threads.set i (.finishing status)⟩ :=
    Pool.advance_of_next hqpc (by simp [next, hdrained])
  exact ⟨_, q.shared.log, _, .step hq hretire, rfl⟩

end Drain

/-! ## The ownership law -/

/-- **The ownership law holds exactly when the stop is not refused.** In every reachable state of
a lane, with a thread in the native stop: the owners are kept until an accepted stop, on all runs
from this stop's return, if and only if it returns `OK` or `CLOSED`. -/
theorem ownersKept_iff (kind : LaneKind) {p stopped : Pool LaneState Pc} {i : Nat}
    {status : Int32} (hp : (laneSystem kind).Reachable p)
    (hstop : (laneSystem kind).step p (i, .returnStop status) stopped) :
    (∀ p', (laneSystem kind).Reaches stopped p' →
      Justified OwnersKept p'.shared.log ∧ p'.shared.log.count .destroyed ≤ 1) ↔
    Accepted status := by
  have hstopped : (laneSystem kind).Reachable stopped := .step hp hstop
  obtain ⟨hreturned, hdraining⟩ : .stopReturned status ∈ stopped.shared.log ∧
      stopped.threads[i]? = some (.draining status) := by
    obtain ⟨pc, s', pc', hpc, hnext, rfl⟩ := Pool.advance_eq_some hstop
    obtain ⟨hi, -⟩ := List.getElem?_eq_some_iff.mp hpc
    cases pc <;> simp only [next, reduceCtorEq, Option.some.injEq, Prod.mk.injEq] at hnext
    obtain ⟨rfl, rfl⟩ := hnext
    simp [hi]
  have hkept : ∀ p', (laneSystem kind).Reaches stopped p' →
      .stopReturned status ∈ p'.shared.log := by
    intro p' hp'
    obtain ⟨events, hevents⟩ := log_prefix hp'
    rw [hevents]
    exact List.mem_append_left _ hreturned
  constructor
  · intro hlaw
    -- the closing thread goes on to the destroy, which needs an accepted stop before it
    obtain ⟨q, before, after, hq, hlog⟩ := exists_destroyed hstopped hdraining
    obtain ⟨accepted, hmem, haccepted⟩ := (hlaw q hq).1 before .destroyed after hlog
    have hinv := laneInv_reachable (hstopped.trans hq)
    have hsame := hinv.stopReturned_unique (hkept q hq)
      (by rw [hlog]; exact List.mem_append_left _ hmem)
    rwa [hsame]
  · intro haccepted p' hp'
    have hinv := laneInv_reachable (hstopped.trans hp')
    refine ⟨?_, hinv.log.count_le_one fun _ hrule => hrule.1⟩
    intro before e after hlog
    have hrule := hinv.log before e after hlog
    have hbefore : Justified Protocol before := by
      have hall := hinv.log
      rw [hlog] at hall
      exact hall.of_append
    have hstop : Stopped before → AcceptedStop before := by
      rintro ⟨answer, hanswer⟩
      have hsame := hinv.stopReturned_unique (hkept p' hp')
        (by rw [hlog]; exact List.mem_append_left _ hanswer)
      exact ⟨answer, hanswer, by rwa [← hsame]⟩
    cases e with
    | destroyed => exact hstop hrule.2.1
    | detached => exact hstop hrule.2.1
    | released => exact hstop (stopped_of_destroyed hbefore hrule)
    | joined => exact ⟨hstop (stopped_of_destroyed hbefore hrule), hrule⟩
    | closed outcome =>
      cases outcome with
      | none => exact ⟨hstop (stopped_of_destroyed hbefore hrule), hrule⟩
      | some error => trivial
    | _ => trivial

/-- A lane whose stop returns `CLOSED`. -/
theorem ownersKept_iff_closed :
    ∃ p stopped, (laneSystem streamLane).step p (0, .returnStop Status.closed) stopped ∧
      ∀ p', (laneSystem streamLane).Reaches stopped p' →
        Justified OwnersKept p'.shared.log ∧ p'.shared.log.count .destroyed ≤ 1 := by
  let start : Pool LaneState Pc := ⟨{}, [.idle]⟩
  have hstart : (laneSystem streamLane).Reachable start := .init ⟨rfl, by simp [start]⟩
  obtain ⟨p, hrun, stopped, hstop⟩ : ∃ p,
      [(0, LaneAction.close), (0, .callStop)].foldlM (laneStep streamLane) start = some p ∧
      ∃ stopped, (laneSystem streamLane).step p (0, .returnStop Status.closed) stopped :=
    ⟨_, rfl, _, rfl⟩
  have hp : (laneSystem streamLane).Reachable p :=
    hstart.trans (System.Reaches.foldlM (fun _ _ _ h => h) _ hrun)
  exact ⟨p, stopped, hstop, (ownersKept_iff streamLane hp hstop).mpr (.inr rfl)⟩

/-- One `close` whose stop answers `status`, and then another one. -/
def closeTwice (status : Int32) : List (Nat × LaneAction) :=
  [(0, .close), (0, .callStop), (0, .returnStop status), (0, .retire), (0, .finish), (0, .close)]

/-- A refused stop, or one that the loaded module does not export: the lane is destroyed all the
same, and the next `close` returns without having stopped it. -/
theorem refused_stop_destroys :
    (∃ p, (laneSystem streamLane).Reachable p ∧
      p.shared.log = [.closing, .stopCalled, .stopReturned Status.badState, .destroyed, .detached,
        .released, .closed (some (.nativeStatus Status.badState "stream_lane_stop")),
        .closed none] ∧
      ¬ Justified OwnersKept p.shared.log) ∧
    ∃ p, (laneSystem fileLane).Reachable p ∧
      p.shared.log = [.closing, .stopCalled, .stopReturned Status.symbol, .destroyed,
        .closed (some (.nativeStatus Status.symbol "file_lane_stop")), .closed none] ∧
      ¬ Justified OwnersKept p.shared.log := by
  have hstart : ∀ kind, (laneSystem kind).Reachable ⟨{}, [.idle]⟩ :=
    fun kind => .init ⟨rfl, by simp⟩
  -- the destroy has one stop before it, which was refused
  have hbroken : ∀ status after, ¬ Accepted status → ¬ Justified OwnersKept
      (.closing :: .stopCalled :: .stopReturned status :: .destroyed :: after) := by
    intro status after hrefused hlaw
    obtain ⟨answer, hmem, haccepted⟩ :=
      hlaw [.closing, .stopCalled, .stopReturned status] .destroyed after rfl
    obtain rfl : answer = status := by simpa using hmem
    exact hrefused haccepted
  refine ⟨⟨⟨_, [.idle]⟩, (hstart streamLane).trans (System.Reaches.foldlM (fun _ _ _ h => h)
    (closeTwice Status.badState) rfl), rfl, hbroken _ _ ?_⟩, ⟨_, [.idle]⟩, (hstart fileLane).trans
    (System.Reaches.foldlM (fun _ _ _ h => h) (closeTwice Status.symbol) rfl), rfl,
    hbroken _ _ ?_⟩
  · show ¬ (Status.badState = Status.ok ∨ Status.badState = Status.closed)
    decide
  · show ¬ (Status.symbol = Status.ok ∨ Status.symbol = Status.closed)
    decide

end CoAkka.Lane
