import CoAkkaRuntime.Session.TicketOwners

/-!
# Session — the turns of the request runner

The calls that the runner makes on its reader are a sequence of turns, whatever the other threads
do in between: each reads once, looks at a frame only if it got one, dispatches it at most once, and
releases it before the next read. Only the last turn can be one that ends the loop, and the failure
that the session then reports is the one that this turn stands for.

* `Turn` — one turn, with its calls and whether another follows.
* `Partway` — a turn that has begun: the calls made so far, and the position the runner is at.
* `KeepsRunner` — what a step of anybody else leaves alone; one lemma per section.
* `InTurns.runnerStep` — a step of the runner continues the turn, ends it or starts the next.
* `runner_goes_in_turns` — over every run of the session.
-/

namespace CoAkka.Session

open Transition

/-! ## Turns -/

/-- A turn of the runner's loop, by what Core answers. -/
inductive Turn where
  | wouldBlock (frame : Bool)
  | dispatched
  | closed (frame : Bool)
  | withoutFrame
  | unreadable
  | empty
  | failed (status : Int32) (frame : Bool) (hok : status ≠ Status.ok)
      (hblock : status ≠ Status.wouldBlock) (hclosed : status ≠ Status.closed)

namespace Turn

/-- The calls of a turn, but for the release of its frame. -/
def calls : Turn → List SessionEvent
  | wouldBlock frame => [.read Status.wouldBlock frame]
  | dispatched => [.read Status.ok true, .frameData, .frameSize, .dispatch]
  | closed frame => [.read Status.closed frame]
  | withoutFrame => [.read Status.ok false]
  | unreadable => [.read Status.ok true, .frameData]
  | empty => [.read Status.ok true, .frameData, .frameSize]
  | failed status frame _ _ _ => [.read status frame]

/-- The turn has a frame to release. -/
def frame : Turn → Bool
  | wouldBlock frame | closed frame | failed _ frame _ _ _ => frame
  | dispatched | unreadable | empty => true
  | withoutFrame => false

/-- Another turn may follow. -/
def again : Turn → Bool
  | wouldBlock _ | dispatched => true
  | closed _ | withoutFrame | unreadable | empty | failed _ _ _ _ _ => false

/-- What the runner records. -/
def failure : Turn → Option RuntimeError
  | wouldBlock _ | dispatched | closed _ => none
  | withoutFrame | unreadable =>
    some (.contractViolation "Core returned success without readable frame bytes")
  | empty => some (.contractViolation "Core returned an empty delivered frame")
  | failed status _ _ _ _ => some (.nativeStatus status "read delivered request")

def events (turn : Turn) : List SessionEvent :=
  turn.calls ++ if turn.frame then [.frameRelease] else []

/-- A turn that is followed by another recorded no failure. -/
theorem failure_of_again {turn : Turn} (h : turn.again = true) : turn.failure = none := by
  cases turn with
  | wouldBlock | dispatched => rfl
  | closed | withoutFrame | unreadable | empty | failed => cases h

/-- A turn with a failure is the last. -/
theorem again_of_failure {turn : Turn} {failure : RuntimeError} (h : turn.failure = some failure) :
    turn.again = false := by
  by_contra hagain
  rw [failure_of_again (by simpa using hagain)] at h
  cases h

end Turn

/-- What the runner has done since its last turn with another one behind it: where it is, its calls
so far, and the failure it has recorded. -/
inductive Partway : RunnerPc → List SessionEvent → Option RuntimeError → Prop where
  | checking : Partway .checking [] none
  | reading : Partway .reading [] none
  | answered (status : Int32) (frame : Bool) :
      Partway (.answered status frame) [.read status frame] none
  | examining : Partway .examining [.read Status.ok true] none
  | sizing : Partway .sizing [.read Status.ok true, .frameData] none
  | dispatching : Partway .dispatching [.read Status.ok true, .frameData, .frameSize] none
  | failing (turn : Turn) (failure : RuntimeError) (h : turn.failure = some failure) :
      Partway (.failing failure turn.frame) turn.calls none
  | releasing (turn : Turn) :
      Partway (.releasing turn.frame turn.again) turn.calls turn.failure
  /-- The loop is over, with the turn that ended it unless the session was found closing. -/
  | leaving (last : Option Turn) (hlast : ∀ turn ∈ last, turn.again = false) :
      Partway .leaving (last.elim [] Turn.events) (last.bind Turn.failure)
  | retiring (last : Option Turn) (hlast : ∀ turn ∈ last, turn.again = false) :
      Partway .retiring (last.elim [] Turn.events ++ [.readerDestroy]) (last.bind Turn.failure)
  | departing (last : Option Turn) (hlast : ∀ turn ∈ last, turn.again = false) :
      Partway .departing (last.elim [] Turn.events ++ [.readerDestroy]) (last.bind Turn.failure)
  | finished (last : Option Turn) (hlast : ∀ turn ∈ last, turn.again = false) :
      Partway .finished (last.elim [] Turn.events ++ [.readerDestroy]) (last.bind Turn.failure)

/-! ## The branches of a turn -/

/-- Behind the read the runner has called nothing but the read. -/
theorem afterRead_partway (status : Int32) (frame : Bool) :
    Partway (afterRead status frame) [.read status frame] none := by
  unfold afterRead
  by_cases hblock : status = Status.wouldBlock
  · rw [if_pos hblock, hblock]
    exact .releasing (.wouldBlock frame)
  by_cases hclosed : status = Status.closed
  · rw [if_neg hblock, if_pos hclosed, hclosed]
    exact .releasing (.closed frame)
  by_cases hok : status = Status.ok
  · rw [if_neg hblock, if_neg hclosed, if_pos hok, hok]
    cases frame with
    | true => exact .examining
    | false => exact .failing .withoutFrame _ rfl
  · rw [if_neg hblock, if_neg hclosed, if_neg hok]
    exact .failing (.failed status frame hok hblock hclosed) _ rfl

/-- Behind the look at the frame's bytes, the read and the look. -/
theorem afterData_partway (readable : Bool) :
    Partway (afterData readable) [.read Status.ok true, .frameData] none := by
  cases readable with
  | true => exact .sizing
  | false => exact .failing .unreadable _ rfl

/-- Behind the look at its size, all three. -/
theorem afterSize_partway (size : Int64) :
    Partway (afterSize size) [.read Status.ok true, .frameData, .frameSize] none := by
  unfold afterSize
  split
  · exact .dispatching
  · exact .failing .empty _ rfl

/-! ## What the others leave alone

The callers and the closers make no call on the reader and do not move the runner.
-/

def readerTrace (log : List SessionEvent) : List SessionEvent := log.filter SessionEvent.isReader

theorem readerTrace_append (log events : List SessionEvent) :
    readerTrace (log ++ events) = readerTrace log ++ readerTrace events :=
  List.filter_append _ _

/-- The runner, what it recorded and its calls are as they were. -/
structure KeepsRunner (s s' : SessionState) : Prop where
  runner : s'.runner = s.runner
  failure : s'.readFailure = s.readFailure
  trace : readerTrace s'.log = readerTrace s.log

section Keeps

variable {s s' s'' : SessionState}

theorem KeepsRunner.refl : KeepsRunner s s := ⟨rfl, rfl, rfl⟩

theorem KeepsRunner.trans (h : KeepsRunner s s') (h' : KeepsRunner s' s'') : KeepsRunner s s'' :=
  ⟨h'.runner.trans h.runner, h'.failure.trans h.failure, h'.trace.trans h.trace⟩

/-- Events that are not the reader's leave its trace. -/
theorem readerTrace_of_not {events : List SessionEvent} (h : ∀ e ∈ events, e.isReader = false)
    (log : List SessionEvent) : readerTrace (log ++ events) = readerTrace log := by
  have hnone : readerTrace events = [] :=
    List.filter_eq_nil_iff.mpr fun e he => by simp [h e he]
  rw [readerTrace_append, hnone, List.append_nil]

theorem KeepsRunner.logged {events : List SessionEvent} (h : ∀ e ∈ events, e.isReader = false)
    (s : SessionState) : KeepsRunner s (s.logged events) :=
  ⟨rfl, rfl, readerTrace_of_not h s.log⟩

/-- The sections of the other activities leave the runner, its failure and the reader's trace alone.
-/
theorem withOpen_keepsRunner (operation : List RuntimeCall × Except RuntimeError Unit)
    (s : SessionState) : KeepsRunner s (withOpen operation s).2 := by
  unfold withOpen
  cases requireOpenLocked s with
  | error => exact .refl
  | ok =>
    apply KeepsRunner.logged
    intro e he
    obtain ⟨call, -, rfl⟩ := List.mem_map.mp he
    rfl

theorem begin_keepsRunner (answer : BeginAnswer) (s : SessionState) :
    KeepsRunner s (begin answer s).2 := by
  have hbegins := begin_begins answer s
  generalize begin answer s = result at hbegins
  cases hbegins with
  | refused => exact .refl
  | failed => exact .logged (by simp [SessionEvent.isReader]) s
  | begun => exact ⟨rfl, rfl, readerTrace_of_not (by simp [SessionEvent.isReader]) s.log⟩

theorem stopLocked_keepsRunner (status : Int32) (s : SessionState) :
    KeepsRunner s (stopLocked status s) := by
  unfold stopLocked
  split
  · exact ⟨rfl, rfl, readerTrace_of_not (by simp [SessionEvent.isReader]) s.log⟩
  · exact .refl

theorem retireLocked_keepsRunner (s : SessionState) : KeepsRunner s (retireLocked s) := by
  unfold retireLocked
  split
  · exact ⟨rfl, rfl, readerTrace_of_not (by simp [retirement, SessionEvent.isReader]) s.log⟩
  · exact .refl

theorem stopAndRetire_keepsRunner (status : Int32) (s : SessionState) :
    KeepsRunner s (stopAndRetire status s) := by
  unfold stopAndRetire
  split
  · exact .refl
  · exact (stopLocked_keepsRunner status s).trans (retireLocked_keepsRunner _)

/-- So does every step of a caller. -/
theorem callerStep_keepsRunner {pc pc' : CallerPc} {action : CallerAction}
    (h : callerStep s pc action = some (s', pc')) : KeepsRunner s s' := by
  unfold callerStep at h
  split at h
  case h_1 operation =>
    cases h
    exact withOpen_keepsRunner operation s
  case h_2 answer messageID call =>
    have hkeeps := begin_keepsRunner answer s
    generalize begin answer s = result at h hkeeps
    obtain ⟨outcome, after⟩ := result
    cases outcome <;> cases h <;> exact hkeeps
  case h_3 ticket rest =>
    cases h
    -- the last borrower may retire the runtime, which is not the runner's
    have hended : KeepsRunner s
        ({ s with activeAsks := s.activeAsks - 1 }.logged [.ticket ticket .endBorrow]) :=
      ⟨rfl, rfl, readerTrace_of_not (by simp [SessionEvent.isReader]) s.log⟩
    exact hended.trans (retireLocked_keepsRunner _)
  case h_4 =>
    cases h
    exact .logged (by simp [SessionEvent.isReader]) s
  -- `close` stops and retires; the reader is destroyed by the runner alone
  case h_9 status =>
    have hmoves : s' = stopAndRetire status s := by
      dsimp only at h
      split at h <;> cases h <;> rfl
    rw [hmoves]
    exact stopAndRetire_keepsRunner status s
  case h_6 | h_8 | h_10 =>
    split_ifs at h <;> cases h <;>
      first
      | exact ⟨rfl, rfl, rfl⟩
      | exact .logged (by simp [SessionEvent.isReader]) s
  case h_5 | h_7 =>
    cases h
    exact ⟨rfl, rfl, rfl⟩
  case h_11 =>
    cases h
    exact ⟨rfl, rfl, readerTrace_of_not (by simp [SessionEvent.isReader]) s.log⟩
  case h_12 => cases h

end Keeps

/-! ## The runner's own steps

One case for each position of the runner.
-/

/-- Complete turns, and the part of one. -/
def InTurns (s : SessionState) : Prop :=
  ∃ turns : List Turn, (∀ turn ∈ turns, turn.again = true) ∧ ∃ rest,
    readerTrace s.log = turns.flatMap Turn.events ++ rest ∧ Partway s.runner rest s.readFailure

variable {s s' : SessionState}

/-- The turns survive what leaves the runner alone. -/
theorem InTurns.keep (h : InTurns s) (hkeeps : KeepsRunner s s') : InTurns s' := by
  obtain ⟨turns, hagain, rest, htrace, hpart⟩ := h
  refine ⟨turns, hagain, rest, hkeeps.trace.trans htrace, ?_⟩
  rwa [hkeeps.runner, hkeeps.failure]

/-- A step within a turn, which adds `events` to its calls. -/
theorem InTurns.advance {events : List SessionEvent} (h : InTurns s)
    (htrace : readerTrace s'.log = readerTrace s.log ++ events)
    (hpart : ∀ rest failure, s.readFailure = failure → Partway s.runner rest failure →
      Partway s'.runner (rest ++ events) s'.readFailure) : InTurns s' := by
  obtain ⟨turns, hagain, rest, hold, hrest⟩ := h
  refine ⟨turns, hagain, rest ++ events, ?_, hpart rest _ rfl hrest⟩
  rw [htrace, hold, List.append_assoc]

/-- A step that makes no call. -/
theorem InTurns.silent (h : InTurns s) (htrace : readerTrace s'.log = readerTrace s.log)
    (hpart : ∀ rest failure, s.readFailure = failure → Partway s.runner rest failure →
      Partway s'.runner rest s'.readFailure) : InTurns s' := by
  refine h.advance (htrace.trans (List.append_nil _).symm) fun rest failure hfailure hrest => ?_
  rw [List.append_nil]
  exact hpart rest failure hfailure hrest

/-- Where a position tells what its turn has called so far, and no failure is known yet, the step is as
good as the turn is behind it. -/
theorem InTurns.goes (h : InTurns s) (calls : List SessionEvent) {events : List SessionEvent}
    (htrace : readerTrace s'.log = readerTrace s.log ++ events) (hsame : s'.readFailure = s.readFailure)
    (hcalls : ∀ rest failure, Partway s.runner rest failure → rest = calls ∧ failure = none)
    (hpart : Partway s'.runner (calls ++ events) none) : InTurns s' := by
  refine h.advance htrace fun rest failure hfailure hrest => ?_
  obtain ⟨rfl, rfl⟩ := hcalls rest failure hrest
  rw [hsame, hfailure]
  exact hpart

/-- The release of a turn's frame ends the turn. -/
theorem InTurns.release {frame again : Bool} (h : InTurns s) (hpc : s.runner = .releasing frame again) :
    InTurns ({ s with runner := if again then .checking else .leaving }.logged
      (if frame then [.frameRelease] else [])) := by
  obtain ⟨turns, hagain, rest, hold, hrest⟩ := h
  rw [hpc] at hrest
  generalize hfailure : s.readFailure = failure at hrest
  cases hrest with
  | releasing turn =>
    have htrace : readerTrace (s.log ++ if turn.frame then [SessionEvent.frameRelease] else [])
        = turns.flatMap Turn.events ++ turn.events := by
      rw [readerTrace_append, hold, List.append_assoc, Turn.events]
      cases turn.frame <;> rfl
    cases hturn : turn.again with
    | true =>
      -- a complete turn, and the next one begins
      refine ⟨turns ++ [turn], ?_, [], ?_, ?_⟩
      · intro other hmem
        rcases List.mem_append.mp hmem with hin | hin
        · exact hagain other hin
        · rw [List.mem_singleton.mp hin, hturn]
      · rw [List.flatMap_append, List.flatMap_singleton, List.append_nil]
        exact htrace
      · show Partway .checking [] turn.failure
        rw [Turn.failure_of_again hturn]
        exact .checking
    | false =>
      refine ⟨turns, hagain, turn.events, htrace, ?_⟩
      refine .leaving (some turn) ?_
      rintro _ ⟨⟩
      exact hturn

/-- **A step of the runner is a step of its turn**, the end of it, or the start of the next. -/
theorem InTurns.runnerStep {action : RunnerAction} (h : InTurns s)
    (hstep : runnerStep s action = some s') : InTurns s' := by
  unfold Session.runnerStep at hstep
  split at hstep
  -- the loop's condition: another turn, or the way out
  case h_1 hpc =>
    cases hstep
    refine h.goes [] (List.append_nil _).symm rfl (by rw [hpc]; rintro _ _ ⟨⟩; exact ⟨rfl, rfl⟩) ?_
    show Partway (if s.closing then .leaving else .reading) [] none
    cases s.closing with
    | true => exact .leaving none (by simp)
    | false => exact .reading
  -- a call of the reader or of the frame continues the turn by one event
  case h_2 status frame hpc =>
    cases hstep
    exact h.goes [] (readerTrace_append s.log [.read status frame]) rfl
      (by rw [hpc]; rintro _ _ ⟨⟩; exact ⟨rfl, rfl⟩) (.answered status frame)
  case h_3 status frame hpc =>
    cases hstep
    exact h.goes [.read status frame] (List.append_nil _).symm rfl
      (by rw [hpc]; rintro _ _ ⟨⟩; exact ⟨rfl, rfl⟩) (afterRead_partway status frame)
  case h_4 readable hpc =>
    cases hstep
    exact h.goes [.read Status.ok true] (readerTrace_append s.log [.frameData]) rfl
      (by rw [hpc]; rintro _ _ ⟨⟩; exact ⟨rfl, rfl⟩) (afterData_partway readable)
  case h_5 size hpc =>
    cases hstep
    exact h.goes [.read Status.ok true, .frameData] (readerTrace_append s.log [.frameSize]) rfl
      (by rw [hpc]; rintro _ _ ⟨⟩; exact ⟨rfl, rfl⟩) (afterSize_partway size)
  case h_6 hpc =>
    cases hstep
    exact h.goes [.read Status.ok true, .frameData, .frameSize]
      (readerTrace_append s.log [.dispatch]) rfl (by rw [hpc]; rintro _ _ ⟨⟩; exact ⟨rfl, rfl⟩)
      (.releasing .dispatched)
  -- the failure that is remembered is that of the turn
  case h_7 failure frame hpc =>
    cases hstep
    refine h.silent rfl fun rest old hold hrest => ?_
    rw [hpc] at hrest
    cases hrest with
    | failing turn _ hturn =>
      show Partway (.releasing turn.frame false) turn.calls (some failure)
      rw [← hturn, ← Turn.again_of_failure hturn]
      exact .releasing turn
  -- the turn is over, and is now one of those behind
  case h_8 frame again hpc =>
    cases hstep
    exact h.release hpc
  -- behind the loop: no turn is under way any more
  case h_9 hpc =>
    cases hstep
    refine h.advance (readerTrace_append s.log [.readerDestroy]) fun rest failure hfailure hrest => ?_
    rw [hpc] at hrest
    cases hrest with
    | leaving last hlast =>
      show Partway .retiring _ s.readFailure
      rw [hfailure]
      exact .retiring last hlast
  case h_10 status hpc =>
    cases hstep
    let retired : SessionState :=
      { s with readerRetired := true, closing := true, runner := .departing }
    have hretired : InTurns retired := by
      refine h.silent rfl fun rest failure hfailure hrest => ?_
      rw [hpc] at hrest
      cases hrest with
      | retiring last hlast =>
        show Partway .departing _ s.readFailure
        rw [hfailure]
        exact .departing last hlast
    exact hretired.keep ((stopLocked_keepsRunner status retired).trans (retireLocked_keepsRunner _))
  case h_11 hpc =>
    cases hstep
    refine h.silent rfl fun rest failure hfailure hrest => ?_
    rw [hpc] at hrest
    cases hrest with
    | departing last hlast =>
      show Partway .finished _ s.readFailure
      rw [hfailure]
      exact .finished last hlast
  case h_12 => cases hstep

/-! ## The law -/

/-- One step of the session keeps the runner in its turns. -/
theorem inTurns_step {p p' : Pool SessionState CallerPc} {a : SessionAction} (h : InTurns p.shared)
    (hstep : sessionSystem.step p a p') : InTurns p'.shared := by
  cases a with
  | runner action =>
    obtain ⟨s, hrun, rfl⟩ := Option.map_eq_some_iff.mp hstep
    exact h.runnerStep hrun
  | caller i action =>
    have hadvance : p.advance (fun s pc => callerStep s pc action) i = some p' := hstep
    obtain ⟨pc, s, pc', -, hcall, rfl⟩ := Pool.advance_eq_some hadvance
    exact h.keep (callerStep_keepsRunner hcall)

/-- **The request runner goes turn by turn.** In every state of every run, whatever the callers do,
the runner's calls on its reader are complete turns that let it go on, and the part of one more; a
failure is recorded in the last turn only, and by it. Of a runner that has finished, these are all
its turns, and the reader's destroy. -/
theorem runner_goes_in_turns {p : Pool SessionState CallerPc} (hp : sessionSystem.Reachable p) :
    (∃ turns : List Turn, (∀ turn ∈ turns, turn.again = true) ∧ ∃ rest,
      readerTrace p.shared.log = turns.flatMap Turn.events ++ rest ∧
      Partway p.shared.runner rest p.shared.readFailure) ∧
    (p.shared.runner = .finished → ∃ (turns : List Turn) (last : Option Turn),
      (∀ turn ∈ turns, turn.again = true) ∧ (∀ turn ∈ last, turn.again = false) ∧
      readerTrace p.shared.log
        = (turns ++ last.toList).flatMap Turn.events ++ [.readerDestroy] ∧
      p.shared.readFailure = last.bind Turn.failure) := by
  have hturns : InTurns p.shared := by
    refine hp.invariant ?_ (fun _ _ _ _ h hstep => inTurns_step h hstep)
    rintro p ⟨hstart, -⟩
    rw [hstart]
    exact ⟨[], by simp, [], rfl, .checking⟩
  refine ⟨hturns, fun hfinished => ?_⟩
  obtain ⟨turns, hagain, rest, htrace, hpart⟩ := hturns
  rw [hfinished] at hpart
  generalize hfailure : p.shared.readFailure = failure at hpart
  cases hpart with
  | finished last hlast =>
    refine ⟨turns, last, hagain, hlast, ?_, rfl⟩
    rw [htrace]
    cases last <;> simp

/-- The runner dispatches a frame, and then gets one that cannot be read. -/
theorem runner_goes_in_turns_unreadable : ∃ p, sessionSystem.Reachable p ∧
    p.shared.readFailure
      = some (.contractViolation "Core returned success without readable frame bytes") ∧
    ∃ (turns : List Turn) (last : Option Turn), p.shared.readFailure = last.bind Turn.failure ∧
      readerTrace p.shared.log
        = (turns ++ last.toList).flatMap Turn.events ++ [.readerDestroy] := by
  let start : Pool SessionState CallerPc := ⟨{}, []⟩
  have hstart : sessionSystem.Reachable start := .init ⟨rfl, by simp [start]⟩
  obtain ⟨p, hrun, hfinished, hfailure⟩ : ∃ p,
      [SessionAction.runner .check, .runner (.read Status.ok true), .runner .inspect,
        .runner (.data true), .runner (.size 8), .runner .dispatch, .runner .release, .runner .check,
        .runner (.read Status.ok true), .runner .inspect, .runner (.data false), .runner .fail,
        .runner .release, .runner .destroyReader, .runner (.retire Status.ok), .runner .leave].foldlM
        sessionStep start = some p ∧ p.shared.runner = .finished ∧ p.shared.readFailure
          = some (.contractViolation "Core returned success without readable frame bytes") :=
    ⟨_, rfl, rfl, rfl⟩
  have hp : sessionSystem.Reachable p :=
    hstart.trans (System.Reaches.foldlM (fun _ _ _ h => h) _ hrun)
  obtain ⟨turns, last, -, -, htrace, hlast⟩ := (runner_goes_in_turns hp).2 hfinished
  exact ⟨p, hp, hfailure, turns, last, hlast, htrace⟩

end CoAkka.Session
