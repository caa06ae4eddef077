import CoAkkaRuntime.Session.AskTicketSpec
import CoAkkaRuntime.Session.RuntimeSession
import CoAkkaRuntime.Transition.History

/-!
# Session — the invariant of a session

What each native call of a session needs before it (`Protocol`), and the invariant that ties the
flags, the runner and the borrowers to the log. The invariant has one part per owner: the flags
under the lock, the reader that the runner owns, the stops and the retirement, and the tickets
that the borrowers own. A section changes few of the parts, and `stopLocked` and `retireLocked`
each have one lemma, whoever calls them.

* `Protocol` — the rule of each event, read off the log before it.
* `Flags`, `Reader`, `Stops`, `Borrows` — the four parts; `SessionInv` has them together.
* `SessionInv.stopLocked`, `SessionInv.retireLocked` — the two sections that call Core under the
  lock.
* `Unstranded` — the owners do not outlive their use: a stopped session without borrowers has
  retired.
-/

namespace CoAkka.Session

open Transition

/-! ## The protocol -/

namespace SessionEvent

/-- Core handed out a frame. -/
def delivers : SessionEvent → Bool
  | .read _ frame => frame
  | _ => false

def stopStatus? : SessionEvent → Option Int32
  | .stop status => some status
  | _ => none

/-- The events of the runner's reader. -/
def isReader : SessionEvent → Bool
  | .read _ _ | .frameData | .frameSize | .dispatch | .frameRelease | .readerDestroy => true
  | .runtimeCall _ | .begin _ _ | .ticket _ _ | .stop _ | .askClientDestroy | .handlesClose
  | .runtimeDestroy | .libraryClose | .retired | .closed _ => false

/-- The events that stop or retire the native owners. -/
def isRetiring : SessionEvent → Bool
  | .stop _ | .askClientDestroy | .handlesClose | .runtimeDestroy | .libraryClose | .retired => true
  | .runtimeCall _ | .begin _ _ | .ticket _ _ | .read _ _ | .frameData | .frameSize | .dispatch
  | .frameRelease | .readerDestroy | .closed _ => false

/-- The events that return a ticket. -/
def begins : SessionEvent → Bool
  | .begin _ given => given.isSome
  | _ => false

end SessionEvent

/-- No stop has been attempted. -/
def Unstopped (before : List SessionEvent) : Prop := ∀ status, .stop status ∉ before

/-- The last answer of a stop. -/
def lastStop (before : List SessionEvent) : Option Int32 :=
  (before.filterMap SessionEvent.stopStatus?).getLast?

def Begun (before : List SessionEvent) (ticket : Nat) : Prop :=
  ∃ status, .begin status (some ticket) ∈ before

/-- A stop has returned `OK`, and every ticket that `begin` returned is destroyed. -/
def Retirable (before : List SessionEvent) : Prop :=
  .stop Status.ok ∈ before ∧ ∀ ticket, Begun before ticket → .ticket ticket .destroy ∈ before

/-- What must have come before an event of a session, and what may not. -/
def Protocol (before : List SessionEvent) : SessionEvent → Prop
  | .runtimeCall _ => Unstopped before
  | .begin _ none => Unstopped before
  | .begin _ (some ticket) => Unstopped before ∧ ¬ Begun before ticket
  | .ticket ticket _ => .askClientDestroy ∉ before ∧ Begun before ticket
  | .read _ _ | .frameData | .frameSize | .dispatch | .frameRelease => .readerDestroy ∉ before
  | .readerDestroy => .readerDestroy ∉ before ∧ Unstopped before ∧
      before.countP SessionEvent.delivers = before.count .frameRelease
  | .stop _ => .readerDestroy ∈ before ∧ .stop Status.ok ∉ before
  | .askClientDestroy => .askClientDestroy ∉ before ∧ Retirable before
  | .handlesClose => .handlesClose ∉ before ∧ .askClientDestroy ∈ before ∧ Retirable before
  | .runtimeDestroy => .runtimeDestroy ∉ before ∧ .handlesClose ∈ before ∧ Retirable before
  | .libraryClose => .libraryClose ∉ before ∧ .runtimeDestroy ∈ before
  | .retired => .retired ∉ before ∧ .libraryClose ∈ before
  | .closed _ => True

/-! ## The invariant -/

namespace RunnerPc

/-- The reader is destroyed. -/
def pastReader : RunnerPc → Bool
  | .retiring | .departing | .finished => true
  | _ => false

/-- The section of the runner's `defer` is over. -/
def retired : RunnerPc → Bool
  | .departing | .finished => true
  | _ => false

/-- The runner holds a frame it has to release. -/
def holdsFrame : RunnerPc → Bool
  | .answered _ frame | .failing _ frame | .releasing frame _ => frame
  | .examining | .sizing | .dispatching => true
  | _ => false

end RunnerPc

def CallerPc.isAsking : CallerPc → Bool
  | .asking _ _ => true
  | _ => false

/-- The flags under the lock, between its sections and in them. -/
structure Flags (f : SessionFlags) : Prop where
  closing : f.readerRetired = true → f.closing = true
  stopped : f.stopped = true → f.readerRetired = true ∧ f.stopFailure = none
  failure : f.stopFailure.isSome → f.readerRetired = true
  nonzero : f.stopFailure ≠ some Status.ok
  owner : f.failedStopOwner = f.stopFailure.isSome
  runtime : f.runtime = false → f.stopped = true ∧ f.activeAsks = 0

/-- The runner owns the reader and its frames. -/
structure Reader (runner : RunnerPc) (log : List SessionEvent) : Prop where
  destroyed : log.count .readerDestroy = runner.pastReader.toNat
  frames : log.countP SessionEvent.delivers = log.count .frameRelease + runner.holdsFrame.toNat

/-- The stops and the retirement of the native owners. -/
structure Stops (f : SessionFlags) (log : List SessionEvent) : Prop where
  last : lastStop log = if f.stopped then some Status.ok else f.stopFailure
  once : .stop Status.ok ∈ log → f.stopped = true
  retirement : ∀ e ∈ retirement, log.count e = (!f.runtime).toNat

/-- The borrowers own the tickets. -/
structure Borrows (activeAsks : Int) (tickets : Nat) (threads : List CallerPc)
    (log : List SessionEvent) : Prop where
  active : activeAsks = threads.countP CallerPc.isAsking
  bound : activeAsks ≤ 64
  fresh : ∀ ticket, Begun log ticket → ticket < tickets
  /-- A ticket is destroyed, or its owner has still to destroy it. -/
  destroyed : ∀ ticket, Begun log ticket → .ticket ticket .destroy ∈ log ∨
    ∃ rest, .asking ticket rest ∈ threads ∧ .destroy ∈ rest
  asking : ∀ ticket rest, .asking ticket rest ∈ threads → Begun log ticket ∧
    ∃ body, rest = body ++ [.endBorrow] ∧ .endBorrow ∉ body

/-- What holds of a session between its sections and in them. -/
structure SessionInv (s : SessionState) (threads : List CallerPc) : Prop where
  flags : Flags s.toSessionFlags
  retired : s.readerRetired = s.runner.retired
  retirementDone : s.retirementDone = !s.runtime
  reader : Reader s.runner s.log
  stops : Stops s.toSessionFlags s.log
  borrows : Borrows s.activeAsks s.tickets threads s.log
  log : Justified Protocol s.log

/-- A retired runner has attempted a stop. -/
def Attempted (f : SessionFlags) : Prop :=
  f.readerRetired = true → f.stopped = true ∨ f.stopFailure.isSome

/-- A stopped session without borrowers has retired. -/
def Unstranded (f : SessionFlags) : Prop :=
  f.stopped = true → f.activeAsks = 0 → f.runtime = false

/-- Before the session is closing, its reader has not been retired. -/
theorem Flags.not_retired {f : SessionFlags} (h : Flags f) (hclosing : f.closing = false) :
    f.readerRetired = false := by
  by_contra hretired
  rw [h.closing (by simpa using hretired)] at hclosing
  cases hclosing

/-- Before the reader is retired, no stop was tried. -/
theorem Flags.not_stopped {f : SessionFlags} (h : Flags f) (hretired : f.readerRetired = false) :
    f.stopped = false ∧ f.stopFailure = none := by
  constructor
  · by_contra hstopped
    rw [(h.stopped (by simpa using hstopped)).1] at hretired
    cases hretired
  · by_contra hfailure
    rw [h.failure (Option.isSome_iff_ne_none.mpr hfailure)] at hretired
    cases hretired

/-- The runtime is there until a stop is accepted and the last borrower has left. -/
theorem Flags.runtime_of_not_stopped {f : SessionFlags} (h : Flags f) (hstopped : f.stopped = false) :
    f.runtime = true := by
  by_contra hruntime
  rw [(h.runtime (by simpa using hruntime)).1] at hstopped
  cases hstopped

/-- As long as an ask is out, the runtime is there. -/
theorem Flags.runtime_of_asks {f : SessionFlags} (h : Flags f) (hasks : f.activeAsks ≠ 0) :
    f.runtime = true := by
  by_contra hruntime
  exact hasks (h.runtime (by simpa using hruntime)).2

/-! ## The stops in a log -/

section LastStop

variable {log events : List SessionEvent}

/-- Events that are no stops leave the last one what it was. -/
theorem lastStop_append (h : ∀ e ∈ events, e.stopStatus? = none) :
    lastStop (log ++ events) = lastStop log := by
  rw [lastStop, List.filterMap_append, List.filterMap_eq_nil_iff.mpr h, List.append_nil, lastStop]

/-- A stop is the last one right after it. -/
theorem lastStop_stop (status : Int32) : lastStop (log ++ [.stop status]) = some status := by
  rw [lastStop, List.filterMap_append]
  exact List.getLast?_concat

/-- The last stop is in the log. -/
theorem mem_of_lastStop {status : Int32} (h : lastStop log = some status) :
    .stop status ∈ log := by
  have hmem := List.mem_of_getLast? h
  obtain ⟨e, he, hstatus⟩ := List.mem_filterMap.mp hmem
  cases e <;> simp only [SessionEvent.stopStatus?, reduceCtorEq] at hstatus
  rwa [Option.some.inj hstatus] at he

/-- Where there is no last stop there is none. -/
theorem unstopped_of_lastStop (h : lastStop log = none) : Unstopped log := by
  intro status hmem
  have hnone := List.getLast?_eq_none_iff.mp h
  have hin : status ∈ log.filterMap SessionEvent.stopStatus? :=
    List.mem_filterMap.mpr ⟨_, hmem, rfl⟩
  rw [hnone] at hin
  cases hin

end LastStop

/-! ## Events that leave a part alone

Each part of the invariant looks at some events of the log; the others may be appended freely.
-/

section Append

variable {f : SessionFlags} {runner : RunnerPc} {log events : List SessionEvent} {asks : Int}
  {tickets : Nat} {threads : List CallerPc}

theorem count_append_of_notMem {e : SessionEvent} (h : e ∉ events) :
    (log ++ events).count e = log.count e := by
  rw [List.count_append, List.count_eq_zero.mpr h, Nat.add_zero]

/-- What the log says of the reader survives the events of others. -/
theorem Reader.append (h : Reader runner log) (hevents : ∀ e ∈ events, e.isReader = false) :
    Reader runner (log ++ events) := by
  have hnot : ∀ e : SessionEvent, e.isReader = true → e ∉ events := by
    intro e he hmem
    rw [hevents e hmem] at he
    cases he
  have hdelivers : events.countP SessionEvent.delivers = 0 := by
    apply List.countP_eq_zero.mpr
    intro e he hdelivered
    have := hevents e he
    cases e <;> simp_all [SessionEvent.delivers, SessionEvent.isReader]
  constructor
  · rw [count_append_of_notMem (hnot _ rfl), h.destroyed]
  · rw [List.countP_append, hdelivers, count_append_of_notMem (hnot _ rfl), Nat.add_zero, h.frames]

/-- So does what it says of the stops and the retirement. -/
theorem Stops.append (h : Stops f log) (hevents : ∀ e ∈ events, e.isRetiring = false) :
    Stops f (log ++ events) := by
  have hnot : ∀ e : SessionEvent, e.isRetiring = true → e ∉ events := by
    intro e he hmem
    rw [hevents e hmem] at he
    cases he
  constructor
  · rw [lastStop_append, h.last]
    intro e he
    have := hevents e he
    cases e <;> simp_all [SessionEvent.stopStatus?, SessionEvent.isRetiring]
  · intro hmem
    exact h.once ((List.mem_append.mp hmem).resolve_right (hnot _ rfl))
  · intro e he
    have hretiring : e.isRetiring = true := by
      simp only [Session.retirement, List.mem_cons, List.not_mem_nil, or_false] at he
      rcases he with rfl | rfl | rfl | rfl | rfl <;> rfl
    rw [count_append_of_notMem (hnot e hretiring), h.retirement e he]

/-- Only a `begin` begins a ticket. -/
theorem begun_append (hevents : ∀ e ∈ events, e.begins = false) {ticket : Nat} :
    Begun (log ++ events) ticket ↔ Begun log ticket := by
  constructor
  · rintro ⟨status, hmem⟩
    refine ⟨status, (List.mem_append.mp hmem).resolve_right fun hin => ?_⟩
    cases hevents _ hin
  · rintro ⟨status, hmem⟩
    exact ⟨status, List.mem_append_left _ hmem⟩

/-- What the log says of the borrows survives whatever begins no ticket. -/
theorem Borrows.append (h : Borrows asks tickets threads log)
    (hevents : ∀ e ∈ events, e.begins = false) :
    Borrows asks tickets threads (log ++ events) := by
  refine ⟨h.active, h.bound, ?_, ?_, ?_⟩
  · intro ticket hbegun
    exact h.fresh ticket ((begun_append hevents).mp hbegun)
  · intro ticket hbegun
    rcases h.destroyed ticket ((begun_append hevents).mp hbegun) with hdone | howner
    · exact .inl (List.mem_append_left _ hdone)
    · exact .inr howner
  · intro ticket rest hmem
    obtain ⟨hbegun, hrest⟩ := h.asking ticket rest hmem
    exact ⟨(begun_append hevents).mpr hbegun, hrest⟩

end Append

/-! ## The two sections that stop and retire

They are reached from the runner, from the last borrower and from `close`, and have the same
effect on the invariant each time.
-/

section Retire

variable {s : SessionState} {threads : List CallerPc}

/-- **`stopLocked`** keeps the invariant, and leaves a stop attempted if the runner has retired. -/
theorem SessionInv.stopLocked (h : SessionInv s threads) (status : Int32) :
    SessionInv (stopLocked status s) threads ∧ Attempted (stopLocked status s).toSessionFlags := by
  unfold Session.stopLocked
  split
  · next hguard =>
    simp only [Bool.and_eq_true, Bool.not_eq_true'] at hguard
    obtain ⟨⟨hretired, hstopped⟩, hruntime⟩ := hguard
    -- the guard gives what the rule of a stop asks for: no reader, and no accepted stop before
    have hreader : .readerDestroy ∈ s.log := by
      have hdestroyed := h.reader.destroyed
      have hpast : s.runner.pastReader = true := by
        rw [h.retired] at hretired
        revert hretired
        cases s.runner <;> simp [RunnerPc.retired, RunnerPc.pastReader]
      rw [hpast] at hdestroyed
      exact List.count_pos_iff.mp (by rw [hdestroyed]; decide)
    have hnone : .stop Status.ok ∉ s.log := fun hmem => by
      rw [h.stops.once hmem] at hstopped
      cases hstopped
    refine ⟨⟨⟨h.flags.closing, ?_, fun _ => hretired, ?_, ?_, ?_⟩, h.retired, h.retirementDone,
      h.reader.append (by simp [SessionEvent.isReader]), ⟨?_, ?_, ?_⟩,
      h.borrows.append (by simp [SessionEvent.begins]), h.log.concat ⟨hreader, hnone⟩⟩, ?_⟩
    · intro hok
      have hstatus : status = Status.ok := of_decide_eq_true hok
      exact ⟨hretired, if_pos hstatus⟩
    · show (if status = Status.ok then none else some status) ≠ some Status.ok
      split <;> simp_all
    · show decide (status ≠ Status.ok) = (if status = Status.ok then none else some status).isSome
      split <;> simp_all
    · intro hgone
      rw [show s.runtime = false from hgone] at hruntime
      cases hruntime
    · -- the flags say of the last stop what it was answered
      show lastStop (s.log ++ [.stop status]) = if decide (status = Status.ok) then some Status.ok
        else if status = Status.ok then none else some status
      rw [lastStop_stop]
      by_cases hok : status = Status.ok <;> simp [hok]
    · intro hmem
      rcases List.mem_append.mp hmem with hold | hnew
      · exact absurd hold hnone
      · have hsame := SessionEvent.stop.inj (List.mem_singleton.mp hnew)
        exact decide_eq_true hsame.symm
    · intro e he
      show (s.log ++ [SessionEvent.stop status]).count e = (!s.runtime).toNat
      rw [count_append_of_notMem, h.stops.retirement e he]
      intro hmem
      rw [List.mem_singleton.mp hmem] at he
      simp [Session.retirement] at he
    · intro _
      show decide (status = Status.ok) = true ∨
        (if status = Status.ok then none else some status).isSome
      by_cases hok : status = Status.ok <;> simp [hok]
  · next hguard =>
    refine ⟨h, fun hretired => ?_⟩
    cases hstopped : s.stopped
    · -- the guard fails only where a stop was accepted
      have hruntime := h.flags.runtime_of_not_stopped hstopped
      rw [hretired, hstopped, hruntime] at hguard
      exact absurd rfl hguard
    · exact .inl rfl

/-- Before the runner retires, no stop is attempted. -/
theorem SessionInv.unstopped (h : SessionInv s threads) (hretired : s.readerRetired = false) :
    Unstopped s.log := by
  obtain ⟨hstopped, hfailure⟩ := h.flags.not_stopped hretired
  apply unstopped_of_lastStop
  rw [h.stops.last, hstopped, hfailure]
  rfl

/-- A session that may retire may do so later, if nobody got a ticket in between. -/
theorem Retirable.append {log events : List SessionEvent} (h : Retirable log)
    (hevents : ∀ e ∈ events, e.begins = false) : Retirable (log ++ events) := by
  refine ⟨List.mem_append_left _ h.1, fun ticket hbegun => ?_⟩
  exact List.mem_append_left _ (h.2 ticket ((begun_append hevents).mp hbegun))

/-- A stopped session without borrowers has destroyed its tickets. -/
theorem SessionInv.retirable (h : SessionInv s threads) (hstopped : s.stopped = true)
    (hasks : s.activeAsks = 0) : Retirable s.log := by
  have hlast := h.stops.last
  rw [hstopped, if_pos rfl] at hlast
  refine ⟨mem_of_lastStop hlast, fun ticket hbegun => ?_⟩
  refine (h.borrows.destroyed ticket hbegun).resolve_right ?_
  intro ⟨rest, hmem, _⟩
  have hasking : 0 < threads.countP CallerPc.isAsking :=
    List.countP_pos_iff.mpr ⟨_, hmem, rfl⟩
  have hactive := h.borrows.active
  omega

/-- The retirement follows the protocol, each event after the one before it. -/
theorem SessionInv.justified_retirement (h : SessionInv s threads) (hruntime : s.runtime = true)
    (hretirable : Retirable s.log) : Justified Protocol (s.log ++ retirement) := by
  have hnot : ∀ e ∈ retirement, e ∉ s.log := by
    intro e he
    have hcount := h.stops.retirement e he
    rw [hruntime] at hcount
    exact List.count_eq_zero.mp hcount
  have hclient := hnot .askClientDestroy (by decide)
  have hhandles := hnot .handlesClose (by decide)
  have hdestroy := hnot .runtimeDestroy (by decide)
  have hlibrary := hnot .libraryClose (by decide)
  have hretired := hnot .retired (by decide)
  apply h.log.append
  refine .cons ⟨?_, ?_⟩ (.cons ⟨?_, ?_, ?_⟩ (.cons ⟨?_, ?_, ?_⟩ (.cons ⟨?_, ?_⟩
    (.cons ⟨?_, ?_⟩ .nil))))
  -- what the three destroys need is in the old log
  case refine_2 | refine_5 | refine_8 => exact hretirable.append (by simp [SessionEvent.begins])
  all_goals simp [hclient, hhandles, hdestroy, hlibrary, hretired]

/-- **`retireLocked`** keeps the invariant, and leaves no stopped session without borrowers. -/
theorem SessionInv.retireLocked (h : SessionInv s threads) :
    SessionInv (retireLocked s) threads ∧ Unstranded (retireLocked s).toSessionFlags := by
  unfold Session.retireLocked
  split
  · next hguard =>
    simp only [Bool.and_eq_true, decide_eq_true_eq] at hguard
    obtain ⟨⟨⟨hretired, hstopped⟩, hasks⟩, hruntime⟩ := hguard
    refine ⟨⟨⟨h.flags.closing, h.flags.stopped, h.flags.failure, h.flags.nonzero, h.flags.owner,
      fun _ => ⟨hstopped, hasks⟩⟩, h.retired, rfl,
      h.reader.append (by simp [Session.retirement, SessionEvent.isReader]), ⟨?_, ?_, ?_⟩,
      h.borrows.append (by simp [Session.retirement, SessionEvent.begins]),
      h.justified_retirement hruntime (h.retirable hstopped hasks)⟩, fun _ _ => rfl⟩
    · -- no stop among the retiring calls, and each of the five is there once
      show lastStop (s.log ++ retirement) = _
      rw [lastStop_append (by simp [Session.retirement, SessionEvent.stopStatus?])]
      exact h.stops.last
    · intro _
      exact hstopped
    · intro e he
      show (s.log ++ retirement).count e = 1
      have hcount := h.stops.retirement e he
      rw [hruntime] at hcount
      rw [List.count_append, hcount]
      simp only [Session.retirement, List.mem_cons, List.not_mem_nil, or_false] at he
      rcases he with rfl | rfl | rfl | rfl | rfl <;> decide
  · next hguard =>
    -- nothing to retire: the guard fails for the missing runtime only
    refine ⟨h, fun hstopped hasks => ?_⟩
    have hretired := (h.flags.stopped hstopped).1
    simpa [hretired, hstopped, hasks] using hguard

/-- What `retireLocked` leaves to the flags. -/
theorem retireLocked_flags (s : SessionState) :
    (retireLocked s).toSessionFlags = { s.toSessionFlags with
      runtime := (retireLocked s).runtime } := by
  unfold Session.retireLocked
  split <;> rfl

/-- Retiring takes back no attempt at a stop. -/
theorem Attempted.retireLocked (h : Attempted s.toSessionFlags) :
    Attempted (retireLocked s).toSessionFlags := by
  rw [retireLocked_flags]
  exact h

end Retire

end CoAkka.Session
