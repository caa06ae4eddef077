import CoAkkaRuntime.Models
import CoAkkaRuntime.Transition.Pool
import CoAkkaRuntime.Transition.System

/-!
# Lane — `close` and `withLane`

`StreamLane.close`, `FileLane.close` and the `withLane` sections they compete with. The two lanes
run the same code up to the name of the stop operation and the callback roots, which only a
`StreamLane` has (`LaneKind`). Every section between `condition.lock()` and the next `unlock()` or
`wait()` is one atomic step of a thread, and so is every native call outside the condition; the
native stop is a call and a return, with other threads in between and any status.

The library handle of a lane stays open until the lane's `deinit`, so `requireHandle` succeeds.
-/

namespace CoAkka.Lane

open Transition

/-! ## The lane -/

/-- What differs between the two lanes. -/
structure LaneKind where
  /-- The operation `close` names when it throws. -/
  stopOperation : String
  /-- The lane retains callback roots, and `close` detaches them. -/
  callbacks : Bool

def streamLane : LaneKind := ⟨"stream_lane_stop", true⟩

def fileLane : LaneKind := ⟨"file_lane_stop", false⟩

/-- What the threads do to a lane, in order. -/
inductive LaneEvent where
  /-- `withLane` lets a caller in, and the caller leaves. -/
  | admitted
  | exited
  /-- A native call on the lane pointer from a `withLane` body. -/
  | nativeCall
  /-- A `close` sets `closing`. -/
  | closing
  | stopCalled
  | stopReturned (status : Int32)
  | destroyed
  /-- The callback roots leave the lane, and are released after the section. -/
  | detached
  | released
  /-- A `close` that waited for another one returns. -/
  | joined
  /-- Any other `close` returns or throws. -/
  | closed (outcome : Option RuntimeError)
  deriving DecidableEq, Repr

/-- The fields under the condition, and what has happened. -/
structure LaneState where
  closing : Bool := false
  /-- `lane` still holds the native pointer. -/
  lane : Bool := true
  activeCalls : Int := 0
  log : List LaneEvent := []
  deriving DecidableEq, Repr

def LaneState.logged (s : LaneState) (events : List LaneEvent) : LaneState :=
  { s with log := s.log ++ events }

@[simp] theorem LaneState.logged_closing (s : LaneState) (events : List LaneEvent) :
    (s.logged events).closing = s.closing := rfl

@[simp] theorem LaneState.logged_lane (s : LaneState) (events : List LaneEvent) :
    (s.logged events).lane = s.lane := rfl

@[simp] theorem LaneState.logged_activeCalls (s : LaneState) (events : List LaneEvent) :
    (s.logged events).activeCalls = s.activeCalls := rfl

@[simp] theorem LaneState.logged_log (s : LaneState) (events : List LaneEvent) :
    (s.logged events).log = s.log ++ events := rfl

/-- Where a thread is. -/
inductive Pc where
  | idle
  /-- In the body of a `withLane`. -/
  | inside
  /-- `close` has set `closing` and not yet called the native stop. -/
  | stopping
  | inStop
  /-- The native stop has returned; `close` waits for `activeCalls` to drain. -/
  | draining (status : Int32)
  /-- `close` has left its last section. -/
  | finishing (status : Int32)
  /-- `close` has found another one, and waits for the lane to go. -/
  | waiting
  deriving Repr

/-! ## The sections

One definition for each section under the condition, with its branches in the order of the source.
-/

/-- `withLane` up to its body. -/
def withLane (s : LaneState) : LaneState × Pc :=
  if s.closing || !s.lane then (s, .idle)
  else ({ s with activeCalls := s.activeCalls + 1 }.logged [.admitted], .inside)

/-- The `defer` of `withLane`. -/
def exitLane (s : LaneState) : LaneState × Pc :=
  ({ s with activeCalls := s.activeCalls - 1 }.logged [.exited], .idle)

/-- `close` up to its `condition.unlock()`. -/
def close (s : LaneState) : LaneState × Pc :=
  if !s.lane then (s.logged [.closed none], .idle)
  else if s.closing then (s, .waiting)
  else ({ s with closing := true }.logged [.closing], .stopping)

/-- The last section of `close`, once `activeCalls` is zero. -/
def retire (kind : LaneKind) (s : LaneState) : LaneState :=
  { s with lane := false }.logged (.destroyed :: if kind.callbacks then [.detached] else [])

/-- What `close` throws after its last section. -/
def stopFailure (kind : LaneKind) (status : Int32) : Option RuntimeError :=
  if status ≠ Status.ok ∧ status ≠ Status.closed then
    match throwIfNativeError status kind.stopOperation with
    | .ok () => none
    | .error error => some error
  else none

/-- The atomic steps of a thread. -/
inductive LaneAction where
  | withLane
  | nativeCall
  /-- A `withCallbackMutation` section: it takes the condition again inside its borrow, and makes
  its native calls under it. -/
  | callbackMutation (calls : Nat)
  | exitLane
  | close
  | callStop
  | returnStop (status : Int32)
  | retire
  | finish
  /-- `condition.wait()` returns and finds the lane gone. -/
  | wake
  deriving Repr

/-- The step `action` of a thread at `pc`, when it is enabled there. -/
def next (kind : LaneKind) (s : LaneState) (pc : Pc) (action : LaneAction) :
    Option (LaneState × Pc) :=
  match pc, action with
  | .idle, .withLane => some (withLane s)
  | .inside, .nativeCall => some (s.logged [.nativeCall], .inside)
  | .inside, .callbackMutation calls =>
    if kind.callbacks then some (s.logged (List.replicate calls .nativeCall), .inside) else none
  | .inside, .exitLane => some (exitLane s)
  | .idle, .close => some (close s)
  | .stopping, .callStop => some (s.logged [.stopCalled], .inStop)
  | .inStop, .returnStop status => some (s.logged [.stopReturned status], .draining status)
  | .draining status, .retire =>
    if s.activeCalls = 0 then some (retire kind s, .finishing status) else none
  | .finishing status, .finish =>
    some (s.logged ((if kind.callbacks then [.released] else []) ++
      [.closed (stopFailure kind status)]), .idle)
  | .waiting, .wake => if s.lane then none else some (s.logged [.joined], .idle)
  | _, _ => none

/-! ## The runs -/

/-- The step `action` of thread `i`. -/
def laneStep (kind : LaneKind) (p : Pool LaneState Pc) (step : Nat × LaneAction) :
    Option (Pool LaneState Pc) :=
  p.advance (fun s pc => next kind s pc step.2) step.1

/-- Any number of threads over a lane that has just been opened. Each of them may run `withLane`
and `close` any number of times, in any order. -/
def laneSystem (kind : LaneKind) : System (Pool LaneState Pc) (Nat × LaneAction) where
  init p := p.shared = {} ∧ ∀ pc ∈ p.threads, pc = .idle
  step p a p' := laneStep kind p a = some p'

/-- One step of a thread, by what it does. -/
inductive LaneStep (kind : LaneKind) (s : LaneState) : Pc → LaneState → Pc → Prop where
  | refused (h : s.closing = true ∨ s.lane = false) : LaneStep kind s .idle s .idle
  | admitted (hclosing : s.closing = false) (hlane : s.lane = true) :
      LaneStep kind s .idle ({ s with activeCalls := s.activeCalls + 1 }.logged [.admitted]) .inside
  | nativeCalls (calls : Nat) :
      LaneStep kind s .inside (s.logged (List.replicate calls .nativeCall)) .inside
  | exited :
      LaneStep kind s .inside ({ s with activeCalls := s.activeCalls - 1 }.logged [.exited]) .idle
  | closedBefore (hlane : s.lane = false) : LaneStep kind s .idle (s.logged [.closed none]) .idle
  | waits (hlane : s.lane = true) (hclosing : s.closing = true) : LaneStep kind s .idle s .waiting
  | closes (hlane : s.lane = true) (hclosing : s.closing = false) :
      LaneStep kind s .idle ({ s with closing := true }.logged [.closing]) .stopping
  | stopCalled : LaneStep kind s .stopping (s.logged [.stopCalled]) .inStop
  | stopReturned (status : Int32) :
      LaneStep kind s .inStop (s.logged [.stopReturned status]) (.draining status)
  | retired (status : Int32) (hdrained : s.activeCalls = 0) :
      LaneStep kind s (.draining status) (retire kind s) (.finishing status)
  | finished (status : Int32) :
      LaneStep kind s (.finishing status) (s.logged ((if kind.callbacks then [.released] else []) ++
        [.closed (stopFailure kind status)])) .idle
  | joined (hlane : s.lane = false) : LaneStep kind s .waiting (s.logged [.joined]) .idle

/-- Entering a lane is a step of the protocol. -/
theorem LaneStep.withLane (kind : LaneKind) (s : LaneState) :
    LaneStep kind s .idle (withLane s).1 (withLane s).2 := by
  unfold Lane.withLane
  split
  · next hclosed => exact .refused (by simpa using hclosed)
  · next hopen =>
    obtain ⟨hclosing, hlane⟩ : s.closing = false ∧ s.lane = true := by simpa using hopen
    exact .admitted hclosing hlane

/-- So is entering its `close`. -/
theorem LaneStep.close (kind : LaneKind) (s : LaneState) :
    LaneStep kind s .idle (close s).1 (close s).2 := by
  unfold Lane.close
  split
  · next hlane => exact .closedBefore (by simpa using hlane)
  · next hlane =>
    split
    · next hclosing => exact .waits (by simpa using hlane) hclosing
    · next hclosing => exact .closes (by simpa using hlane) (by simpa using hclosing)

/-- **Every step of an activity is a step of the protocol.** This is the inversion that the
invariant rests on. -/
theorem laneStep_of_next {kind : LaneKind} {s s' : LaneState} {pc pc' : Pc} {action : LaneAction}
    (h : next kind s pc action = some (s', pc')) : LaneStep kind s pc s' pc' := by
  unfold next at h
  split at h
  · obtain ⟨rfl, rfl⟩ := Prod.mk.inj (Option.some.inj h)
    exact .withLane kind s
  · cases h
    exact .nativeCalls 1
  · split at h
    · cases h
      exact .nativeCalls _
    · cases h
  · cases h
    exact .exited
  · obtain ⟨rfl, rfl⟩ := Prod.mk.inj (Option.some.inj h)
    exact .close kind s
  · cases h
    exact .stopCalled
  · cases h
    exact .stopReturned _
  · split at h
    · next hdrained =>
      cases h
      exact .retired _ hdrained
    · cases h
  · cases h
    exact .finished _
  · split at h
    · cases h
    · next hlane =>
      cases h
      exact .joined (by simpa using hlane)
  · cases h

end CoAkka.Lane
