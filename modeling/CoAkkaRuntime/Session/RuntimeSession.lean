import CoAkkaRuntime.Session.AskTicket
import CoAkkaRuntime.Transition.Pool
import CoAkkaRuntime.Transition.System

/-!
# Session — `RuntimeSession`

`RuntimeSession` of `RuntimeSession.swift`: the request runner, the callers of `withOpen`, `begin`,
`requestRetirement` and `close`, and the borrowers of ask tickets. Every section under `lock` is
one atomic step, with the native calls it makes inside; every native call outside the lock is a
step of its own. What Core answers is part of the step, and any answer is possible.

A caller is one activity, not one thread of the operating system: a ticket that is handed to
another thread, or an ask from a request handler, is another activity.
-/

namespace CoAkka.Session

open Transition

/-! ## The session -/

/-- A native call that `withOpen` makes on the runtime. -/
inductive RuntimeCall where
  | getter
  | submit
  | apply
  deriving DecidableEq, Repr

/-- The native calls of a session, in order, and the outcomes of `close`. Tickets are named in the
order in which `begin` returned them. -/
inductive SessionEvent where
  | runtimeCall (call : RuntimeCall)
  | begin (status : Int32) (ticket : Option Nat)
  | ticket (ticket : Nat) (event : TicketEvent)
  | read (status : Int32) (frame : Bool)
  | frameData
  | frameSize
  | dispatch
  | frameRelease
  | readerDestroy
  | stop (status : Int32)
  | askClientDestroy
  | handlesClose
  | runtimeDestroy
  | libraryClose
  /-- `retirementDone.leave()`. -/
  | retired
  | closed (failure : Option RuntimeError)
  deriving DecidableEq, Repr

/-- Where the request runner is. -/
inductive RunnerPc where
  /-- At `while !isClosing`. -/
  | checking
  | reading
  | answered (status : Int32) (frame : Bool)
  /-- Core answered with a frame: its bytes, its size, and its dispatch. -/
  | examining
  | sizing
  | dispatching
  /-- About to record why the loop ends. -/
  | failing (failure : RuntimeError) (frame : Bool)
  /-- At the end of an iteration, which releases the frame. -/
  | releasing (frame : Bool) (again : Bool)
  /-- In the `defer`: before the reader's destroy, before the section, before the leave. -/
  | leaving
  | retiring
  | departing
  | finished
  deriving Repr

/-- The fields that `lock` guards. -/
structure SessionFlags where
  closing : Bool := false
  readerRetired : Bool := false
  stopped : Bool := false
  activeAsks : Int := 0
  stopFailure : Option Int32 := none
  failedStopOwner : Bool := false
  /-- `runtime` still holds the native pointer. -/
  runtime : Bool := true
  deriving DecidableEq, Repr

structure SessionState extends SessionFlags where
  readFailure : Option RuntimeError := none
  /-- `closeLock` is held. -/
  closeLock : Bool := false
  /-- The two groups have been left. -/
  readerDone : Bool := false
  retirementDone : Bool := false
  runner : RunnerPc := .checking
  tickets : Nat := 0
  log : List SessionEvent := []
  deriving Repr

def SessionState.logged (s : SessionState) (events : List SessionEvent) : SessionState :=
  { s with log := s.log ++ events }

/-! ## The sections

What is done under `lock`, as functions of the state.
-/

def requireOpenLocked (s : SessionState) : Except RuntimeError Unit :=
  if !s.closing && s.runtime then .ok () else .error .closed

/-- `withOpen`, with the native calls of its operation and how that ends. -/
def withOpen (operation : List RuntimeCall × Except RuntimeError Unit) (s : SessionState) :
    Except RuntimeError Unit × SessionState :=
  match requireOpenLocked s with
  | .error error => (.error error, s)
  | .ok () => (operation.2, s.logged (operation.1.map .runtimeCall))

/-- The out-parameter of `coakka_swift_ask_client_begin` (whether it is a ticket) and its status. -/
structure BeginAnswer where
  status : Int32
  ticket : Bool
  deriving DecidableEq, Repr

def begin (answer : BeginAnswer) (s : SessionState) : Except RuntimeError Nat × SessionState :=
  match requireOpenLocked s with
  | .error error => (.error error, s)
  | .ok () =>
    if s.activeAsks < 64 then
      match throwIfNativeError answer.status "begin ask" with
      | .error error => (.error error, s.logged [.begin answer.status none])
      | .ok () =>
        if answer.ticket then
          (.ok s.tickets, { s with activeAsks := s.activeAsks + 1, tickets := s.tickets + 1 }.logged
            [.begin answer.status (some s.tickets)])
        else
          (.error (.contractViolation "Core returned success without an ask ticket"),
            s.logged [.begin answer.status none])
    else (.error (.resourceLimit "64 active asks exhausted"), s)

def requestRetirement (s : SessionState) : SessionState := { s with closing := true }

/-- `stopLocked`, where Core answers `status` if it is called. -/
def stopLocked (status : Int32) (s : SessionState) : SessionState :=
  if s.readerRetired && !s.stopped && s.runtime then
    { s with
      stopFailure := if status = Status.ok then none else some status
      stopped := status = Status.ok
      failedStopOwner := status ≠ Status.ok }.logged [.stop status]
  else s

/-- What `retireLocked` does, in this order. -/
def retirement : List SessionEvent :=
  [.askClientDestroy, .handlesClose, .runtimeDestroy, .libraryClose, .retired]

def retireLocked (s : SessionState) : SessionState :=
  if s.readerRetired && s.stopped && s.activeAsks = 0 && s.runtime then
    { s with runtime := false, retirementDone := true }.logged retirement
  else s

/-- `endBorrow` for the ticket `ticket`. -/
def endBorrow (ticket : Nat) (s : SessionState) : SessionState :=
  retireLocked ({ s with activeAsks := s.activeAsks - 1 }.logged [.ticket ticket .endBorrow])

/-- The locked section of `close`. -/
def stopAndRetire (status : Int32) (s : SessionState) : SessionState :=
  if s.stopped then s else retireLocked (stopLocked status s)

/-! ## The request runner

One native call a step, and the looks at the flags between them.
-/

/-- The branches on the answer of `coakka_swift_request_reader_read`. -/
def afterRead (status : Int32) (frame : Bool) : RunnerPc :=
  if status = Status.wouldBlock then .releasing frame true
  else if status = Status.closed then .releasing frame false
  else if status = Status.ok then
    if frame then .examining
    else .failing (.contractViolation "Core returned success without readable frame bytes") false
  else .failing (.nativeStatus status "read delivered request") frame

/-- The `guard` on the frame's bytes. -/
def afterData (readable : Bool) : RunnerPc :=
  if readable then .sizing
  else .failing (.contractViolation "Core returned success without readable frame bytes") true

/-- The `guard` on the frame's size. -/
def afterSize (size : Int64) : RunnerPc :=
  if 0 < size then .dispatching
  else .failing (.contractViolation "Core returned an empty delivered frame") true

inductive RunnerAction where
  | check
  | read (status : Int32) (frame : Bool)
  | inspect
  | data (readable : Bool)
  | size (size : Int64)
  | dispatch
  | fail
  | release
  | destroyReader
  | retire (status : Int32)
  | leave
  deriving Repr

/-- The step `action` of the runner, when it is enabled. -/
def runnerStep (s : SessionState) (action : RunnerAction) : Option SessionState :=
  match s.runner, action with
  | .checking, .check => some { s with runner := if s.closing then .leaving else .reading }
  | .reading, .read status frame =>
    some ({ s with runner := .answered status frame }.logged [.read status frame])
  | .answered status frame, .inspect => some { s with runner := afterRead status frame }
  | .examining, .data readable => some ({ s with runner := afterData readable }.logged [.frameData])
  | .sizing, .size size => some ({ s with runner := afterSize size }.logged [.frameSize])
  | .dispatching, .dispatch =>
    some ({ s with runner := .releasing true true }.logged [.dispatch])
  | .failing failure frame, .fail =>
    some { s with readFailure := some failure, runner := .releasing frame false }
  | .releasing frame again, .release =>
    some ({ s with runner := if again then .checking else .leaving }.logged
      (if frame then [.frameRelease] else []))
  | .leaving, .destroyReader => some ({ s with runner := .retiring }.logged [.readerDestroy])
  | .retiring, .retire status =>
    some (retireLocked (stopLocked status
      { s with readerRetired := true, closing := true, runner := .departing }))
  | .departing, .leave => some { s with readerDone := true, runner := .finished }
  | _, _ => none

/-! ## The callers -/

/-- Where a caller is. -/
inductive CallerPc where
  | idle
  /-- The owner of a ticket, with what its `awaitResult` still does. -/
  | asking (ticket : Nat) (rest : List TicketEvent)
  /-- In `close`, which holds `closeLock`. -/
  | requesting
  | joiningReader
  | stopping
  | joiningBorrowers
  | leaving (failure : Option RuntimeError)
  deriving Repr

inductive CallerAction where
  | withOpen (operation : List RuntimeCall × Except RuntimeError Unit)
  /-- `begin`, and the `awaitResult` that uses the ticket. -/
  | begin (answer : BeginAnswer) (messageID : String) (call : AskCall)
  | ask
  | requestRetirement
  | close (onQueue : Bool)
  | request
  /-- The end of a wait of `close`: the group was left, or the second is over. -/
  | joinReader (joined : Bool)
  | stop (status : Int32)
  | joinBorrowers (joined : Bool)
  | leave

/-- The rest of an `awaitResult`. -/
def CallerPc.awaiting (ticket : Nat) : List TicketEvent → CallerPc
  | [] => .idle
  | rest => .asking ticket rest

/-- The step `action` of a caller at `pc`, when it is enabled there. -/
def callerStep (s : SessionState) (pc : CallerPc) (action : CallerAction) :
    Option (SessionState × CallerPc) :=
  match pc, action with
  | .idle, .withOpen operation => some ((withOpen operation s).2, .idle)
  | .idle, .begin answer messageID call =>
    match begin answer s with
    | (.ok ticket, s') => some (s', .awaiting ticket (runAwait messageID false call).2.trace)
    | (.error _, s') => some (s', .idle)
  | .asking ticket (.endBorrow :: rest), .ask =>
    some (endBorrow ticket s, .awaiting ticket rest)
  | .asking ticket (event :: rest), .ask =>
    some (s.logged [.ticket ticket event], .awaiting ticket rest)
  | .idle, .requestRetirement => some (requestRetirement s, .idle)
  | .idle, .close onQueue =>
    if onQueue then
      some (s.logged [.closed (some (.shutdown "close from a request handler is not permitted"))],
        .idle)
    else if s.closeLock then
      some (s.logged [.closed (some (.shutdown "close already in progress"))], .idle)
    else some ({ s with closeLock := true }, .requesting)
  | .requesting, .request => some (requestRetirement s, .joiningReader)
  | .joiningReader, .joinReader joined =>
    if joined then (if s.readerDone then some (s, .stopping) else none)
    else some (s, .leaving (some
      (.shutdown "request runner did not join within 1000 ms; native owners retained")))
  | .stopping, .stop status =>
    let s' := stopAndRetire status s
    match s'.stopFailure with
    | some failure =>
      some (s', .leaving (some (.nativeStatus failure "stop runtime; native owners retained")))
    | none => some (s', .joiningBorrowers)
  | .joiningBorrowers, .joinBorrowers joined =>
    if joined then (if s.retirementDone then some (s, .leaving none) else none)
    else some (s, .leaving (some
      (.shutdown "ask borrowers did not retire within 1000 ms; native owners retained")))
  | .leaving failure, .leave =>
    some ({ s with closeLock := false }.logged [.closed failure], .idle)
  | _, _ => none

/-! ## The runs -/

inductive SessionAction where
  | runner (action : RunnerAction)
  | caller (i : Nat) (action : CallerAction)

def sessionStep (p : Pool SessionState CallerPc) :
    SessionAction → Option (Pool SessionState CallerPc)
  | .runner action => (runnerStep p.shared action).map fun s => ⟨s, p.threads⟩
  | .caller i action => p.advance (fun s pc => callerStep s pc action) i

/-- A session whose runner has just been queued, and any number of callers. -/
def sessionSystem : System (Pool SessionState CallerPc) SessionAction where
  init p := p.shared = {} ∧ ∀ pc ∈ p.threads, pc = .idle
  step p a p' := sessionStep p a = some p'

end CoAkka.Session
