import CoAkkaRuntime.Stream.RootsKept
import CoAkkaRuntime.Transition.Pool
import CoAkkaRuntime.Transition.System

/-!
# Lane — where callback roots are released

The methods of `StreamLane` that touch callback roots, with the condition, the borrow count and the
references each of them has: the holder it was called with, the list of retired objects, and the
local variables of the statement it is at. Releasing the last reference to a root runs the
application's `deinit`, which may call any method of the lane again on the same thread, `close`
included; so a thread is a stack of activations. A mutation runs statement by statement under the
condition, while the other threads go on.

A `cancel` or `forget` whose session id is no C string throws before it comes near the lane, and is
no operation here.
-/

namespace CoAkka.Lane

open CoAkka.Stream Throwing Transition

/-! ## Operations -/

/-- What `requireLaneOwnerGrants`, the storage of the strings and Core answer to one admission. -/
structure AdmissionAnswers (K : Type) where
  checks : Except RuntimeError Unit
  call : Except RuntimeError Int32
  presence : K → Int32
  presence' : K → Int32

inductive Operation (K Root : Type) where
  /-- `preparePublish`, `preparePublishGrant` and `subscribe`, which name what Core refused. -/
  | admission (key : K) (root : Root) (operation : String) (answers : AdmissionAnswers K)
  /-- `cancel` and `forget`, and what Core answers. -/
  | control (key : K) (forget : Bool) (status : Int32)
  /-- A method that only borrows the lane. -/
  | borrow
  | close

/-- The reference an operation has to the root it was called with. -/
def Operation.holder {K Root : Type} : Operation K Root → Option Root
  | .admission _ root _ _ => some root
  | _ => none

def Operation.isClose {K Root : Type} : Operation K Root → Bool
  | .close => true
  | _ => false

section Methods

variable {K I Root : Type} {ident : K → I} [DecidableEq I]

/-- What an operation does to the owners while it holds the condition. -/
def Operation.body : Operation K Root → Steps RuntimeError (MutationFrame ident Root) Unit
  | .admission key root operation answers => do
    Steps.ofExcept answers.checks
    let status ← admitSteps key root answers.call answers.presence answers.presence'
    Steps.ofExcept (throwIfNativeError status operation)
  | .control key forget status => do
    Steps.ofExcept (throwIfNativeError status "stream_lane_control")
    if forget then retireSteps key
  | .borrow => pure ()
  | .close => detachSteps

/-! ## The lane and its threads

A thread is a stack of operations, the topmost of which runs; the others are letting go of what
they refer to.
-/

/-- The fields of a lane, and the thread that holds its condition. -/
structure CallbackLane {K I : Type} (ident : K → I) (Root : Type) where
  closing : Bool := false
  lane : Bool := true
  activeCalls : Int := 0
  condition : Option Nat := none
  owners : StreamCallbackOwners ident Root
  retiredKeys : List K := []

/-- Where an operation is. -/
inductive Position {K I : Type} (ident : K → I) (Root : Type) where
  | entering
  /-- In the body of `withLane`, without the condition. -/
  | borrowing
  /-- Under the condition, inside a borrow or in the last section of `close`, with what is left of
  the body to run. -/
  | locked (borrowed : Bool) (rest : Steps RuntimeError (MutationFrame ident Root) Unit)
  /-- `withLane` is about to give the borrow back. -/
  | unlocked
  /-- Out of the lane; what the operation refers to is released. -/
  | leaving
  /-- `close`: in the native stop, waiting for the borrows, waiting for another `close`. -/
  | stopping
  | draining
  | waiting

/-- One call of an operation. -/
structure Activation {K I : Type} (ident : K → I) (Root : Type) where
  operation : Operation K Root
  position : Position ident Root
  holder : Option Root
  retired : List Nat
  locals : List Nat
  calls : Nat

namespace Activation

variable (act : Activation ident Root)

/-- `activeCalls` counts the operation. -/
def counted : Bool :=
  match act.position with
  | .borrowing | .unlocked => true
  | .locked borrowed _ => borrowed
  | _ => false

/-- What the operation's statements work on. -/
def frame (s : CallbackLane ident Root) : MutationFrame ident Root :=
  ⟨s.owners, s.retiredKeys, act.retired, act.locals, act.calls⟩

/-- The operation after a statement has left `f`. -/
def after (f : MutationFrame ident Root) (position : Position ident Root) : Activation ident Root :=
  { act with position, retired := f.retired, locals := f.locals, calls := f.calls }

end Activation

def CallbackLane.put (s : CallbackLane ident Root) (f : MutationFrame ident Root) :
    CallbackLane ident Root :=
  { s with owners := f.owners, retiredKeys := f.retiredKeys }

inductive ThreadAction (K Root : Type) where
  | call (operation : Operation K Root)
  | proceed

/-- The next step of the operation on top of thread `i`, which may have to wait. -/
def Activation.proceed (i : Nat) (s : CallbackLane ident Root) (act : Activation ident Root) :
    Option (CallbackLane ident Root × Option (Activation ident Root)) :=
  match act.position with
  | .entering =>
    -- the condition is not reentrant: whoever finds it taken waits, its own holder too
    if s.condition.isSome then none
    else if act.operation.isClose then
      -- a second `close` waits for the first, and one after it has nothing to do
      if !s.lane then some (s, some { act with position := .leaving })
      else if s.closing then some (s, some { act with position := .waiting })
      else some ({ s with closing := true }, some { act with position := .stopping })
    -- `withLane` throws `closed`
    else if s.closing || !s.lane then some (s, some { act with position := .leaving })
    else some ({ s with activeCalls := s.activeCalls + 1 }, some { act with position := .borrowing })
  | .borrowing =>
    match act.operation with
    -- what does not touch the owners stays off the condition
    | .borrow => some (s, some { act with position := .unlocked })
    | operation =>
      if s.condition.isSome then none
      else some ({ s with condition := some i }, some { act with position := .locked true operation.body })
  | .locked borrowed (.next statement rest) =>
    -- one statement at a time, so that other threads run between two of them
    let f := statement (act.frame s)
    some (s.put f, some (act.after f (.locked borrowed (rest f))))
  | .locked true (.ret _) => some ({ s with condition := none }, some { act with position := .unlocked })
  | .locked false (.ret _) =>
    some ({ s with condition := none, lane := false }, some { act with position := .leaving })
  | .unlocked =>
    if s.condition.isSome then none
    else some ({ s with activeCalls := s.activeCalls - 1 }, some { act with position := .leaving })
  | .leaving =>
    match act.retired, act.holder with
    -- the `retired` list goes first, then the root the caller was called with
    | _ :: retired, _ => some (s, some { act with retired })
    | [], some _ => some (s, some { act with holder := none })
    | [], none => some (s, none)
  | .stopping => some (s, some { act with position := .draining })
  | .draining =>
    -- `while activeCalls != 0 { condition.wait() }`
    if s.condition.isSome || s.activeCalls != 0 then none
    else some ({ s with condition := some i }, some { act with position := .locked false act.operation.body })
  | .waiting =>
    if s.condition.isSome || s.lane then none else some (s, some { act with position := .leaving })

/-- Application code runs: outside every operation, or in a `deinit` that an operation's releases
have started. -/
def runsApplication : List (Activation ident Root) → Bool
  | [] => true
  | act :: _ =>
    match act.position with
    | .leaving => true
    | _ => false

/-- The operation that has just been called. -/
def Operation.start (operation : Operation K Root) : Activation ident Root :=
  ⟨operation, .entering, operation.holder, [], [], 0⟩

/-- A step of thread `i`, whose operations are `stack`. -/
def threadStep (i : Nat) (s : CallbackLane ident Root) (stack : List (Activation ident Root)) :
    ThreadAction K Root → Option (CallbackLane ident Root × List (Activation ident Root))
  | .call operation => if runsApplication stack then some (s, operation.start :: stack) else none
  | .proceed =>
    match stack with
    | [] => none
    | act :: below => (act.proceed i s).map fun r => (r.1, r.2.toList ++ below)

/-- A lane that has just been opened, and any number of threads that call its methods. -/
def callbackRoots (ident : K → I) (Root : Type) :
    System (Pool (CallbackLane ident Root) (List (Activation ident Root)))
      (Nat × ThreadAction K Root) where
  init p := (∃ capacity owners, StreamCallbackOwners.init capacity = .ok owners ∧
    p.shared = { owners }) ∧ ∀ stack ∈ p.threads, stack = []
  step p a p' := p.advance (fun s stack => threadStep a.1 s stack a.2) a.1 = some p'

end Methods

end CoAkka.Lane
