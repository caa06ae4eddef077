import CoAkkaRuntime.Models
import CoAkkaRuntime.Throwing.Exec

/-!
# Session — `NativeAskTicket`

`NativeAskTicket.awaitResult` of `RuntimeHostClient.swift`, with its three `defer` blocks. The
owner of the ticket runs alone, but another thread may cancel at any moment: between two steps of
the owner the schedule of the call decides whether `RuntimeCancellation.cancel` runs. What Core
answers is part of the call too, so one `AskCall` fixes everything a run depends on, and the
theorems range over all of them.
-/

namespace CoAkka.Session

open Throwing

/-! ## What a call meets -/

/-- An address Core handed out. -/
abbrev Address := Nat

/-- The out-parameters of `coakka_swift_ask_ticket_await` and its status. Swift imports the C
`size_t` as `Int`, so a size may be negative. -/
structure AwaitAnswer where
  status : Int32
  kind : UInt32
  wire : Option Address
  size : Int64
  deriving DecidableEq, Repr

/-- The out-parameters of `coakka_swift_copy_envelope_payload` and its status. -/
structure CopyAnswer where
  status : Int32
  payload : Option Address
  length : Int64
  deriving DecidableEq, Repr

/-- One call of `awaitResult`: its arguments, what Core answers, the native memory behind the
buffers, and before which steps of the owner another thread calls `cancel()` on the
`cancellation` argument. -/
structure AskCall where
  timeoutMs : UInt32
  payloadOnly : Bool
  cancellation : Option (Nat → Bool)
  await : AwaitAnswer
  copy : CopyAnswer
  memory : Address → UInt8

/-- Whether another thread's `cancel()` runs right before the owner's step `n`. -/
def AskCall.cancelsAt (call : AskCall) (n : Nat) : Bool :=
  match call.cancellation with
  | some schedule => schedule n
  | none => false

/-- The native calls of `awaitResult`, and the `endBorrow` of its session. An await is two
events: it is in progress in between. -/
inductive TicketEvent where
  | cancel
  | awaitStart (timeoutMs : UInt32)
  | awaitReturn (answer : AwaitAnswer)
  | copyPayload (wire : Option Address) (size : Int64) (mode : UInt32) (answer : CopyAnswer)
  | bytesRelease (buffer : Option Address)
  | destroy
  | endBorrow
  deriving DecidableEq, Repr

inductive AskFailure where
  | runtime (error : RuntimeError)
  | cancellation
  deriving DecidableEq, Repr

structure NativeAskResult where
  kind : UInt32
  bytes : Data
  deriving DecidableEq

/-! ## The ticket's state -/

/-- The ticket's `consumed`, the flag of the `RuntimeCancellation`, and what the owner has done. -/
structure TicketState where
  consumed : Bool := false
  cancelled : Bool := false
  clock : Nat := 0
  trace : List TicketEvent := []

abbrev TicketM := ExceptT AskFailure (StateM TicketState)

/-- The other thread's chance to run, in front of every step of the owner. -/
def interleave (call : AskCall) : StateM TicketState Unit :=
  modify fun s => { s with
    cancelled := s.cancelled || call.cancelsAt s.clock
    clock := s.clock + 1 }

/-- One native call of the owner. -/
def native (call : AskCall) (event : TicketEvent) : StateM TicketState Unit := do
  interleave call
  modify fun s => { s with trace := s.trace ++ [event] }

/-- `cancellation?.isCancelled == true`. -/
def isCancelled (call : AskCall) : StateM TicketState Bool := do
  interleave call
  return (← get).cancelled

/-! ## `awaitResult` -/

/-- `COAKKA_SWIFT_CLIENT_RESULT_RESPONSE`. -/
def clientResultResponse : UInt32 := 1

/-- `copyNativeBytes`: `count` bytes from `pointer` on. -/
def copyNativeBytes (memory : Address → UInt8) (pointer : Option Address) (count : Int64) :
    Except RuntimeError Data :=
  if 0 ≤ count.toInt ∧ (count.toInt = 0 ∨ pointer.isSome) then
    .ok ⟨(List.range count.toInt.toNat).map fun i => memory (pointer.getD 0 + i), by
      have := Int64.toInt_lt count
      rw [List.length_map, List.length_range]
      omega⟩
  else
    .error (.contractViolation "invalid native byte span")

/-- `try`: an error of the connector ends the call. -/
def attempt {α : Type} (x : Except RuntimeError α) : TicketM α :=
  match x with
  | .ok a => pure a
  | .error error => throw (.runtime error)

def awaitResult (messageID : String) (call : AskCall) : TicketM NativeAskResult := do
  if (← get).consumed then
    throw (.runtime (.contractViolation "ask ticket already consumed"))
  modify fun s => { s with consumed := true }
  deferring (do native call .destroy; native call .endBorrow) do
    if ← isCancelled call then
      native call .cancel
      throw .cancellation
    let answer := call.await
    deferring (native call (.bytesRelease answer.wire)) do
      native call (.awaitStart call.timeoutMs)
      native call (.awaitReturn answer)
      if answer.status ≠ Status.ok ∧ answer.status ≠ Status.wouldBlock then
        attempt (throwIfNativeError answer.status "await ask")
      if ← isCancelled call then
        native call .cancel
        throw .cancellation
      if answer.status = Status.wouldBlock then
        throw (.runtime (.timeout messageID))
      if call.payloadOnly ∧ answer.kind = clientResultResponse then
        let copy := call.copy
        deferring (native call (.bytesRelease copy.payload)) do
          native call (.copyPayload answer.wire answer.size 2 copy)
          attempt (throwIfNativeError copy.status "copy response payload")
          return ⟨answer.kind, ← attempt (copyNativeBytes call.memory copy.payload copy.length)⟩
      else
        return ⟨answer.kind, ← attempt (copyNativeBytes call.memory answer.wire answer.size)⟩

/-- A run of `awaitResult`: its outcome and the native calls it made. The flag and the clock
belong to the call; `consumed` stays with the ticket. -/
def runAwait (messageID : String) (consumed : Bool) (call : AskCall) :
    Except AskFailure NativeAskResult × TicketState :=
  exec (awaitResult messageID call) { consumed }

/-- Any number of calls on one ticket, one after the other. -/
def runAwaits (messageID : String) :
    Bool → List AskCall → List (Except AskFailure NativeAskResult × List TicketEvent)
  | _, [] => []
  | consumed, call :: calls =>
    let (outcome, state) := runAwait messageID consumed call
    (outcome, state.trace) :: runAwaits messageID state.consumed calls

end CoAkka.Session
