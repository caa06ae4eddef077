import CoAkkaRuntime.Session.AskTicket
import Mathlib.Data.List.Basic

/-!
# Session — the ask ticket's protocol and outcome

Every run of `awaitResult` takes one of seven ways out (`AwaitRun`). Each of them ends with the
ticket's destroy and the return of its borrow, whatever Core answered and whenever the other
thread cancelled, and releases what Core handed out before that.

* `AskCall.Steps` — the ways out, with the events of each.
* `runAwait_first` — the run of a fresh ticket takes one of them, `runAwait_consumed` that every
  later call is refused.
* `AskCall.Steps.protocol` — what holds of each way, one case per way.
* `awaitResult_protocol_and_outcome` — for any schedule of the cancel, any answers and any number of
  calls.
-/

namespace CoAkka.Session

open Throwing

/-! ## The ways out of `awaitResult` -/

/-- Another thread has cancelled by the owner's step `n`. Step 0 is the first look at the flag,
steps 1 and 2 are the start and the return of the await, step 3 is the second look. -/
def AskCall.cancelledBy (call : AskCall) (n : Nat) : Bool :=
  (List.range (n + 1)).any call.cancelsAt

/-- The result of an await that neither failed nor was cancelled. -/
def AskCall.delivered (call : AskCall) : Except AskFailure NativeAskResult :=
  if call.payloadOnly ∧ call.await.kind = clientResultResponse then
    if call.copy.status = Status.ok then
      match copyNativeBytes call.memory call.copy.payload call.copy.length with
      | .ok bytes => .ok ⟨call.await.kind, bytes⟩
      | .error error => .error (.runtime error)
    else
      .error (.runtime (.nativeStatus call.copy.status "copy response payload"))
  else
    match copyNativeBytes call.memory call.await.wire call.await.size with
    | .ok bytes => .ok ⟨call.await.kind, bytes⟩
    | .error error => .error (.runtime error)

/-- The outcome law of a first `awaitResult`: which of the competing reasons wins. -/
def AskCall.outcome (call : AskCall) (messageID : String) : Except AskFailure NativeAskResult :=
  if call.cancelledBy 0 then .error .cancellation
  else if call.await.status ≠ Status.ok ∧ call.await.status ≠ Status.wouldBlock then
    .error (.runtime (.nativeStatus call.await.status "await ask"))
  else if call.cancelledBy 3 then .error .cancellation
  else if call.await.status = Status.wouldBlock then .error (.runtime (.timeout messageID))
  else call.delivered

/-- The await and its return. -/
def AskCall.awaited (call : AskCall) : List TicketEvent :=
  [.awaitStart call.timeoutMs, .awaitReturn call.await]

/-- What is released on the way out of an await, up to the borrow. -/
def AskCall.leaving (call : AskCall) : List TicketEvent :=
  [.bytesRelease call.await.wire, .destroy, .endBorrow]

/-- What `awaitResult` does between taking the ticket and giving it up. -/
inductive AskCall.Steps (call : AskCall) : List TicketEvent → Prop where
  | cancelledBefore (h : call.cancelledBy 0 = true) : Steps call [.cancel, .destroy, .endBorrow]
  | awaited (h : call.cancelledBy 0 = false) : Steps call (call.awaited ++ call.leaving)
  | cancelledAfter (h : call.cancelledBy 0 = false) :
      Steps call (call.awaited ++ .cancel :: call.leaving)
  | copied (h : call.cancelledBy 0 = false) :
      Steps call (call.awaited ++ .copyPayload call.await.wire call.await.size 2 call.copy ::
        .bytesRelease call.copy.payload :: call.leaving)

/-! ## Evaluating a run

The rules by which a run of the ticket's monad is computed, cancellations included.
-/

section Run

variable (call : AskCall) (s : TicketState)

/-- A native call leaves its event and advances the clock; a `cancel` of another thread may come
before it. -/
@[simp] theorem run_native (event : TicketEvent) :
    (native call event).run s = ((), { s with
      cancelled := s.cancelled || call.cancelsAt s.clock
      clock := s.clock + 1
      trace := s.trace ++ [event] }) := rfl

/-- The same, in front of the rest of a method. -/
@[simp high] theorem run_native_bind {α : Type} (event : TicketEvent) (k : Unit → StateM TicketState α) :
    (native call event >>= k).run s = (k ()).run { s with
      cancelled := s.cancelled || call.cancelsAt s.clock
      clock := s.clock + 1
      trace := s.trace ++ [event] } := rfl

/-- A look at the flag is a step of its own. -/
@[simp] theorem run_isCancelled :
    (isCancelled call).run s = (s.cancelled || call.cancelsAt s.clock, { s with
      cancelled := s.cancelled || call.cancelsAt s.clock
      clock := s.clock + 1 }) := rfl

@[simp] theorem attempt_ok {α : Type} (a : α) : attempt (.ok a) = pure a := rfl

@[simp] theorem attempt_error {α : Type} (error : RuntimeError) :
    (attempt (.error error) : TicketM α) = throw (.runtime error) := rfl

end Run

theorem AskCall.cancelledBy_zero (call : AskCall) : call.cancelledBy 0 = call.cancelsAt 0 := by
  simp [cancelledBy]

/-- Without a `cancel` before the first step, one before the fourth comes before one of the three in
between. -/
theorem AskCall.cancelledBy_three (call : AskCall) (h : call.cancelsAt 0 = false) :
    call.cancelledBy 3 = (call.cancelsAt 1 || call.cancelsAt 2 || call.cancelsAt 3) := by
  simp [cancelledBy, List.range_succ, h, Bool.or_assoc]

/-- A consumed ticket is refused before any native call. -/
theorem runAwait_consumed (messageID : String) (call : AskCall) :
    runAwait messageID true call
      = (.error (.runtime (.contractViolation "ask ticket already consumed")),
          { consumed := true }) := rfl

/-- **One run.** The first call has the outcome of the outcome law, takes one of the ways out and
leaves the ticket consumed. -/
theorem runAwait_first (messageID : String) (call : AskCall) :
    (runAwait messageID false call).1 = call.outcome messageID ∧
    (runAwait messageID false call).2.consumed = true ∧
    call.Steps (runAwait messageID false call).2.trace := by
  -- the flag is looked at before the await and once more behind it
  unfold runAwait awaitResult AskCall.outcome
  rw [AskCall.cancelledBy_zero]
  cases hbefore : call.cancelsAt 0
  · have hnot : call.cancelledBy 0 = false := by rw [AskCall.cancelledBy_zero, hbefore]
    by_cases hrefused : call.await.status ≠ Status.ok ∧ call.await.status ≠ Status.wouldBlock
    · -- Core's failure is reported before the second look at the flag
      have hsteps := AskCall.Steps.awaited hnot
      simpa [hbefore, hrefused, throwIfNativeError, AskCall.awaited, AskCall.leaving] using hsteps
    · rw [if_neg (by simp), if_neg hrefused, AskCall.cancelledBy_three call hbefore]
      cases hafter : call.cancelsAt 1 || call.cancelsAt 2 || call.cancelsAt 3
      · by_cases htimeout : call.await.status = Status.wouldBlock
        · have hsteps := AskCall.Steps.awaited hnot
          simpa [hbefore, hafter, htimeout, AskCall.awaited, AskCall.leaving] using hsteps
        · have hok : call.await.status = Status.ok := by
            by_contra hne
            exact hrefused ⟨hne, htimeout⟩
          rw [if_neg (by simp), if_neg htimeout, AskCall.delivered]
          have hne : Status.ok ≠ Status.wouldBlock := by decide
          -- the payload of a response is copied by Core, anything else is taken from the wire
          by_cases hcopies : call.payloadOnly ∧ call.await.kind = clientResultResponse
          · have hsteps := AskCall.Steps.copied hnot
            rw [if_pos hcopies]
            by_cases hcopied : call.copy.status = Status.ok
            · rw [if_pos hcopied]
              cases hspan : copyNativeBytes call.memory call.copy.payload call.copy.length <;>
                simpa [hbefore, hafter, hok, hne, hcopies, hcopied, throwIfNativeError, hspan,
                  Except.map, AskCall.awaited, AskCall.leaving] using hsteps
            · rw [if_neg hcopied]
              simpa [hbefore, hafter, hok, hne, hcopies, hcopied, throwIfNativeError,
                AskCall.awaited, AskCall.leaving] using hsteps
          · have hsteps := AskCall.Steps.awaited hnot
            rw [if_neg hcopies]
            cases hspan : copyNativeBytes call.memory call.await.wire call.await.size <;>
              simpa [hbefore, hafter, hok, hne, hcopies, hspan, AskCall.awaited,
                AskCall.leaving] using hsteps
      · have hsteps := AskCall.Steps.cancelledAfter hnot
        simpa [hbefore, hrefused, hafter, AskCall.awaited, AskCall.leaving] using hsteps
  · have hsteps : call.Steps [.cancel, .destroy, .endBorrow] :=
      .cancelledBefore (by rw [AskCall.cancelledBy_zero, hbefore])
    simpa [hbefore] using hsteps

/-- A consumed ticket makes no native call, however often it is asked. -/
theorem runAwaits_consumed (messageID : String) (calls : List AskCall) :
    runAwaits messageID true calls = calls.map fun _ =>
      (.error (.runtime (.contractViolation "ask ticket already consumed")), []) := by
  induction calls with
  | nil => rfl
  | cons call calls ih =>
    rw [runAwaits, runAwait_consumed, List.map_cons, ← ih]

/-! ## The protocol -/

namespace TicketEvent

def isAwaitStart : TicketEvent → Bool
  | .awaitStart _ => true
  | _ => false

def isAwaitReturn : TicketEvent → Bool
  | .awaitReturn _ => true
  | _ => false

/-- The buffer an event receives from Core. -/
def buffer? : TicketEvent → Option Address
  | .awaitReturn answer => answer.wire
  | .copyPayload _ _ _ answer => answer.payload
  | _ => none

end TicketEvent

/-- What holds of the native calls made for one ticket. -/
structure TicketProtocol (trace : List TicketEvent) : Prop where
  await_le_one : trace.countP TicketEvent.isAwaitStart ≤ 1
  cancel_le_one : trace.count .cancel ≤ 1
  /-- No await is in progress at a cancel. -/
  cancel_idle : ∀ before after, trace = before ++ .cancel :: after →
    before.countP TicketEvent.isAwaitReturn = before.countP TicketEvent.isAwaitStart
  /-- The destroy and the end of the borrow come last, once each. -/
  ends : ∃ body, trace = body ++ [.destroy, .endBorrow] ∧
    TicketEvent.destroy ∉ body ∧ TicketEvent.endBorrow ∉ body ∧
    body.countP TicketEvent.isAwaitReturn = body.countP TicketEvent.isAwaitStart
  released : ∀ buffer,
    trace.count (.bytesRelease (some buffer)) = (trace.filterMap TicketEvent.buffer?).count buffer

/-- A cancel between events that are not cancels is the only one. -/
theorem cancel_split {before after body rest : List TicketEvent}
    (h : body ++ .cancel :: rest = before ++ .cancel :: after)
    (hbody : TicketEvent.cancel ∉ body) (hrest : TicketEvent.cancel ∉ rest) : before = body :=
  ((List.append_cons_inj_of_notMem hbody hrest).mp h).1.symm

section Protocol

variable (call : AskCall)

theorem cancel_notMem_awaited : TicketEvent.cancel ∉ call.awaited := by simp [AskCall.awaited]

theorem cancel_notMem_leaving : TicketEvent.cancel ∉ call.leaving := by simp [AskCall.leaving]

/-- The two halves of a run that awaits, in the terms of the protocol: one await that returns, and
then the release of what it returned. -/
theorem countP_awaited :
    call.awaited.countP TicketEvent.isAwaitStart = 1 ∧
    call.awaited.countP TicketEvent.isAwaitReturn = 1 ∧
    call.leaving.countP TicketEvent.isAwaitStart = 0 :=
  ⟨rfl, rfl, rfl⟩

/-- The buffer of a copied payload is released as often as it was filled, and on the way out only.
-/
theorem count_release (buffer : Address) :
    call.awaited.count (.bytesRelease (some buffer)) = 0 ∧
    (call.awaited.filterMap TicketEvent.buffer?).count buffer
      = call.leaving.count (.bytesRelease (some buffer)) ∧
    (call.leaving.filterMap TicketEvent.buffer?).count buffer = 0 := by
  cases hwire : call.await.wire <;>
    simp [AskCall.awaited, AskCall.leaving, List.filterMap_cons, TicketEvent.buffer?, hwire]
  simp [List.count_cons]

/-- Every way out keeps the protocol. -/
theorem AskCall.Steps.protocol {call : AskCall} {trace : List TicketEvent} (h : call.Steps trace) :
    TicketProtocol trace := by
  have hawaited := cancel_notMem_awaited call
  have hleaving := cancel_notMem_leaving call
  have hcount := countP_awaited call
  have hrelease := count_release call
  cases h with
  | cancelledBefore =>
    refine ⟨by decide, by decide, fun before after h => ?_, ⟨[.cancel], rfl, by decide⟩,
      fun buffer => by simp [List.filterMap_cons, TicketEvent.buffer?]⟩
    -- nothing comes before this cancel
    have hnil : before = [] := cancel_split h (by decide) (by decide)
    rw [hnil]
    rfl
  | awaited =>
    refine ⟨?_, ?_, fun before after h => ?_, ⟨call.awaited ++ [.bytesRelease call.await.wire], ?_⟩,
      fun buffer => ?_⟩
    · simp [hcount]
    · simp [List.count_eq_zero.mpr hawaited, List.count_eq_zero.mpr hleaving]
    · have : TicketEvent.cancel ∈ call.awaited ++ call.leaving := by simp [h]
      simp [hawaited, hleaving] at this
    · exact ⟨rfl, by simp [AskCall.awaited], by simp [AskCall.awaited], rfl⟩
    · simp [hrelease]
  | cancelledAfter =>
    refine ⟨?_, ?_, fun before after h => ?_,
      ⟨call.awaited ++ [.cancel, .bytesRelease call.await.wire], ?_⟩, fun buffer => ?_⟩
    · simp [hcount, TicketEvent.isAwaitStart]
    · simp [List.count_eq_zero.mpr hawaited, List.count_eq_zero.mpr hleaving]
    · rw [cancel_split h hawaited hleaving, hcount.1, hcount.2.1]
    · exact ⟨rfl, by simp [AskCall.awaited], by simp [AskCall.awaited], rfl⟩
    · simp [hrelease, List.filterMap_cons, TicketEvent.buffer?]
  | copied =>
    refine ⟨?_, ?_, fun before after h => ?_,
      ⟨call.awaited ++ [.copyPayload call.await.wire call.await.size 2 call.copy,
        .bytesRelease call.copy.payload, .bytesRelease call.await.wire], ?_⟩, fun buffer => ?_⟩
    · simp [hcount, TicketEvent.isAwaitStart]
    · simp [List.count_eq_zero.mpr hawaited, List.count_eq_zero.mpr hleaving]
    · have : TicketEvent.cancel ∈ call.awaited ++ .copyPayload call.await.wire call.await.size 2
          call.copy :: .bytesRelease call.copy.payload :: call.leaving := by simp [h]
      simp [hawaited, hleaving] at this
    · exact ⟨rfl, by simp [AskCall.awaited], by simp [AskCall.awaited], rfl⟩
    · cases hpayload : call.copy.payload <;>
        simp [hrelease, List.filterMap_cons, List.count_cons, TicketEvent.buffer?, hpayload,
          Nat.add_comm]

end Protocol

/-- **The ask ticket's protocol and outcome law.** However often the owner calls `awaitResult`,
only the first call reaches Core. It keeps the ticket protocol, whatever Core answers and whenever
another thread cancels, and its outcome is the one of the outcome law; it awaits unless the
cancellation was seen before. Every later call is refused with nothing done. -/
theorem awaitResult_protocol_and_outcome (messageID : String) (call : AskCall)
    (calls : List AskCall) :
    ∃ trace,
      runAwaits messageID false (call :: calls)
        = (call.outcome messageID, trace) :: calls.map (fun _ =>
            (.error (.runtime (.contractViolation "ask ticket already consumed")), [])) ∧
      TicketProtocol trace ∧
      (trace.countP TicketEvent.isAwaitStart = if call.cancelledBy 0 then 0 else 1) := by
  obtain ⟨houtcome, hconsumed, hsteps⟩ := runAwait_first messageID call
  refine ⟨(runAwait messageID false call).2.trace, ?_, hsteps.protocol, ?_⟩
  · rw [runAwaits, ← houtcome, ← runAwaits_consumed, ← hconsumed]
  · generalize (runAwait messageID false call).2.trace = trace at hsteps
    have hcount := countP_awaited call
    cases hsteps with
    | cancelledBefore h => simp [h, TicketEvent.isAwaitStart]
    | awaited h => simp [h, hcount]
    | cancelledAfter h => simp [h, hcount, TicketEvent.isAwaitStart]
    | copied h => simp [h, hcount, TicketEvent.isAwaitStart]

end CoAkka.Session
