import CoAkkaRuntime.Codec.DeadletterSpec
import CoAkkaRuntime.Session.AskTicketSpec

/-!
# Ask — what an ask answers

`accept` of `RuntimeHostClient.swift`, and what the four entry points `ask`, `askPayload`, `askText`
and `askPayloadAsync` make of the bytes it returns. Core's names of the deadletter reasons are an
argument: `reasonName` is what `coakka_swift_deadletter_reason_name` answers.

A deadletter is an error of the ask: `accept` decodes it and throws what it says. A response is
passed on as bytes, and the entry point decodes as much of it as it returns.

* `accept` — one result of Core, as the bytes of a response or as a fault.
* `AskMode.project`, `AskMode.reply` — what an entry point makes of it.
* `accept_error`, `project_error`, `reply_error` — every fault is one of the source's own errors. No
  buffer makes a decoder trap, so an ask always comes back to its caller.
-/

namespace CoAkka.Ask

open Codec Session

/-! ## The entry points -/

/-- `ask`, `askPayload`, `askText` and `askPayloadAsync`. -/
inductive AskMode where
  | ask
  | payload
  | text
  | async
  deriving DecidableEq, Repr

/-- What the entry point passes to `awaitResult`. -/
def AskMode.payloadOnly : AskMode → Bool
  | .ask => false
  | .payload | .text | .async => true

structure RuntimeResponse where
  messageID : String
  correlationID : String
  source : String
  target : String
  payload : Data
  deriving DecidableEq

inductive AskReply where
  | response (response : RuntimeResponse)
  | payload (bytes : Data)
  | text (text : String)
  deriving DecidableEq

/-- How an ask ends without a reply. A fault is an error, unless a decoder traps. -/
inductive AskFault where
  | failure (failure : AskFailure)
  | fault (fault : Fault)
  deriving DecidableEq, Repr

def AskFault.runtime (error : RuntimeError) : AskFault := .failure (.runtime error)

def AskFault.ofFault : Fault → AskFault
  | .thrown error => .runtime error
  | other => .fault other

/-! ## `accept` -/

/-- `COAKKA_SWIFT_CLIENT_RESULT_DEADLETTER`. -/
def clientResultDeadletter : UInt32 := 2

/-- The two counters of a host that `accept` moves. -/
structure MatchedStats where
  matchedResponses : UInt64 := 0
  matchedDeadletters : UInt64 := 0
  deriving DecidableEq, Repr

/-- The section of `accept` under `clientLock`, for a result of the kind `kind`. -/
def MatchedStats.count (stats : MatchedStats) (kind : UInt32) : MatchedStats where
  matchedResponses :=
    if kind = clientResultResponse then stats.matchedResponses + 1 else stats.matchedResponses
  matchedDeadletters :=
    if kind = clientResultDeadletter then stats.matchedDeadletters + 1
    else stats.matchedDeadletters

def coreDeadletterReasonName (reasonName : UInt32 → Option String) (reason : UInt32) :
    Except RuntimeError String :=
  match reasonName reason with
  | some name => .ok name
  | none => .error (.contractViolation "Core did not provide a deadletter reason name")

/-- What `accept` returns, after its section. -/
def accept (reasonName : UInt32 → Option String) (result : NativeAskResult) :
    Except AskFault Data :=
  if result.kind = clientResultDeadletter then
    match (decodeDeadletter result.bytes (coreDeadletterReasonName reasonName)).1 with
    | .ok value => .error (.runtime (.deadletter value))
    | .error fault => .error (.ofFault fault)
  else if result.kind = clientResultResponse then .ok result.bytes
  else .error (.runtime
    (.contractViolation s!"Core returned an unknown ask result kind {result.kind.toNat}"))

/-- What the entry point makes of the accepted bytes. -/
def AskMode.project (bytes : Data) : AskMode → Except AskFault AskReply
  | .ask =>
    match decodeEnvelope bytes with
    | .ok envelope => .ok (.response ⟨envelope.messageID, envelope.correlationID,
        envelope.source, envelope.target, envelope.payload⟩)
    | .error fault => .error (.ofFault fault)
  | .payload | .async => .ok (.payload bytes)
  | .text =>
    match bytes.utf8? with
    | some decoded => .ok (.text decoded)
    | none => .error (.runtime (.invalidArgument "response payload is not UTF-8"))

/-- What the entry point returns for the outcome of `awaitResult`. -/
def AskMode.reply (mode : AskMode) (reasonName : UInt32 → Option String) :
    Except AskFailure NativeAskResult → Except AskFault AskReply
  | .error failure => .error (.failure failure)
  | .ok result =>
    match accept reasonName result with
    | .error fault => .error fault
    | .ok bytes => mode.project bytes

/-! ## No decoder traps -/

section Total

variable {α : Type}

/-- A decoder that always ends in a value or a thrown error has no other fault to pass on. -/
theorem ofFault_thrown {fault : AskFault} {x : Except Fault α}
    (htotal : (∃ a, x = .ok a) ∨ ∃ error, x = .error (.thrown error)) {fault' : Fault}
    (hx : x = .error fault') (h : AskFault.ofFault fault' = fault) :
    ∃ failure, fault = .failure failure := by
  rcases htotal with ⟨a, hok⟩ | ⟨error, hthrown⟩
  · rw [hok] at hx
    cases hx
  · rw [hthrown] at hx
    obtain rfl := Except.error.inj hx
    rw [← h]
    exact ⟨.runtime error, rfl⟩

/-- The letter decoder neither traps nor runs out of fuel. -/
theorem decodeDeadletter_total (data : Data) (reasonName : UInt32 → Except RuntimeError String) :
    (∃ letter, (decodeDeadletter data reasonName).1 = .ok letter) ∨
      ∃ error, (decodeDeadletter data reasonName).1 = .error (.thrown error) := by
  have hrun := decodeDeadletter_run data reasonName
  generalize decodeDeadletter data reasonName = run at hrun
  cases hrun with
  | decoded => exact .inl ⟨_, rfl⟩
  | malformed | outOfRange | unnamed => exact .inr ⟨_, rfl⟩

variable {reasonName : UInt32 → Option String} {result : NativeAskResult} {bytes : Data}
  {mode : AskMode} {fault : AskFault}

/-- Whatever `accept` throws is a failure that its caller can catch. -/
theorem accept_error (h : accept reasonName result = .error fault) :
    ∃ failure, fault = .failure failure := by
  unfold accept at h
  split at h
  · split at h
    · exact ⟨_, (Except.error.inj h).symm⟩
    · next hdecode =>
      exact ofFault_thrown (decodeDeadletter_total _ _) hdecode (Except.error.inj h)
  · split at h
    · cases h
    · exact ⟨_, (Except.error.inj h).symm⟩

/-- So is whatever the projection of a letter throws. -/
theorem project_error (h : mode.project bytes = .error fault) :
    ∃ failure, fault = .failure failure := by
  cases mode with
  | ask =>
    simp only [AskMode.project] at h
    split at h
    · cases h
    · next hdecode => exact ofFault_thrown (decodeEnvelope_total _) hdecode (Except.error.inj h)
  | payload | async => cases h
  | text =>
    simp only [AskMode.project] at h
    split at h
    · cases h
    · exact ⟨_, (Except.error.inj h).symm⟩

/-- No ask ends in a trap, whatever Core answered. -/
theorem reply_error {outcome : Except AskFailure NativeAskResult}
    (h : mode.reply reasonName outcome = .error fault) : ∃ failure, fault = .failure failure := by
  cases outcome with
  | error failure => exact ⟨failure, (Except.error.inj h).symm⟩
  | ok result =>
    simp only [AskMode.reply] at h
    split at h
    · next haccept =>
      obtain rfl := Except.error.inj h
      exact accept_error haccept
    · exact project_error h

end Total

end CoAkka.Ask
