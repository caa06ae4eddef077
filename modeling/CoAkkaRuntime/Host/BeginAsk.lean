import CoAkkaRuntime.Host.RuntimeHost
import CoAkkaRuntime.Session.RuntimeSession
import CoAkkaRuntime.Transport.StartupOptions

/-!
# Host — `beginAsk`

`beginAsk` of `RuntimeHostClient.swift`, run by any number of callers of one host. The section under
`clientLock` is one atomic step; building the request is another, and `session.begin` is the locked
section of the session, which goes on with its own steps in between. An ask may fail after it took
its number.

* `AskArguments.validate` — the checks before the counter is touched.
* `identify` — the section under `clientLock`: a number, or the refusal at the end of the range.
* `askStep`, `askSystem` — one caller, and all of them over one session.
-/

namespace CoAkka.Host

open Codec Session Transition Transport

/-! ## What an ask sends -/

/-- `DeliveryHint`, with its raw values. -/
inductive DeliveryHint where
  | routerDefault
  | requireLocal
  deriving DecidableEq, Repr

def DeliveryHint.rawValue : DeliveryHint → UInt32
  | .routerDefault => 1
  | .requireLocal => 3

/-- The arguments of `beginAsk`. -/
structure AskArguments where
  source : String
  target : String
  payload : Data
  timeoutMs : UInt32
  hint : DeliveryHint

/-- `coakka_v2_client_raw_request_spec_t`; its payload pointer and length are one buffer. -/
structure RawRequestSpec where
  structSize : Nat := 72
  messageID : CString
  source : CString
  target : CString
  replyTo : CString
  payload : Data
  timeoutMs : UInt32
  deliveryHint : UInt32
  oneWay : UInt32 := 0

/-- The identity of the ask that took the number `nextID`. -/
def messageID (source : String) (nextID : UInt64) : String := s!"{source}-swift-{nextID}"

def AskArguments.validate (ask : AskArguments) : Except RuntimeError Unit := do
  validateCString ask.source "source"
  validateCString ask.target "target"

/-- The request that is built for an ask. -/
def AskArguments.spec (ask : AskArguments) (id : String) : RawRequestSpec where
  messageID := cString id
  source := cString ask.source
  target := cString ask.target
  replyTo := cString s!"{ask.source}/replies"
  payload := ask.payload
  timeoutMs := ask.timeoutMs
  deliveryHint := ask.hint.rawValue

/-! ## The host -/

/-- The ticket of an ask, named as its session names it. -/
structure AskTicket where
  ticket : Nat
  messageID : String
  deriving DecidableEq, Repr

/-- The sections under `clientLock`, the native calls of the asks, and how the asks end, in order.
The calls of a session are in the log of the session. -/
inductive AskEvent where
  | identified (number : UInt64)
  | buildRawRequest (spec : RawRequestSpec)
  | bytesRelease (wire : Option Address)
  | returned (outcome : Except RuntimeError AskTicket)

/-- What the asks of a host share: its counter, and its session with the callers of that. -/
structure AskState where
  nextID : UInt64 := 0
  session : Pool SessionState CallerPc
  log : List AskEvent := []

def AskState.logged (s : AskState) (events : List AskEvent) : AskState :=
  { s with log := s.log ++ events }

/-- The addition of Swift's `UInt64`, which traps where the sum does not fit. -/
def checkedAdd (a b : UInt64) : Except Fault UInt64 :=
  if a.toNat + b.toNat < 2 ^ 64 then .ok (a + b) else .error .trapped

/-- The section under `clientLock`. -/
def identify (source : String) (s : AskState) : Except Fault String × AskState :=
  if s.nextID < UInt64.ofNat (2 ^ 64 - 1) then
    match checkedAdd s.nextID 1 with
    | .error fault => (.error fault, s)
    | .ok nextID => (.ok (messageID source nextID), { s with nextID }.logged [.identified nextID])
  else (.error (.thrown (.resourceLimit "message identity space exhausted")), s)

/-! ## The callers

A caller's position says how far its `beginAsk` has come.
-/

/-- Where a caller of `beginAsk` is. -/
inductive AskPc where
  | idle
  | locking (ask : AskArguments)
  | building (ask : AskArguments) (id : String)
  | beginning (id : String) (wire : Option Address)
  /-- In the `defer`. -/
  | releasing (wire : Option Address) (outcome : Except RuntimeError AskTicket)
  /-- The process is gone. -/
  | trapped

inductive AskAction where
  | ask (ask : AskArguments)
  | lock
  | build (answer : BuildAnswer)
  /-- `session.begin`, and the `awaitResult` that will use the ticket. -/
  | begin (caller : Nat) (answer : BeginAnswer) (call : AskCall)
  | release

/-- The step `action` of a caller at `pc`, when it is enabled there. -/
def askStep (s : AskState) (pc : AskPc) (action : AskAction) : Option (AskState × AskPc) :=
  match pc, action with
  | .idle, .ask ask =>
    match ask.validate with
    | .error error => some (s.logged [.returned (.error error)], .idle)
    | .ok () => some (s, .locking ask)
  | .locking ask, .lock =>
    match identify ask.source s with
    | (.ok id, s') => some (s', .building ask id)
    | (.error (.thrown error), s') => some (s'.logged [.returned (.error error)], .idle)
    | (.error _, s') => some (s', .trapped)
  | .building ask id, .build answer =>
    let s' := s.logged [.buildRawRequest (ask.spec id)]
    match throwIfNativeError answer.status "build request" with
    | .error error => some (s', .releasing answer.wire (.error error))
    | .ok () => some (s', .beginning id answer.wire)
  | .beginning id wire, .begin caller answer call =>
    let outcome := (begin answer s.session.shared).1
    (s.session.advance (fun s pc => callerStep s pc (.begin answer id call)) caller).map
      fun session => ({ s with session }, .releasing wire (outcome.map (⟨·, id⟩)))
  | .releasing wire outcome, .release =>
    some (s.logged [.bytesRelease wire, .returned outcome], .idle)
  | _, _ => none

/-! ## The runs -/

inductive HostAskAction where
  | caller (i : Nat) (action : AskAction)
  | session (action : SessionAction)

def hostAskStep (p : Pool AskState AskPc) : HostAskAction → Option (Pool AskState AskPc)
  | .caller i action => p.advance (fun s pc => askStep s pc action) i
  | .session action =>
    (sessionStep p.shared.session action).map fun session =>
      { p with shared := { p.shared with session } }

/-- A host whose session has just been made, and any number of callers. -/
def askSystem : System (Pool AskState AskPc) HostAskAction where
  init p := (∃ session, sessionSystem.init session ∧ p.shared = { session }) ∧
    ∀ pc ∈ p.threads, pc = .idle
  step p a p' := hostAskStep p a = some p'

end CoAkka.Host
