import CoAkkaRuntime.Host.Registrations

/-!
# Host — the accounts of a dispatcher

The diagnostics of a host are a ledger of its dispatches. `Frame.verdict` says without a state
monad what becomes of one frame at a host; the counters, the last failure, the native calls, the
handlers called and the buffers released are then what the verdicts of the frames add up to, over
any run. The counters wrap, as `&+=` does.

* `Verdict` — what becomes of one frame, found without running the dispatch.
* `exec_dispatchBody` — the dispatch computes the verdict.
* `Books` — the invariant of a run: diagnostics, log and buffers against the sum of the verdicts so
  far.
* `dispatch_accounts` — the ledger of a whole run of registrations, closes and frames.
-/

namespace CoAkka.Host

open Codec Session Throwing

variable {I H E : Type} [DecidableEq I] {ident : String → I}

/-! ## What becomes of a frame -/

/-- `String(bytes:encoding:)` on the bytes of a target. -/
def decodeTarget (bytes : Data) : Except (DispatchError E) String :=
  match bytes.utf8? with
  | none => .error (.runtime (.contractViolation "Core dispatch target is not UTF-8"))
  | some target => .ok target

/-- The target that the Core copies out of a frame. -/
def Frame.target (f : Frame H E) : Except (DispatchError E) String := do
  let bytes ← (targetSpan f.memory f.copy.target f.copy.targetSize).mapError .runtime
  decodeTarget bytes

def Frame.payload (f : Frame H E) : Except (DispatchError E) Data :=
  (copyNativeBytes f.memory f.copy.payload f.copy.payloadSize).mapError .runtime

def Frame.read (f : Frame H E) : Except (DispatchError E) (String × Data) := do
  (throwIfNativeError f.copy.status "copy request dispatch").mapError .runtime
  let target ← f.target
  let payload ← f.payload
  return (target, payload)

def HostAction.isRetirement : HostAction H → Bool
  | .requestRetirement => true
  | .register _ _ => false

inductive Verdict (H E : Type) where
  /-- The frame has no target or no payload. -/
  | unread (error : DispatchError E)
  | unhandled
  /-- The envelope of a rich request cannot be decoded. -/
  | undecoded (error : DispatchError E)
  | threw (call : HandlerCall H) (error : E)
  /-- A one-way request: the response is dropped. -/
  | served (call : HandlerCall H)
  /-- The session started to close before the reply. -/
  | refused (call : HandlerCall H)
  | replied (call : HandlerCall H) (target : String) (response : Data)

/-- What the handler of a delivered request makes of it. -/
def Frame.handled (f : Frame H E) (target : String) (payload : Data) (sessionOpen : Bool)
    (handler : Handler H) : Verdict H E :=
  match handlerCall f.bytes target payload (f.copy.oneWay ≠ 0) handler with
  | .error error => .undecoded error
  | .ok call =>
    match f.respond call with
    | .error error => .threw call error
    | .ok response =>
      if f.copy.oneWay ≠ 0 then .served call
      else if sessionOpen && !f.meanwhile.any HostAction.isRetirement then
        .replied call target response
      else .refused call

/-- What becomes of a delivered request. -/
def Frame.delivered (f : Frame H E) (host : RuntimeHost ident H) (target : String) (payload : Data) :
    Verdict H E :=
  match host.handlers.get? target with
  | none => .unhandled
  | some handler => f.handled target payload host.sessionOpen handler

def Frame.verdict (f : Frame H E) (host : RuntimeHost ident H) : Verdict H E :=
  match f.read with
  | .error error => .unread error
  | .ok (target, payload) => f.delivered host target payload

/-- The two native calls of a reply. -/
def Frame.replyOutcome (f : Frame H E) : Except (DispatchError E) Unit := do
  (throwIfNativeError f.build.status "build reply").mapError .runtime
  (throwIfNativeError f.submit "submit reply").mapError .runtime

namespace Verdict

/-- How the `do` block of the dispatch ends. -/
def outcome (f : Frame H E) : Verdict H E → Except (DispatchError E) Unit
  | .unread error | .undecoded error => .error error
  | .unhandled | .served _ => .ok ()
  | .threw _ error => .error (.handler error)
  | .refused _ => .error (.runtime .closed)
  | .replied _ _ _ => f.replyOutcome

/-- The request counts as delivered. -/
def delivered : Verdict H E → Bool
  | .unread _ => false
  | .unhandled | .undecoded _ | .threw _ _ | .served _ | .refused _ | .replied _ _ _ => true

/-- The events of the `do` block, but for its native copy. -/
def events (f : Frame H E) : Verdict H E → List (HostEvent H)
  | .unread _ | .unhandled | .undecoded _ => []
  | .threw call _ | .served call | .refused call => [.called call]
  | .replied call target response => .called call :: replyEvents f target response

/-- The buffers of the Core that the dispatch gets, in the order in which it is done with them. -/
def buffers (f : Frame H E) : Verdict H E → List (Option Address)
  | .unread _ | .unhandled | .undecoded _ | .threw _ _ | .served _ | .refused _ =>
    [f.copy.target, f.copy.payload]
  | .replied _ _ _ => [f.build.wire, f.copy.target, f.copy.payload]

/-- The host after the `do` block, from where its native copy was. -/
def leaves (f : Frame H E) (host : RuntimeHost ident H) : Verdict H E → RuntimeHost ident H
  | .unread _ => host
  | .unhandled | .undecoded _ => { host with deliveredRequests := host.deliveredRequests + 1 }
  | .threw call _ | .served call | .refused call => host.answered f call
  | .replied call target response => (host.answered f call).logged (replyEvents f target response)

end Verdict

/-! ## The dispatch computes the verdict -/

/-- A registration neither closes the session nor delivers a request. -/
theorem act_register_keeps (host : RuntimeHost ident H) (target : String) (handler : Handler H) :
    (host.act (.register target handler)).sessionOpen = host.sessionOpen ∧
      (host.act (.register target handler)).deliveredRequests = host.deliveredRequests := by
  have hrun := exec_register host target handler
  show (exec (register target handler) host).2.sessionOpen = _ ∧
    (exec (register target handler) host).2.deliveredRequests = _
  generalize exec (register target handler) host = out at hrun
  cases hrun <;> exact ⟨rfl, rfl⟩

/-- A session is open after the application's actions if it was and none of them retires it. -/
theorem acts_open (actions : List (HostAction H)) (host : RuntimeHost ident H) :
    (actions.foldl RuntimeHost.act host).sessionOpen
      = (host.sessionOpen && !actions.any HostAction.isRetirement) := by
  induction actions generalizing host with
  | nil => simp
  | cons action actions ih =>
    rw [List.foldl_cons, ih, List.any_cons]
    cases action with
    | register target handler => rw [(act_register_keeps host target handler).1]; rfl
    | requestRetirement => simp [RuntimeHost.act, HostAction.isRetirement]

theorem answered_open (host : RuntimeHost ident H) (f : Frame H E) (call : HandlerCall H) :
    (host.answered f call).sessionOpen
      = (host.sessionOpen && !f.meanwhile.any HostAction.isRetirement) :=
  acts_open f.meanwhile _

omit [DecidableEq I] in
/-- How a reply ends is known from the frame. -/
theorem submitReply_outcome (f : Frame H E) (target : String) (response : Data)
    (host : RuntimeHost ident H) : (exec (submitReply f target response) host).1 = f.replyOutcome := by
  rw [submitReply, exec_deferring, note, exec_modify_bind, Frame.replyOutcome]
  cases (throwIfNativeError f.build.status "build reply").mapError
      (DispatchError.runtime : RuntimeError → DispatchError E) with
  | error error => rw [exec_bind_error (exec_ofExcept _ _)]; rfl
  | ok =>
    rw [exec_bind_ok (exec_ofExcept _ _), note, exec_modify_bind, exec_ofExcept]
    rfl

/-- A call of a handler is counted before it is made. -/
theorem exec_callHandler (f : Frame H E) (call : HandlerCall H) (host : RuntimeHost ident H) :
    exec (callHandler f call) { host with deliveredRequests := host.deliveredRequests + 1 }
      = ((f.respond call).mapError .handler, host.answered f call) := by
  rw [callHandler, note, exec_modify_bind, exec_modify_bind, exec_ofExcept]
  rfl

omit [DecidableEq I] in
/-- Copying the payload has one outcome and no effect on the host. -/
theorem exec_copyPayload {f : Frame H E} {outcome : Except (DispatchError E) Data}
    (h : f.payload = outcome) (host : RuntimeHost ident H) :
    exec (ofExcept ((copyNativeBytes f.memory f.copy.payload f.copy.payloadSize).mapError .runtime) :
      HostM ident H E Data) host = (outcome, host) :=
  (exec_ofExcept host f.payload).trans (congrArg (·, host) h)

/-- What is left of the dispatch once its request counts as delivered. -/
theorem exec_handled (f : Frame H E) (target : String) (payload : Data) (handler : Handler H)
    (host : RuntimeHost ident H)
    (hpayload : f.payload = .ok payload) :
    exec (dispatchTo f target (some handler)) host
      = ((f.handled target payload host.sessionOpen handler).outcome f,
        (f.handled target payload host.sessionOpen handler).leaves f host) := by
  rw [dispatchTo, exec_bind_ok (exec_copyPayload hpayload host), exec_modify_bind, Frame.handled]
  dsimp only
  cases handlerCall f.bytes target payload (f.copy.oneWay ≠ 0) handler with
  | error error => rw [exec_bind_error (exec_ofExcept _ _)]; rfl
  | ok call =>
    have hcalled := exec_callHandler f call host
    rw [exec_bind_ok (exec_ofExcept _ _)]
    cases hrespond : f.respond call with
    | error error =>
      rw [hrespond] at hcalled
      rw [exec_bind_error hcalled]
      simp only [Verdict.outcome, Verdict.leaves, hrespond]
    | ok response =>
      rw [hrespond] at hcalled
      rw [exec_bind_ok hcalled]
      simp only [hrespond]
      -- what happens until the handler returns may close the session
      by_cases honeWay : f.copy.oneWay = 0
      · rw [if_neg (not_not.mpr honeWay), if_neg (not_not.mpr honeWay), withOpen, exec_get_bind,
          answered_open]
        cases host.sessionOpen && !f.meanwhile.any HostAction.isRetirement with
        | false => rfl
        | true =>
          exact Prod.ext (submitReply_outcome f target response _) (exec_submitReply f target response _)
      · rw [if_pos honeWay, if_pos honeWay]
        rfl

/-- The uncached lookup reads the table and changes nothing. -/
theorem exec_lookupDispatchTarget (f : Frame H E) (host : RuntimeHost ident H) :
    exec (lookupDispatchTarget f.memory f.copy.target f.copy.targetSize : HostM ident H E (Found H)) host
      = (f.target.map (fun target => (target, host.handlers.get? target)), host) := by
  unfold lookupDispatchTarget Frame.target
  cases targetSpan f.memory f.copy.target f.copy.targetSize with
  | error error => rfl
  | ok bytes =>
    show _ = (Except.map _ (decodeTarget bytes), host)
    rw [decodeTarget]
    dsimp only
    cases bytes.utf8? <;> rfl

/-- **The body of a dispatch is its verdict:** the outcome, and what it leaves of the host. -/
theorem exec_dispatchBody (f : Frame H E) (host : RuntimeHost ident H) :
    exec (dispatchBody lookupDispatchTarget f) host
      = ((f.verdict host).outcome f,
        (f.verdict host).leaves f (host.logged [.copyRequestDispatch f.bytes])) := by
  have hlookup := exec_lookupDispatchTarget f (host.logged [.copyRequestDispatch f.bytes])
  rw [dispatchBody, note, exec_modify_bind, Frame.verdict, Frame.read]
  cases (throwIfNativeError f.copy.status "copy request dispatch").mapError
      (DispatchError.runtime : RuntimeError → DispatchError E) with
  | error error => rw [exec_bind_error (exec_ofExcept _ _)]; rfl
  | ok =>
    rw [exec_bind_ok (exec_ofExcept _ _)]
    -- the target, then the payload, then the handler, as in the source
    cases htarget : f.target with
    | error error =>
      rw [htarget] at hlookup
      rw [exec_bind_error hlookup]
      rfl
    | ok target =>
      rw [htarget] at hlookup
      rw [exec_bind_ok hlookup]
      show exec (dispatchTo f target (host.handlers.get? target)) _ = _
      cases hpayload : f.payload with
      | error error =>
        unfold dispatchTo
        rw [exec_bind_error (exec_copyPayload hpayload _)]
        rfl
      | ok payload =>
        show _ = (Verdict.outcome f (f.delivered host target payload),
          (f.delivered host target payload).leaves f _)
        unfold Frame.delivered
        cases host.handlers.get? target with
        | none =>
          rw [dispatchTo, exec_bind_ok (exec_copyPayload hpayload _)]
          rfl
        | some handler => exact exec_handled f target payload handler _ hpayload

/-! ## The ledger

What each verdict adds to the counters, the log and the buffers.
-/

/-- The first registration of a target in a log. A target is registered once, so there is no other. -/
def registeredHandler (ident : String → I) (log : List (HostEvent H)) (target : String) :
    Option (Handler H) :=
  log.findSome? fun
    | .registered registered handler => if ident registered = ident target then some handler else none
    | .copyRequestDispatch _ | .called _ | .buildRawReply _ _ _ | .submitEnvelope _ _
    | .bytesRelease _ => none

/-- The buffer that an event gives back to the Core. -/
def HostEvent.released? : HostEvent H → Option (Option Address)
  | .bytesRelease buffer => some buffer
  | .registered _ _ | .copyRequestDispatch _ | .called _ | .buildRawReply _ _ _
  | .submitEnvelope _ _ => none

def thrown? : Except (DispatchError E) Unit → Option (DispatchError E)
  | .ok () => none
  | .error error => some error

structure Account (H E : Type) where
  frame : Frame H E
  verdict : Verdict H E

namespace Account

def error? (account : Account H E) : Option (DispatchError E) :=
  thrown? (account.verdict.outcome account.frame)

def events (account : Account H E) : List (HostEvent H) :=
  frameEvents account.frame (account.verdict.events account.frame)

def buffers (account : Account H E) : List (Option Address) :=
  account.verdict.buffers account.frame

end Account

def RuntimeHost.accounts (host : RuntimeHost ident H) : HostInput H E → List (Account H E)
  | .act _ => []
  | .frame f => [⟨f, f.verdict host⟩]

/-- The accounts of a run of the host without a cache. -/
def RuntimeHost.ledger (failureText : DispatchError E → String) :
    RuntimeHost ident H → List (HostInput H E) → List (Account H E)
  | _, [] => []
  | host, input :: inputs => host.accounts input ++
      ledger failureText (host.step failureText lookupDispatchTarget input) inputs

/-- A host's diagnostics and its log, against the requests that were delivered, the errors of the
dispatches and their events. -/
structure Books (failureText : DispatchError E → String) (host : RuntimeHost ident H)
    (requests : Nat) (errors : List (DispatchError E)) (trace : List (HostEvent H)) : Prop where
  delivered : host.deliveredRequests = UInt64.ofNat requests
  failures : host.dispatchFailures = UInt64.ofNat errors.length
  lastFailure : host.lastDispatchFailure = errors.getLast?.map failureText
  /-- The log is that of the dispatches, but for the registrations. -/
  events : host.log.filter (fun e => !e.isRegistered) = trace
  /-- The table holds what the log says was registered. -/
  handlers : ∀ target, host.handlers.get? target = registeredHandler ident host.log target

section Rules

variable {failureText : DispatchError E → String} {host : RuntimeHost ident H} {requests : Nat}
  {errors : List (DispatchError E)} {trace : List (HostEvent H)}

/-- Registrations that come later do not replace one. -/
theorem registeredHandler_append (log events : List (HostEvent H)) (target : String) :
    registeredHandler ident (log ++ events) target
      = (registeredHandler ident log target).or (registeredHandler ident events target) :=
  List.findSome?_append

/-- Where nothing is registered there is no handler. -/
theorem registeredHandler_unregistered {events : List (HostEvent H)}
    (h : ∀ e ∈ events, e.isRegistered = false) (target : String) :
    registeredHandler ident events target = none := by
  apply List.findSome?_eq_none_iff.mpr
  intro e he
  have hunregistered := h e he
  cases e with
  | registered => cases hunregistered
  | copyRequestDispatch | called | buildRawReply | submitEnvelope | bytesRelease => rfl

namespace Books

/-- Noting a call keeps the books, with the call in the trace. -/
theorem logged (h : Books failureText host requests errors trace) {a : List (HostEvent H)}
    (hadded : ∀ e ∈ a, e.isRegistered = false) :
    Books failureText (host.logged a) requests errors (trace ++ a) := by
  refine ⟨h.delivered, h.failures, h.lastFailure, ?_, fun target => ?_⟩
  · show (host.log ++ a).filter _ = _
    rw [List.filter_append, h.events, List.filter_eq_self.mpr fun e he => by simp [hadded e he]]
  · show host.handlers.get? target = registeredHandler ident (host.log ++ a) target
    rw [registeredHandler_append, registeredHandler_unregistered hadded, Option.or_none, h.handlers]

/-- So does counting a request. -/
theorem deliver (h : Books failureText host requests errors trace) :
    Books failureText { host with deliveredRequests := host.deliveredRequests + 1 } (requests + 1)
      errors trace := by
  refine ⟨?_, h.failures, h.lastFailure, h.events, h.handlers⟩
  show host.deliveredRequests + 1 = _
  rw [h.delivered, UInt64.ofNat_add]
  rfl

/-- An action of the application is no entry of the books but for its registration. -/
theorem act (h : Books failureText host requests errors trace) (action : HostAction H) :
    Books failureText (host.act action) requests errors trace := by
  cases action with
  | requestRetirement => exact ⟨h.delivered, h.failures, h.lastFailure, h.events, h.handlers⟩
  | register target handler =>
    have hrun := exec_register host target handler
    show Books failureText (exec (register target handler) host).2 _ _ _
    generalize exec (register target handler) host = out at hrun
    cases hrun with
    | invalid | empty | closed | duplicate | exhausted => exact h
    | registered _ _ _ hnew _ =>
      refine ⟨h.delivered, h.failures, h.lastFailure, ?_, fun target' => ?_⟩
      · show (host.log ++ [HostEvent.registered target handler]).filter _ = _
        rw [List.filter_append, h.events]
        exact List.append_nil _
      · show (host.handlers.set target handler).get? target' = registeredHandler ident (host.log ++ _) _
        rw [Dictionary.get?_set, registeredHandler_append, ← h.handlers]
        by_cases hsame : ident target = ident target'
        · -- nothing was registered for the new target
          rw [← Dictionary.get?_congr _ hsame, hnew, if_pos hsame]
          simp [registeredHandler, hsame]
        · simp [registeredHandler, hsame]

theorem acts (h : Books failureText host requests errors trace) (actions : List (HostAction H)) :
    Books failureText (actions.foldl RuntimeHost.act host) requests errors trace := by
  induction actions generalizing host with
  | nil => exact h
  | cons action actions ih => exact ih (h.act action)

/-- The books after a handler was called. -/
theorem answered (h : Books failureText host requests errors trace) (f : Frame H E)
    (call : HandlerCall H) :
    Books failureText (host.answered f call) (requests + 1) errors (trace ++ [.called call]) :=
  (h.deliver.logged (by simp [HostEvent.isRegistered])).acts f.meanwhile

/-- The `do` block of a dispatch. -/
theorem leaves (h : Books failureText host requests errors trace) (f : Frame H E)
    (verdict : Verdict H E) :
    Books failureText (verdict.leaves f host) (requests + verdict.delivered.toNat) errors
      (trace ++ verdict.events f) := by
  cases verdict with
  | unread => exact (List.append_nil trace).symm ▸ h
  | unhandled | undecoded => exact (List.append_nil trace).symm ▸ h.deliver
  | threw call | served call | refused call => exact h.answered f call
  | replied call target response =>
    have hreplied := (h.answered f call).logged (replyEvents_unregistered f target response)
    rwa [List.append_assoc] at hreplied

/-- The `catch` block. -/
theorem caught (h : Books failureText host requests errors trace)
    (outcome : Except (DispatchError E) Unit) :
    Books failureText (RuntimeHost.caught failureText (outcome, host)) requests
      (errors ++ (thrown? outcome).toList) trace := by
  cases outcome with
  | ok => exact (List.append_nil errors).symm ▸ h
  | error error =>
    refine ⟨h.delivered, ?_, ?_, h.events, h.handlers⟩
    · show host.dispatchFailures + 1 = _
      rw [h.failures, List.length_append, UInt64.ofNat_add]
      rfl
    · show some (failureText error) = _
      simp [thrown?]

/-- A dispatch adds its account. -/
theorem dispatch (h : Books failureText host requests errors trace) (f : Frame H E) :
    Books failureText (host.step failureText lookupDispatchTarget (.frame f))
      (requests + (f.verdict host).delivered.toNat)
      (errors ++ (Account.mk f (f.verdict host)).error?.toList)
      (trace ++ (Account.mk f (f.verdict host)).events) := by
  show Books failureText ((dispatchRequest failureText lookupDispatchTarget f).run host).2 _ _ _
  rw [run_dispatchRequest, exec_dispatchBody]
  have hcopied := h.logged (a := [.copyRequestDispatch f.bytes]) (by simp [HostEvent.isRegistered])
  have hbooks := ((hcopied.leaves f (f.verdict host)).caught ((f.verdict host).outcome f)).logged
    (a := [.bytesRelease f.copy.target, .bytesRelease f.copy.payload])
    (by simp [HostEvent.isRegistered])
  simpa [Account.events, Account.error?, frameEvents] using hbooks

end Books

end Rules

/-! ## Runs -/

theorem filterMap_error? (account : Account H E) :
    [account].filterMap Account.error? = account.error?.toList := by
  cases herror : account.error? <;> simp [herror]

/-- **The books of a run.** Each input adds its account, whatever came before it. -/
theorem Books.run {failureText : DispatchError E → String} {host : RuntimeHost ident H}
    {a : List (Account H E)} (inputs : List (HostInput H E))
    (h : Books failureText host (a.countP (·.verdict.delivered))
      (a.filterMap Account.error?) (a.flatMap Account.events)) :
    let all := a ++ RuntimeHost.ledger failureText host inputs
    Books failureText (inputs.foldl (RuntimeHost.step failureText lookupDispatchTarget) host)
      (all.countP (·.verdict.delivered)) (all.filterMap Account.error?)
      (all.flatMap Account.events) := by
  induction inputs generalizing host a with
  | nil => simpa [RuntimeHost.ledger] using h
  | cons input inputs ih =>
    intro all
    have hall : all = a ++ host.accounts input ++ RuntimeHost.ledger failureText
        (host.step failureText lookupDispatchTarget input) inputs := (List.append_assoc _ _ _).symm
    rw [hall]
    refine ih ?_
    cases input with
    | act action =>
      rw [RuntimeHost.accounts, List.append_nil]
      exact h.act action
    | frame f =>
      have hbooks := h.dispatch f
      have hbit : ∀ b : Bool, b.toNat = if b then 1 else 0 := fun b => by cases b <;> rfl
      rw [RuntimeHost.accounts, List.countP_append, List.countP_singleton, List.filterMap_append,
        filterMap_error?, List.flatMap_append, List.flatMap_singleton]
      rwa [hbit] at hbooks

/-- The buffers of an account are those that its events give back. -/
theorem released_events (account : Account H E) :
    account.events.filterMap HostEvent.released? = account.buffers := by
  obtain ⟨f, verdict⟩ := account
  cases verdict with
  | unread | unhandled | undecoded | threw | served | refused => rfl
  | replied call target response =>
    -- the `defer` of the reply stands behind its submission
    by_cases hstatus : f.build.status = Status.ok <;>
      simp only [Account.events, Verdict.events, frameEvents, replyEvents, hstatus, if_true, if_false] <;>
      rfl

/-- A registration releases nothing. -/
theorem released_filter (log : List (HostEvent H)) :
    (log.filter (fun e => !e.isRegistered)).filterMap HostEvent.released?
      = log.filterMap HostEvent.released? := by
  rw [List.filterMap_filter]
  refine List.filterMap_congr fun e _ => ?_
  cases e <;> rfl

/-- **The accounts of a dispatcher.** Over every sequence of registrations, session closes and
delivered frames, the host with the cache and the list of what became of the frames agree: its
counters are the number of requests delivered and of errors thrown, each modulo 2^64, and its last
failure is the text of the last error; but for the registrations, its native calls and the handlers
called are those of the frames, one after the other; every buffer that the Core handed out was given
back once, and nothing else was; and its table holds for each target what was first registered. -/
theorem dispatch_accounts (failureText : DispatchError E → String) (inputs : List (HostInput H E)) :
    let host : RuntimeHost ident H := RuntimeHost.run failureText projectDispatchTarget inputs
    let accounts := RuntimeHost.ledger failureText ({} : RuntimeHost ident H) inputs
    Books failureText host (accounts.countP (·.verdict.delivered))
      (accounts.filterMap Account.error?) (accounts.flatMap Account.events) ∧
    host.log.filterMap HostEvent.released? = accounts.flatMap Account.buffers := by
  intro host accounts
  have hnew : Books failureText ({} : RuntimeHost ident H) 0 [] [] := by
    refine ⟨rfl, rfl, rfl, rfl, fun target => ?_⟩
    exact Dictionary.get?_empty target
  have hmirrors : Mirrors host _ := mirrors_run failureText inputs
  have hreference : Books failureText (RuntimeHost.run failureText lookupDispatchTarget inputs)
      (accounts.countP (·.verdict.delivered)) _ _ := Books.run (a := []) inputs hnew
  rw [hmirrors.1] at hreference
  have hbooks : Books failureText host (accounts.countP (·.verdict.delivered))
      (accounts.filterMap Account.error?) (accounts.flatMap Account.events) :=
    ⟨hreference.delivered, hreference.failures, hreference.lastFailure, hreference.events,
      hreference.handlers⟩
  refine ⟨hbooks, ?_⟩
  rw [← released_filter, hbooks.events, List.filterMap_flatMap]
  exact List.flatMap_congr fun account _ => released_events account

end CoAkka.Host
