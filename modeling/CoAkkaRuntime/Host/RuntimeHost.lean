import CoAkkaRuntime.Codec.EnvelopeCodec
import CoAkkaRuntime.Dictionary.Basic
import CoAkkaRuntime.Session.AskTicket

/-!
# Host — `RuntimeHost`

The handler table of `RuntimeHost.swift` and the dispatch of delivered request frames. A callback
is an opaque value of `H`; what it answers, and what it and the other threads do to the host until
it returns, is part of the frame, and so is every answer of Core. `failureText` is what the `catch`
records of an error, `String(String(describing: error).prefix(1024))`.

`dispatchRequest` takes the lookup it starts with as an argument: `projectDispatchTarget` is the
source's, with its one-entry cache, and `lookupDispatchTarget` decodes and looks up every target.

* `register` — the checks, the two budgets, the table.
* `dispatchBody` — one frame: target, handler, payload, reply, each step able to throw.
* `recordFailure` — the `catch`, which counts and keeps the text.
* `RuntimeHost.run` — a run of registrations, closes and frames.

Events record what leaves the host: a handler called, a reply submitted, a buffer released.
-/

namespace CoAkka.Host

open Codec Session Throwing

/-! ## The host -/

structure RuntimeRequest where
  messageID : String
  source : String
  target : String
  payload : Data
  oneWay : Bool
  deriving DecidableEq

inductive Handler (H : Type) where
  | rich (callback : H)
  | payload (callback : H)
  deriving DecidableEq, Repr

/-- A callback and what it is called with. -/
inductive HandlerCall (H : Type) where
  | rich (callback : H) (request : RuntimeRequest)
  | payload (callback : H) (payload : Data)

def HandlerCall.handler {H : Type} : HandlerCall H → Handler H
  | .rich callback _ => .rich callback
  | .payload callback _ => .payload callback

/-- What a dispatch throws: an error of the connector, or one of the callback. Reading the frame
may end in a `Fault`, which is an error of the connector unless it is a trap. -/
inductive DispatchError (E : Type) where
  | fault (fault : Fault)
  | handler (error : E)

def DispatchError.runtime {E : Type} (error : RuntimeError) : DispatchError E :=
  .fault (.thrown error)

/-- The successful registrations, the native calls of the dispatches and the calls of handlers, in
order. -/
inductive HostEvent (H : Type) where
  | registered (target : String) (handler : Handler H)
  | copyRequestDispatch (frame : Data)
  | called (call : HandlerCall H)
  | buildRawReply (request : Data) (source : String) (payload : Data)
  | submitEnvelope (wire : Option Address) (length : Int64)
  | bytesRelease (buffer : Option Address)

structure DispatchProjection (H : Type) where
  bytes : Data
  target : String
  handler : Handler H

/-- A host; its handlers are keyed up to `ident`, which stands for the `==` of Swift strings. -/
structure RuntimeHost {I : Type} (ident : String → I) (H : Type) where
  /-- The session is not closing, and has its runtime. -/
  sessionOpen : Bool := true
  handlers : Dictionary ident (Handler H) := .empty
  registrationBytes : Int := 0
  dispatchFailures : UInt64 := 0
  lastDispatchFailure : Option String := none
  dispatchProjection : Option (DispatchProjection H) := none
  deliveredRequests : UInt64 := 0
  log : List (HostEvent H) := []

section Methods

variable {I H E α : Type} {ident : String → I}

abbrev HostM {I : Type} (ident : String → I) (H E : Type) :=
  ExceptT (DispatchError E) (StateM (RuntimeHost ident H))

def RuntimeHost.logged (host : RuntimeHost ident H) (events : List (HostEvent H)) :
    RuntimeHost ident H :=
  { host with log := host.log ++ events }

def note {ε : Type} (event : HostEvent H) : ExceptT ε (StateM (RuntimeHost ident H)) Unit :=
  modify fun host => host.logged [event]

/-- `session.withOpen`, where `closed` makes the error of a closed session. -/
def withOpen {ε : Type} (closed : RuntimeError → ε)
    (operation : ExceptT ε (StateM (RuntimeHost ident H)) α) :
    ExceptT ε (StateM (RuntimeHost ident H)) α := do
  if (← get).sessionOpen then operation else throw (closed .closed)

/-! ## Registration -/

variable [DecidableEq I]

def register (target : String) (handler : Handler H) :
    ExceptT RuntimeError (StateM (RuntimeHost ident H)) Unit := do
  ofExcept (validateCString target "handler target")
  if target.isEmpty then
    throw (.invalidArgument "handler target is empty")
  withOpen id do
    let host ← get
    if (host.handlers.get? target).isSome then
      throw (.invalidArgument "handler target already registered")
    let size := target.utf8ByteSize
    if ¬ (host.handlers.count < 256 ∧ (size : Int) ≤ 64 * 1024 - host.registrationBytes) then
      throw (.resourceLimit "handler registration budget exhausted")
    modify fun host => { host with
      handlers := host.handlers.set target handler
      registrationBytes := host.registrationBytes + size }
    note (.registered target handler)

/-- What other threads, and the callback itself, do to a host. -/
inductive HostAction (H : Type) where
  | register (target : String) (handler : Handler H)
  /-- The session starts to close. -/
  | requestRetirement

def RuntimeHost.act (host : RuntimeHost ident H) : HostAction H → RuntimeHost ident H
  | .register target handler => (exec (register target handler) host).2
  | .requestRetirement => { host with sessionOpen := false }

/-! ## Dispatch -/

/-- The out-parameters of `coakka_swift_copy_request_dispatch` and its status. -/
structure CopyDispatchAnswer where
  status : Int32
  target : Option Address
  targetSize : Int64
  payload : Option Address
  payloadSize : Int64
  oneWay : UInt32
  deriving DecidableEq, Repr

/-- The out-parameters of `coakka_swift_build_raw_reply` and its status. -/
structure BuildAnswer where
  status : Int32
  wire : Option Address
  length : Int64
  deriving DecidableEq, Repr

/-- One delivered frame, and everything its dispatch meets. -/
structure Frame (H E : Type) where
  bytes : Data
  memory : Address → UInt8
  copy : CopyDispatchAnswer
  /-- What the callback answers, and what happens to the host until it does. -/
  respond : HandlerCall H → Except E Data
  meanwhile : List (HostAction H)
  build : BuildAnswer
  submit : Int32

/-- `guard size > 0, let pointer`, and the bytes the buffer then spans. -/
def targetSpan (memory : Address → UInt8) (pointer : Option Address) (size : Int64) :
    Except RuntimeError Data :=
  if 0 < size.toInt ∧ pointer.isSome then
    copyNativeBytes memory pointer size
  else
    .error (.contractViolation "invalid Core dispatch target span")

/-- The target and the handler of a dispatch. -/
abbrev Found (H : Type) := String × Option (Handler H)

/-- The lookup without a cache. -/
def lookupDispatchTarget (memory : Address → UInt8) (pointer : Option Address) (size : Int64) :
    HostM ident H E (Found H) := do
  match targetSpan memory pointer size with
  | .error error => throw (.runtime error)
  | .ok bytes =>
    match bytes.utf8? with
    | none => throw (.runtime (.contractViolation "Core dispatch target is not UTF-8"))
    | some target => return (target, (← get).handlers.get? target)

def projectDispatchTarget (memory : Address → UInt8) (pointer : Option Address) (size : Int64) :
    HostM ident H E (Found H) := do
  match targetSpan memory pointer size with
  | .error error => throw (.runtime error)
  | .ok bytes =>
    -- bytes are compared here, not strings
    match (← get).dispatchProjection.filter (·.bytes = bytes) with
    | some cached => return (cached.target, some cached.handler)
    | none =>
      match bytes.utf8? with
      | none => throw (.runtime (.contractViolation "Core dispatch target is not UTF-8"))
      | some target =>
        let handler := (← get).handlers.get? target
        -- a longer target, or one without a handler, is not cached
        if size.toInt ≤ 256 then
          if let some handler := handler then
            modify fun host => { host with dispatchProjection := some ⟨bytes, target, handler⟩ }
        return (target, handler)

/-- What the handler is called with: a rich one gets the envelope of the frame. -/
def handlerCall (frame : Data) (target : String) (payload : Data) (oneWay : Bool) :
    Handler H → Except (DispatchError E) (HandlerCall H)
  | .payload callback => .ok (.payload callback payload)
  | .rich callback =>
    match decodeEnvelope frame with
    | .error fault => .error (.fault fault)
    | .ok envelope =>
      .ok (.rich callback
        { messageID := envelope.messageID, source := envelope.source, target, payload, oneWay })

def callHandler (f : Frame H E) (call : HandlerCall H) : HostM ident H E Data := do
  note (.called call)
  modify fun host => f.meanwhile.foldl RuntimeHost.act host
  ofExcept ((f.respond call).mapError .handler)

def submitReply (f : Frame H E) (target : String) (response : Data) : HostM ident H E Unit :=
  deferring (modify fun host => host.logged [.bytesRelease f.build.wire]) do
    note (.buildRawReply f.bytes target response)
    ofExcept ((throwIfNativeError f.build.status "build reply").mapError .runtime)
    note (.submitEnvelope f.build.wire f.build.length)
    ofExcept ((throwIfNativeError f.submit "submit reply").mapError .runtime)

/-- A lookup: `projectDispatchTarget` or `lookupDispatchTarget`. -/
abbrev Lookup {I : Type} (ident : String → I) (H E : Type) :=
  (Address → UInt8) → Option Address → Int64 → HostM ident H E (Found H)

/-- The `do` block of `dispatchRequest`, after its lookup. -/
def dispatchTo (f : Frame H E) (target : String) (handler : Option (Handler H)) :
    HostM ident H E Unit := do
  let payload ← ofExcept ((copyNativeBytes f.memory f.copy.payload f.copy.payloadSize).mapError
    .runtime)
  -- counted before anything is known about the handler
  modify fun host => { host with deliveredRequests := host.deliveredRequests + 1 }
  match handler with
  | none => return ()
  | some handler =>
    let call ← ofExcept (handlerCall f.bytes target payload (f.copy.oneWay ≠ 0) handler)
    let response ← callHandler f call
    if f.copy.oneWay ≠ 0 then
      return ()
    -- the session may have started to close while the handler ran
    withOpen .runtime (submitReply f target response)

/-- The `do` block of `dispatchRequest`. -/
def dispatchBody (lookup : Lookup ident H E) (f : Frame H E) : HostM ident H E Unit := do
  -- the native copy is called whatever its status will be
  note (.copyRequestDispatch f.bytes)
  ofExcept ((throwIfNativeError f.copy.status "copy request dispatch").mapError .runtime)
  let (target, handler) ← lookup f.memory f.copy.target f.copy.targetSize
  dispatchTo f target handler

/-- The `catch` block of `dispatchRequest`. -/
def recordFailure (failureText : DispatchError E → String) (error : DispatchError E) :
    StateM (RuntimeHost ident H) Unit :=
  modify fun host => { host with
    dispatchFailures := host.dispatchFailures + 1
    lastDispatchFailure := some (failureText error) }

def dispatchRequest (failureText : DispatchError E → String) (lookup : Lookup ident H E)
    (f : Frame H E) : StateM (RuntimeHost ident H) Unit := do
  match ← (dispatchBody lookup f).run with
  | .ok () => pure ()
  | .error error => recordFailure failureText error
  -- the `defer` of the whole method
  modify fun host => host.logged [.bytesRelease f.copy.target, .bytesRelease f.copy.payload]

/-! ## Runs -/

/-- What happens to a host: the frames are dispatched one after the other. -/
inductive HostInput (H E : Type) where
  | act (action : HostAction H)
  | frame (f : Frame H E)

def RuntimeHost.step (failureText : DispatchError E → String) (lookup : Lookup ident H E)
    (host : RuntimeHost ident H) : HostInput H E → RuntimeHost ident H
  | .act action => host.act action
  | .frame f => ((dispatchRequest failureText lookup f).run host).2

def RuntimeHost.run (failureText : DispatchError E → String) (lookup : Lookup ident H E)
    (inputs : List (HostInput H E)) : RuntimeHost ident H :=
  inputs.foldl (RuntimeHost.step failureText lookup) {}

end Methods

end CoAkka.Host
