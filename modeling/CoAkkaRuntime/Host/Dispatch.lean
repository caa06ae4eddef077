import CoAkkaRuntime.Host.RuntimeHost
import CoAkkaRuntime.Throwing.Simulation

/-!
# Host — the cached dispatch is the uncached one

The one entry of the dispatch cache is never invalidated, and need not be: the handler table is
append-only, so what a found target stood for it stands for in every later state, and a miss is not
remembered. `Mirrors` says so for a host and the same host without a cache; every part of a
dispatch, and everything that happens to a host in between, keeps it.

* `Keeps`, `RegisterRun` — what a registration leaves alone.
* `Mirrors.act`, `Mirrors.acts` — the relation is kept by everything that is not the dispatch.
* `projectDispatchTarget_mirrors`, `dispatchBody_mirrors` — by the lookup and by the rest of it.
* `BodyRun`, `dispatchBody_run` — the ways through the body of a dispatch, with their events in
  order.

The relation is a function of the host (its `uncached` copy) and an invariant of it (`Projected`),
so the simulation is proved with the rules of `Throwing.Simulation`.
-/

namespace CoAkka.Host

open Codec Session Throwing

variable {I H E α : Type} [DecidableEq I] {ident : String → I}

/-- The host without its cache. -/
def RuntimeHost.uncached (host : RuntimeHost ident H) : RuntimeHost ident H :=
  { host with dispatchProjection := none }

/-- The cached entry is what the table says now. -/
def RuntimeHost.Projected (host : RuntimeHost ident H) : Prop :=
  ∀ cached ∈ host.dispatchProjection, cached.bytes.utf8? = some cached.target ∧
    host.handlers.get? cached.target = some cached.handler

/-- The second host is the first one without its cache, whose entry is right. -/
def Mirrors (host reference : RuntimeHost ident H) : Prop :=
  reference = host.uncached ∧ host.Projected

/-! ## What the rest of a host does to the cache

Only a dispatch writes the cache, and a registration never takes back what a cached entry says.
-/

/-- A host after a step that leaves the cache alone and removes no handler. -/
structure Keeps (host host' : RuntimeHost ident H) : Prop where
  projection : host'.dispatchProjection = host.dispatchProjection
  handlers : ∀ target handler, host.handlers.get? target = some handler →
    host'.handlers.get? target = some handler

/-- A host that keeps its table keeps what the cache projects of it. -/
theorem Keeps.projected {host host' : RuntimeHost ident H} (h : Keeps host host')
    (hprojected : host.Projected) : host'.Projected := by
  intro cached hcached
  rw [h.projection] at hcached
  obtain ⟨hutf8, hhandler⟩ := hprojected cached hcached
  exact ⟨hutf8, h.handlers _ _ hhandler⟩

/-- What `register` does. -/
inductive RegisterRun (host : RuntimeHost ident H) (target : String) (handler : Handler H) :
    Except RuntimeError Unit × RuntimeHost ident H → Prop where
  | invalid (error : RuntimeError) (hinvalid : validateCString target "handler target" = .error error) :
      RegisterRun host target handler (.error error, host)
  | empty (hempty : target = "") :
      RegisterRun host target handler (.error (.invalidArgument "handler target is empty"), host)
  | closed (hclosed : host.sessionOpen = false) :
      RegisterRun host target handler (.error .closed, host)
  | duplicate (hvalid : validateCString target "handler target" = .ok ()) (hnonempty : target ≠ "")
      (old : Handler H) (hold : host.handlers.get? target = some old) :
      RegisterRun host target handler
        (.error (.invalidArgument "handler target already registered"), host)
  | exhausted (hnew : host.handlers.get? target = none)
      (hfull : ¬ (host.handlers.count < 256 ∧
        (target.utf8ByteSize : Int) ≤ 64 * 1024 - host.registrationBytes)) :
      RegisterRun host target handler
        (.error (.resourceLimit "handler registration budget exhausted"), host)
  | registered (hvalid : validateCString target "handler target" = .ok ()) (hnonempty : target ≠ "")
      (hopen : host.sessionOpen = true) (hnew : host.handlers.get? target = none)
      (hroom : host.handlers.count < 256 ∧
        (target.utf8ByteSize : Int) ≤ 64 * 1024 - host.registrationBytes) :
      RegisterRun host target handler (.ok (), { host with
        handlers := host.handlers.set target handler
        registrationBytes := host.registrationBytes + target.utf8ByteSize
        log := host.log ++ [.registered target handler] })

/-- What `register` does, by the check that decides. -/
theorem exec_register (host : RuntimeHost ident H) (target : String) (handler : Handler H) :
    RegisterRun host target handler (exec (register target handler) host) := by
  unfold register
  -- one case per check of the source, in its order
  cases hvalid : validateCString target "handler target" with
  | error error =>
    have hrun : RegisterRun host target handler _ := .invalid error hvalid
    simpa [exec_bind] using hrun
  | ok =>
    by_cases hempty : target = ""
    · have hrun : RegisterRun host target handler _ := .empty hempty
      simpa [exec_bind, hempty] using hrun
    cases hopen : host.sessionOpen with
    | false =>
      have hrun : RegisterRun host target handler _ := .closed hopen
      simpa [exec_bind, hempty, withOpen, hopen] using hrun
    | true =>
      cases hget : host.handlers.get? target with
      | some old =>
        have hrun : RegisterRun host target handler _ :=
          .duplicate hvalid hempty old hget
        simpa [exec_bind, hempty, withOpen, hopen, hget] using hrun
      | none =>
        by_cases hcount : host.handlers.count < 256
        · by_cases hsize : 65536 - host.registrationBytes < target.utf8ByteSize
          · have hrun : RegisterRun host target handler _ := .exhausted hget (by omega)
            simpa [exec_bind, hempty, withOpen, hopen, hget, hcount, hsize] using hrun
          · have hrun : RegisterRun host target handler _ :=
              .registered hvalid hempty hopen hget ⟨hcount, by omega⟩
            simpa [exec_bind, hempty, withOpen, hopen, hget, hcount, hsize, note,
              RuntimeHost.logged] using hrun
        · have hrun : RegisterRun host target handler _ := .exhausted hget (by omega)
          simpa [exec_bind, hempty, withOpen, hopen, hget, hcount] using hrun

/-- A registration keeps the cache in step with the table. -/
theorem register_keeps (host : RuntimeHost ident H) (target : String) (handler : Handler H) :
    Keeps host (exec (register target handler) host).2 := by
  have hrun := exec_register host target handler
  generalize exec (register target handler) host = out at hrun
  cases hrun with
  | invalid | empty | closed | duplicate | exhausted => exact ⟨rfl, fun _ _ h => h⟩
  | registered _ _ _ hnew _ =>
    refine ⟨rfl, fun target' handler' hget => ?_⟩
    show (host.handlers.set target handler).get? target' = some handler'
    rw [Dictionary.get?_set]
    split
    · -- the table would have had a handler for the new target
      next heq =>
      rw [← Dictionary.get?_congr _ heq, hnew] at hget
      cases hget
    · exact hget

/-- Registration does not look at the cache. -/
theorem register_uncached (host : RuntimeHost ident H) (target : String) (handler : Handler H) :
    (exec (register target handler) host.uncached).2
      = (exec (register target handler) host).2.uncached := by
  have hrun := exec_register host target handler
  have hrun' := exec_register host.uncached target handler
  generalize exec (register target handler) host = out at hrun
  generalize exec (register target handler) host.uncached = out' at hrun'
  -- the same guards decide both runs
  cases hrun <;> cases hrun' <;> first
    | rfl
    | (next hfull _ _ _ _ hroom => exact absurd hroom hfull)
    | (next hroom _ hfull => exact absurd hroom hfull)
    | simp_all [RuntimeHost.uncached]

variable {host reference : RuntimeHost ident H}

/-- The two dispatchers are still one after an action of the application. -/
theorem Mirrors.act (h : Mirrors host reference) (action : HostAction H) :
    Mirrors (host.act action) (reference.act action) := by
  obtain ⟨rfl, hprojected⟩ := h
  cases action with
  | register target handler =>
    exact ⟨register_uncached host target handler,
      (register_keeps host target handler).projected hprojected⟩
  | requestRetirement => exact ⟨rfl, hprojected⟩

/-- And after any number of them. -/
theorem Mirrors.acts (h : Mirrors host reference) (actions : List (HostAction H)) :
    Mirrors (actions.foldl RuntimeHost.act host) (actions.foldl RuntimeHost.act reference) := by
  induction actions generalizing host reference with
  | nil => exact h
  | cons action actions ih => exact ih (h.act action)

theorem Mirrors.logged (h : Mirrors host reference) (events : List (HostEvent H)) :
    Mirrors (host.logged events) (reference.logged events) := by
  obtain ⟨rfl, hprojected⟩ := h
  exact ⟨rfl, hprojected⟩

/-- The steps of a dispatch go in parallel on both sides, from the single note up to the whole body.
-/
theorem note_mirrors {ε : Type} (event : HostEvent H) :
    Simulates (Mirrors : RuntimeHost ident H → RuntimeHost ident H → Prop)
      (note event : ExceptT ε (StateM (RuntimeHost ident H)) Unit) (note event) :=
  .modify fun _ _ h => h.logged [event]

/-! ## The dispatch -/

/-- **The lookups.** What the cache answers, the table answers. -/
theorem projectDispatchTarget_mirrors (memory : Address → UInt8) (pointer : Option Address)
    (size : Int64) :
    Simulates Mirrors (projectDispatchTarget memory pointer size : HostM ident H E (Found H))
      (lookupDispatchTarget memory pointer size) := by
  rintro host _ ⟨rfl, hprojected⟩
  unfold projectDispatchTarget lookupDispatchTarget
  cases targetSpan memory pointer size with
  | error error => exact ⟨rfl, rfl, hprojected⟩
  | ok bytes =>
    dsimp only
    rw [exec_get_bind]
    cases hcached : host.dispatchProjection.filter (·.bytes = bytes) with
    | some cached =>
      -- a hit: the bytes decode to the cached target, and the table still has its handler
      obtain ⟨hmem, hbytes⟩ := Option.filter_eq_some_iff.mp hcached
      obtain ⟨hutf8, hhandler⟩ := hprojected cached hmem
      rw [decide_eq_true_eq] at hbytes
      rw [← hbytes, hutf8]
      refine ⟨?_, rfl, hprojected⟩
      show Except.ok (cached.target, some cached.handler)
        = .ok (cached.target, host.handlers.get? cached.target)
      rw [hhandler]
    | none =>
      -- a miss: both look the target up in the same table
      cases hutf8 : bytes.utf8? with
      | none => exact ⟨rfl, rfl, hprojected⟩
      | some target =>
        dsimp only
        rw [exec_get_bind, exec_get_bind]
        by_cases hsize : size.toInt ≤ 256
        · rw [if_pos hsize]
          cases hget : host.handlers.get? target with
          | none => exact ⟨by simp [RuntimeHost.uncached, hget], rfl, hprojected⟩
          | some handler =>
            refine ⟨by simp [RuntimeHost.uncached, hget, Except.map], rfl, ?_⟩
            -- the new entry is right by the lookup that made it
            rintro cached hmem
            obtain rfl := Option.some.inj hmem
            exact ⟨hutf8, hget⟩
        · rw [if_neg hsize]
          exact ⟨rfl, rfl, hprojected⟩

theorem callHandler_mirrors (f : Frame H E) (call : HandlerCall H) :
    Simulates Mirrors (callHandler f call : HostM ident H E Data) (callHandler f call) :=
  (note_mirrors _).bind fun _ => (Simulates.modify fun _ _ h => h.acts f.meanwhile).bind fun _ =>
    .ofExcept _

theorem submitReply_mirrors (f : Frame H E) (target : String) (response : Data) :
    Simulates Mirrors (submitReply f target response : HostM ident H E Unit)
      (submitReply f target response) := by
  refine .deferring ?_ fun _ _ h => h.logged _
  refine (note_mirrors _).bind fun _ => (Simulates.ofExcept _).bind fun _ => ?_
  exact (note_mirrors _).bind fun _ => .ofExcept _

theorem withOpen_mirrors {operation : HostM ident H E α} (h : Simulates Mirrors operation operation) :
    Simulates Mirrors (withOpen .runtime operation) (withOpen .runtime operation) := by
  refine .get_bind ?_
  rintro host _ ⟨rfl, hprojected⟩
  show Agree Mirrors (exec (if host.sessionOpen then _ else _) _)
    (exec (if host.sessionOpen then _ else _) _)
  cases host.sessionOpen with
  | false => exact Simulates.throw _ _ _ ⟨rfl, hprojected⟩
  | true => exact h _ _ ⟨rfl, hprojected⟩

/-- **One dispatch.** The cached lookup and the plain one find the same handler, and everything
behind them runs alike. -/
theorem dispatchBody_mirrors (f : Frame H E) :
    Simulates Mirrors (dispatchBody projectDispatchTarget f : HostM ident H E Unit)
      (dispatchBody lookupDispatchTarget f) := by
  refine (note_mirrors _).bind fun _ => (Simulates.ofExcept _).bind fun _ => ?_
  refine (projectDispatchTarget_mirrors _ _ _).bind fun (target, handler) => ?_
  unfold dispatchTo
  refine (Simulates.ofExcept _).bind fun payload => (Simulates.modify ?_).bind fun _ => ?_
  · rintro host _ ⟨rfl, hprojected⟩
    exact ⟨rfl, hprojected⟩
  cases handler with
  | none => exact .pure ()
  | some handler =>
    refine (Simulates.ofExcept _).bind fun call => (callHandler_mirrors f call).bind fun response => ?_
    split
    · exact .pure ()
    · exact withOpen_mirrors (submitReply_mirrors f target response)

/-- The host after the `do` block and the `catch` block of a dispatch. -/
def RuntimeHost.caught (failureText : DispatchError E → String) :
    Except (DispatchError E) Unit × RuntimeHost ident H → RuntimeHost ident H
  | (.ok (), host) => host
  | (.error error, host) => ((recordFailure failureText error).run host).2

omit [DecidableEq I] in
/-- Catching a failure calls nothing. -/
@[simp] theorem RuntimeHost.caught_log (failureText : DispatchError E → String)
    (out : Except (DispatchError E) Unit × RuntimeHost ident H) :
    (caught failureText out).log = out.2.log := by
  obtain ⟨_ | _, host⟩ := out <;> rfl

/-- A dispatch is its body, whose failure is caught, and the release of both buffers. -/
theorem run_dispatchRequest (failureText : DispatchError E → String) (lookup : Lookup ident H E)
    (f : Frame H E) (host : RuntimeHost ident H) :
    ((dispatchRequest failureText lookup f).run host).2 =
      (RuntimeHost.caught failureText (exec (dispatchBody lookup f) host)).logged
        [.bytesRelease f.copy.target, .bytesRelease f.copy.payload] := by
  rw [dispatchRequest, run_run_bind]
  obtain ⟨out, host'⟩ := exec (dispatchBody lookup f) host
  cases out <;> rfl

/-- **A dispatch keeps the two hosts alike.** -/
theorem Mirrors.dispatchRequest (h : Mirrors host reference) (failureText : DispatchError E → String)
    (f : Frame H E) :
    Mirrors ((dispatchRequest failureText projectDispatchTarget f).run host).2
      ((dispatchRequest failureText lookupDispatchTarget f).run reference).2 := by
  obtain ⟨hout, hbody⟩ := dispatchBody_mirrors f host reference h
  rw [run_dispatchRequest, run_dispatchRequest]
  apply Mirrors.logged
  generalize exec (dispatchBody projectDispatchTarget f) host = a at hout hbody
  generalize exec (dispatchBody lookupDispatchTarget f) reference = b at hout hbody
  obtain ⟨out, host'⟩ := a
  obtain ⟨out', reference'⟩ := b
  obtain rfl : out = out' := hout
  cases out with
  | ok => exact hbody
  | error error =>
    obtain ⟨rfl, hprojected⟩ := hbody
    exact ⟨rfl, hprojected⟩

/-! ## What a dispatch does

The lookup aside, the body of a dispatch has seven ways to go; the rest of the development argues
over these.
-/

/-- A lookup writes the cache, if anything. -/
def Lookup.Quiet (lookup : Lookup ident H E) : Prop :=
  ∀ memory pointer size host, ∃ dispatchProjection,
    (exec (lookup memory pointer size) host).2 = { host with dispatchProjection }

/-- A lookup calls nothing and changes nothing, whether it asks the table or the cache. -/
theorem lookupDispatchTarget_quiet :
    Lookup.Quiet (lookupDispatchTarget : Lookup ident H E) := by
  intro memory pointer size host
  refine ⟨host.dispatchProjection, ?_⟩
  unfold lookupDispatchTarget
  cases targetSpan memory pointer size with
  | error error => rfl
  | ok bytes =>
    dsimp only
    cases bytes.utf8? <;> rfl

theorem projectDispatchTarget_quiet :
    Lookup.Quiet (projectDispatchTarget : Lookup ident H E) := by
  intro memory pointer size host
  unfold projectDispatchTarget
  cases targetSpan memory pointer size with
  | error error => exact ⟨_, rfl⟩
  | ok bytes =>
    dsimp only
    rw [exec_get_bind]
    cases host.dispatchProjection.filter (·.bytes = bytes) with
    | some cached => exact ⟨_, rfl⟩
    | none =>
      cases bytes.utf8? with
      | none => exact ⟨_, rfl⟩
      | some target =>
        dsimp only
        rw [exec_get_bind]
        split
        · cases host.handlers.get? target with
          | none => exact ⟨_, rfl⟩
          | some handler => exact ⟨some ⟨bytes, target, handler⟩, rfl⟩
        · exact ⟨_, rfl⟩

/-- The host when a callback has returned. -/
def RuntimeHost.answered (host : RuntimeHost ident H) (f : Frame H E) (call : HandlerCall H) :
    RuntimeHost ident H :=
  f.meanwhile.foldl RuntimeHost.act
    ({ host with deliveredRequests := host.deliveredRequests + 1 }.logged [.called call])

/-- The events of a reply. -/
def replyEvents (f : Frame H E) (target : String) (response : Data) : List (HostEvent H) :=
  .buildRawReply f.bytes target response ::
    ((if f.build.status = Status.ok then [.submitEnvelope f.build.wire f.build.length] else []) ++
      [.bytesRelease f.build.wire])

omit [DecidableEq I] in
/-- What a reply leaves in the log. -/
theorem exec_submitReply (f : Frame H E) (target : String) (response : Data)
    (host : RuntimeHost ident H) :
    (exec (submitReply f target response) host).2 = host.logged (replyEvents f target response) := by
  by_cases hstatus : f.build.status = Status.ok
  · simp [submitReply, replyEvents, throwIfNativeError, hstatus, exec_bind, note,
      RuntimeHost.logged, Except.mapError]
    rfl
  · simp [submitReply, replyEvents, throwIfNativeError, hstatus, exec_bind, note,
      RuntimeHost.logged, Except.mapError]
    rfl

/-- The ways through the `do` block of a dispatch, after its lookup. -/
inductive BodyRun (f : Frame H E) (looked : RuntimeHost ident H) (target : String)
    (handler : Option (Handler H)) : Except (DispatchError E) Unit × RuntimeHost ident H → Prop where
  | payload (error : DispatchError E) : BodyRun f looked target handler (.error error, looked)
  | missing (hhandler : handler = none) : BodyRun f looked target handler
      (.ok (), { looked with deliveredRequests := looked.deliveredRequests + 1 })
  | undecoded (error : DispatchError E) : BodyRun f looked target handler
      (.error error, { looked with deliveredRequests := looked.deliveredRequests + 1 })
  | threw (call : HandlerCall H) (error : E) (hhandler : handler = some call.handler)
      (hrespond : f.respond call = .error error) :
      BodyRun f looked target handler (.error (.handler error), looked.answered f call)
  | oneWay (call : HandlerCall H) (hhandler : handler = some call.handler)
      (honeWay : f.copy.oneWay ≠ 0) :
      BodyRun f looked target handler (.ok (), looked.answered f call)
  | closed (call : HandlerCall H) (hhandler : handler = some call.handler)
      (hclosed : (looked.answered f call).sessionOpen = false) :
      BodyRun f looked target handler (.error (.runtime .closed), looked.answered f call)
  | replied (call : HandlerCall H) (response : Data) (outcome : Except (DispatchError E) Unit)
      (hhandler : handler = some call.handler) (hrespond : f.respond call = .ok response)
      (honeWay : f.copy.oneWay = 0) (hopen : (looked.answered f call).sessionOpen = true) :
      BodyRun f looked target handler
        (outcome, (looked.answered f call).logged (replyEvents f target response))

/-- The handler that was found is the one that is called. -/
theorem handlerCall_handler {frame : Data} {target : String} {payload : Data} {oneWay : Bool}
    {handler : Handler H} {call : HandlerCall H}
    (h : (handlerCall frame target payload oneWay handler : Except (DispatchError E) _) = .ok call) :
    call.handler = handler := by
  cases handler with
  | payload callback =>
    cases h
    rfl
  | rich callback =>
    unfold handlerCall at h
    cases hdecode : decodeEnvelope frame with
    | error fault =>
      simp only [hdecode] at h
      cases h
    | ok envelope =>
      simp only [hdecode] at h
      cases h
      rfl

/-- How the rest of a dispatch goes once its target is known. -/
theorem exec_dispatchTo (f : Frame H E) (looked : RuntimeHost ident H) (target : String)
    (handler : Option (Handler H)) :
    BodyRun f looked target handler (exec (dispatchTo f target handler) looked) := by
  unfold dispatchTo
  cases hpayload : (copyNativeBytes f.memory f.copy.payload f.copy.payloadSize).mapError
    (DispatchError.runtime : RuntimeError → DispatchError E) with
  | error error =>
    rw [exec_bind_error (exec_ofExcept _ _)]
    exact .payload error
  | ok payload =>
    rw [exec_bind_ok (exec_ofExcept _ _), exec_modify_bind]
    cases handler with
    -- the request counts as delivered before the handler is looked at
    | none => exact .missing rfl
    | some handler =>
      dsimp only
      cases hcall : (handlerCall f.bytes target payload (f.copy.oneWay ≠ 0) handler :
          Except (DispatchError E) _) with
      | error error =>
        rw [exec_bind_error (exec_ofExcept _ _)]
        exact .undecoded error
      | ok call =>
        have hhandler := congrArg some (handlerCall_handler hcall).symm
        rw [exec_bind_ok (exec_ofExcept _ _)]
        have hcalled : exec (callHandler f call) { looked with
            deliveredRequests := looked.deliveredRequests + 1 }
            = ((f.respond call).mapError DispatchError.handler, looked.answered f call) := by
          simp [callHandler, note, RuntimeHost.answered]
        cases hrespond : f.respond call with
        | error error =>
          rw [hrespond] at hcalled
          rw [exec_bind_error hcalled]
          exact .threw call error hhandler hrespond
        | ok response =>
          rw [hrespond] at hcalled
          rw [exec_bind_ok hcalled]
          -- a reply is due, and goes out only where the session is open after the handler
          by_cases honeWay : f.copy.oneWay = 0
          · rw [if_neg (not_not.mpr honeWay), withOpen, exec_get_bind]
            cases hopen : (looked.answered f call).sessionOpen with
            | false => exact .closed call hhandler hopen
            | true =>
              have hreplied := exec_submitReply f target response (looked.answered f call)
              have hrun : BodyRun f looked target (some handler)
                  (_, (looked.answered f call).logged (replyEvents f target response)) :=
                .replied call response (exec (submitReply f target response)
                  (looked.answered f call)).1 hhandler hrespond honeWay hopen
              rwa [← hreplied] at hrun
          · rw [if_pos honeWay]
            exact .oneWay call hhandler honeWay

/-- **A dispatch** is refused before it has a target, or is one of the ways behind its lookup. -/
theorem dispatchBody_run {lookup : Lookup ident H E} (hquiet : lookup.Quiet) (f : Frame H E)
    (host : RuntimeHost ident H) :
    (∃ error dispatchProjection, exec (dispatchBody lookup f) host
      = (.error error, { host.logged [.copyRequestDispatch f.bytes] with dispatchProjection })) ∨
    ∃ target handler dispatchProjection,
      (exec (lookup f.memory f.copy.target f.copy.targetSize)
        (host.logged [.copyRequestDispatch f.bytes])).1 = .ok (target, handler) ∧
      BodyRun f { host.logged [.copyRequestDispatch f.bytes] with dispatchProjection } target handler
        (exec (dispatchBody lookup f) host) := by
  unfold dispatchBody
  rw [note, exec_modify_bind]
  cases hstatus : (throwIfNativeError f.copy.status "copy request dispatch").mapError
    (DispatchError.runtime : RuntimeError → DispatchError E) with
  | error error =>
    rw [exec_bind_error (exec_ofExcept _ _)]
    exact .inl ⟨error, _, rfl⟩
  | ok =>
    rw [exec_bind_ok (exec_ofExcept _ _)]
    -- whichever lookup it is, it changes nothing but the cache
    obtain ⟨dispatchProjection, hlooked⟩ := hquiet f.memory f.copy.target f.copy.targetSize
      (host.logged [.copyRequestDispatch f.bytes])
    cases hlookup : exec (lookup f.memory f.copy.target f.copy.targetSize)
        (host.logged [.copyRequestDispatch f.bytes]) with
    | mk out looked =>
      rw [hlookup] at hlooked
      obtain rfl : looked = _ := hlooked
      cases out with
      | error error =>
        rw [exec_bind_error hlookup]
        exact .inl ⟨error, _, rfl⟩
      | ok found =>
        obtain ⟨target, handler⟩ := found
        rw [exec_bind_ok hlookup]
        exact .inr ⟨target, handler, dispatchProjection, rfl, exec_dispatchTo f _ target handler⟩

end CoAkka.Host
