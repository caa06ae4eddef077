import CoAkkaRuntime.Host.Dispatch

/-!
# Host — the law of a dispatch

What one dispatch may do to the outside: at most one handler is called and at most one reply is
submitted, and a failure is counted exactly when a step of the dispatch throws. The law holds for
both lookups, and over any run the cached dispatcher is the uncached one.

* `ActsRun` — what other threads add to the log while a frame is dispatched.
* `BodyLaw`, `FrameLaw` — the bounds for the body of a dispatch, and for the frame with the `catch`.
* `BodyLaw.of_run` — each way through the body obeys the law, one case per constructor of `BodyRun`.
* `dispatch_refines_uncached` — the law of every frame of a run, and the simulation over the run.
-/

namespace CoAkka.Host

open Codec Session Throwing

variable {I H E : Type} [DecidableEq I] {ident : String → I}

/-! ## The events of a dispatch -/

namespace HostEvent

def isCall : HostEvent H → Bool
  | .called _ => true
  | _ => false

def isSubmit : HostEvent H → Bool
  | .submitEnvelope _ _ => true
  | _ => false

def isRegistered : HostEvent H → Bool
  | .registered _ _ => true
  | _ => false

end HostEvent

/-- A host after some registrations and retirements. -/
structure ActsRun (host host' : RuntimeHost ident H) (registrations : List (HostEvent H)) : Prop where
  log : host'.log = host.log ++ registrations
  registered : ∀ e ∈ registrations, e.isRegistered = true
  failures : host'.dispatchFailures = host.dispatchFailures
  lastFailure : host'.lastDispatchFailure = host.lastDispatchFailure
  sealed : host'.sessionOpen = true → host.sessionOpen = true

/-- An action of the application registers or retires, and calls nothing. -/
theorem act_run (host : RuntimeHost ident H) (action : HostAction H) :
    ∃ registrations, ActsRun host (host.act action) registrations := by
  cases action with
  | requestRetirement => exact ⟨[], (List.append_nil _).symm, by simp, rfl, rfl, fun h => by cases h⟩
  | register target handler =>
    have hrun := exec_register host target handler
    show ∃ registrations, ActsRun host (exec (register target handler) host).2 registrations
    generalize exec (register target handler) host = out at hrun
    cases hrun with
    | invalid | empty | closed | duplicate | exhausted =>
      exact ⟨[], (List.append_nil _).symm, by simp, rfl, rfl, id⟩
    | registered =>
      exact ⟨[.registered target handler], rfl, by simp [HostEvent.isRegistered], rfl, rfl, id⟩

/-- So do any number of them. -/
theorem acts_run (host : RuntimeHost ident H) (actions : List (HostAction H)) :
    ∃ registrations, ActsRun host (actions.foldl RuntimeHost.act host) registrations := by
  induction actions generalizing host with
  | nil => exact ⟨[], (List.append_nil _).symm, by simp, rfl, rfl, id⟩
  | cons action actions ih =>
    obtain ⟨first, hfirst⟩ := act_run host action
    obtain ⟨rest, hrest⟩ := ih (host.act action)
    refine ⟨first ++ rest, ?_, ?_, hrest.failures.trans hfirst.failures,
      hrest.lastFailure.trans hfirst.lastFailure, hfirst.sealed ∘ hrest.sealed⟩
    · rw [List.foldl_cons, hrest.log, hfirst.log, List.append_assoc]
    · intro e he
      exact (List.mem_append.mp he).elim (hfirst.registered e) (hrest.registered e)

/-- A session that starts to close stays closed. -/
theorem acts_sealed {host : RuntimeHost ident H} {actions : List (HostAction H)}
    (h : host.sessionOpen = false ∨ .requestRetirement ∈ actions) :
    (actions.foldl RuntimeHost.act host).sessionOpen = false := by
  induction actions generalizing host with
  | nil => exact h.resolve_right List.not_mem_nil
  | cons action actions ih =>
    apply ih
    rcases h with hclosed | hmem
    · left
      obtain ⟨_, hrun⟩ := act_run host action
      by_contra hopen
      rw [hrun.sealed (by simpa using hopen)] at hclosed
      cases hclosed
    · rcases List.mem_cons.mp hmem with rfl | hrest
      · exact .inl rfl
      · exact .inr hrest

/-! ## The law

The bounds of one dispatch, first for the body and then for the frame around it.
-/

/-- Some step of the dispatch throws. -/
def Threw (lookup : Lookup ident H E) (host : RuntimeHost ident H) (f : Frame H E) : Prop :=
  ∃ error, (exec (dispatchBody lookup f) host).1 = .error error

/-- What the dispatch of `f` does, which leads from `host` to `host'` and adds `events`. -/
structure FrameLaw (lookup : Lookup ident H E) (f : Frame H E) (host host' : RuntimeHost ident H)
    (events : List (HostEvent H)) : Prop where
  log : host'.log = host.log ++ events
  /-- A handler that is called is the one the lookup found. -/
  calls : events.countP HostEvent.isCall ≤ 1
  found : ∀ call, .called call ∈ events → ∃ target,
    (exec (lookup f.memory f.copy.target f.copy.targetSize)
      (host.logged [.copyRequestDispatch f.bytes])).1 = .ok (target, some call.handler)
  /-- A reply is submitted at most once, and only where one is due. -/
  submits : events.countP HostEvent.isSubmit ≤ 1
  oneWay : f.copy.oneWay ≠ 0 → events.countP HostEvent.isSubmit = 0
  unanswered : (∀ call response, .called call ∈ events → f.respond call ≠ .ok response) →
    events.countP HostEvent.isSubmit = 0
  closed : host.sessionOpen = false ∨ .requestRetirement ∈ f.meanwhile →
    events.countP HostEvent.isSubmit = 0
  failed : Threw lookup host f → host'.dispatchFailures = host.dispatchFailures + 1
  succeeded : ¬ Threw lookup host f → host'.dispatchFailures = host.dispatchFailures ∧
    host'.lastDispatchFailure = host.lastDispatchFailure

/-- The events of the body of a dispatch. -/
structure BodyLaw (f : Frame H E) (looked host' : RuntimeHost ident H) (handler : Option (Handler H))
    (events : List (HostEvent H)) : Prop where
  log : host'.log = looked.log ++ events
  calls : events.countP HostEvent.isCall ≤ 1
  found : ∀ call, .called call ∈ events → handler = some call.handler
  submits : events.countP HostEvent.isSubmit ≤ 1
  due : 0 < events.countP HostEvent.isSubmit → f.copy.oneWay = 0 ∧
    (∃ call response, .called call ∈ events ∧ f.respond call = .ok response) ∧
    ¬ (looked.sessionOpen = false ∨ .requestRetirement ∈ f.meanwhile)
  failures : host'.dispatchFailures = looked.dispatchFailures
  lastFailure : host'.lastDispatchFailure = looked.lastDispatchFailure

/-- Registrations count for nothing else. -/
theorem countP_registrations {registrations : List (HostEvent H)} {q : HostEvent H → Bool}
    (h : ∀ e ∈ registrations, e.isRegistered = true)
    (hq : ∀ target handler, q (.registered target handler) = false) : registrations.countP q = 0 := by
  apply List.countP_eq_zero.mpr
  intro e he
  have hregistered := h e he
  cases e with
  | registered target handler => simp [hq]
  | copyRequestDispatch | called | buildRawReply | submitEnvelope | bytesRelease => cases hregistered

theorem called_notMem {registrations : List (HostEvent H)}
    (h : ∀ e ∈ registrations, e.isRegistered = true) (call : HandlerCall H) :
    .called call ∉ registrations := fun hmem => by cases h _ hmem

section Body

variable {f : Frame H E} {looked : RuntimeHost ident H} {target : String}
  {handler : Option (Handler H)}

omit [DecidableEq I] in
/-- A body that calls no handler. -/
theorem BodyLaw.silent {host' : RuntimeHost ident H} (hlog : host'.log = looked.log)
    (hfailures : host'.dispatchFailures = looked.dispatchFailures)
    (hlast : host'.lastDispatchFailure = looked.lastDispatchFailure) :
    BodyLaw f looked host' handler [] :=
  ⟨by rw [hlog, List.append_nil], Nat.zero_le 1, by simp, Nat.zero_le 1, by simp, hfailures, hlast⟩

/-- A session that was retired while the handler ran is closed behind it. -/
theorem answered_sealed {call : HandlerCall H}
    (h : looked.sessionOpen = false ∨ .requestRetirement ∈ f.meanwhile) :
    (looked.answered f call).sessionOpen = false := acts_sealed h

/-- A body that calls a handler and does not reply. -/
theorem BodyLaw.called (looked : RuntimeHost ident H) (call : HandlerCall H)
    (hhandler : handler = some call.handler) :
    ∃ registrations, (∀ e ∈ registrations, e.isRegistered = true) ∧
      BodyLaw f looked (looked.answered f call) handler (.called call :: registrations) := by
  obtain ⟨registrations, hrun⟩ := acts_run
    ({ looked with deliveredRequests := looked.deliveredRequests + 1 }.logged [.called call]) f.meanwhile
  -- what other threads register while the callback runs stands behind its call
  refine ⟨registrations, hrun.registered, ?_, ?_, ?_, ?_, ?_, hrun.failures, hrun.lastFailure⟩
  · rw [RuntimeHost.answered, hrun.log]
    exact List.append_assoc _ [_] _
  · rw [List.countP_cons, countP_registrations hrun.registered (fun _ _ => rfl)]
    exact Nat.le_refl 1
  · intro other hmem
    rcases List.mem_cons.mp hmem with hsame | hin
    · rw [HostEvent.called.inj hsame]
      exact hhandler
    · exact absurd hin (called_notMem hrun.registered other)
  · rw [List.countP_cons, countP_registrations hrun.registered (fun _ _ => rfl)]
    exact Nat.zero_le 1
  · intro hpos
    rw [List.countP_cons, countP_registrations hrun.registered (fun _ _ => rfl)] at hpos
    simp [HostEvent.isSubmit] at hpos

/-- A reply calls no handler, and submits once at most. -/
theorem countP_replyEvents (target : String) (response : Data) :
    (replyEvents f target response).countP HostEvent.isCall = 0 ∧
      (replyEvents f target response).countP HostEvent.isSubmit ≤ 1 := by
  unfold replyEvents
  split
  · exact ⟨rfl, Nat.le_refl 1⟩
  · exact ⟨rfl, Nat.zero_le 1⟩

/-- The bounds for the body of a dispatch, whichever way it went. -/
theorem BodyLaw.of_run {outcome : Except (DispatchError E) Unit} {host' : RuntimeHost ident H}
    (h : BodyRun f looked target handler (outcome, host')) :
    ∃ events, BodyLaw f looked host' handler events := by
  cases h with
  | payload | missing | undecoded => exact ⟨[], .silent rfl rfl rfl⟩
  | threw call _ hhandler | oneWay call hhandler | closed call hhandler =>
    obtain ⟨registrations, -, hlaw⟩ := BodyLaw.called (f := f) looked call hhandler
    exact ⟨_, hlaw⟩
  | replied call response _ hhandler hrespond honeWay hopen =>
    obtain ⟨registrations, hregistered, hlaw⟩ := BodyLaw.called (f := f) looked call hhandler
    obtain ⟨hcalls, hsubmits⟩ := countP_replyEvents (f := f) target response
    have hsilent : registrations.countP HostEvent.isSubmit = 0 :=
      countP_registrations hregistered fun _ _ => rfl
    refine ⟨.called call :: registrations ++ replyEvents f target response, ?_, ?_, ?_, ?_, ?_,
      hlaw.failures, hlaw.lastFailure⟩
    · show (looked.answered f call).log ++ _ = _
      rw [hlaw.log, List.append_assoc]
    · rw [List.countP_append, hcalls]
      exact hlaw.calls
    -- a reply calls nobody
    · intro other hmem
      rcases List.mem_append.mp hmem with hin | hin
      · exact hlaw.found other hin
      · have hzero := List.countP_eq_zero.mp hcalls _ hin
        exact absurd rfl hzero
    · rw [List.countP_append, List.countP_cons, hsilent]
      simpa [HostEvent.isSubmit] using hsubmits
    · intro _
      -- the session was open when the callback returned
      refine ⟨honeWay, ⟨call, response, List.mem_cons_self, hrespond⟩, fun hclosed => ?_⟩
      rw [answered_sealed hclosed] at hopen
      cases hopen

end Body

/-- The body of a dispatch from where its lookup was. -/
theorem bodyLaw_of_quiet {lookup : Lookup ident H E} (hquiet : lookup.Quiet) (f : Frame H E)
    (host : RuntimeHost ident H) :
    ∃ dispatchProjection handler events,
      BodyLaw f { host.logged [.copyRequestDispatch f.bytes] with dispatchProjection }
        (exec (dispatchBody lookup f) host).2 handler events ∧
      ∀ found, handler = some found → ∃ target,
        (exec (lookup f.memory f.copy.target f.copy.targetSize)
          (host.logged [.copyRequestDispatch f.bytes])).1 = .ok (target, some found) := by
  rcases dispatchBody_run hquiet f host with
    ⟨error, dispatchProjection, hrefused⟩ | ⟨target, handler, dispatchProjection, hlooked, hrun⟩
  · rw [hrefused]
    exact ⟨dispatchProjection, none, [], .silent rfl rfl rfl, fun found h => by cases h⟩
  · generalize exec (dispatchBody lookup f) host = out at hrun
    obtain ⟨events, hlaw⟩ := BodyLaw.of_run hrun
    refine ⟨dispatchProjection, handler, events, hlaw, fun found h => ⟨target, ?_⟩⟩
    rw [hlooked, h]

/-- The events of a dispatch around those of its body: the `defer` block releases the copies. -/
def frameEvents (f : Frame H E) (events : List (HostEvent H)) : List (HostEvent H) :=
  .copyRequestDispatch f.bytes ::
    (events ++ [.bytesRelease f.copy.target, .bytesRelease f.copy.payload])

/-- The copy and the two releases are not among what is counted. -/
theorem countP_frameEvents {f : Frame H E} {events : List (HostEvent H)} {q : HostEvent H → Bool}
    (hcopy : ∀ frame, q (.copyRequestDispatch frame) = false)
    (hrelease : ∀ buffer, q (.bytesRelease buffer) = false) :
    (frameEvents f events).countP q = events.countP q := by
  simp [frameEvents, hcopy, hrelease]

/-- **The bounds for a frame**, with any lookup that calls nothing. -/
theorem frameLaw_of_quiet {lookup : Lookup ident H E} (hquiet : lookup.Quiet)
    (failureText : DispatchError E → String) (f : Frame H E) (host : RuntimeHost ident H) :
    ∃ events, FrameLaw lookup f host (host.step failureText lookup (.frame f)) events := by
  obtain ⟨dispatchProjection, handler, events, hlaw, hfound⟩ := bodyLaw_of_quiet hquiet f host
  show ∃ events, FrameLaw lookup f host ((dispatchRequest failureText lookup f).run host).2 events
  rw [run_dispatchRequest]
  -- the events around the body, the copy and the releases, are neither calls nor submissions
  have hsubmits : (frameEvents f events).countP HostEvent.isSubmit
      = events.countP HostEvent.isSubmit := countP_frameEvents (fun _ => rfl) fun _ => rfl
  have hcalled : ∀ call, .called call ∈ frameEvents f events ↔ .called call ∈ events := by
    simp [frameEvents]
  refine ⟨frameEvents f events, ?_, ?_, ?_, ?_, ?_, ?_, ?_, ?_, ?_⟩
  · have hlog : (exec (dispatchBody lookup f) host).2.log
        = host.log ++ [.copyRequestDispatch f.bytes] ++ events := hlaw.log
    show (RuntimeHost.caught failureText _).log ++ _ = _
    rw [RuntimeHost.caught_log, hlog, frameEvents, List.append_assoc, List.append_assoc]
    rfl
  · rw [countP_frameEvents (fun _ => rfl) fun _ => rfl]
    exact hlaw.calls
  · intro call hmem
    exact hfound _ (hlaw.found call ((hcalled call).mp hmem))
  · rw [hsubmits]
    exact hlaw.submits
  · intro honeWay
    rw [hsubmits]
    exact Nat.eq_zero_of_not_pos fun hpos => honeWay (hlaw.due hpos).1
  · intro hunanswered
    rw [hsubmits]
    refine Nat.eq_zero_of_not_pos fun hpos => ?_
    obtain ⟨-, ⟨call, response, hmem, hrespond⟩, -⟩ := hlaw.due hpos
    exact hunanswered call response ((hcalled call).mpr hmem) hrespond
  · intro hclosed
    rw [hsubmits]
    exact Nat.eq_zero_of_not_pos fun hpos => (hlaw.due hpos).2.2 hclosed
  · -- the `catch` counts what the body threw, once
    rintro ⟨error, herror⟩
    have hfailures : (exec (dispatchBody lookup f) host).2.dispatchFailures
        = host.dispatchFailures := hlaw.failures
    generalize exec (dispatchBody lookup f) host = out at herror hfailures
    obtain ⟨outcome, host'⟩ := out
    obtain rfl : outcome = .error error := herror
    show host'.dispatchFailures + 1 = _
    rw [hfailures]
  · intro hsucceeded
    have hfailures : (exec (dispatchBody lookup f) host).2.dispatchFailures
        = host.dispatchFailures := hlaw.failures
    have hlast : (exec (dispatchBody lookup f) host).2.lastDispatchFailure
        = host.lastDispatchFailure := hlaw.lastFailure
    unfold Threw at hsucceeded
    generalize exec (dispatchBody lookup f) host = out at hsucceeded hfailures hlast
    obtain ⟨outcome, host'⟩ := out
    cases outcome with
    | error error => exact absurd ⟨error, rfl⟩ hsucceeded
    | ok => exact ⟨hfailures, hlast⟩

/-! ## Runs -/

/-- The cached dispatcher and the plain one stay together through any sequence of inputs. -/
theorem mirrors_run (failureText : DispatchError E → String) (inputs : List (HostInput H E)) :
    Mirrors (RuntimeHost.run failureText projectDispatchTarget inputs : RuntimeHost ident H)
      (RuntimeHost.run failureText lookupDispatchTarget inputs) := by
  have hstep : ∀ host reference : RuntimeHost ident H, Mirrors host reference →
      Mirrors (inputs.foldl (RuntimeHost.step failureText projectDispatchTarget) host)
        (inputs.foldl (RuntimeHost.step failureText lookupDispatchTarget) reference) := by
    induction inputs with
    | nil => exact fun _ _ h => h
    | cons input inputs ih =>
      intro host reference h
      apply ih
      cases input with
      | act action => exact h.act action
      | frame f => exact h.dispatchRequest failureText f
  exact hstep {} {} ⟨rfl, fun _ h => by cases h⟩

theorem lookupDispatchTarget_uncached (memory : Address → UInt8) (pointer : Option Address)
    (size : Int64) (host : RuntimeHost ident H) :
    (exec (lookupDispatchTarget memory pointer size : HostM ident H E (Found H)) host.uncached).1
      = (exec (lookupDispatchTarget memory pointer size) host).1 := by
  unfold lookupDispatchTarget
  cases targetSpan memory pointer size with
  | error error => rfl
  | ok bytes =>
    dsimp only
    cases bytes.utf8? <;> rfl

/-- **Cached dispatch refines uncached dispatch.** Over every sequence of registrations, session
closes and delivered frames, the host with the one-entry cache is, but for its cache, the host that
decodes and looks up the target of every frame: the same handlers called with the same requests, the
same replies, the same diagnostics. In every state of such a run the cached lookup answers what the
table says then, and each dispatch of either host obeys the law of a dispatch. -/
theorem dispatch_refines_uncached (failureText : DispatchError E → String)
    (inputs : List (HostInput H E)) :
    (RuntimeHost.run failureText projectDispatchTarget inputs : RuntimeHost ident H).uncached
        = RuntimeHost.run failureText lookupDispatchTarget inputs ∧
    (∀ memory pointer size,
      (exec (projectDispatchTarget memory pointer size : HostM ident H E (Found H))
        (RuntimeHost.run failureText projectDispatchTarget inputs)).1
      = (exec (lookupDispatchTarget memory pointer size : HostM ident H E (Found H))
        (RuntimeHost.run failureText projectDispatchTarget inputs)).1) ∧
    ∀ lookup : Lookup ident H E, lookup = projectDispatchTarget ∨ lookup = lookupDispatchTarget →
      ∀ f, ∃ events, FrameLaw lookup f (RuntimeHost.run failureText lookup inputs)
        ((RuntimeHost.run failureText lookup inputs).step failureText lookup (.frame f)) events := by
  have hmirrors : Mirrors (_ : RuntimeHost ident H) _ := mirrors_run failureText inputs
  refine ⟨hmirrors.1.symm, fun memory pointer size => ?_, ?_⟩
  · have hlookup := (projectDispatchTarget_mirrors (E := E) memory pointer size _ _ hmirrors).1
    rw [hlookup, hmirrors.1, lookupDispatchTarget_uncached]
  · rintro lookup (rfl | rfl) f
    · exact frameLaw_of_quiet projectDispatchTarget_quiet failureText f _
    · exact frameLaw_of_quiet lookupDispatchTarget_quiet failureText f _

end CoAkka.Host
