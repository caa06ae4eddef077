import CoAkkaRuntime.Host.DispatchLaw

/-!
# Host — what changes the handler table

Only a registration changes the table of a host and the bytes it counts; a dispatch does so only by
what other threads and the callback register meanwhile. So an invariant of the table is proved for
one action of a host, and `step_rule` and `run_rule` carry it over frames and whole runs.

* `Leaves` — what a step cannot touch if it registers nothing.
* `dispatchBody_leaves` — the body of a dispatch, apart from the registrations of others.
* `run_rule` — the induction over a run, which the budget, the accounts and the targets share.
-/

namespace CoAkka.Host

open Codec Session Throwing

variable {I H E : Type} [DecidableEq I] {ident : String → I}

/-- A host after something that registers nothing. -/
structure Leaves (host host' : RuntimeHost ident H) : Prop where
  handlers : host'.handlers = host.handlers
  budget : host'.registrationBytes = host.registrationBytes
  registered : ∀ target handler,
    .registered target handler ∈ host'.log ↔ .registered target handler ∈ host.log

omit [DecidableEq I] in
theorem Leaves.trans {host host' host'' : RuntimeHost ident H} (h : Leaves host host')
    (h' : Leaves host' host'') : Leaves host host'' :=
  ⟨h'.handlers.trans h.handlers, h'.budget.trans h.budget, fun target handler =>
    (h'.registered target handler).trans (h.registered target handler)⟩

omit [DecidableEq I] in
/-- Noting what is no registration leaves the registrations. -/
theorem leaves_logged (host : RuntimeHost ident H) {events : List (HostEvent H)}
    (h : ∀ e ∈ events, e.isRegistered = false) : Leaves host (host.logged events) := by
  refine ⟨rfl, rfl, fun target handler => ?_⟩
  show _ ∈ host.log ++ events ↔ _
  rw [List.mem_append, or_iff_left]
  intro hmem
  cases h _ hmem

/-! ## A dispatch registers nothing itself -/

theorem replyEvents_unregistered (f : Frame H E) (target : String) (response : Data) :
    ∀ e ∈ replyEvents f target response, e.isRegistered = false := by
  intro e he
  unfold replyEvents at he
  split at he <;> simp at he <;> rcases he with rfl | he <;> try rfl
  · rcases he with rfl | rfl <;> rfl
  · rw [he]
    rfl

/-- A dispatch changes the registrations only by what the application does meanwhile. -/
theorem dispatchBody_leaves {lookup : Lookup ident H E} (hquiet : lookup.Quiet) (f : Frame H E)
    (host : RuntimeHost ident H) :
    ∃ actions : List (HostAction H), (∀ action ∈ actions, action ∈ f.meanwhile) ∧ ∃ mid, Leaves host mid ∧
      Leaves (actions.foldl RuntimeHost.act mid) (exec (dispatchBody lookup f) host).2 := by
  have hsame : ∀ host : RuntimeHost ident H, Leaves host host :=
    fun _ => ⟨rfl, rfl, fun _ _ => Iff.rfl⟩
  have hcopied : Leaves host (host.logged [.copyRequestDispatch f.bytes]) :=
    leaves_logged host (by simp [HostEvent.isRegistered])
  rcases dispatchBody_run hquiet f host with
    ⟨error, dispatchProjection, hrefused⟩ | ⟨target, handler, dispatchProjection, -, hrun⟩
  · rw [hrefused]
    exact ⟨[], by simp, _, hcopied, rfl, rfl, fun _ _ => Iff.rfl⟩
  · have hlooked : Leaves host { host.logged [.copyRequestDispatch f.bytes] with
        dispatchProjection, deliveredRequests := host.deliveredRequests + 1 } :=
      hcopied.trans ⟨rfl, rfl, fun _ _ => Iff.rfl⟩
    -- the others register between the call of the handler and its return
    have hcall : ∀ call : HandlerCall H, Leaves host (({ host.logged
        [.copyRequestDispatch f.bytes] with dispatchProjection, deliveredRequests :=
          host.deliveredRequests + 1 } : RuntimeHost ident H).logged [.called call]) :=
      fun call => hlooked.trans (leaves_logged _ (by simp [HostEvent.isRegistered]))
    generalize exec (dispatchBody lookup f) host = out at hrun
    cases hrun with
    | payload => exact ⟨[], by simp, _, hcopied, rfl, rfl, fun _ _ => Iff.rfl⟩
    | missing | undecoded => exact ⟨[], by simp, _, hlooked, hsame _⟩
    | threw call | oneWay call | closed call =>
      exact ⟨f.meanwhile, fun _ h => h, _, hcall call, hsame _⟩
    | replied call response =>
      exact ⟨f.meanwhile, fun _ h => h, _, hcall call,
        leaves_logged _ (replyEvents_unregistered f target response)⟩

/-! ## Invariants of the table -/

/-- What other threads and the callbacks do to a host in an input. -/
def HostInput.actions : HostInput H E → List (HostAction H)
  | .act action => [action]
  | .frame f => f.meanwhile

section Rules

variable {P : RuntimeHost ident H → Prop} {lookup : Lookup ident H E}
  (failureText : DispatchError E → String) (allowed : HostAction H → Prop)

omit [DecidableEq I] in
/-- Catching its failure leaves them too. -/
theorem caught_leaves (failureText : DispatchError E → String) (out : Except (DispatchError E) Unit × RuntimeHost ident H) :
    Leaves out.2 (RuntimeHost.caught failureText out) := by
  obtain ⟨outcome, host⟩ := out
  cases outcome with
  | ok => exact ⟨rfl, rfl, fun _ _ => Iff.rfl⟩
  | error => exact ⟨rfl, rfl, fun _ _ => Iff.rfl⟩

/-- What each action of a kind keeps, any number of them keep. -/
theorem foldl_act_rule (hact : ∀ host action, allowed action → P host → P (host.act action))
    {actions : List (HostAction H)} (hallowed : ∀ action ∈ actions, allowed action)
    {host : RuntimeHost ident H} (h : P host) : P (actions.foldl RuntimeHost.act host) := by
  induction actions generalizing host with
  | nil => exact h
  | cons action actions ih =>
    have hrest := fun action hmem => hallowed action (List.mem_cons_of_mem _ hmem)
    exact ih hrest (hact host action (hallowed action List.mem_cons_self) h)

/-- **The step rule.** What registrations and retirements keep, a dispatch keeps. -/
theorem step_rule (hquiet : lookup.Quiet)
    (hleaves : ∀ host host', Leaves host host' → P host → P host')
    (hact : ∀ host action, allowed action → P host → P (host.act action))
    {input : HostInput H E} (hallowed : ∀ action ∈ input.actions, allowed action)
    {host : RuntimeHost ident H} (h : P host) : P (host.step failureText lookup input) := by
  cases input with
  | act action => exact hact host action (hallowed action (List.mem_singleton_self _)) h
  | frame f =>
    show P ((dispatchRequest failureText lookup f).run host).2
    rw [run_dispatchRequest]
    obtain ⟨actions, hsub, mid, hmid, hbody⟩ := dispatchBody_leaves hquiet f host
    have hacted := foldl_act_rule allowed hact (fun action hmem => hallowed action (hsub action hmem))
      (hleaves host mid hmid h)
    have hcaught := hleaves _ _ (hbody.trans (caught_leaves failureText _)) hacted
    exact hleaves _ _ (leaves_logged _ (by simp [HostEvent.isRegistered])) hcaught

/-- **The run rule.** -/
theorem run_rule (hquiet : lookup.Quiet)
    (hleaves : ∀ host host', Leaves host host' → P host → P host')
    (hact : ∀ host action, allowed action → P host → P (host.act action))
    {inputs : List (HostInput H E)} (hallowed : ∀ input ∈ inputs, ∀ action ∈ input.actions, allowed action)
    {host : RuntimeHost ident H} (h : P host) :
    P (inputs.foldl (RuntimeHost.step failureText lookup) host) := by
  induction inputs generalizing host with
  | nil => exact h
  | cons input inputs ih =>
    have hstep := step_rule failureText allowed hquiet hleaves hact (hallowed input List.mem_cons_self) h
    exact ih (fun input hmem => hallowed input (List.mem_cons_of_mem _ hmem)) hstep

end Rules

end CoAkka.Host
