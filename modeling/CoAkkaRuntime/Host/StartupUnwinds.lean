import CoAkkaRuntime.Host.Startup

/-!
# Host — a start is all or nothing

The owners that a start acquires and releases, read off its native calls. The local variables of
the `do` block say at every point what has been acquired (`Owns`); a step that fails leaves them
so, and the `catch` block releases what they say.

* `StartupCall.acquires`, `releases` — the owner that a call hands out or takes back.
* `Owns` — the variables and the calls agree on who is owned.
* `exportHandles_stage`, …, `createReader_stage` — one lemma per acquiring call: it adds its owner,
  or it fails and adds none.
* `exec_unwind`, `released_unwinding` — the unwinding releases exactly those, each once.
* `start_ends` — a start returns with all owners or throws with none.
-/

namespace CoAkka.Host

open Session Throwing Transport

/-- A native call whose status decides what follows. -/
theorem ends_status_bind {σ α : Type} {status : Int32} {operation : String} {s : σ}
    {f : Unit → ExceptT RuntimeError (StateM σ) α} {Q : α → σ → Prop} {E : RuntimeError → σ → Prop}
    (hE : ∀ error, status ≠ Status.ok → E error s) (h : status = Status.ok → Ends (f ()) s Q E) :
    Ends (ofExcept (throwIfNativeError status operation) >>= f) s Q E := by
  unfold throwIfNativeError
  apply ends_ofExcept_bind
  · intro error herror
    refine hE error fun hstatus => ?_
    rw [if_pos hstatus] at herror
    cases herror
  · intro _ hok
    refine h (by_contra fun hstatus => ?_)
    rw [if_neg hstatus] at hok
    cases hok

/-! ## Owners -/

/-- What a start may have to give back: a native owner, or the runtime's having been started. -/
inductive StartupOwner where
  | runtime (runtime : Address)
  | handles (handles : HostHandles)
  | started (runtime : Address)
  | client (client : Address)
  | reader (reader : Address)
  deriving DecidableEq

inductive OwnerKind where
  | reader
  | started
  | client
  | handles
  | runtime
  deriving DecidableEq

def StartupOwner.kind : StartupOwner → OwnerKind
  | .runtime _ => .runtime
  | .handles _ => .handles
  | .started _ => .started
  | .client _ => .client
  | .reader _ => .reader

/-- The owner that Core hands out in a call. -/
def StartupCall.acquires : StartupCall → Option StartupOwner
  | .createNative _ runtime => runtime.map .runtime
  | .getHostHandles _ status handles => if status = Status.ok then some (.handles handles) else none
  | .start runtime status => if status = Status.ok then some (.started runtime) else none
  | .askClientCreate _ client => client.map .client
  | .readerCreate _ _ reader => reader.map .reader
  | _ => none

/-- The owner that a call gives back. -/
def StartupCall.releases : StartupCall → Option StartupOwner
  | .readerDestroy reader => some (.reader reader)
  | .stop runtime => some (.started runtime)
  | .askClientDestroy client => some (.client client)
  | .handlesClose handles => some (.handles handles)
  | .runtimeDestroy runtime => some (.runtime runtime)
  | _ => none

def acquired (log : List StartupCall) : List StartupOwner := log.filterMap StartupCall.acquires

def released (log : List StartupCall) : List StartupOwner := log.filterMap StartupCall.releases

/-- The owners in the order in which they have to be released. -/
def releaseOrder (owners : List StartupOwner) : List StartupOwner :=
  [OwnerKind.reader, .started, .client, .handles, .runtime].flatMap fun kind =>
    owners.filter fun owner => owner.kind = kind

/-- The owners that the local variables of a start stand for. -/
def StartFrame.owners (runtime : Address) (frame : StartFrame) : List StartupOwner :=
  [.runtime runtime] ++ (if frame.handlesOwned then [.handles frame.handles] else []) ++
  (if frame.started then [.started runtime] else []) ++
  frame.client.toList.map .client ++ frame.reader.toList.map .reader

/-- The local variables say what has been acquired, and nothing has been released. -/
structure Owns (runtime : Address) (frame : StartFrame) : Prop where
  acquired : acquired frame.log = frame.owners runtime
  released : released frame.log = []

/-! ## Calls that hand out nothing

A call that fails here leaves the owners as they were.
-/

/-- The frame after calls that neither hand out nor give back an owner. -/
def Quiet (frame frame' : StartFrame) : Prop :=
  ∃ calls, frame' = frame.logged calls ∧ Host.acquired calls = [] ∧ Host.released calls = []

theorem Quiet.refl (frame : StartFrame) : Quiet frame frame :=
  ⟨[], by simp [StartFrame.logged], rfl, rfl⟩

theorem Quiet.one (frame : StartFrame) {call : StartupCall} (hacquires : call.acquires = none)
    (hreleases : call.releases = none) : Quiet frame (frame.logged [call]) :=
  ⟨[call], rfl, by simp [Host.acquired, hacquires], by simp [Host.released, hreleases]⟩

/-- Calls that acquire and release nothing leave the owners what they are. -/
theorem Owns.quiet {runtime : Address} {frame frame' : StartFrame} (h : Owns runtime frame)
    (hquiet : Quiet frame frame') : Owns runtime frame' := by
  obtain ⟨calls, rfl, hacquired, hreleased⟩ := hquiet
  unfold Host.acquired at hacquired
  unfold Host.released at hreleased
  constructor
  · show List.filterMap _ (frame.log ++ calls) = frame.owners runtime
    rw [List.filterMap_append, hacquired, List.append_nil]
    exact h.acquired
  · show List.filterMap _ (frame.log ++ calls) = []
    rw [List.filterMap_append, hreleased, List.append_nil]
    exact h.released

section Steps

variable {core : StartupCore} {frame : StartFrame} {runtime : Address}

theorem requireHandle_ends {handle : Address} (h : frame.library = some handle)
    {Q : Address → StartFrame → Prop} {E : RuntimeError → StartFrame → Prop} (hQ : Q handle frame) :
    Ends requireHandle frame Q E := by
  apply ends_get_bind
  rw [h]
  exact ends_pure hQ

theorem note_bind_ends {α : Type} {call : StartupCall} {f : Unit → StartM α}
    {Q : α → StartFrame → Prop} {E : RuntimeError → StartFrame → Prop}
    (h : Ends (f ()) (frame.logged [call]) Q E) : Ends (StartFrame.note call >>= f) frame Q E :=
  ends_modify_bind h

/-- The end of a step whose call hands out nothing, whatever its status. -/
theorem quiet_ofExcept {α : Type} {call : StartupCall} (outcome : Except RuntimeError α)
    (hacquires : call.acquires = none) (hreleases : call.releases = none) :
    Ends (ofExcept outcome : StartM α) (frame.logged [call]) (fun _ => Quiet frame)
      fun _ => Quiet frame :=
  ends_ofExcept (fun _ _ => Quiet.one frame hacquires hreleases)
    fun _ _ => Quiet.one frame hacquires hreleases

/-- The configuring calls of a start acquire and release nothing, however they end. -/
theorem applyNetwork_quiet (hlibrary : frame.library ≠ none) (network : RuntimeNetworkConfig) :
    Ends (applyNetwork core runtime network) frame (fun _ => Quiet frame) fun _ => Quiet frame := by
  obtain ⟨handle, hhandle⟩ := Option.ne_none_iff_exists'.mp hlibrary
  exact ends_bind (requireHandle_ends hhandle (note_bind_ends (quiet_ofExcept _ rfl rfl)))

theorem applyRoutes_quiet (hlibrary : frame.library ≠ none) (generation : UInt64)
    (routes : List RuntimeRouteSpec) :
    Ends (applyRoutes core runtime generation routes) frame (fun _ => Quiet frame)
      fun _ => Quiet frame := by
  obtain ⟨handle, hhandle⟩ := Option.ne_none_iff_exists'.mp hlibrary
  exact ends_bind (requireHandle_ends hhandle (note_bind_ends (quiet_ofExcept _ rfl rfl)))

theorem applySecurity_quiet (hlibrary : frame.library ≠ none) (spec : TcpSecuritySpec) :
    Ends (applySecurity core runtime spec) frame (fun _ => Quiet frame) fun _ => Quiet frame := by
  obtain ⟨handle, hhandle⟩ := Option.ne_none_iff_exists'.mp hlibrary
  apply ends_ofExcept_bind
  · exact fun _ _ => Quiet.refl frame
  · intro _ _
    refine ends_bind (requireHandle_ends hhandle (note_bind_ends ?_))
    split
    · exact ends_pure (Quiet.one frame rfl rfl)
    · exact ends_throw (Quiet.one frame rfl rfl)

theorem startupSecurity_quiet (hlibrary : frame.library ≠ none) (security : Option TcpSecuritySpec) :
    Ends (startupSecurity core runtime security) frame (fun _ => Quiet frame)
      fun _ => Quiet frame := by
  cases security with
  | none => exact ends_pure (Quiet.refl frame)
  | some intent =>
    refine ends_bind ((applySecurity_quiet hlibrary intent).mono ?_ fun _ _ => id)
    intro result frame' hquiet
    split
    · exact ends_pure hquiet
    · exact ends_throw hquiet

/-! ## Acquiring -/

/-- A call, after which the local variables stand for what it hands out too. -/
theorem Owns.call {frame frame' : StartFrame} (h : Owns runtime frame) {c : StartupCall}
    (hlog : frame'.log = frame.log ++ [c]) (hreleases : c.releases = none)
    (howners : frame'.owners runtime = frame.owners runtime ++ c.acquires.toList) :
    Owns runtime frame' := by
  constructor
  · rw [hlog, Host.acquired, List.filterMap_append, howners, ← h.acquired]
    cases hacquires : c.acquires <;> simp [hacquires, Host.acquired]
  · rw [hlog, Host.released, List.filterMap_append]
    have hreleased := h.released
    unfold Host.released at hreleased
    simp [hreleases, hreleased]

/-- The variables of the `do` block have these values. -/
structure Stage (runtime : Address) (handlesOwned started : Bool) (client reader : Option Address)
    (frame : StartFrame) : Prop extends Owns runtime frame where
  library : frame.library ≠ none
  handlesOwned : frame.handlesOwned = handlesOwned
  started : frame.started = started
  client : frame.client = client
  reader : frame.reader = reader

section Stages

variable {handlesOwned started : Bool} {client reader : Option Address}

/-- What a start owns is known from how far it got. -/
theorem Stage.owners (h : Stage runtime handlesOwned started client reader frame) :
    frame.owners runtime = [.runtime runtime] ++
      (if handlesOwned then [.handles frame.handles] else []) ++
      (if started then [.started runtime] else []) ++
      client.toList.map .client ++ reader.toList.map .reader := by
  obtain ⟨-, -, rfl, rfl, rfl, rfl⟩ := h
  rfl

/-- A configuring call leaves it as far as it was. -/
theorem Stage.quiet {frame' : StartFrame} (h : Stage runtime handlesOwned started client reader frame)
    (hquiet : Quiet frame frame') : Stage runtime handlesOwned started client reader frame' := by
  have howns := h.toOwns.quiet hquiet
  obtain ⟨calls, rfl, -⟩ := hquiet
  exact ⟨howns, h.library, h.handlesOwned, h.started, h.client, h.reader⟩

end Stages

/-- The steps that acquire an owner bring the start one stage further, or fail with what it had. -/
theorem exportHandles_stage (h : Stage runtime false false none none frame) :
    Ends (exportHandles core runtime) frame (fun _ => Stage runtime true false none none)
      fun _ => Owns runtime := by
  unfold exportHandles
  generalize core.getHostHandles runtime (.empty 0) = answer
  obtain ⟨status, handles⟩ := answer
  obtain ⟨howns, hlibrary, hhandles, hstarted, hclient, hreader⟩ := h
  refine note_bind_ends (ends_modify_bind (ends_status_bind ?_ ?_))
  · intro _ hstatus
    refine howns.call (c := .getHostHandles runtime status handles) rfl rfl ?_
    simp [StartFrame.owners, StartupCall.acquires, hstatus, hhandles, hstarted, hclient, hreader]
  · intro hstatus
    refine ends_modify ⟨?_, hlibrary, rfl, hstarted, hclient, hreader⟩
    refine howns.call (c := .getHostHandles runtime status handles) rfl rfl ?_
    simp [StartFrame.owners, StartupCall.acquires, hstatus, hhandles, hstarted, hclient, hreader]

theorem startRuntime_stage (h : Stage runtime true false none none frame) :
    Ends (startRuntime core runtime) frame (fun _ => Stage runtime true true none none)
      fun _ => Owns runtime := by
  unfold startRuntime
  generalize core.start runtime = status
  obtain ⟨howns, hlibrary, hhandles, hstarted, hclient, hreader⟩ := h
  refine note_bind_ends (ends_status_bind ?_ ?_)
  · intro _ hstatus
    refine howns.call (c := .start runtime status) rfl rfl ?_
    simp [StartFrame.owners, StartupCall.acquires, hstatus, hhandles, hstarted, hclient, hreader]
  · intro hstatus
    refine ends_modify ⟨?_, hlibrary, hhandles, rfl, hclient, hreader⟩
    refine howns.call (c := .start runtime status) rfl rfl ?_
    simp [StartFrame.owners, StartupCall.acquires, hstatus, hhandles, hstarted, hclient, hreader]

theorem createClient_stage (h : Stage runtime true true none none frame) :
    Ends (createClient core runtime) frame (fun client => Stage runtime true true (some client) none)
      fun _ => Owns runtime := by
  refine ends_get_bind ?_
  generalize core.askClientCreate runtime frame.handles = client
  obtain ⟨howns, hlibrary, hhandles, hstarted, hclient, hreader⟩ := h
  have howns : Owns runtime { frame.logged [.askClientCreate runtime client] with client } := by
    refine howns.call (c := .askClientCreate runtime client) rfl rfl ?_
    cases client <;>
      simp [StartFrame.owners, StartupCall.acquires, hhandles, hstarted, hclient, hreader]
  refine note_bind_ends (ends_modify_bind ?_)
  cases client with
  | none => exact ends_throw howns
  | some client => exact ends_pure ⟨howns, hlibrary, hhandles, hstarted, rfl, hreader⟩

theorem createReader_stage {client : Address} (h : Stage runtime true true (some client) none frame) :
    Ends (createReader core runtime) frame
      (fun reader => Stage runtime true true (some client) (some reader)) fun _ => Owns runtime := by
  refine ends_get_bind ?_
  generalize core.requestReaderCreate runtime frame.handles = answer
  obtain ⟨status, reader⟩ := answer
  obtain ⟨howns, hlibrary, hhandles, hstarted, hclient, hreader⟩ := h
  have howns : Owns runtime { frame.logged [.readerCreate runtime status reader] with reader } := by
    refine howns.call (c := .readerCreate runtime status reader) rfl rfl ?_
    cases reader <;>
      simp [StartFrame.owners, StartupCall.acquires, hhandles, hstarted, hclient, hreader]
  refine note_bind_ends (ends_modify_bind (ends_status_bind (fun _ _ => howns) fun _ => ?_))
  cases reader with
  | none => exact ends_throw howns
  | some reader => exact ends_pure ⟨howns, hlibrary, hhandles, hstarted, hclient, rfl⟩

/-- What holds when the `do` block is left, either way. -/
theorem acquire_stage (spec : ConnectorStartSpec) (h : Stage runtime false false none none frame) :
    Ends (acquire core runtime spec) frame
      (fun host frame' => Stage runtime true true (some host.session.client)
        (some host.session.reader) frame' ∧ frame'.handles = host.session.handles ∧
        host.session.runtime = runtime)
      fun _ => Owns runtime := by
  unfold acquire
  refine ends_bind ((applyNetwork_quiet h.library _).mono ?_ fun _ _ => h.toOwns.quiet)
  intro _ networked hquiet
  have h := h.quiet hquiet
  refine ends_bind ((startupSecurity_quiet h.library _).mono ?_ fun _ _ => h.toOwns.quiet)
  intro security secured hquiet
  have h := h.quiet hquiet
  refine ends_bind ((applyRoutes_quiet h.library _ _).mono ?_ fun _ _ => h.toOwns.quiet)
  intro _ routed hquiet
  have h := h.quiet hquiet
  refine ends_bind ((exportHandles_stage h).mono ?_ fun _ _ => id)
  intro _ exported h
  refine ends_bind ((startRuntime_stage h).mono ?_ fun _ _ => id)
  intro _ started h
  refine ends_bind ((createClient_stage h).mono ?_ fun _ _ => id)
  intro client connected h
  refine ends_bind ((createReader_stage h).mono ?_ fun _ _ => id)
  intro reader reading h
  exact ends_get_bind (ends_pure ⟨h, rfl, rfl⟩)

/-! ## Releasing

The `catch` block releases what the variables say, in the order of the source, which is a
permutation of the owners.
-/

/-- The calls of the `catch` block. -/
def StartFrame.unwinding (runtime : Address) (frame : StartFrame) : List StartupCall :=
  frame.reader.toList.map .readerDestroy ++ (if frame.started then [.stop runtime] else []) ++
  frame.client.toList.map .askClientDestroy ++
  (if frame.handlesOwned then [.handlesClose frame.handles] else []) ++ [.runtimeDestroy runtime]

/-- The unwinding releases what the frame owns, throws, and forgets the library. -/
theorem exec_unwind (error : RuntimeError) :
    exec (unwind runtime error) frame
      = (.error error, { frame.logged (frame.unwinding runtime) with library := none }) := by
  obtain ⟨library, handles, handlesOwned, started, client, reader, log⟩ := frame
  cases reader <;> cases started <;> cases client <;> cases handlesOwned <;>
    simp [unwind, StartFrame.note, StartFrame.unwinding, StartFrame.logged]

/-- The `catch` block releases what the variables stand for, and in the right order. -/
theorem released_unwinding : released (frame.unwinding runtime) = releaseOrder (frame.owners runtime) := by
  obtain ⟨library, handles, handlesOwned, started, client, reader, log⟩ := frame
  cases reader <;> cases started <;> cases client <;> cases handlesOwned <;> rfl

/-- It acquires nothing. -/
theorem acquired_unwinding : acquired (frame.unwinding runtime) = [] := by
  obtain ⟨library, handles, handlesOwned, started, client, reader, log⟩ := frame
  cases reader <;> cases started <;> cases client <;> cases handlesOwned <;> rfl

end Steps

/-! ## A whole start -/

/-- A failing `create_native` hands out no runtime, as its header says. -/
def RefusesWithoutOwner {Answer : Type} (answer : Int32 × Option Answer) : Prop :=
  answer.1 ≠ Status.ok → answer.2 = none

/-- A start that returned: the session owns what was acquired, and nothing was released. -/
structure Started (host : StartedHost) (log : List StartupCall) : Prop where
  acquired : acquired log = [.runtime host.session.runtime, .handles host.session.handles,
    .started host.session.runtime, .client host.session.client, .reader host.session.reader]
  released : released log = []

/-- A start that threw: at its end it released, in the order of `releaseOrder`, what it had acquired
until then. -/
structure Unwound (log : List StartupCall) : Prop where
  split : ∃ before after, log = before ++ after ∧ released before = [] ∧ acquired after = [] ∧
    released after = releaseOrder (acquired before)
  once : (released log).Perm (acquired log)
  nodup : (acquired log).Nodup

/-- Every owner has one of the kinds, so the release order leaves none out. -/
theorem releaseOrder_perm (owners : List StartupOwner) : (releaseOrder owners).Perm owners := by
  rw [List.perm_iff_count]
  intro owner
  have hcount : ∀ kind, (owners.filter fun other => other.kind = kind).count owner
      = if owner.kind = kind then owners.count owner else 0 := by
    intro kind
    by_cases hkind : owner.kind = kind
    · rw [if_pos hkind, List.count_filter (by simpa using hkind)]
    · rw [if_neg hkind]
      exact List.count_eq_zero.mpr fun hmem => hkind (by simpa using (List.mem_filter.mp hmem).2)
  simp only [releaseOrder, List.flatMap_cons, List.flatMap_nil, List.count_append, hcount]
  cases owner.kind <;> simp

/-- A creation that succeeds hands out the runtime; one that fails leaves no owner. -/
theorem createNative_stage {core : StartupCore} {spec : ConnectorStartSpec} {frame : StartFrame}
    (hcore : RefusesWithoutOwner (core.createNative spec.runtimeConfig spec.startupOptions))
    (hlibrary : frame.library ≠ none) (hframe : frame = { library := frame.library }) :
    Ends (createNative core spec) frame
      (fun runtime => Stage runtime false false none none)
      fun _ frame' => acquired frame'.log = [] ∧ released frame'.log = [] := by
  obtain ⟨handle, hhandle⟩ := Option.ne_none_iff_exists'.mp hlibrary
  refine ends_bind (requireHandle_ends hhandle ?_)
  generalize core.createNative spec.runtimeConfig spec.startupOptions = answer at hcore
  obtain ⟨status, runtime⟩ := answer
  refine note_bind_ends (ends_status_bind ?_ ?_)
  · intro _ hstatus
    obtain rfl : runtime = none := hcore hstatus
    rw [hframe]
    exact ⟨rfl, rfl⟩
  · intro _
    cases runtime with
    | none =>
      rw [hframe]
      exact ends_throw ⟨rfl, rfl⟩
    | some runtime =>
      rw [hframe]
      exact ends_pure ⟨⟨rfl, rfl⟩, hlibrary, rfl, rfl, rfl, rfl⟩

/-- The owners of a frame are of different kinds. -/
theorem owners_nodup (runtime : Address) (frame : StartFrame) : (frame.owners runtime).Nodup := by
  obtain ⟨library, handles, handlesOwned, started, client, reader, log⟩ := frame
  cases reader <;> cases started <;> cases client <;> cases handlesOwned <;>
    simp [StartFrame.owners]

/-- The `catch` block unwinds what the `do` block has left. -/
theorem Owns.unwound {runtime : Address} {frame : StartFrame} (h : Owns runtime frame) :
    Unwound (frame.log ++ frame.unwinding runtime) := by
  have hreleased : Host.released (frame.log ++ frame.unwinding runtime)
      = releaseOrder (frame.owners runtime) := by
    have hbefore := h.released
    unfold Host.released at hbefore
    rw [Host.released, List.filterMap_append, hbefore, List.nil_append]
    exact released_unwinding
  have hacquired : Host.acquired (frame.log ++ frame.unwinding runtime) = frame.owners runtime := by
    have hafter : Host.acquired (frame.unwinding runtime) = [] := acquired_unwinding
    unfold Host.acquired at hafter
    rw [Host.acquired, List.filterMap_append, hafter, List.append_nil]
    exact h.acquired
  refine ⟨⟨_, _, rfl, h.released, acquired_unwinding, ?_⟩, ?_, ?_⟩
  · rw [released_unwinding, h.acquired]
  · rw [hreleased, hacquired]
    exact releaseOrder_perm _
  · rw [hacquired]
    exact owners_nodup runtime frame

/-- **A start is all or nothing.** -/
theorem start_ends (loader : Loader) {core : StartupCore} (spec : ConnectorStartSpec)
    (runtimeLibPath : Option String)
    (hcore : RefusesWithoutOwner (core.createNative spec.runtimeConfig spec.startupOptions)) :
    Ends (start loader core spec runtimeLibPath) {} (fun host frame => Started host frame.log)
      fun _ frame => Unwound frame.log := by
  -- what throws before `createNative` has acquired nothing
  have hnothing : ∀ log, acquired log = [] → released log = [] → Unwound log := by
    intro log hacquired hreleased
    refine ⟨⟨log, [], by simp, hreleased, rfl, by rw [hacquired]; rfl⟩, ?_, ?_⟩
    · rw [hacquired, hreleased]
    · rw [hacquired]
      exact .nil
  have hstart : Unwound [] := hnothing [] rfl rfl
  refine ends_ofExcept_bind (fun _ _ => hstart) fun _ _ => ?_
  refine ends_ofExcept_bind (fun _ _ => hstart) fun path _ => ?_
  refine ends_ofExcept_bind (fun _ _ => hstart) fun _ _ => ?_
  refine ends_ofExcept_bind (fun _ _ => hstart) fun handle _ => ?_
  refine ends_modify_bind (ends_bind (requireHandle_ends rfl ?_))
  split
  · refine ends_bind ((createNative_stage hcore (Option.some_ne_none handle) rfl).mono ?_ fun _ _ h => hnothing _ h.1 h.2)
    intro runtime frame hstage
    -- from here on the `catch` block is in charge
    refine ends_tryCatch ((acquire_stage spec hstage).mono ?_ ?_)
    · rintro host final ⟨h, hhandles, rfl⟩
      refine ⟨?_, h.released⟩
      rw [h.acquired, h.owners, hhandles]
      rfl
    · intro error failed howns
      refine Ends.of_exec (exec_unwind error) (fun _ hok => by cases hok) fun _ _ => ?_
      exact howns.unwound
  · exact ends_throw hstart

end CoAkka.Host
