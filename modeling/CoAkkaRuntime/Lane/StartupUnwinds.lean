import CoAkkaRuntime.Lane.Startup

/-!
# Lane — an opening is all or nothing

The lane that an opener was handed out, read off its native calls: it is returned started, or it is
destroyed by the last call. With the start of a host (`start_ends`), every constructor of the
connector that acquires native owners.

* `created`, `destroyed` — the lanes that the calls of an opening hand out and take back.
* `createLane_ends` — the creation adds a lane or fails without one.
* `streamLane_openInternal_ends`, `fileLane_openInternal_ends` — the openings.
* `startup_all_or_nothing` — these and the start of a host, for every answer of Core.
-/

namespace CoAkka.Lane

open Host (Loader StartupCore RefusesWithoutOwner Started Unwound ends_status_bind)
open Session (Address)
open CoAkka.Stream Throwing Transport

/-! ## The lane of an opening -/

/-- The lane that Core hands out in a call. -/
def LaneCall.creates : LaneCall → Option Address
  | .create _ lane => lane
  | _ => none

def LaneCall.destroys : LaneCall → Option Address
  | .destroy lane => some lane
  | _ => none

def created (log : List LaneCall) : List Address := log.filterMap LaneCall.creates

def destroyed (log : List LaneCall) : List Address := log.filterMap LaneCall.destroys

/-- An opening that returned `lane`: it is the one that was created, it was started, and it was not
destroyed. -/
structure Opened (lane : Address) (log : List LaneCall) : Prop where
  created : created log = [lane]
  started : LaneCall.start lane Status.ok ∈ log
  destroyed : destroyed log = []

/-- An opening that threw: a lane that was created is destroyed by the last call and by no other. -/
def Refused (log : List LaneCall) : Prop :=
  ∃ lane : Option Address, created log = lane.toList ∧
    ∃ before, log = before ++ lane.toList.map .destroy ∧ destroyed before = []

/-- A log without a creation and a destruction leaves no lane. -/
theorem refused_of_none {log : List LaneCall} (hcreated : created log = [])
    (hdestroyed : destroyed log = []) : Refused log :=
  ⟨none, hcreated, log, by simp, hdestroyed⟩

/-- Nor does one whose only lane is destroyed. -/
theorem refused_of_destroy {log : List LaneCall} {lane : Address} (hcreated : created log = [lane])
    (hdestroyed : destroyed log = []) : Refused (log ++ [.destroy lane]) := by
  refine ⟨some lane, ?_, log, rfl, hdestroyed⟩
  unfold created at hcreated ⊢
  rw [List.filterMap_append, hcreated]
  rfl

/-- A call on the lane that neither creates nor destroys it. -/
structure Holding (lane : Address) (log : List LaneCall) : Prop where
  created : Lane.created log = [lane]
  destroyed : Lane.destroyed log = []

/-- Other calls leave the lane that is held. -/
theorem Holding.call {lane : Address} {log : List LaneCall} (h : Holding lane log) (call : LaneCall)
    (hcreates : call.creates = none) (hdestroys : call.destroys = none) :
    Holding lane (log ++ [call]) := by
  obtain ⟨hcreated, hdestroyed⟩ := h
  unfold Lane.created at hcreated
  unfold Lane.destroyed at hdestroyed
  constructor
  · simp [Lane.created, hcreated, hcreates]
  · simp [Lane.destroyed, hdestroyed, hdestroys]

section Open

variable {Settings : Type} {core : LaneCore Settings} {config : LaneConfig Settings}

/-- The constructors of a Core that hands out no lane when it fails. -/
structure CreatesOrRefuses (core : LaneCore Settings) : Prop where
  create : ∀ record, RefusesWithoutOwner (core.create record)
  createOwned : ∀ record owner, RefusesWithoutOwner (core.createOwned record owner)

/-- A creation ends with a lane or with none to destroy. -/
theorem createLane_ends (texts : OpenerTexts) (loader : Loader) (owner : Option LaneOwnerConfig)
    (runtimeLibPath : Option String) (hcore : CreatesOrRefuses core) :
    Ends (createLane core config texts loader owner runtimeLibPath) [] Holding
      fun _ log => Refused log := by
  refine ends_ofExcept_bind (fun _ _ => refused_of_none rfl rfl) fun _ _ => ?_
  -- with an owner or without, the answer is treated alike
  have hanswer : ∀ answer : Int32 × Option Address, RefusesWithoutOwner answer →
      Ends (do
        LaneCall.note (.create answer.1 answer.2)
        ofExcept (throwIfNativeError answer.1 texts.create)
        ofExcept (requireCoreOwner answer.2 texts.creation)) [] Holding
        fun _ log => Refused log := by
    rintro ⟨status, out⟩ hout
    refine ends_modify_bind (ends_status_bind ?_ fun _ => ends_ofExcept ?_ ?_)
    · intro _ hstatus
      obtain rfl : out = none := hout hstatus
      exact refused_of_none rfl rfl
    · intro lane hlane
      cases out with
      | none => cases hlane
      | some out =>
        obtain rfl : out = lane := Except.ok.inj hlane
        exact ⟨rfl, rfl⟩
    · intro _ herror
      cases out with
      -- a success that hands out no lane is refused as well
      | none => exact refused_of_none rfl rfl
      | some out => cases herror
  cases owner with
  | none => exact hanswer _ (hcore.create _)
  | some owner => exact hanswer _ (hcore.createOwned _ _)

/-! ## Stream Lane -/

section Stream

variable {K I Root : Type} {ident : K → I}

/-- A start either keeps its lane or throws with the lane still held, for the opener to destroy. -/
theorem streamLane_start_ends {lane : Address} {log : List LaneCall} (h : Holding lane log) :
    Ends (StreamLane.start core lane : LaneM (StreamLane ident Root)) log
      (fun opened => Opened opened.lane) fun _ => Holding lane := by
  unfold StreamLane.start
  generalize core.stats lane = answer
  obtain ⟨status, capacity⟩ := answer
  have hstats := h.call (.stats lane status) rfl rfl
  refine ends_modify_bind (ends_status_bind (fun _ _ => hstats) fun _ => ?_)
  refine ends_ofExcept_bind (fun _ _ => hstats) fun callbacks _ => ?_
  have hstart := hstats.call (.start lane (core.start lane)) rfl rfl
  refine ends_modify_bind (ends_status_bind (fun _ _ => hstart) fun hstatus => ?_)
  refine ends_pure ⟨hstart.created, ?_, hstart.destroyed⟩
  rw [hstatus]
  exact List.mem_append_right _ (.head _)

/-- **An opener hands out a lane, or leaves none.** -/
theorem streamLane_openInternal_ends (config : LaneConfig Settings) (loader : Loader)
    (owner : Option LaneOwnerConfig) (runtimeLibPath : Option String)
    (hcore : CreatesOrRefuses core) :
    Ends (StreamLane.openInternal core config loader owner runtimeLibPath :
        LaneM (StreamLane ident Root)) []
      (fun opened => Opened opened.lane) fun _ => Refused := by
  refine ends_bind ((createLane_ends _ loader owner runtimeLibPath hcore).mono ?_ fun _ _ => id)
  intro lane log h
  refine ends_tryCatch ((streamLane_start_ends h).mono (fun _ _ => id) ?_)
  intro error log h
  exact ends_modify_bind (ends_throw (refused_of_destroy h.created h.destroyed))

end Stream

/-! ## File Lane -/

/-- The same for the File Lane. -/
theorem fileLane_openInternal_ends (config : LaneConfig Settings) (loader : Loader)
    (owner : Option LaneOwnerConfig) (runtimeLibPath : Option String)
    (hcore : CreatesOrRefuses core) :
    Ends (FileLane.openInternal core config loader owner runtimeLibPath) []
      (fun opened => Opened opened.lane) fun _ => Refused := by
  refine ends_bind ((createLane_ends _ loader owner runtimeLibPath hcore).mono ?_ fun _ _ => id)
  intro lane log h
  have hstart := h.call (.start lane (core.start lane)) rfl rfl
  refine ends_modify_bind (ends_bind ?_)
  unfold FileLane.refuseStart throwIfNativeError
  split
  · refine ends_modify_bind (Ends.of_exec (exec_ofExcept _ _) (fun _ hok => by cases hok) fun _ _ => ?_)
    exact refused_of_destroy hstart.created hstart.destroyed
  · next hstatus =>
    rw [not_not] at hstatus
    refine ends_pure (ends_pure ⟨hstart.created, ?_, hstart.destroyed⟩)
    rw [hstatus]
    exact List.mem_append_right _ (.head _)

end Open

/-! ## All constructors

The host and both kinds of lane in one statement.
-/

/-- **Starting is all or nothing.** Whatever Core answers, a host or a lane that is returned has its
native owners, and what a constructor acquired before it threw is released, once and in order. -/
theorem startup_all_or_nothing {K I Root Settings Settings' : Type} (ident : K → I) (loader : Loader)
    {core : StartupCore} {streamCore : LaneCore Settings} {fileCore : LaneCore Settings'}
    (hcore : ∀ config options, RefusesWithoutOwner (core.createNative config options))
    (hstream : CreatesOrRefuses streamCore) (hfile : CreatesOrRefuses fileCore) :
    (∀ spec runtimeLibPath, Ends (Host.start loader core spec runtimeLibPath) {}
      (fun host frame => Started host frame.log) fun _ frame => Unwound frame.log) ∧
    (∀ config owner runtimeLibPath, Ends (StreamLane.openInternal streamCore config loader owner
        runtimeLibPath : LaneM (StreamLane ident Root)) []
      (fun opened => Opened opened.lane) fun _ => Refused) ∧
    ∀ config owner runtimeLibPath, Ends (FileLane.openInternal fileCore config loader owner
        runtimeLibPath) []
      (fun opened => Opened opened.lane) fun _ => Refused :=
  ⟨fun spec runtimeLibPath => Host.start_ends loader spec runtimeLibPath (hcore _ _),
    fun config owner runtimeLibPath =>
      streamLane_openInternal_ends config loader owner runtimeLibPath hstream,
    fun config owner runtimeLibPath =>
      fileLane_openInternal_ends config loader owner runtimeLibPath hfile⟩

/-- A Core that refuses to start a runtime, to create a Stream Lane and to start a File Lane. -/
theorem startup_all_or_nothing_refused :
    ∃ (loader : Loader) (core : StartupCore) (streamCore fileCore : LaneCore Unit),
      (∃ frame error, exec (Host.start loader core
          { systemName := "system", nodeID := "node", routes := [] } none) {} = (.error error, frame) ∧
        Unwound frame.log ∧ Host.released frame.log = [.handles (.empty 0), .runtime 1]) ∧
      (∃ log error, exec (StreamLane.openInternal streamCore ⟨"127.0.0.1", 0, none, ()⟩ loader none none :
          LaneM (StreamLane (id : Nat → Nat) Nat)) [] = (.error error, log) ∧ Refused log) ∧
      ∃ log error, exec (FileLane.openInternal fileCore ⟨"127.0.0.1", 0, none, ()⟩ loader none none) []
          = (.error error, log) ∧ Refused log ∧ destroyed log = [5] := by
  let loader : Loader := ⟨fun _ => .ok "libcoakka_runtime_v2.so", fun _ => .ok 9⟩
  let core : StartupCore := {
    abiVersion := 1
    createNative := fun _ _ => (0, some 1)
    applyNetworkOptions := fun _ _ => 0
    applyTcpSecurityOptions := fun _ _ => (0, ⟨0, 0, 0, 0, 0, 0⟩)
    applySnapshot := fun _ _ => 0
    getHostHandles := fun _ handles => (0, handles)
    start := fun _ => -5
    askClientCreate := fun _ _ => none
    requestReaderCreate := fun _ _ => (-7, none) }
  let streamCore : LaneCore Unit :=
    ⟨(0, 1), (0, 1), fun _ => (-1, none), fun _ _ => (-1, none), fun _ => (0, 4), fun _ => 0⟩
  let fileCore : LaneCore Unit :=
    ⟨(0, 1), (0, 1), fun _ => (0, some 5), fun _ _ => (0, some 5), fun _ => (0, 4), fun _ => -5⟩
  have h := @startup_all_or_nothing Nat Nat Nat Unit Unit id loader core streamCore fileCore
    (fun _ _ hstatus => absurd rfl hstatus)
    ⟨fun _ _ => rfl, fun _ _ _ => rfl⟩
    ⟨fun _ hstatus => absurd rfl hstatus, fun _ _ hstatus => absurd rfl hstatus⟩
  have hhost : (exec (Host.start loader core
      { systemName := "system", nodeID := "node", routes := [] } none) {}).1
      = .error (.nativeStatus (-5) "start runtime") := rfl
  have hstream : exec (StreamLane.openInternal streamCore ⟨"127.0.0.1", 0, none, ()⟩ loader none none :
      LaneM (StreamLane (id : Nat → Nat) Nat)) []
      = (.error (.nativeStatus (-1) "stream_lane_create"), [.create (-1) none]) := rfl
  have hfile : exec (FileLane.openInternal fileCore ⟨"127.0.0.1", 0, none, ()⟩ loader none none) []
      = (.error (.nativeStatus (-5) "file_lane_start"),
        [.create 0 (some 5), .start 5 (-5), .destroy 5]) := rfl
  exact ⟨loader, core, streamCore, fileCore,
    ⟨_, _, Prod.ext hhost rfl, (h.1 _ _).2 _ _ (Prod.ext hhost rfl), rfl⟩,
    ⟨_, _, hstream, (h.2.1 _ _ _).2 _ _ hstream⟩, _, _, hfile, (h.2.2 _ _ _).2 _ _ hfile, rfl⟩

end CoAkka.Lane
