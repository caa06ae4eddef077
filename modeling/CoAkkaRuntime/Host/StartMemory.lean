import CoAkkaRuntime.Host.NativeStart

/-!
# Host — a start gives its memory back

The start over the memory comes to the start over the values: Core reads the policy and the routes
of the specification behind the pointers, and however the start ends, every block that it allocated
is given back once and no other block is touched.

* `readCharacters_copyOf` — a copy is read back as the text it was made of.
* `Copied.addRoute`, `copied_forM` — one turn of the loop of `applyRoutes`, and the loop: the
  records built so far are what Core will read, and their blocks are owned.
* `simulates_applyRoutes`, `simulates_applyNetwork` — each method over the memory does what the one
  over the values does, and owns nothing at its end.
* `start_memory_refines` — so does a start, however it ends.
-/

namespace CoAkka.Host

open Memory Session Text Throwing Transport

/-! ## Reading what was stored -/

section Reading

variable {memory memory' : Store NativeBlock} {pointer : Nat}

/-- The block of a copy. -/
def copyOf (value : String) : NativeBlock := .characters ((utf8CString value).map some)

/-- A copied string is one new block. -/
theorem run_duplicateCString (value : String) :
    (duplicateCString value).run memory = memory.allocate (copyOf value) := by
  show ((memory.allocate (.characters (List.replicate (utf8CString value).length none))).1,
    (memory.allocate (.characters (List.replicate (utf8CString value).length none))).2.write
      (memory.allocate (.characters (List.replicate (utf8CString value).length none))).1
      (copyOf value)) = _
  rw [Store.write_allocate]
  rfl

/-- The string that C reads ends where its reading ends. -/
theorem reading_bytes (text : CString) : CString.reading text.bytes = text := by
  obtain ⟨bytes, hnul⟩ := text
  simp only [CString.reading, takeWhile_ne_zero hnul]

/-- An endpoint is one new block, which is filled before anything else happens. -/
theorem run_allocateEndpoint (value : EndpointRecord) :
    (allocateEndpoint value).run memory = memory.allocate (.endpoint (some value)) := by
  show ((memory.allocate (.endpoint none)).1, (memory.allocate (.endpoint none)).2.write
    (memory.allocate (.endpoint none)).1 (.endpoint (some value))) = _
  rw [Store.write_allocate]
  rfl

/-- C reads of a copy what C reads of the string. -/
theorem readCharacters_copyOf {value : String} (h : memory.read pointer = some (copyOf value)) :
    readCharacters memory pointer = some (cString value) := by
  unfold readCharacters
  rw [h]
  show (readCString ((utf8CString value).map some)).map CString.reading = _
  rw [readCString_utf8CString]
  rw [Option.map_some, reading_bytes]

/-- What C reads it reads on while no block goes. -/
theorem readCharacters_le (h : Store.Le memory memory') {value : CString}
    (hread : readCharacters memory pointer = some value) :
    readCharacters memory' pointer = some value := by
  unfold readCharacters at hread
  split at hread
  · next block hblock =>
    unfold readCharacters
    rw [h pointer _ hblock]
    exact hread
  · cases hread

theorem readEndpoint_le (h : Store.Le memory memory') {value : Endpoint}
    (hread : readEndpoint memory pointer = some value) :
    readEndpoint memory' pointer = some value := by
  unfold readEndpoint at hread
  split at hread
  · next record hrecord =>
    obtain ⟨host, hhost, rfl⟩ := Option.map_eq_some_iff.mp hread
    unfold readEndpoint
    rw [h pointer _ hrecord]
    simp only [readCharacters_le h hhost, Option.map_some]
  · cases hread

theorem readRoute_le (h : Store.Le memory memory') {record : RouteRecord} {route : Route}
    (hread : readRoute memory record = some route) : readRoute memory' record = some route := by
  unfold readRoute at hread
  obtain ⟨target, htarget, hread⟩ := Option.bind_eq_some_iff.mp hread
  obtain ⟨hint, hhint, hread⟩ := Option.bind_eq_some_iff.mp hread
  obtain ⟨endpoints, hendpoints, hread⟩ := Option.bind_eq_some_iff.mp hread
  have hhint' : readOptional memory' record.routeKeyHint = some hint := by
    unfold readOptional at hhint
    split at hhint
    · next hnone => rw [hnone]; exact hhint
    · next p hsome =>
      obtain ⟨text, htext, rfl⟩ := Option.map_eq_some_iff.mp hhint
      rw [hsome]
      show (readCharacters memory' p).map some = _
      rw [readCharacters_le h htext]
      rfl
  have hendpoints' :
      readEndpoints memory' record.endpoints record.endpointCount = some endpoints := by
    unfold readEndpoints at hendpoints
    split at hendpoints
    · next hzero => rw [hzero]; exact hendpoints
    · next hone =>
      obtain ⟨endpoint, hendpoint, rfl⟩ := Option.map_eq_some_iff.mp hendpoints
      rw [hone]
      show (readEndpoint memory' record.endpoints).map ([·]) = _
      rw [readEndpoint_le h hendpoint]
      rfl
    · cases hendpoints
  unfold readRoute
  rw [readCharacters_le h htarget, hhint', hendpoints']
  exact hread

/-- So it does of all routes. -/
theorem mapM_readRoute_le (h : Store.Le memory memory') {values : List RouteRecord}
    {routes : List Route} (hread : values.mapM (readRoute memory) = some routes) :
    values.mapM (readRoute memory') = some routes := by
  induction values generalizing routes with
  | nil => exact hread
  | cons record values ih =>
    rw [List.mapM_cons] at hread ⊢
    obtain ⟨route, hroute, hread⟩ := Option.bind_eq_some_iff.mp hread
    obtain ⟨rest, hrest, hread⟩ := Option.bind_eq_some_iff.mp hread
    rw [readRoute_le h hroute]
    show (values.mapM (readRoute memory')).bind _ = _
    rw [ih hrest]
    exact hread

end Reading

/-! ## The loop of `applyRoutes`

The records are built one by one, and their blocks are freed together after the call.
-/

section Routes

variable {m₀ : Store NativeBlock} {s : NativeFrame} {done : List RuntimeRouteSpec}

/-- The routes of the turns so far are there, and the call owns all that they are in. -/
structure Copied (m₀ : Store NativeBlock) (s : NativeFrame) (done : List RuntimeRouteSpec) :
    Prop where
  owns : Memory.Owns m₀ s.memory (s.endpoints ++ s.strings)
  reads : s.values.mapM (readRoute s.memory) = some (done.map (·.route))

/-- A step on the memory leaves the rest of the frame alone. -/
theorem run_inMemory {α : Type} (x : StateM (Store NativeBlock) α) (s : NativeFrame) :
    (inMemory x).run s = ((x.run s.memory).1, { s with memory := (x.run s.memory).2 }) := rfl

/-- A turn allocates a block for each of its three pointers. -/
theorem run_addRoute (route : RuntimeRouteSpec) (s : NativeFrame) :
    (addRoute route).run s =
      let target := s.memory.allocate (copyOf route.target)
      let host := target.2.allocate (copyOf route.host)
      let endpoint := host.2.allocate
        (.endpoint (some ⟨host.1, route.port, 1, if route.isLocal then 1 else 0⟩))
      ((), { s with
        memory := endpoint.2
        strings := s.strings ++ [target.1, host.1]
        endpoints := s.endpoints ++ [endpoint.1]
        values := s.values ++ [⟨target.1, 1, none, 0, endpoint.1, 1⟩] }) := by
  unfold addRoute
  simp only [StateT.run_bind, run_inMemory, run_duplicateCString, run_allocateEndpoint]
  rfl

/-- One more route is copied: Core will read it, and the frame owns its blocks. -/
theorem Copied.addRoute (h : Copied m₀ s done) (route : RuntimeRouteSpec) :
    Copied m₀ ((addRoute route).run s).2 (done ++ [route]) := by
  rw [run_addRoute]
  dsimp only
  generalize htarget : s.memory.allocate (copyOf route.target) = target
  generalize hhost : target.2.allocate (copyOf route.host) = host
  generalize hrecord : NativeBlock.endpoint
    (some ⟨host.1, route.port, 1, if route.isLocal then 1 else 0⟩) = record
  generalize hendpoint : host.2.allocate record = endpoint
  have hle : Store.Le s.memory target.2 := htarget ▸ Store.le_allocate _ _
  have hle' : Store.Le target.2 host.2 := hhost ▸ Store.le_allocate _ _
  have hle'' : Store.Le host.2 endpoint.2 := hendpoint ▸ Store.le_allocate _ _
  constructor
  · have howns : Memory.Owns m₀ target.2 (target.1 :: (s.endpoints ++ s.strings)) :=
      htarget ▸ h.owns.allocate _
    have howns' : Memory.Owns m₀ host.2 (host.1 :: target.1 :: (s.endpoints ++ s.strings)) :=
      hhost ▸ howns.allocate _
    have howns'' : Memory.Owns m₀ endpoint.2
        (endpoint.1 :: host.1 :: target.1 :: (s.endpoints ++ s.strings)) :=
      hendpoint ▸ howns'.allocate _
    apply howns''.perm
    rw [List.perm_iff_count]
    intro p
    simp only [List.count_append, List.count_cons, List.count_nil]
    omega
  · have hold := mapM_readRoute_le (hle.trans (hle'.trans hle'')) h.reads
    have hread : target.2.read target.1 = some (copyOf route.target) :=
      htarget ▸ Store.read_allocate_self _
    have hread' : host.2.read host.1 = some (copyOf route.host) := hhost ▸ Store.read_allocate_self _
    have hread'' : endpoint.2.read endpoint.1 = some record := hendpoint ▸ Store.read_allocate_self _
    -- Core finds the two strings and the endpoint behind the record's pointers
    have hroute : readRoute endpoint.2 ⟨target.1, 1, none, 0, endpoint.1, 1⟩ = some route.route := by
      have htext := readCharacters_copyOf (hle''  _ _ (hle' _ _ hread))
      have htext' := readCharacters_copyOf (hle'' _ _ hread')
      have hone : readEndpoint endpoint.2 endpoint.1
          = some ⟨cString route.host, route.port, 1, if route.isLocal then 1 else 0⟩ := by
        unfold readEndpoint
        rw [hread'', ← hrecord]
        simp only [htext', Option.map_some]
      unfold readRoute readEndpoints
      simp only [htext, hone]
      rfl
    rw [List.mapM_append, hold, List.mapM_cons, hroute, List.map_append]
    rfl

/-- All routes are, one after the other. -/
theorem copied_forM (routes : List RuntimeRouteSpec) (h : Copied m₀ s done) :
    Copied m₀ ((routes.forM addRoute).run s).2 (done ++ routes) ∧
      ((routes.forM addRoute).run s).2.frame = s.frame := by
  induction routes generalizing s done with
  | nil =>
    rw [List.append_nil]
    exact ⟨h, rfl⟩
  | cons route routes ih =>
    obtain ⟨hcopied, hframe⟩ := ih (h.addRoute route)
    rw [List.append_assoc] at hcopied
    refine ⟨hcopied, hframe.trans ?_⟩
    rw [run_addRoute]

end Routes

/-! ## The calls -/

section Calls

variable {m₀ : Store NativeBlock} {held : NativeFrame → List Nat} {core : StartupCore} {α β : Type}

/-- The start over the values is where the start over the memory is, which holds `held` of the
memory. -/
structure Holding (m₀ : Store NativeBlock) (held : NativeFrame → List Nat) (s : NativeFrame)
    (t : StartFrame) : Prop where
  frame : s.frame = t
  owns : Memory.Owns m₀ s.memory (held s)

theorem exec_inFrame (x : StartM α) (s : NativeFrame) :
    exec (inFrame x) s = ((exec x s.frame).1, { s with frame := (exec x s.frame).2 }) := rfl

/-- A step outside the memory. -/
theorem simulates_inFrame (hheld : ∀ s frame, held { s with frame } = held s) (x : StartM α) :
    Simulates (Holding m₀ held) (inFrame x) x := by
  rintro s _ ⟨rfl, howns⟩
  exact ⟨rfl, rfl, by rw [exec_inFrame, hheld]; exact howns⟩

/-- Where the blocks are there, Core reads them. -/
theorem exec_coreReads_bind {γ : Type} {reading : Store NativeBlock → Option γ} {s : NativeFrame}
    {value : γ} (h : reading s.memory = some value) (f : γ → NativeM α) :
    exec (coreReads reading >>= f) s = exec (f value) s := by
  have hread : exec (coreReads reading) s = (.ok value, s) := by
    unfold coreReads
    rw [exec_get_bind, h]
    rfl
  exact exec_bind_ok hread f

/-- A call of Core with what it reads in memory that the call holds. -/
theorem agree_coreCall {γ : Type} (hheld : ∀ s frame, held { s with frame } = held s)
    (reading : Store NativeBlock → Option γ) {s : NativeFrame} {t : StartFrame} {value : γ}
    (h : Holding m₀ held s t) (hread : reading s.memory = some value) (send : γ → StartM α) :
    Agree (Holding m₀ held)
      (exec (do let _ ← inFrame requireHandle; let value ← coreReads reading; inFrame (send value)) s)
      (exec (do let _ ← requireHandle; send value) t) := by
  refine Agree.bind (simulates_inFrame hheld requireHandle s t h) fun _ s' t' hs _ h' => ?_
  have hmemory : s'.memory = s.memory := by
    rw [exec_inFrame] at hs
    have hframe := (Prod.ext_iff.mp hs).2
    exact (congrArg NativeFrame.memory hframe).symm
  rw [exec_coreReads_bind (by rw [hmemory]; exact hread)]
  exact simulates_inFrame hheld (send value) s' t' h'

/-- The blocks of a call are given back, and the frame holds none behind it. -/
theorem holding_deallocateAll {pointers : List Nat} {s : NativeFrame} {t : StartFrame}
    (h : Holding m₀ held s t) (hpointers : pointers = held s) :
    Holding m₀ (fun _ => []) ((deallocateAll pointers).run s).2 t :=
  ⟨h.frame, by rw [hpointers]; exact h.owns.deallocateAll⟩

/-- Applying routes over the memory is applying them: Core is handed the same routes, and every
block is given back. -/
theorem simulates_applyRoutes (runtime : Address) (generation : UInt64)
    (routes : List RuntimeRouteSpec) :
    Simulates (Holding m₀ fun _ => []) (applyRoutesNative core runtime generation routes)
      (applyRoutes core runtime generation routes) := by
  intro s t h
  unfold applyRoutesNative
  rw [exec_modify_bind, exec_deferring]
  -- the loop
  have hstart : Copied m₀ { s with endpoints := [], strings := [], values := [] } [] :=
    ⟨h.owns, rfl⟩
  obtain ⟨hcopied, hframe⟩ := copied_forM routes hstart
  rw [exec_liftM_bind]
  generalize ((routes.forM addRoute).run { s with endpoints := [], strings := [], values := [] }).2
    = s' at hcopied hframe
  rw [List.nil_append] at hcopied
  have hread : readSnapshot s'.memory generation s'.values
      = some ⟨generation, routes.map (·.route)⟩ := by
    unfold readSnapshot
    rw [hcopied.reads]
    rfl
  rw [exec_get_bind]
  have hholding : Holding m₀ (fun s => s.endpoints ++ s.strings) s' t :=
    ⟨hframe.trans h.frame, hcopied.owns⟩
  obtain ⟨hout, hstates⟩ := agree_coreCall (fun _ _ => rfl)
    (fun memory => readSnapshot memory generation s'.values) hholding hread
    (sendSnapshot core runtime)
  exact ⟨hout, holding_deallocateAll hstates rfl⟩

/-- An optional string owns one block or none. -/
theorem owns_duplicateOptional {memory : Store NativeBlock} {owned : List Nat}
    (h : Memory.Owns m₀ memory owned) (value : Option String) :
    Memory.Owns m₀ ((duplicateOptional value).run memory).2
      (((duplicateOptional value).run memory).1.toList ++ owned) ∧
    Store.Le memory ((duplicateOptional value).run memory).2 ∧
    readOptional ((duplicateOptional value).run memory).2 ((duplicateOptional value).run memory).1
      = some (value.map cString) := by
  cases value with
  | none => exact ⟨h, fun _ _ hread => hread, rfl⟩
  | some host =>
    have hrun : (duplicateOptional (some host)).run memory
        = (some (memory.allocate (copyOf host)).1, (memory.allocate (copyOf host)).2) := by
      show (some ((duplicateCString host).run memory).1, ((duplicateCString host).run memory).2) = _
      rw [run_duplicateCString]
    rw [hrun]
    refine ⟨h.allocate _, Store.le_allocate _ _, ?_⟩
    show (readCharacters _ _).map some = _
    rw [readCharacters_copyOf (Store.read_allocate_self _)]
    rfl

theorem readOptional_le {memory memory' : Store NativeBlock} (h : Store.Le memory memory')
    {pointer : Option Nat} {value : Option CString}
    (hread : readOptional memory pointer = some value) :
    readOptional memory' pointer = some value := by
  cases pointer with
  | none => exact hread
  | some p =>
    obtain ⟨text, htext, rfl⟩ := Option.map_eq_some_iff.mp hread
    exact Option.map_eq_some_iff.mpr ⟨text, readCharacters_le h htext, rfl⟩

/-- The same for the network configuration. -/
theorem simulates_applyNetwork (runtime : Address) (network : RuntimeNetworkConfig) :
    Simulates (Holding m₀ fun _ => []) (applyNetworkNative core runtime network)
      (applyNetwork core runtime network) := by
  intro s t h
  obtain ⟨hbind, -, hbindRead⟩ := owns_duplicateOptional h.owns network.bindHost
  unfold applyNetworkNative
  rw [exec_liftM_bind, run_inMemory]
  generalize (duplicateOptional network.bindHost).run s.memory = bind at hbind hbindRead
  obtain ⟨hadvertise, hle, hadvertiseRead⟩ := owns_duplicateOptional hbind network.advertiseHost
  rw [exec_liftM_bind, run_inMemory]
  dsimp only
  generalize (duplicateOptional network.advertiseHost).run bind.2 = advertise
    at hadvertise hle hadvertiseRead
  rw [exec_deferring]
  -- Core reads both hosts; the second copy has left the first alone
  have hread : readNetwork advertise.2 network bind.1 advertise.1 = some network.arguments := by
    unfold readNetwork
    rw [readOptional_le hle hbindRead, hadvertiseRead]
    rfl
  -- both copies are owned when Core is called, and the `defer` gives both back
  have hholding : Holding m₀ (fun _ => bind.1.toList ++ advertise.1.toList)
      { s with memory := advertise.2 } t := by
    refine ⟨h.frame, hadvertise.perm ?_⟩
    rw [List.append_nil]
    exact List.perm_append_comm
  obtain ⟨hout, hstates⟩ := agree_coreCall (fun _ _ => rfl)
    (fun memory => readNetwork memory network bind.1 advertise.1) hholding hread
    (sendNetwork core runtime)
  exact ⟨hout, holding_deallocateAll hstates rfl⟩

/-! ## The start -/

/-- For the steps that acquire the owners. -/
theorem simulates_acquire (runtime : Address) (spec : ConnectorStartSpec) :
    Simulates (Holding m₀ fun _ => []) (acquireNative core runtime spec)
      (acquire core runtime spec) := by
  refine (simulates_applyNetwork runtime spec.network).bind fun _ => ?_
  refine (simulates_inFrame (fun _ _ => rfl) _).bind fun security => ?_
  refine (simulates_applyRoutes runtime spec.generation spec.routes).bind fun _ => ?_
  exact simulates_inFrame (fun _ _ => rfl) _

/-- And for a start as a whole. -/
theorem simulates_start (loader : Loader) (spec : ConnectorStartSpec)
    (runtimeLibPath : Option String) :
    Simulates (Holding m₀ fun _ => []) (startNative core loader spec runtimeLibPath)
      (start loader core spec runtimeLibPath) := by
  refine (Simulates.ofExcept _).bind fun _ => (Simulates.ofExcept _).bind fun path => ?_
  refine (Simulates.ofExcept _).bind fun _ => (Simulates.ofExcept _).bind fun handle => ?_
  refine (simulates_inFrame (fun _ _ => rfl) _).bind fun _ => ?_
  refine (simulates_inFrame (fun _ _ => rfl) _).bind fun _ => ?_
  by_cases habi : core.abiVersion = 1
  · simp only [if_pos habi]
    refine (simulates_inFrame (fun _ _ => rfl) _).bind fun runtime => ?_
    exact (simulates_acquire runtime spec).tryCatch fun error =>
      simulates_inFrame (fun _ _ => rfl) (unwind runtime error)
  · simp only [if_neg habi]
    exact .throw _

/-- **The memory of a start.** Whatever the specification, the loader and Core answer, a start over
the memory ends as the start over the values does, with the same native calls: Core finds the
specification's policy and routes behind the pointers it is handed. When the start is over, returned
or thrown, no block was used that was not there, every block that it allocated has been given back
once, and every other block is as it was. -/
theorem start_memory_refines (loader : Loader) (spec : ConnectorStartSpec)
    (runtimeLibPath : Option String) (s : NativeFrame) :
    (exec (startNative core loader spec runtimeLibPath) s).1
      = (exec (start loader core spec runtimeLibPath) s.frame).1 ∧
    (exec (startNative core loader spec runtimeLibPath) s).2.frame
      = (exec (start loader core spec runtimeLibPath) s.frame).2 ∧
    (exec (startNative core loader spec runtimeLibPath) s).2.memory.fault = s.memory.fault ∧
    ∀ p, (exec (startNative core loader spec runtimeLibPath) s).2.memory.read p
      = s.memory.read p := by
  have hstart : Holding s.memory (fun _ => []) s s.frame := ⟨rfl, .refl _⟩
  obtain ⟨hout, hframe, howns⟩ := simulates_start loader spec runtimeLibPath s _ hstart
  exact ⟨hout, hframe, howns.fault, fun p => howns.others p nofun⟩

end Calls

end CoAkka.Host
