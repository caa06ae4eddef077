import CoAkkaRuntime.Bridge.Functions

/-!
# Bridge — which symbols an opening has resolved

An opening fills every slot or gives back what it took. The header promises more: that the complete
symbol set of the bridge is resolved. The symbols of the lanes are not among the slots, so a module
without one of them is opened, and the lane function that needs it answers that there is no such
symbol, or skips the destroy it was called for. The promise is kept on the modules that export every
lane symbol, or that are refused for another reason.

* `refused_unwound`, `openLibrary_ends` — an opening that fails has closed the loader's handle and
  freed its block, whichever lookup failed.
* `runtimeLibraryOpen_cases` — the ways an opening can end.
* `resolvesSymbolSet_iff` — an opened library answers for the complete symbol set exactly when the
  module exports the names of the lanes, which the opening does not look up.
* `not_resolvesSymbolSet_withoutFileLaneDestroy` — a module that shows the difference.
-/

namespace CoAkka.Bridge

open Session (Address)
open Throwing

/-! ## What an opening leaves

Either everything is there, or everything that was taken has been given back.
-/

/-- An opened library: every slot is filled with its symbol, and nothing was given back. -/
structure Opened (call : OpenCall) (m : CoreModule) (s : OpenState) : Prop where
  outLibrary : s.outLibrary = call.block
  handle : s.library.handle = m.handle
  loaded : m.handle ≠ none
  slots : ∀ slot, s.library.slots slot = m.exports slot.symbol
  exported : ∀ slot : Slot, m.exports slot.symbol ≠ none
  unclosed : ∀ handle, .libraryClose handle ∉ s.log
  unfreed : ∀ block, .free block ∉ s.log

/-- A refused opening: what it took is given back, once. -/
structure Refused (status : Int32) (s : OpenState) : Prop where
  status : status ∈ [Status.noMem, Status.load, Status.symbol]
  outLibrary : s.outLibrary = none
  closed : ∀ handle, .libraryOpen (some handle) ∈ s.log → s.log.count (.libraryClose handle) = 1
  unopened : ∀ handle, .libraryClose handle ∈ s.log → .libraryOpen (some handle) ∈ s.log
  freed : ∀ block, .calloc (some block) ∈ s.log → s.log.count (.free block) = 1

/-- Why an opening is refused. -/
inductive Cause (call : OpenCall) (m : CoreModule) (s : OpenState) : Prop where
  | noMem (hblock : call.block = none)
  | load (hhandle : m.handle = none)
  /-- The first slot without a symbol is named in the error. -/
  | symbol (slot : Slot) (hmissing : m.exports slot.symbol = none)
      (herror : ∀ len, call.errorBuf = some (len + 1) →
        s.error = (("missing symbol: " ++ slot.symbol).toByteArray.data.toList).take len)

/-! ## The statements -/

section Statements

variable {call : OpenCall} {m : CoreModule} {s : OpenState}

theorem note_ends {event : LoaderEvent} {α : Type} {f : PUnit → OpenM α} {Q : α → OpenState → Prop}
    {E : Int32 → OpenState → Prop}
    (h : Ends (f ⟨⟩) (s.logged [event]) Q E) : Ends (note event >>= f) s Q E :=
  ends_modify_bind h

/-- `set_error` changes the error buffer, and only that. -/
theorem setError_ends {cause value : String} {α : Type} {f : PUnit → OpenM α}
    {Q : α → OpenState → Prop} {E : Int32 → OpenState → Prop}
    (h : ∀ error, (∀ len, call.errorBuf = some (len + 1) →
        error = ((cause ++ value).toByteArray.data.toList).take len) →
      Ends (f ⟨⟩) { s with error } Q E) : Ends (setError call cause value >>= f) s Q E := by
  unfold setError
  match hbuf : call.errorBuf with
  | none =>
    apply ends_bind
    exact ends_pure (h s.error fun len hlen => by rw [hbuf] at hlen; cases hlen)
  | some 0 =>
    apply ends_bind
    exact ends_pure (h s.error fun len hlen => by rw [hbuf] at hlen; cases hlen)
  | some (len + 1) =>
    apply ends_modify_bind
    apply h
    intro len' hlen
    rw [hbuf] at hlen
    cases hlen
    rfl

/-- The lookups of the slots `done`. -/
def lookups (m : CoreModule) (done : List Slot) : List LoaderEvent :=
  done.map fun slot => .librarySymbol slot.symbol (m.exports slot.symbol)

/-- The resolution of a slot is the lookup of its symbol. -/
theorem mem_lookups {done : List Slot} {e : LoaderEvent} (h : e ∈ lookups m done) :
    ∃ name symbol, e = .librarySymbol name symbol := by
  obtain ⟨slot, -, rfl⟩ := List.mem_map.mp h
  exact ⟨_, _, rfl⟩

/-- Between two slots: those of `done` are filled. -/
structure Loading (m : CoreModule) (block handle : Address) (done : List Slot) (s : OpenState) :
    Prop where
  outLibrary : s.outLibrary = none
  opened : s.library.handle = some handle
  log : s.log = [.calloc (some block), .libraryOpen (some handle)] ++ lookups m done
  slots : ∀ slot ∈ done, s.library.slots slot = m.exports slot.symbol
  exported : ∀ slot ∈ done, m.exports slot.symbol ≠ none

/-- What was taken for a library that lacks a symbol is given back once. -/
theorem refused_unwound (m : CoreModule) (block handle : Address) (done : List Slot)
    (hout : s.outLibrary = none)
    (hlog : s.log = [.calloc (some block), .libraryOpen (some handle)] ++ lookups m done ++
      [.libraryClose handle, .free block]) : Refused Status.symbol s := by
  have hnone : ∀ e : LoaderEvent, (∀ name symbol, e ≠ .librarySymbol name symbol) →
      e ∉ lookups m done := by
    intro e he hmem
    obtain ⟨name, symbol, rfl⟩ := mem_lookups hmem
    exact he name symbol rfl
  -- the lookups in between neither open nor close nor free anything
  refine ⟨by decide, hout, ?_, ?_, ?_⟩
  · intro h hopen
    have hh : h = handle := by simpa [hlog, hnone] using hopen
    subst hh
    have hlookups := List.count_eq_zero.mpr (hnone (.libraryClose h) (by simp))
    simp [hlog, List.count_append, hlookups]
  · intro h hclose
    have hh : h = handle := by simpa [hlog, hnone] using hclose
    subst hh
    simp [hlog]
  · intro b hcalloc
    have hb : b = block := by simpa [hlog, hnone] using hcalloc
    subst hb
    have hlookups := List.count_eq_zero.mpr (hnone (.free b) (by simp))
    simp [hlog, List.count_append, hlookups]

/-- One slot: its symbol is found, or the opening is refused and everything taken back. -/
theorem loadSymbol_ends {block handle : Address} {done : List Slot} {slot : Slot}
    (h : Loading m block handle done s) :
    Ends (loadSymbol call m block slot) s (fun _ s' => Loading m block handle (done ++ [slot]) s')
      fun status s' => Refused status s' ∧ Cause call m s' := by
  have hlookups : lookups m (done ++ [slot])
      = lookups m done ++ [.librarySymbol slot.symbol (m.exports slot.symbol)] := List.map_append
  unfold loadSymbol
  apply note_ends
  cases hsymbol : m.exports slot.symbol with
  | none =>
    rw [hsymbol] at hlookups
    simp only
    apply setError_ends
    intro error herror
    apply ends_get_bind
    simp only [OpenState.logged_library, h.opened, platformLibraryClose]
    apply note_ends
    apply note_ends
    apply ends_throw
    -- the failed lookup is in the log too
    refine ⟨refused_unwound m block handle (done ++ [slot]) h.outLibrary ?_,
      .symbol slot hsymbol herror⟩
    simp [hlookups, h.log]
  | some symbol =>
    rw [hsymbol] at hlookups
    simp only
    apply ends_modify
    refine ⟨h.outLibrary, h.opened, ?_, ?_, ?_⟩
    · simp [hlookups, h.log]
    · intro other hother
      simp only [OpenState.logged_library]
      -- the slot is filled now, the others are as they were
      by_cases heq : other = slot
      · rw [heq, if_pos rfl, hsymbol]
      · rw [if_neg heq]
        exact h.slots other ((List.mem_append.mp hother).resolve_right (by simpa using heq))
    · intro other hother
      rcases List.mem_append.mp hother with hold | hnew
      · exact h.exported other hold
      · rw [List.mem_singleton.mp hnew, hsymbol]
        simp

/-- After the last slot. -/
theorem Loading.finish {block handle : Address} (h : Loading m block handle Slot.loadOrder s)
    (hblock : call.block = some block) (hhandle : m.handle = some handle) :
    Opened call m { s with outLibrary := some block } where
  outLibrary := hblock.symm
  handle := h.opened.trans hhandle.symm
  loaded := by simp [hhandle]
  slots slot := h.slots slot slot.mem_loadOrder
  exported slot := h.exported slot slot.mem_loadOrder
  unclosed handle' hmem := by
    simp only [h.log, List.mem_append] at hmem
    rcases hmem with htaken | hlookup
    · simp at htaken
    · obtain ⟨name, symbol, heq⟩ := mem_lookups hlookup
      cases heq
  unfreed block' hmem := by
    simp only [h.log, List.mem_append] at hmem
    rcases hmem with htaken | hlookup
    · simp at htaken
    · obtain ⟨name, symbol, heq⟩ := mem_lookups hlookup
      cases heq

/-- **How an opening ends.** Opened, refused with everything given back, or called without a path
or an out-parameter. -/
theorem openLibrary_ends (before : Option Address) :
    Ends (openLibrary call m) { outLibrary := before } (fun _ s => Opened call m s)
      fun status s => (Refused status s ∧ Cause call m s) ∨
        status = Status.invalidArg ∧ (call.path = none ∨ call.hasOutLibrary = false) := by
  unfold openLibrary
  by_cases hinvalid : call.path.isNone || !call.hasOutLibrary
  · rw [if_pos hinvalid]
    apply setError_ends
    intro error _
    apply ends_throw
    exact .inr ⟨rfl, by simpa using hinvalid⟩
  · rw [if_neg hinvalid]
    apply ends_modify_bind
    apply note_ends
    -- the out-parameter is cleared before anything is allocated
    cases hblock : call.block with
    | none =>
      apply setError_ends
      intro error _
      apply ends_throw
      refine .inl ⟨⟨by decide, rfl, ?_, ?_, ?_⟩, .noMem hblock⟩
      all_goals
        intro a ha
        simp at ha
    | some block =>
      apply note_ends
      apply ends_modify_bind
      cases hhandle : m.handle with
      | none =>
        apply setError_ends
        intro error _
        apply note_ends
        apply ends_throw
        -- the block is freed, and no handle was opened
        refine .inl ⟨⟨by decide, rfl, ?_, ?_, ?_⟩, .load hhandle⟩
        · intro handle hopen
          simp at hopen
        · intro handle hclose
          simp at hclose
        · intro b hcalloc
          have hb : b = block := by simpa using hcalloc
          simp [hb]
      | some handle =>
        -- a slot after the other, with what was found so far as the loop's invariant
        apply ends_bind
        apply (ends_forM (Loading m block handle) ?_ ?_).mono
        · intro _ s h
          exact ends_modify (h.finish hblock hhandle)
        · exact fun status s h => .inl h
        · exact fun done slot rest s _ h => loadSymbol_ends h
        · refine ⟨rfl, rfl, ?_, ?_, ?_⟩
          · simp [lookups]
          · simp
          · simp

/-- An opening succeeds with every slot, is refused with nothing left behind, or got no arguments to
work on. -/
theorem runtimeLibraryOpen_cases (call : OpenCall) (m : CoreModule) (before : Option Address) :
    ((runtimeLibraryOpen call m before).1 = Status.ok ∧
      Opened call m (runtimeLibraryOpen call m before).2) ∨
    (Refused (runtimeLibraryOpen call m before).1 (runtimeLibraryOpen call m before).2 ∧
      Cause call m (runtimeLibraryOpen call m before).2) ∨
    (runtimeLibraryOpen call m before).1 = Status.invalidArg ∧
      (call.path = none ∨ call.hasOutLibrary = false) := by
  obtain ⟨hok, herror⟩ := @openLibrary_ends call m before
  unfold runtimeLibraryOpen
  generalize exec (openLibrary call m) { outLibrary := before } = r at hok herror
  obtain ⟨outcome, s⟩ := r
  cases outcome with
  | ok => exact .inl ⟨rfl, hok _ s rfl⟩
  | error status => exact .inr (herror status s rfl)

/-- What an opened library took is given back by its close, once. -/
theorem runtimeLibraryClose_opened {block handle : Address} (h : Opened call m s)
    (hhandle : m.handle = some handle) :
    (s.log ++ runtimeLibraryClose (some (block, s.library))).count (.libraryClose handle) = 1 ∧
    (s.log ++ runtimeLibraryClose (some (block, s.library))).count (.free block) = 1 := by
  have hclosed := List.count_eq_zero.mpr (h.unclosed handle)
  have hfreed := List.count_eq_zero.mpr (h.unfreed block)
  simp [runtimeLibraryClose, h.handle, hhandle, List.count_append, hclosed, hfreed]

end Statements

/-! ## The symbol set of the bridge

The opening answers for its slots; the names of the lanes are looked up by nobody until they are
called.
-/

/-- What the header promises of a module: an opening resolves the complete symbol set. -/
structure ResolvesSymbolSet (m : CoreModule) : Prop where
  /-- It succeeds only if every symbol that a function of the bridge needs is exported. -/
  needed : ∀ call before, (runtimeLibraryOpen call m before).1 = Status.ok →
    ∀ f ∈ bridgeFunctions, m.exports f.core.symbol ≠ none
  /-- After it no function that is given its pointers lacks a symbol or skips its call. -/
  answers : ∀ call before, (runtimeLibraryOpen call m before).1 = Status.ok →
    ∀ f ∈ bridgeFunctions, ∀ given : Parameter → Bool, f.checked.all given →
      f.answer m (some (runtimeLibraryOpen call m before).2.library) given
        ≠ .status Status.symbol ∧
      f.answer m (some (runtimeLibraryOpen call m before).2.library) given ≠ .skipped
  /-- A module that does not load, or lacks a symbol, is refused and given back. -/
  refused : ∀ call before, call.path ≠ none → call.hasOutLibrary = true →
    (m.handle = none ∨ ∃ f ∈ bridgeFunctions, m.exports f.core.symbol = none) →
    Refused (runtimeLibraryOpen call m before).1 (runtimeLibraryOpen call m before).2

/-- The module does not load, or lacks a symbol that is loaded into a slot, or exports every symbol of
the lanes. -/
def LanesResolved (m : CoreModule) : Prop :=
  m.handle = none ∨ (∃ slot : Slot, m.exports slot.symbol = none) ∨
    ∀ symbol : LaneSymbol, m.exports symbol.name ≠ none

section SymbolSet

variable {call : OpenCall} {m : CoreModule} {s : OpenState}

/-- Every lane symbol is some function's. -/
theorem exists_laneFunction (symbol : LaneSymbol) :
    ∃ f ∈ bridgeFunctions, f.core.symbol = symbol.name := by
  have hmem : CoreUse.lane symbol ∈ bridgeFunctions.map (·.core) := by
    cases symbol <;> decide
  obtain ⟨f, hf, hcore⟩ := List.mem_map.mp hmem
  exact ⟨f, hf, by rw [hcore]; rfl⟩

/-- A function whose symbol is exported by an opened library reaches Core. -/
theorem answer_of_opened (h : Opened call m s) {f : BridgeFunction}
    (hexport : m.exports f.core.symbol ≠ none) {given : Parameter → Bool}
    (hgiven : f.checked.all given) :
    ∃ function, m.exports f.core.symbol = some function ∧
      f.answer m (some s.library) given = .core function := by
  obtain ⟨function, hfunction⟩ := Option.ne_none_iff_exists'.mp hexport
  refine ⟨function, hfunction, ?_⟩
  unfold BridgeFunction.answer
  cases hcore : f.core with
  | slot slot =>
    rw [hcore] at hfunction
    simp only [if_pos hgiven, h.slots slot]
    rw [show m.exports slot.symbol = some function from hfunction]
  | feature =>
    rw [hcore] at hfunction
    simp only [if_pos hgiven, h.slots .getInfo]
    rw [show m.exports Slot.getInfo.symbol = some function from hfunction]
  | lane symbol =>
    rw [hcore] at hfunction
    simp only
    rw [show m.exports symbol.name = some function from hfunction]
    simp only [if_pos hgiven]

/-- On a module with every lane symbol, an opened library has every symbol. -/
theorem exported_of_opened (h : Opened call m s)
    (hlanes : ∀ symbol : LaneSymbol, m.exports symbol.name ≠ none) (f : BridgeFunction) :
    m.exports f.core.symbol ≠ none := by
  cases f.core with
  | slot slot => exact h.exported slot
  | feature => exact h.exported .getInfo
  | lane symbol => exact hlanes symbol

/-- With the lane symbols there too, no bridge function can miss its symbol later. -/
theorem LanesResolved.exported (hlanes : LanesResolved m) (h : Opened call m s) :
    ∀ f : BridgeFunction, m.exports f.core.symbol ≠ none := by
  rcases hlanes with hhandle | ⟨slot, hmissing⟩ | hall
  · exact absurd hhandle h.loaded
  · exact absurd hmissing (h.exported slot)
  · exact exported_of_opened h hall

end SymbolSet

/-- An opening that succeeds leaves an opened library. -/
theorem opened_of_ok {call : OpenCall} {m : CoreModule} {before : Option Address}
    (h : (runtimeLibraryOpen call m before).1 = Status.ok) :
    Opened call m (runtimeLibraryOpen call m before).2 := by
  rcases runtimeLibraryOpen_cases call m before with ⟨-, hopened⟩ | ⟨hrefused, -⟩ | ⟨hinvalid, -⟩
  · exact hopened
  · have hstatus := hrefused.status
    rw [h] at hstatus
    exact absurd hstatus (by decide)
  · rw [h] at hinvalid
    exact absurd hinvalid (by decide)

/-- A module with every slot's symbol is opened, whatever it lacks of the lanes. -/
theorem opened_of_slots {m : CoreModule} (hhandle : m.handle ≠ none)
    (hslots : ∀ slot : Slot, m.exports slot.symbol ≠ none) :
    (runtimeLibraryOpen ⟨some "", true, none, some 0, ""⟩ m none).1 = Status.ok := by
  rcases runtimeLibraryOpen_cases ⟨some "", true, none, some 0, ""⟩ m none with
    ⟨hok, -⟩ | ⟨-, hcause⟩ | ⟨-, hpath | hout⟩
  · exact hok
  · cases hcause with
    | noMem hblock => cases hblock
    | load hmissing => exact absurd hmissing hhandle
    | symbol slot hmissing _ => exact absurd hmissing (hslots slot)
  · cases hpath
  · cases hout

/-- **Which modules the promise holds for.** Opening a module resolves the complete symbol set of
the bridge, or refuses the module and gives everything back, exactly if the module is refused anyway
or exports every symbol of the lanes: those are not looked up. -/
theorem resolvesSymbolSet_iff (m : CoreModule) : ResolvesSymbolSet m ↔ LanesResolved m := by
  constructor
  · intro h
    by_cases hhandle : m.handle = none
    · exact .inl hhandle
    by_cases hslots : ∃ slot : Slot, m.exports slot.symbol = none
    · exact .inr (.inl hslots)
    refine .inr (.inr fun symbol => ?_)
    -- a module that can be opened: a lane function of each symbol shows that it is exported
    have hok := opened_of_slots hhandle (not_exists.mp hslots)
    obtain ⟨f, hf, hsymbol⟩ := exists_laneFunction symbol
    rw [← hsymbol]
    exact h.needed _ none hok f hf
  · intro h
    constructor
    · exact fun call before hok f _ => h.exported (opened_of_ok hok) f
    · intro call before hok f _ given hgiven
      have hopened := opened_of_ok hok
      obtain ⟨function, -, hanswer⟩ := answer_of_opened hopened (h.exported hopened f) hgiven
      rw [hanswer]
      exact ⟨by simp, by simp⟩
    · -- a module that lacks something is refused by the opening, or not opened at all
      intro call before hpath hout hlacks
      rcases runtimeLibraryOpen_cases call m before with
        ⟨-, hopened⟩ | ⟨hrefused, -⟩ | ⟨-, hnone | hnone⟩
      · rcases hlacks with hhandle | ⟨f, -, hmissing⟩
        · exact absurd hhandle hopened.loaded
        · exact absurd hmissing (h.exported hopened f)
      · exact hrefused
      · exact absurd hnone hpath
      · rw [hout] at hnone
        cases hnone

/-- A module that lacks one symbol only, that of the destroy of a File Lane. -/
def withoutFileLaneDestroy : CoreModule where
  handle := some 1
  exports name := if name = "coakka_v2_file_lane_destroy" then none else some 2

/-- It is opened, and the destroy of a lane is skipped. -/
theorem not_resolvesSymbolSet_withoutFileLaneDestroy :
    (runtimeLibraryOpen ⟨some "libcoakka.so", true, none, some 0, ""⟩ withoutFileLaneDestroy none).1
      = Status.ok ∧
    fileLaneDestroy.answer withoutFileLaneDestroy (some (runtimeLibraryOpen
      ⟨some "libcoakka.so", true, none, some 0, ""⟩ withoutFileLaneDestroy none).2.library)
      (fun _ => true) = .skipped ∧
    ¬ ResolvesSymbolSet withoutFileLaneDestroy := by
  have hok : (runtimeLibraryOpen ⟨some "libcoakka.so", true, none, some 0, ""⟩
      withoutFileLaneDestroy none).1 = Status.ok := by decide +kernel
  refine ⟨hok, by decide +kernel, fun h => ?_⟩
  exact h.needed _ none hok fileLaneDestroy (by decide) (by decide)

end CoAkka.Bridge
