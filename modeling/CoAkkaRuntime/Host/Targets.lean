import CoAkkaRuntime.Host.Registrations
import CoAkkaRuntime.Unicode.CanonicalEquivalence

/-!
# Host — whose requests a handler gets

The handler table is keyed by Swift's `String ==`, which is canonical equivalence, while Core
routes and delivers a target as bytes. Where two targets in use are equivalent without being the
same bytes, the handler of one gets the requests of the other, which cannot be registered itself.
Otherwise every request reaches the handler registered for exactly its target, or none.

* `Recorded` — the table against the registrations that were accepted.
* `called_found` — the handler that a frame reaches, by equivalence or by bytes.
* `exists_misrouted` — two equivalent targets in use are enough for a wrong call.
* `runtimeHost_ownersServed_iff` — each owner is served in every run exactly when no two targets in
  use are equivalent and different.

The character database is a parameter, as it is in `Unicode.CanonicalEquivalence`; two of its
entries are what the example needs.
-/

namespace CoAkka.Host

open Codec Session Throwing Unicode

variable {I H E : Type} [DecidableEq I] {ident : String → I}

/-! ## Targets in use -/

/-- The target of a delivered frame, where its bytes are UTF-8. -/
def Frame.target? (f : Frame H E) : Option String :=
  match targetSpan f.memory f.copy.target f.copy.targetSize with
  | .error _ => none
  | .ok bytes => bytes.utf8?

/-- The action names targets of `targets` only. -/
def HostAction.Uses (targets : Set String) : HostAction H → Prop
  | .register target _ => target ∈ targets
  | .requestRetirement => True

def HostInput.Uses (targets : Set String) : HostInput H E → Prop
  | .act action => action.Uses targets
  | .frame f => (∀ action ∈ f.meanwhile, action.Uses targets) ∧
      ∀ target, f.target? = some target → target ∈ targets

/-- A target an empty table has room for. -/
def Registrable (target : String) : Prop :=
  validateCString target "handler target" = .ok () ∧ target ≠ "" ∧ target.utf8ByteSize ≤ 64 * 1024

/-- A target whose bytes make a valid span. -/
def Deliverable (target : String) : Prop :=
  target ≠ "" ∧ target.utf8ByteSize < 2 ^ 63

/-- What the owners of the targets rely on. -/
structure OwnersServed (failureText : DispatchError E → String) (targets : Set String)
    (host : RuntimeHost ident H) : Prop where
  /-- The handler that runs is the one registered for the bytes of the target. -/
  served : ∀ (f : Frame H E) target call events, f.target? = some target → target ∈ targets →
    (host.step failureText projectDispatchTarget (.frame f)).log = host.log ++ events →
    .called call ∈ events →
    ∀ handler, .registered target handler ∈ host.log ↔ handler = call.handler
  /-- A target is refused as a duplicate only where it is one. -/
  refused : ∀ target handler, target ∈ targets →
    (exec (register target handler) host).1
      = .error (.invalidArgument "handler target already registered") →
    ∃ old, .registered target old ∈ host.log

/-! ## The table against the registrations

Every entry of the table is a registration that was accepted, under the target it was made for.
-/

structure Recorded (targets : Set String) (host : RuntimeHost ident H) : Prop where
  /-- Every stored pair is a registration. -/
  stored : ∀ p ∈ host.handlers.pairs, .registered p.1 p.2 ∈ host.log ∧ p.1 ∈ targets ∧
    Registrable p.1
  /-- Every registration is found. -/
  found : ∀ target handler, .registered target handler ∈ host.log →
    host.handlers.get? target = some handler
  budget : 0 ≤ host.registrationBytes

/-- What leaves the registrations leaves what is recorded of them. -/
theorem Recorded.leaves {targets : Set String} {host host' : RuntimeHost ident H}
    (h : Recorded targets host) (hleaves : Leaves host host') : Recorded targets host' where
  stored p hp := by
    rw [hleaves.handlers] at hp
    obtain ⟨hlogged, hrest⟩ := h.stored p hp
    exact ⟨(hleaves.registered _ _).mpr hlogged, hrest⟩
  found target handler hlogged := by
    rw [hleaves.handlers]
    exact h.found target handler ((hleaves.registered _ _).mp hlogged)
  budget := by
    rw [hleaves.budget]
    exact h.budget

/-- **A registration** is recorded by both the table and the log. -/
theorem Recorded.register {targets : Set String} {host : RuntimeHost ident H}
    (h : Recorded targets host) {target : String} (htarget : target ∈ targets)
    (handler : Handler H) : Recorded targets (exec (register target handler) host).2 := by
  have hrun := exec_register host target handler
  generalize exec (Host.register target handler) host = out at hrun
  cases hrun with
  | invalid | empty | closed | duplicate | exhausted => exact h
  | registered hvalid hnonempty _ hnew hroom =>
    -- the key is new, so every older pair stays and the new one is added
    have hbudget := h.budget
    refine ⟨fun p hp => ?_, fun target' handler' hlogged => ?_, ?_⟩
    · rcases (Dictionary.mem_pairs_set_of_none hnew p).mp hp with hold | rfl
      · obtain ⟨hlogged, hrest⟩ := h.stored p hold
        exact ⟨List.mem_append_left _ hlogged, hrest⟩
      · refine ⟨List.mem_append_right _ (List.mem_singleton_self _), htarget, hvalid, hnonempty, ?_⟩
        show target.utf8ByteSize ≤ 64 * 1024
        omega
    · show (host.handlers.set target handler).get? target' = some handler'
      rw [Dictionary.get?_set]
      rcases List.mem_append.mp hlogged with hold | hnow
      · have hget := h.found target' handler' hold
        split
        · next heq =>
          rw [← Dictionary.get?_congr _ heq, hnew] at hget
          cases hget
        · exact hget
      · obtain ⟨rfl, rfl⟩ := HostEvent.registered.inj (List.mem_singleton.mp hnow)
        exact if_pos rfl
    · show 0 ≤ host.registrationBytes + (target.utf8ByteSize : Int)
      omega

/-- An action that uses targets of the set keeps the record within it. -/
theorem Recorded.act {targets : Set String} {host : RuntimeHost ident H} {action : HostAction H}
    (huses : action.Uses targets) (h : Recorded targets host) :
    Recorded targets (host.act action) := by
  cases action with
  | register target handler => exact h.register huses handler
  | requestRetirement => exact h.leaves ⟨rfl, rfl, fun _ _ => Iff.rfl⟩

/-- An input of the set brings actions of the set. -/
theorem HostInput.Uses.actions {targets : Set String} {input : HostInput H E}
    (h : input.Uses targets) : ∀ action ∈ input.actions, action.Uses targets := by
  cases input with
  | act action => exact fun _ hmem => List.mem_singleton.mp hmem ▸ h
  | frame f => exact h.1

/-- Over a run that uses targets of the set, every handler is stored under one of them. -/
theorem recorded_run (failureText : DispatchError E → String) {targets : Set String}
    {inputs : List (HostInput H E)} (huses : ∀ input ∈ inputs, input.Uses targets) :
    Recorded targets (RuntimeHost.run failureText projectDispatchTarget inputs :
      RuntimeHost ident H) :=
  run_rule failureText (HostAction.Uses targets) projectDispatchTarget_quiet (fun _ _ hleaves h => h.leaves hleaves)
    (fun _ _ huses h => h.act huses) (fun input hmem => (huses input hmem).actions)
    ⟨fun _ h => absurd h List.not_mem_nil, fun _ _ h => absurd h List.not_mem_nil, Int.le_refl 0⟩

/-! ## Who is called -/

theorem lookupDispatchTarget_found {memory : Address → UInt8} {pointer : Option Address}
    {size : Int64} {host : RuntimeHost ident H} {target : String} {handler : Option (Handler H)}
    (h : (exec (lookupDispatchTarget memory pointer size : HostM ident H E (Found H)) host).1
      = .ok (target, handler)) :
    ∃ bytes, targetSpan memory pointer size = .ok bytes ∧ bytes.utf8? = some target ∧
      handler = host.handlers.get? target := by
  unfold lookupDispatchTarget at h
  cases hspan : targetSpan memory pointer size with
  | error error =>
    simp only [hspan] at h
    cases h
  | ok bytes =>
    simp only [hspan] at h
    cases hutf8 : bytes.utf8? with
    | none =>
      simp only [hutf8] at h
      cases h
    | some found =>
      simp only [hutf8] at h
      cases h
      exact ⟨bytes, rfl, hutf8, rfl⟩

theorem lookupDispatchTarget_of_span {memory : Address → UInt8} {pointer : Option Address}
    {size : Int64} {bytes : Data} (hspan : targetSpan memory pointer size = .ok bytes)
    {target : String} (hutf8 : bytes.utf8? = some target) (host : RuntimeHost ident H) :
    (exec (lookupDispatchTarget memory pointer size : HostM ident H E (Found H)) host).1
      = .ok (target, host.handlers.get? target) := by
  unfold lookupDispatchTarget
  simp only [hspan, hutf8]
  rfl

/-- A handler that runs is the one the table has for the target. -/
theorem called_found {host : RuntimeHost ident H} (hprojected : host.Projected)
    (failureText : DispatchError E → String) {f : Frame H E} {target : String}
    {call : HandlerCall H} {events : List (HostEvent H)} (htarget : f.target? = some target)
    (hlog : (host.step failureText projectDispatchTarget (.frame f)).log = host.log ++ events)
    (hcalled : .called call ∈ events) : host.handlers.get? target = some call.handler := by
  obtain ⟨events', hlaw⟩ := frameLaw_of_quiet projectDispatchTarget_quiet failureText f host
  -- the events of the step are those the law of dispatches speaks of
  obtain rfl : events = events' := List.append_cancel_left (hlog.symm.trans hlaw.log)
  obtain ⟨target', hfound⟩ := hlaw.found call hcalled
  have hmirrors : Mirrors (host.logged [.copyRequestDispatch f.bytes])
      (host.logged [.copyRequestDispatch f.bytes]).uncached := ⟨rfl, hprojected⟩
  rw [(projectDispatchTarget_mirrors _ _ _ _ _ hmirrors).1] at hfound
  obtain ⟨bytes, hspan, hutf8, hget⟩ := lookupDispatchTarget_found hfound
  rw [Frame.target?, hspan] at htarget
  obtain rfl := Option.some.inj (hutf8.symm.trans htarget)
  exact hget.symm

/-- What a frame delivers fits a span. -/
theorem Frame.deliverable {f : Frame H E} {target : String} (h : f.target? = some target) :
    Deliverable target := by
  unfold Frame.target? targetSpan copyNativeBytes at h
  split at h
  · cases h
  · next bytes hspan =>
    split at hspan
    · next hsome =>
      split at hspan
      · cases hspan
        have hlength : target.utf8ByteSize = f.copy.targetSize.toInt.toNat := by
          rw [← String.size_toByteArray, Data.utf8?_eq_some_iff.mp h, ByteArray.size,
            List.size_toArray, List.length_map, List.length_range]
        have hmax := Int64.toInt_lt f.copy.targetSize
        constructor
        · rintro rfl
          have hzero : f.copy.targetSize.toInt.toNat = 0 := hlength.symm
          omega
        · omega
      · cases hspan
    · cases hspan

/-- A target that was registered can be delivered to. -/
theorem deliverable_of_valid {target : String}
    (hvalid : validateCString target "handler target" = .ok ()) (hnonempty : target ≠ "") :
    Deliverable target := by
  have hsize := (validateCString_eq_ok_iff.mp hvalid).2
  exact ⟨hnonempty, by omega⟩

/-- **Where no two targets are mistaken for one another, each frame reaches the handler that was
registered for its bytes.** -/
theorem ownersServed_of_recorded (failureText : DispatchError E → String) {targets : Set String}
    {host : RuntimeHost ident H} (hprojected : host.Projected) (hrecorded : Recorded targets host)
    (hseparated : ∀ k ∈ targets, Registrable k → ∀ k' ∈ targets, Deliverable k' →
      ident k = ident k' → k = k') : OwnersServed failureText targets host where
  served f target call events htarget hin hlog hcalled := by
    have hget := called_found hprojected failureText htarget hlog hcalled
    obtain ⟨k, hident, hmem⟩ := Dictionary.get?_eq_some_iff.mp hget
    obtain ⟨hregistered, hk, hregistrable⟩ := hrecorded.stored _ hmem
    -- the stored key is equivalent to the target of the frame, hence is that target
    obtain rfl : k = target :=
      hseparated k hk hregistrable target hin (f.deliverable htarget) hident
    intro handler
    constructor
    · intro hlogged
      exact Option.some.inj ((hrecorded.found k handler hlogged).symm.trans hget)
    · rintro rfl
      exact hregistered
  refused target handler hin hrefused := by
    have hrun := exec_register host target handler
    generalize exec (register target handler) host = out at hrun hrefused
    cases hrun with
    | duplicate hvalid hnonempty old hold =>
      obtain ⟨k, hident, hmem⟩ := Dictionary.get?_eq_some_iff.mp hold
      obtain ⟨hregistered, hk, hregistrable⟩ := hrecorded.stored _ hmem
      obtain rfl : k = target :=
        hseparated k hk hregistrable target hin (deliverable_of_valid hvalid hnonempty) hident
      exact ⟨old, hregistered⟩
    | invalid error hinvalid =>
      -- the refusals of a text have texts of their own
      obtain rfl : error = _ := Except.error.inj hrefused
      unfold validateCString at hinvalid
      split at hinvalid
      · exact absurd hinvalid (by decide)
      · split at hinvalid
        · exact absurd hinvalid (by decide)
        · cases hinvalid
    | empty | closed | exhausted | registered => simp at hrefused

/-! ## Equivalent targets

One registration and one frame are enough for a wrong call.
-/

/-- A one-way request for `target`. -/
def requestFor (target : String) : Frame H E where
  bytes := .empty
  memory address := target.toByteArray.data.toList.getD address 0
  copy := ⟨0, some 0, .ofNat target.utf8ByteSize, none, 0, 1⟩
  respond _ := .ok .empty
  meanwhile := []
  build := ⟨0, none, 0⟩
  submit := 0

/-- Such a frame exists for every target that can be delivered to. -/
theorem requestFor_span {target : String} (h : Deliverable target) :
    ∃ bytes : Data, targetSpan (requestFor target : Frame H E).memory (some 0)
      (.ofNat target.utf8ByteSize) = .ok bytes ∧ bytes.utf8? = some target := by
  obtain ⟨hnonempty, hbound⟩ := h
  have hsize : (Int64.ofNat target.utf8ByteSize).toInt = target.utf8ByteSize :=
    Int64.toInt_ofNat_of_lt hbound
  have hpos : 0 < target.utf8ByteSize := Nat.pos_of_ne_zero (by simpa using hnonempty)
  have hbytes : (List.range (Int64.ofNat target.utf8ByteSize).toInt.toNat).map
      (fun i => (requestFor target : Frame H E).memory (0 + i)) = target.toByteArray.data.toList := by
    rw [hsize, Int.toNat_natCast]
    refine List.ext_getElem ?_ fun i hi hi' => ?_
    · rw [List.length_map, List.length_range]
      rfl
    · rw [List.getElem_map, List.getElem_range, Nat.zero_add]
      show target.toByteArray.data.toList.getD i 0 = _
      rw [List.getD_eq_getElem?_getD, List.getElem?_eq_getElem hi', Option.getD_some]
  unfold targetSpan copyNativeBytes
  rw [if_pos ⟨by omega, rfl⟩, if_pos ⟨by omega, .inr rfl⟩]
  refine ⟨_, rfl, Data.utf8?_eq_some_iff.mpr ?_⟩
  show _ = (⟨(List.map _ _).toArray⟩ : ByteArray)
  rw [Option.getD_some, hbytes]

variable [Inhabited H]

/-- What is left of a delivery of `target` once its lookup has found a handler. -/
theorem dispatchBody_requestFor {host looked : RuntimeHost ident H} {target : String}
    (hlooked : exec (projectDispatchTarget (requestFor target : Frame H E).memory (some 0)
        (.ofNat target.utf8ByteSize) : HostM ident H E (Found H))
      (host.logged [.copyRequestDispatch .empty]) = (.ok (target, some (.payload default)), looked)) :
    (exec (dispatchBody projectDispatchTarget (requestFor target : Frame H E)) host).2
      = looked.answered (requestFor target : Frame H E) (.payload default .empty) := by
  have hcopied : ∀ s : RuntimeHost ident H, exec (ofExcept ((throwIfNativeError
      (requestFor target : Frame H E).copy.status "copy request dispatch").mapError
        (DispatchError.runtime : RuntimeError → DispatchError E)) : HostM ident H E Unit) s
      = (.ok (), s) := fun _ => rfl
  unfold dispatchBody
  rw [note, exec_modify_bind, exec_bind_ok (hcopied _)]
  exact congrArg Prod.snd (exec_bind_ok hlooked _)

/-- **A request of another target.** Where two targets are equivalent and one is registered, the
handler of that one gets the requests of the other. -/
theorem exists_misrouted (failureText : DispatchError E → String) {k k' : String}
    (hk : Registrable k) (hk' : Deliverable k') (hident : ident k = ident k') (hne : k ≠ k')
    {host : RuntimeHost ident H} (hhost : host = RuntimeHost.run failureText projectDispatchTarget
      [.act (.register k (.payload default))]) :
    (requestFor k' : Frame H E).target? = some k' ∧
      (∀ handler, .registered k' handler ∉ host.log) ∧
      ∃ call events, (host.step failureText projectDispatchTarget (.frame (requestFor k'))).log
        = host.log ++ events ∧ .called call ∈ events := by
  obtain ⟨hvalid, hnonempty, hsize⟩ := hk
  obtain ⟨bytes, hspan, hutf8⟩ := requestFor_span (H := H) (E := E) hk'
  have hrun := exec_register ({} : RuntimeHost ident H) k (.payload default)
  replace hhost : host = (exec (register k (.payload default)) ({} : RuntimeHost ident H)).2 := hhost
  generalize exec (register k (.payload default)) ({} : RuntimeHost ident H) = out at hrun hhost
  cases hrun with
  | invalid error hinvalid => exact absurd (hvalid.symm.trans hinvalid) (by simp)
  | empty hempty => exact absurd hempty hnonempty
  | closed hclosed => cases hclosed
  | duplicate _ _ old hold => cases hold
  | exhausted _ hfull =>
    refine absurd ⟨Nat.succ_pos 255, ?_⟩ hfull
    show (k.utf8ByteSize : Int) ≤ 64 * 1024 - 0
    omega
  | registered =>
    -- the table finds the registration of the other target
    have hget : host.handlers.get? k' = some (.payload default) := by
      rw [hhost]
      show (Dictionary.empty.set k _).get? k' = _
      rw [Dictionary.get?_set, if_pos hident]
    have hprojected : host.Projected := by
      rw [hhost]
      exact fun _ h => by cases h
    refine ⟨?_, fun handler hmem => ?_, ?_⟩
    · have htarget : targetSpan (requestFor k' : Frame H E).memory (requestFor k' : Frame H E).copy.target
          (requestFor k' : Frame H E).copy.targetSize = .ok bytes := hspan
      rw [Frame.target?, htarget]
      exact hutf8
    · rw [hhost] at hmem
      exact hne (HostEvent.registered.inj (List.mem_singleton.mp hmem)).1.symm
    · have hlookup := (projectDispatchTarget_mirrors (E := E) (requestFor k' : Frame H E).memory
        (some 0) (.ofNat k'.utf8ByteSize) (host.logged [.copyRequestDispatch .empty]) _
        ⟨rfl, hprojected⟩).1
      rw [lookupDispatchTarget_of_span hspan hutf8] at hlookup
      -- the cache is empty at the first frame, so the lookup is that of the table
      obtain ⟨dispatchProjection, hquiet⟩ := projectDispatchTarget_quiet (E := E)
        (requestFor k' : Frame H E).memory (some 0) (.ofNat k'.utf8ByteSize)
        (host.logged [.copyRequestDispatch .empty])
      have hbody := dispatchBody_requestFor (E := E)
        (Prod.ext (hlookup.trans (by rw [← hget]; rfl)) hquiet)
      refine ⟨.payload default .empty, [.copyRequestDispatch .empty, .called (.payload default .empty),
        .bytesRelease (some 0), .bytesRelease none], ?_, by simp⟩
      show ((dispatchRequest failureText projectDispatchTarget (requestFor k')).run host).2.log = _
      rw [run_dispatchRequest]
      show (RuntimeHost.caught failureText _).log ++ _ = _
      rw [RuntimeHost.caught_log, hbody]
      show host.log ++ [_] ++ [_] ++ _ = _
      rw [List.append_assoc, List.append_assoc]
      rfl

/-! ## Exactly when each owner is served -/

/-- **Exactly when requests reach their owners.** Every run that names targets of `targets` only
serves their owners, if and only if no target that can be registered is equivalent to another that
can be delivered. -/
theorem ownersServed_iff_separated (failureText : DispatchError E → String)
    (targets : Set String) :
    (∀ inputs : List (HostInput H E), (∀ input ∈ inputs, input.Uses targets) →
      OwnersServed failureText targets
        (RuntimeHost.run failureText projectDispatchTarget inputs : RuntimeHost ident H)) ↔
    ∀ k ∈ targets, Registrable k → ∀ k' ∈ targets, Deliverable k' → ident k = ident k' → k = k' := by
  constructor
  · intro h k hk hregistrable k' hk' hdeliverable hident
    -- one registration and one frame
    by_contra hne
    obtain ⟨htarget, hnone, call, events, hlog, hcalled⟩ :=
      exists_misrouted (H := H) failureText hregistrable hdeliverable hident hne rfl
    have hserved := h [.act (.register k (.payload default))]
      (fun input hmem => List.mem_singleton.mp hmem ▸ hk)
    exact hnone _ ((hserved.served _ k' call events htarget hk' hlog hcalled _).mpr rfl)
  · intro hseparated inputs huses
    exact ownersServed_of_recorded failureText (mirrors_run failureText inputs).2
      (recorded_run failureText huses) hseparated

/-- **Requests reach only the handler registered for exactly their target**, in every run that
names targets of `targets` only, if and only if no target there that can be registered is
canonically equivalent to another one that can be delivered. -/
theorem runtimeHost_ownersServed_iff (db : CharacterDatabase)
    (failureText : DispatchError E → String) (targets : Set String) :
    (∀ inputs : List (HostInput H E), (∀ input ∈ inputs, input.Uses targets) →
      OwnersServed failureText targets
        (RuntimeHost.run failureText projectDispatchTarget inputs : RuntimeHost db.nfd H)) ↔
    ∀ k ∈ targets, Registrable k → ∀ k' ∈ targets, Deliverable k' → db.nfd k = db.nfd k' → k = k' :=
  ownersServed_iff_separated failureText targets

/-- The rows of the character database for U+212B and U+00C5, which decompose alike. -/
def ringExcerpt : CharacterDatabase where
  decomposition c := if c = '\u212b' ∨ c = '\u00c5' then ['A', '\u030a'] else [c]
  combiningClass c := if c = '\u030a' then 230 else 0

/-- The handler of a target spelled with the angstrom sign runs for a request to the target spelled
with the letter. -/
theorem not_ownersServed_ring :
    ¬ ∀ (inputs : List (HostInput Nat Nat)) (targets : Set String), OwnersServed
      (fun _ : DispatchError Nat => "") targets
      (RuntimeHost.run (fun _ => "") projectDispatchTarget inputs :
        RuntimeHost ringExcerpt.nfd Nat) := by
  intro h
  have hregistrable : Registrable "\u212b" := ⟨rfl, by decide, by decide⟩
  have hdeliverable : Deliverable "\u00c5" := ⟨by decide, by decide⟩
  have hequivalent : ringExcerpt.nfd "\u212b" = ringExcerpt.nfd "\u00c5" := by rfl
  obtain ⟨htarget, hnone, call, events, hlog, hcalled⟩ :=
    exists_misrouted (H := Nat) (fun _ : DispatchError Nat => "") hregistrable hdeliverable hequivalent
      (by decide) rfl
  have hserved := h [.act (.register "\u212b" (.payload default))] Set.univ
  exact hnone _ ((hserved.served _ _ call events htarget trivial hlog hcalled _).mpr rfl)

end CoAkka.Host
