import CoAkkaRuntime.Stream.CoreRetention
import Mathlib.Data.List.Perm.Subperm

/-!
# Stream — the headroom of the owners

The owners have room for one root more than Core retains records. Core drops records without
notice, so between admissions the table may hold roots Core no longer retains; but an admission
that Core accepts ends with a pruning pass, and one that finds the table full starts with one. When
every outcome is received, each pass leaves the keys of Core's records and no others, and the spare
place is enough for every history.

* `AtMost` — a Core that retains no more records than the capacity it was configured with.
* `Resolved` — no outcome is open, which is what the received answers give.
* `TracksCore` — the stored keys are those of Core's records; `tracksCore_accepted` that an accepted
  admission leaves the table so.
* `retention_tracks_core` — no admission is refused for want of storage, in any run.
-/

namespace CoAkka.Stream

open Throwing

variable {K I Root : Type} {ident : K → I} [DecidableEq I]

/-! ## Runs whose outcomes are received -/

/-- At most `capacity` records have a context. -/
def AtMost (capacity : Int) (records : I → Option Root) : Prop :=
  ∃ ids : List I, (ids.length : Int) ≤ capacity ∧ ∀ i, records i ≠ none → i ∈ ids

/-- No outcome is lost, and the lane stays open. -/
def CoreEvent.Received : CoreEvent K Root → Prop
  | .callback .unreceived | .callback .detach => False
  | _ => True

/-- The runs of owners created with the capacity Core reports. -/
def retentionSystem (ident : K → I) (Root : Type) (capacity : Int) :
    Transition.System (CoreLane ident I Root) (CoreEvent K Root) where
  init s := ∃ owners, StreamCallbackOwners.init capacity = .ok owners ∧
    s = ⟨⟨owners, [], none⟩, fun _ => none, false⟩
  step s event s' := CoreStep ident s event s' ∧ event.Received ∧ AtMost capacity s'.records

variable {capacity : Int} {s s' : CoreLane ident I Root}

/-- Runs in which every outcome is received are runs of Core's contract. -/
theorem coreSystem_of_retention (hs : (retentionSystem ident Root capacity).Reachable s) :
    (coreSystem ident ident Root).Reachable s := by
  induction hs with
  | init h =>
    obtain ⟨owners, hinit, rfl⟩ := h
    exact .init ⟨⟨capacity, owners, hinit, rfl⟩, fun _ => rfl, rfl⟩
  | step _ h ih => exact ih.step h.1

/-! ## What is received

Where every outcome is received there is one open entry at most, the candidate of the call that is
running.
-/

/-- Only the candidate of the running call has no outcome. -/
def Resolved (s : CallbackState ident Root) : Prop :=
  ∀ id < s.owners.heap.length, s.owners.status? id = none →
    ∃ c, s.pending = some c ∧ c.entry = id

omit [DecidableEq I] in
/-- No outcome is open where none was and nothing changed. -/
theorem Resolved.congr {s s' : CallbackState ident Root} (h : Resolved s)
    (hheap : s'.owners.heap = s.owners.heap) (hpending : s'.pending = s.pending) : Resolved s' := by
  intro id hid hopen
  rw [StreamCallbackOwners.status?, hheap] at hopen
  rw [hheap] at hid
  rw [hpending]
  exact h id hid hopen

omit [DecidableEq I] in
/-- A candidate whose outcome is received leaves no open entry. -/
theorem Resolved.settled {s : CallbackState ident Root} (h : Resolved s) {c : Candidate K}
    (hpending : s.pending = some c) {f : Entry Root → Entry Root} (hf : ∀ e, (f e).status ≠ none)
    {s' : CallbackState ident Root} (hheap : s'.owners.heap = s.owners.heap.modify c.entry f) :
    Resolved s' := by
  intro id hid hopen
  rw [hheap, List.length_modify] at hid
  rw [StreamCallbackOwners.status?, hheap, List.getElem?_modify,
    List.getElem?_eq_getElem hid] at hopen
  -- the entry that was settled, or one that was open before
  by_cases heq : c.entry = id
  · refine absurd hopen ?_
    simpa [heq] using hf _
  · obtain ⟨c', hpending', hentry⟩ := h id hid (by
      rw [StreamCallbackOwners.status?, List.getElem?_eq_getElem hid]
      simpa [heq] using hopen)
    obtain rfl := Option.some.inj (hpending.symm.trans hpending')
    exact absurd hentry heq

/-- Behind a publication the candidate's outcome is the only open one. -/
theorem Resolved.published {m : Mutation ident Root} (h : Resolved (.after m none)) (key : K)
    (root : Root) (previous : Option Nat) : Resolved (.after (m.published key root previous)
      (some ⟨key, m.owners.heap.length, previous⟩)) := by
  intro id hid hopen
  have hid : id < (m.owners.heap ++ [_]).length := hid
  rw [List.length_append, List.length_singleton] at hid
  rcases Nat.lt_succ_iff_lt_or_eq.mp hid with hlt | rfl
  · have hframe := m.published_frame key root previous hlt
    have hopen' : m.owners.status? id = none := by
      rw [← hopen]
      exact (StreamCallbackOwners.entry_frame hframe).1.symm
    -- an older open entry would have its own running call
    obtain ⟨_, hnone, -⟩ := h id hlt hopen'
    cases hnone
  · exact ⟨_, rfl, rfl⟩

/-- A step whose outcome is received leaves none open. -/
theorem resolved_step {s s' : CallbackState ident Root} {event : CallbackEvent K Root}
    (h : Resolved s) (hreceived : (CoreEvent.callback event : CoreEvent K Root).Received)
    (hstep : s.step event = some s') : Resolved s' := by
  cases stepRun_of_step hstep with
  | publish key root presence hidle hrun =>
    have hopen : Resolved (.after s.mutation none) := h.congr rfl hidle.symm
    have hpruned : Resolved (.after (s.mutation.pruned presence) none) :=
      hopen.congr (s.mutation.pruned_heap presence) rfl
    cases hrun with
    | unresolved => exact hopen
    | exhausted => exact hpruned
    | pruned => exact hpruned.published key root none
    | published => exact hopen.published key root _
  | accepted c presence hpending =>
    exact h.settled hpending (f := fun e => { e with status := some 0, previous := none })
      (fun _ => by simp) (Mutation.pruned_heap _ presence)
  | refused c status presence hpending =>
    exact h.settled hpending (f := fun e => { e with status := some status }) (fun _ => by simp) rfl
  | forget key hidle => exact h.congr (s.mutation.retire_heap key) hidle.symm
  | unreceived | detach => exact absurd hreceived id

/-- What a run of the retention system keeps, besides what every run does. -/
structure Headroom (capacity : Int) (s : CoreLane ident I Root) : Prop where
  resolved : Resolved s.callbacks
  atMost : AtMost capacity s.records
  limit : (s.callbacks.owners.limit : Int) = capacity + 1

/-- **There is always room for one entry more than Core retains.** -/
theorem headroom_reachable (hs : (retentionSystem ident Root capacity).Reachable s) :
    Headroom capacity s := by
  refine hs.invariant (I := Headroom capacity) ?_ ?_
  · rintro s ⟨owners, hinit, rfl⟩
    unfold StreamCallbackOwners.init at hinit
    split at hinit
    · next hcapacity =>
      cases hinit
      refine ⟨fun id hid => absurd hid (Nat.not_lt_zero id), ⟨[], ?_, fun _ h => absurd rfl h⟩, ?_⟩
      · show (0 : Int) ≤ capacity
        omega
      · show ((capacity + 1).toNat : Int) = capacity + 1
        omega
    · cases hinit
  · -- the limit never changes, and no received outcome leaves one open
    rintro s event s' _ ⟨hresolved, -, hlimit⟩ ⟨hstep, hreceived, hatMost⟩
    cases event with
    | drop | accept =>
      cases hstep
      exact ⟨hresolved, hatMost, hlimit⟩
    | callback event =>
      have hcallbacks := hstep.callbacks_step
      refine ⟨resolved_step hresolved hreceived hcallbacks, hatMost, ?_⟩
      rw [limit_step hcallbacks]
      exact hlimit

/-! ## A pruning pass leaves what Core retains -/

omit [DecidableEq I] in
/-- A table of retained keys has no more entries than Core has records. -/
theorem count_le_of_stored {records : I → Option Root} (h : AtMost capacity records)
    {d : Dictionary ident Nat} (hstored : ∀ p ∈ d.pairs, records (ident p.1) ≠ none) :
    (d.count : Int) ≤ capacity := by
  obtain ⟨ids, hlength, hids⟩ := h
  have hsubset : (d.pairs.map fun p => ident p.1) ⊆ ids := by
    intro i hi
    obtain ⟨p, hp, rfl⟩ := List.mem_map.mp hi
    exact hids _ (hstored p hp)
  have hcount := (List.subperm_of_subset d.nodup hsubset).length_le
  rw [List.length_map] at hcount
  show (d.pairs.length : Int) ≤ capacity
  omega

/-- Where every outcome is received, a pass keeps no key Core has dropped. -/
theorem stored_of_pruned {m : Mutation ident Root} (hresolved : Resolved (.after m none))
    (hinv : Inv m) {records records' : I → Option Root} {presence : K → Int32}
    (hanswers : Answers ident records records' presence) {p : K × Nat}
    (hp : p ∈ (m.pruned presence).owners.entries.pairs) : records (ident p.1) ≠ none := by
  obtain ⟨hstored, hpresent⟩ := Mutation.mem_pairs_pruned.mp hp
  intro hdropped
  refine hpresent ⟨fun hopen => ?_, (hanswers p.1).2 hdropped⟩
  have hlt := hinv.lt_of_mem (.inl (List.mem_map.mpr ⟨p, hstored, rfl⟩))
  obtain ⟨_, hnone, -⟩ := hresolved p.2 hlt hopen
  cases hnone

/-- What an accepted admission leaves, where `s` is the state its call returned in. -/
structure TracksCore (capacity : Int) (s s' : CoreLane ident I Root) : Prop where
  /-- What Core retains is stored, with its context. -/
  held : ∀ key root, s'.records (ident key) = some root → ∃ entry,
    s'.callbacks.owners.entries.get? key = some entry ∧
      s'.callbacks.owners.root? entry = some root
  /-- What is stored, Core retained when the pruning pass began. -/
  stored : ∀ key, s'.callbacks.owners.entries.get? key ≠ none → s.records (ident key) ≠ none
  /-- The stored keys are the retained ones, where Core dropped nothing during the pass. -/
  exact : s'.records = s.records → ∀ key,
    s'.callbacks.owners.entries.get? key ≠ none ↔ s'.records (ident key) ≠ none
  bounded : (s'.callbacks.owners.entries.count : Int) ≤ capacity
  /-- Every stored entry holds its own root and no other. -/
  unchained : ∀ id ∈ s'.callbacks.owners.entries.values, s'.callbacks.owners.previous? id = none
  /-- Every other root is retired. -/
  retired : ∀ id < s'.callbacks.owners.heap.length, id ∉ s'.callbacks.owners.entries.values →
    id ∈ s'.callbacks.retired

omit [DecidableEq I] in
/-- Where every outcome is received, each entry is stored or handed out, and holds one root. -/
theorem places_of_resolved {s : CallbackState ident Root} (h : Resolved s)
    (hidle : s.pending = none) (hinv : Inv s.mutation) :
    (∀ id ∈ s.owners.entries.values, s.owners.previous? id = none) ∧
    ∀ id < s.owners.heap.length, id ∉ s.owners.entries.values → id ∈ s.retired := by
  have hclosed : ∀ id < s.owners.heap.length, s.owners.status? id ≠ none := by
    intro id hid hopen
    obtain ⟨_, hpending, -⟩ := h id hid hopen
    rw [hidle] at hpending
    cases hpending
  refine ⟨fun id hid => ?_, fun id hid hnotMem => ?_⟩
  · have hlt := hinv.lt_of_mem (.inl hid)
    exact ((hinv.stored id hid).resolve_right fun hopen => hclosed id hlt hopen.1).2
  · have hplaces := hinv.places id
    have htally : ∀ l : List Nat, (∀ e ∈ l, e < s.owners.heap.length) →
        s.owners.tally l id = l.count id := by
      intro l hl
      have hnil : l.flatMap s.owners.chained = [] :=
        List.flatMap_eq_nil_iff.mpr fun e he => if_neg (hclosed e (hl e he))
      rw [StreamCallbackOwners.tally, hnil, List.count_nil, Nat.add_zero]
    have hvalues := htally s.owners.entries.values fun e he => hinv.lt_of_mem (.inl he)
    have hretired := htally s.retired fun e he => hinv.lt_of_mem (.inr he)
    have hplaces : s.owners.tally s.owners.entries.values id + s.owners.tally s.retired id
        = if id < s.owners.heap.length then 1 else 0 := hplaces
    -- no entry is chained, so the tallies are plain counts
    rw [hvalues, hretired, List.count_eq_zero.mpr hnotMem, if_pos hid] at hplaces
    exact List.count_pos_iff.mp (by omega)

/-- **An accepted admission** ends with the keys of Core's records. -/
theorem tracksCore_accepted (hs : (retentionSystem ident Root capacity).Reachable s)
    {presence : K → Int32}
    (hstep : (retentionSystem ident Root capacity).step s (.callback (.received 0 presence)) s') :
    TracksCore capacity s s' := by
  obtain ⟨hresolved, hatMost, -⟩ := headroom_reachable hs
  obtain ⟨hresolved', -, -⟩ := headroom_reachable (hs.step hstep)
  have hretained := retained_of_reachable (coreSystem_of_retention (hs.step hstep))
  have hinv := (retained_of_reachable (coreSystem_of_retention hs)).state.inv
  cases hstep.1 with
  | refused _ _ _ hstatus => exact absurd rfl hstatus
  | accepted _ callbacks records hadmitted hcallbacks hdrops hanswers =>
    cases stepRun_of_step hcallbacks with
    | refused _ _ _ _ hstatus => exact absurd rfl hstatus
    | accepted c _ hpending =>
      have hcalling := (retained_of_reachable (coreSystem_of_retention hs)).state.calling c hpending
      have hclosed : Resolved (.after (s.callbacks.mutation.accepted c) none) :=
        hresolved.settled hpending (f := fun e => { e with status := some 0, previous := none })
          (fun _ => by simp) rfl
      have hstored := fun p hp => stored_of_pruned hclosed (hinv.accepted hcalling) hanswers
        (p := p) hp
      obtain ⟨hunchained, hretired⟩ := places_of_resolved hresolved' rfl hretained.state.inv
      have hheld : ∀ key root, records (ident key) = some root → ∃ entry,
          ((s.callbacks.mutation.accepted c).pruned presence).owners.entries.get? key = some entry ∧
          ((s.callbacks.mutation.accepted c).pruned presence).owners.root? entry = some root := by
        intro key root hroot
        obtain ⟨p, hp, hident, hcovers⟩ := hretained.held _ root hroot
        refine ⟨p.2, Dictionary.get?_eq_some_iff.mpr ⟨p.1, hident, hp⟩, ?_⟩
        -- an entry that covers the context through its predecessor is chained, and none is
        refine hcovers.resolve_right fun ⟨_, previous, hprevious, _⟩ => ?_
        rw [hunchained p.2 (List.mem_map.mpr ⟨p, hp, rfl⟩)] at hprevious
        cases hprevious
      have hkeys : ∀ key,
          ((s.callbacks.mutation.accepted c).pruned presence).owners.entries.get? key ≠ none →
          s.records (ident key) ≠ none := by
        intro key hget
        obtain ⟨entry, hentry⟩ := Option.ne_none_iff_exists'.mp hget
        obtain ⟨key', hident, hmem⟩ := Dictionary.get?_eq_some_iff.mp hentry
        rw [← hident]
        exact hstored _ hmem
      refine ⟨hheld, hkeys, fun hsame key => ⟨fun hget => ?_, fun hrecord => ?_⟩,
        count_le_of_stored hatMost hstored, hunchained, hretired⟩
      · rw [hsame]
        exact hkeys key hget
      · obtain ⟨root, hroot⟩ := Option.ne_none_iff_exists'.mp hrecord
        obtain ⟨entry, hentry, -⟩ := hheld key root hroot
        show ((s.callbacks.mutation.accepted c).pruned presence).owners.entries.get? key ≠ none
        rw [hentry]
        exact Option.some_ne_none entry

/-- **The spare place is enough**: an admission finds room, whatever happened before. -/
theorem publish_room (hs : (retentionSystem ident Root capacity).Reachable s)
    (hidle : s.callbacks.pending = none) (key : K) (root : Root) {presence : K → Int32}
    {records : I → Option Root} (hanswers : Answers ident s.records records presence)
    (message : String) :
    (exec (publish key root presence) s.callbacks.mutation).1 ≠ .error (.resourceLimit message) := by
  obtain ⟨hresolved, hatMost, hlimit⟩ := headroom_reachable hs
  have hinv := (retained_of_reachable (coreSystem_of_retention hs)).state.inv
  have hrun := exec_publish key root presence s.callbacks.mutation
  generalize exec (publish key root presence) s.callbacks.mutation = out at hrun
  cases hrun with
  | unresolved | pruned | published => simp
  | exhausted hget hfull hstill =>
    -- after the pass only retained keys are stored, and there are at most `capacity` of them
    have hcount := count_le_of_stored hatMost fun p hp =>
      stored_of_pruned (hresolved.congr rfl hidle.symm) hinv hanswers hp
    refine absurd ?_ hstill
    rw [Mutation.pruned_limit]
    have hlimit : (s.callbacks.mutation.owners.limit : Int) = capacity + 1 := hlimit
    omega

/-- **Callback retention tracks Core and never tightens its capacity.** In every run of owners that
were created with the capacity Core reports and receive every outcome, with Core free to drop
records at any time: right after an admission Core accepted the stored keys are the keys Core
retains, every root but theirs is retired, and no admission is refused for lack of room. -/
theorem retention_tracks_core (hs : (retentionSystem ident Root capacity).Reachable s) :
    (∀ presence s', (retentionSystem ident Root capacity).step s
      (.callback (.received 0 presence)) s' → TracksCore capacity s s') ∧
    (s.callbacks.pending = none → ∀ key root status presence presence' records message,
      Drops s.records records → Answers ident s.records records presence →
      (exec (admitRoot key root (.ok status) presence presence') s.callbacks.mutation).1
        ≠ .error (.resourceLimit message)) := by
  refine ⟨fun presence s' hstep => tracksCore_accepted hs hstep, ?_⟩
  intro hidle key root status presence presence' records message _ hanswers
  have hroom := publish_room hs hidle key root hanswers message
  rw [exec_admitRoot]
  generalize exec (publish key root presence) s.callbacks.mutation = out at hroom
  obtain ⟨outcome, m⟩ := out
  cases outcome with
  | error error => simpa using hroom
  | ok candidate => simp

/-- The lane of `coreAdmission` when Core has accepted the call and it has not returned. -/
def admittedFirst : CoreLane (id : Nat → Nat) Nat Nat where
  callbacks :=
    { owners := { limit := 2, entries := Dictionary.empty.set 7 0, heap := [⟨10, none, none⟩] }
      retired := []
      pending := some ⟨7, 0, none⟩ }
  records := coreAdmission.records
  admitted := true

theorem atMost_coreAdmission : AtMost 1 coreAdmission.records := by
  refine ⟨[7], by decide, fun n hn => ?_⟩
  by_contra hne
  exact hn (if_neg (by simpa using hne))

theorem reachable_admittedFirst :
    (retentionSystem (id : Nat → Nat) Nat 1).Reachable admittedFirst := by
  have hnone : AtMost 1 (fun _ => none : Nat → Option Nat) :=
    ⟨[], by decide, fun _ h => absurd rfl h⟩
  have hinit : (retentionSystem (id : Nat → Nat) Nat 1).Reachable
      ⟨⟨{ limit := 2, entries := .empty, heap := [] }, [], none⟩, fun _ => none, false⟩ :=
    .init ⟨_, rfl, rfl⟩
  have hcalling : (retentionSystem (id : Nat → Nat) Nat 1).Reachable
      ⟨⟨{ limit := 2, entries := Dictionary.empty.set 7 0, heap := [⟨10, none, none⟩] }, [],
        some ⟨7, 0, none⟩⟩, fun _ => none, false⟩ :=
    hinit.step ⟨.publish 7 10 (fun _ => Status.badState) _ _ rfl (fun _ => .inl rfl)
      fun _ => ⟨fun _ => rfl, fun _ => rfl⟩, trivial, hnone⟩
  exact hcalling.step ⟨.accept ⟨7, 0, none⟩ 10 _ rfl rfl rfl rfl fun n hn => .inl (if_neg hn),
    trivial, atMost_coreAdmission⟩

theorem retention_tracks_core_first : TracksCore 1 admittedFirst coreAdmission := by
  refine (retention_tracks_core reachable_admittedFirst).1
    (presenceOf id coreAdmission.records) coreAdmission ⟨?_, trivial, atMost_coreAdmission⟩
  exact .accepted _ _ _ rfl rfl (fun _ => .inr rfl) (answers_presenceOf _ _)

end CoAkka.Stream
