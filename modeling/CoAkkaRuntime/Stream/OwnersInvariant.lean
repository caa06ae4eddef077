import CoAkkaRuntime.Stream.OwnersSpec

/-!
# Stream — the ownership table's invariant

Every entry ever published is in exactly one place: current for its key, the `previous` of an
unresolved current entry, or in a list handed to a caller (an unresolved entry that is handed out
takes its `previous` along). `Inv` says so by counting, together with the shape of the chains;
each mutation of the table keeps it.

* `chained`, `Settled` — an entry with an open outcome may stand on one settled entry, and on no
  more.
* `Inv`, `Calling` — the invariant between mutations, and while a call is running.
* `Inv.published`, `Inv.refused`, `Inv.accepted` — the parts of an admission; `Inv.detached` the
  end.
* `stateInv_reachable` — every state of every history.
-/

namespace CoAkka.Stream

open Throwing

variable {K I Root : Type} {ident : K → I}

/-! ## Places

An entry can be stored, chained to a stored one, retired, or chained to a retired one; `tally`
counts them all.
-/

namespace StreamCallbackOwners

variable (o : StreamCallbackOwners ident Root)

/-- What an entry keeps alive through `previous` while its outcome is unreceived. -/
def chained (id : Nat) : List Nat :=
  if o.status? id = none then (o.previous? id).toList else []

/-- How often `id` occurs among the entries of `l` and the ones they keep alive. -/
def tally (l : List Nat) (id : Nat) : Nat := l.count id + (l.flatMap o.chained).count id

/-- Core accepted the entry, and nothing hangs on it. -/
def Settled (id : Nat) : Prop := o.status? id = some 0 ∧ o.previous? id = none

/-- Core's answer for the entry is not known; the entry it replaces, if any, is settled. -/
def Unsettled (id : Nat) : Prop :=
  o.status? id = none ∧ ∀ previous, o.previous? id = some previous → o.Settled previous

variable {o}

/-- Places add up over a list of entries, in any order. -/
theorem tally_append (l l' : List Nat) (id : Nat) :
    o.tally (l ++ l') id = o.tally l id + o.tally l' id := by
  simp only [tally, List.flatMap_append, List.count_append]
  omega

theorem tally_perm {l l' : List Nat} (h : l.Perm l') (id : Nat) :
    o.tally l id = o.tally l' id := by
  rw [tally, tally, h.count_eq, (h.flatMap_right o.chained).count_eq]

theorem tally_cons (entry : Nat) (l : List Nat) (id : Nat) :
    o.tally (entry :: l) id = [entry].count id + (o.chained entry).count id + o.tally l id := by
  rw [show entry :: l = [entry] ++ l from rfl, tally_append, tally, List.flatMap_singleton]

/-- What is chained to an entry, and whether it is settled, is read off the entry alone. -/
theorem entry_frame {o' : StreamCallbackOwners ident Root} {id : Nat}
    (h : o'.heap[id]? = o.heap[id]?) :
    o'.status? id = o.status? id ∧ o'.previous? id = o.previous? id := by
  rw [status?, status?, previous?, previous?, h]
  exact ⟨rfl, rfl⟩

/-- An entry that is not touched has the same chain, and the same places. -/
theorem chained_frame {o' : StreamCallbackOwners ident Root} {id : Nat}
    (h : o'.heap[id]? = o.heap[id]?) : o'.chained id = o.chained id := by
  obtain ⟨hstatus, hprevious⟩ := entry_frame h
  rw [chained, chained, hstatus, hprevious]

theorem Settled.frame {o' : StreamCallbackOwners ident Root} {id : Nat} (hs : o.Settled id)
    (h : o'.heap[id]? = o.heap[id]?) : o'.Settled id := by
  obtain ⟨hstatus, hprevious⟩ := entry_frame h
  rwa [Settled, hstatus, hprevious]

/-- A settled entry was published. -/
theorem Settled.lt {id : Nat} (hs : o.Settled id) : id < o.heap.length := by
  have hstatus := hs.1
  unfold status? at hstatus
  by_contra hge
  rw [List.getElem?_eq_none (Nat.le_of_not_lt hge)] at hstatus
  simp at hstatus

/-- So is whether it is settled or not, given that settled entries stay so. -/
theorem stored_frame {o' : StreamCallbackOwners ident Root} {id : Nat}
    (h : o'.heap[id]? = o.heap[id]?) (hsettled : ∀ p, o.Settled p → o'.Settled p)
    (hs : o.Settled id ∨ o.Unsettled id) : o'.Settled id ∨ o'.Unsettled id := by
  obtain ⟨hstatus, hprevious⟩ := entry_frame h
  rw [Unsettled, hstatus, hprevious]
  exact hs.imp (hsettled id) fun hu => ⟨hu.1, fun p hp => hsettled p (hu.2 p hp)⟩

theorem tally_frame {o' : StreamCallbackOwners ident Root} {l : List Nat}
    (h : ∀ id ∈ l, o'.heap[id]? = o.heap[id]?) (id : Nat) : o'.tally l id = o.tally l id := by
  rw [tally, tally, List.flatMap_congr fun id hid => chained_frame (h id hid)]

/-- A settled entry holds on to no other. -/
theorem chained_settled {id : Nat} (h : o.Settled id) : o.chained id = [] := by
  rw [chained, h.1, if_neg (by simp)]

theorem tally_toList {previous : Option Nat} (h : ∀ p, previous = some p → o.Settled p)
    (id : Nat) : o.tally previous.toList id = previous.toList.count id := by
  cases previous with
  | none => rfl
  | some p => simp [tally, chained_settled (h p rfl)]

end StreamCallbackOwners

/-- **The invariant of the table.** -/
structure Inv (m : Mutation ident Root) : Prop where
  /-- Each published entry is in exactly one place, and nothing else is anywhere. -/
  places : ∀ id, m.owners.tally m.owners.entries.values id + m.owners.tally m.retired id
    = if id < m.owners.heap.length then 1 else 0
  stored : ∀ id ∈ m.owners.entries.values, m.owners.Settled id ∨ m.owners.Unsettled id

/-- Every entry that is anywhere was published. -/
theorem Inv.lt_of_mem {m : Mutation ident Root} (h : Inv m) {id : Nat}
    (hid : id ∈ m.owners.entries.values ∨ id ∈ m.retired) : id < m.owners.heap.length := by
  have hplaces := h.places id
  have hpos : 0 < m.owners.entries.values.count id ∨ 0 < m.retired.count id :=
    hid.imp List.count_pos_iff.mpr List.count_pos_iff.mpr
  by_contra hlt
  rw [if_neg hlt] at hplaces
  simp only [StreamCallbackOwners.tally] at hplaces
  omega

variable [DecidableEq I]

/-! ## The mutations keep the invariant

A mutation moves entries between places; the tally of each entry stays one.
-/

/-- Taking an entry out of the table hands it out. -/
theorem Inv.retire {m : Mutation ident Root} (h : Inv m) (key : K) : Inv (m.retire key) := by
  cases hget : m.owners.entries.get? key with
  | none => rwa [Mutation.retire_of_none hget]
  | some entry =>
    have hperm := m.owners.entries.values_perm key
    rw [hget, Option.toList_some] at hperm
    rw [Mutation.retire_of_some hget]
    refine ⟨fun id => ?_, fun id hid => ?_⟩
    · -- the entry moves from the table to the list
      have hplaces := h.places id
      rw [StreamCallbackOwners.tally_perm hperm, StreamCallbackOwners.tally_append] at hplaces
      show m.owners.tally (m.owners.entries.remove key).values id
        + m.owners.tally (m.retired ++ [entry]) id = if id < m.owners.heap.length then 1 else 0
      rw [StreamCallbackOwners.tally_append]
      omega
    · exact h.stored id (hperm.symm.subset (List.mem_append_right _ hid))

/-- A pruning pass does so for each absent key. -/
theorem Inv.pruned {m : Mutation ident Root} (h : Inv m) (presence : K → Int32) :
    Inv (m.pruned presence) := by
  unfold Mutation.pruned
  generalize absentKeys m.owners presence = keys
  induction keys generalizing m with
  | nil => exact h
  | cons key keys ih => exact ih (h.retire key)

omit [DecidableEq I] in
/-- Detaching does so for all of them. -/
theorem Inv.detached {m : Mutation ident Root} (h : Inv m) : Inv m.detached := by
  refine ⟨fun id => ?_, fun id hid => absurd hid List.not_mem_nil⟩
  have hplaces := h.places id
  show m.owners.tally [] id + m.owners.tally (m.retired ++ m.owners.entries.values) id
    = if id < m.owners.heap.length then 1 else 0
  rw [StreamCallbackOwners.tally_append]
  show 0 + _ = _
  omega

/-- The entry a key has when `admit` may go on is settled. -/
theorem Inv.settled_of_get? {m : Mutation ident Root} (h : Inv m) {key : K}
    (hprevious : ∀ previous, m.owners.entries.get? key = some previous →
      m.owners.status? previous ≠ none) (previous : Nat)
    (hget : m.owners.entries.get? key = some previous) : m.owners.Settled previous := by
  have hperm := m.owners.entries.values_perm key
  have hmem : previous ∈ m.owners.entries.values := hperm.symm.subset (by simp [hget])
  exact (h.stored previous hmem).resolve_right fun hunsettled =>
    hprevious previous hget hunsettled.1

/-- A new entry is in one place, and the one it is to replace moves behind it. -/
theorem Inv.published {m : Mutation ident Root} (h : Inv m) (key : K) (root : Root)
    (hprevious : ∀ previous, m.owners.entries.get? key = some previous →
      m.owners.status? previous ≠ none) :
    Inv (m.published key root (m.owners.entries.get? key)) := by
  have hperm := m.owners.entries.values_perm key
  have hperm' := m.owners.entries.values_set_perm key m.owners.heap.length
  have hsettled := h.settled_of_get? hprevious
  -- the candidate is new; every other entry is as it was
  have hold : ∀ id < m.owners.heap.length,
      (m.published key root (m.owners.entries.get? key)).owners.heap[id]? = m.owners.heap[id]? :=
    fun id hid => m.published_frame key root _ hid
  have hnew := m.published_self key root (m.owners.entries.get? key)
  have hrest : ∀ id ∈ (m.owners.entries.remove key).values, id < m.owners.heap.length :=
    fun id hid => h.lt_of_mem (.inl (hperm.symm.subset (List.mem_append_right _ hid)))
  generalize hm' : m.published key root (m.owners.entries.get? key) = m' at hold hnew ⊢
  have hvalues : m'.owners.entries.values.Perm
      (m.owners.heap.length :: (m.owners.entries.remove key).values) := by
    rw [← hm']
    exact hperm'
  have hretired : m'.retired = m.retired := by rw [← hm']; rfl
  have hlength : m'.owners.heap.length = m.owners.heap.length + 1 := by
    rw [← hm']
    exact List.length_append
  refine ⟨fun id => ?_, fun id hid => ?_⟩
  · have hplaces := h.places id
    rw [StreamCallbackOwners.tally_perm hperm, StreamCallbackOwners.tally_append,
      StreamCallbackOwners.tally_toList hsettled] at hplaces
    have hchained : m'.owners.chained m.owners.heap.length
        = (m.owners.entries.get? key).toList := by
      simp [StreamCallbackOwners.chained, StreamCallbackOwners.status?,
        StreamCallbackOwners.previous?, hnew]
    rw [StreamCallbackOwners.tally_perm hvalues, StreamCallbackOwners.tally_cons, hchained,
      StreamCallbackOwners.tally_frame fun id hid => hold id (hrest id hid), hretired,
      StreamCallbackOwners.tally_frame fun id hid => hold id (h.lt_of_mem (.inr hid)), hlength]
    rcases Nat.lt_trichotomy id m.owners.heap.length with hlt | heq | hgt
    · rw [if_pos hlt] at hplaces
      rw [List.count_singleton, if_neg (by simp; omega), if_pos (by omega)]
      omega
    · rw [if_neg (by omega)] at hplaces
      rw [heq, List.count_singleton_self, if_pos (by omega), ← heq]
      omega
    · rw [if_neg (by omega)] at hplaces
      rw [List.count_singleton, if_neg (by simp; omega), if_neg (by omega)]
      omega
  · rcases List.mem_cons.mp (hvalues.subset hid) with rfl | hid
    · refine .inr ⟨by simp [StreamCallbackOwners.status?, hnew], fun previous hp => ?_⟩
      have hget : m.owners.entries.get? key = some previous := by
        simpa [StreamCallbackOwners.previous?, hnew] using hp
      have hprev := hsettled previous hget
      exact hprev.frame (hold previous hprev.lt)
    · exact StreamCallbackOwners.stored_frame (hold id (hrest id hid))
        (fun p hp => hp.frame (hold p hp.lt))
        (h.stored id (hperm.symm.subset (List.mem_append_right _ hid)))

/-- `c` is the candidate of a running `admit`: stored under its key, and unanswered. -/
structure Calling (m : Mutation ident Root) (c : Candidate K) : Prop where
  stored : m.owners.entries.get? c.key = some c.entry
  status : m.owners.status? c.entry = none
  previous : m.owners.previous? c.entry = c.previous

section Calling

variable {m : Mutation ident Root} {c : Candidate K} (h : Inv m) (hc : Calling m c)
include hc

/-- While Core is called, the candidate is one of the current entries. -/
theorem Calling.values_perm :
    m.owners.entries.values.Perm (c.entry :: (m.owners.entries.remove c.key).values) := by
  have hperm := m.owners.entries.values_perm c.key
  rwa [hc.stored] at hperm

include h

/-- The entry the candidate replaces is settled. -/
theorem Calling.settled (p : Nat) (hp : c.previous = some p) : m.owners.Settled p := by
  have hmem : c.entry ∈ m.owners.entries.values := hc.values_perm.symm.subset List.mem_cons_self
  rcases h.stored c.entry hmem with hs | hu
  · exact absurd (hc.status.symm.trans hs.1) (by simp)
  · exact hu.2 p (hc.previous.trans hp)

/-- The places, with the candidate and what it replaces counted apart. -/
theorem Calling.places (id : Nat) :
    [c.entry].count id + c.previous.toList.count id
      + m.owners.tally (m.owners.entries.remove c.key).values id + m.owners.tally m.retired id
    = if id < m.owners.heap.length then 1 else 0 := by
  have hplaces := h.places id
  have hchained : m.owners.chained c.entry = c.previous.toList := by
    rw [StreamCallbackOwners.chained, if_pos hc.status, hc.previous]
  rwa [StreamCallbackOwners.tally_perm hc.values_perm, StreamCallbackOwners.tally_cons,
    hchained] at hplaces

/-- The candidate is nowhere else. -/
theorem Calling.notMem :
    c.entry ∉ (m.owners.entries.remove c.key).values ∧ c.entry ∉ m.retired := by
  have hplaces := hc.places h c.entry
  rw [List.count_singleton_self] at hplaces
  have hle : (if c.entry < m.owners.heap.length then 1 else 0) ≤ 1 := by split <;> omega
  simp only [StreamCallbackOwners.tally] at hplaces
  constructor
  · intro hmem
    have := List.count_pos_iff.mpr hmem
    omega
  · intro hmem
    have := List.count_pos_iff.mpr hmem
    omega

theorem Calling.exists_entry : ∃ entry, m.owners.heap[c.entry]? = some entry := by
  have hmem : c.entry ∈ m.owners.entries.values := hc.values_perm.symm.subset List.mem_cons_self
  exact ⟨_, List.getElem?_eq_getElem (h.lt_of_mem (.inl hmem))⟩

/-- A refused candidate is handed out, and the entry behind it is current again. -/
theorem Inv.refused (status : Int32) : Inv (m.refused c status) := by
  have hsettled := hc.settled h
  have hnotMem := hc.notMem h
  have hperm := hc.values_perm
  have hframe : ∀ id ≠ c.entry, (m.refused c status).owners.heap[id]? = m.owners.heap[id]? :=
    fun id hid => m.refused_frame status hid
  have hkeep : ∀ p, m.owners.Settled p → (m.refused c status).owners.Settled p := by
    intro p hp
    refine hp.frame (hframe p ?_)
    rintro rfl
    exact absurd (hc.status.symm.trans hp.1) (by simp)
  have hvalues := m.refused_values (c := c) status
  -- the candidate is under its own key only, and not retired yet
  have hrest : ∀ id ∈ (m.owners.entries.remove c.key).values, id ≠ c.entry :=
    fun id hid heq => hnotMem.1 (heq ▸ hid)
  refine ⟨fun id => ?_, fun id hid => ?_⟩
  · -- the tally: what was behind the candidate is stored again, and the candidate is retired
    have hplaces := hc.places h id
    have hchained : (m.refused c status).owners.chained c.entry = [] := by
      obtain ⟨entry, hentry⟩ := hc.exists_entry h
      simp [StreamCallbackOwners.chained, StreamCallbackOwners.status?, Mutation.refused, hentry]
    rw [StreamCallbackOwners.tally_perm hvalues, StreamCallbackOwners.tally_append,
      StreamCallbackOwners.tally_toList fun p hp => hkeep p (hsettled p hp),
      StreamCallbackOwners.tally_frame fun id hid => hframe id (hrest id hid)]
    show _ + (m.refused c status).owners.tally (m.retired ++ [c.entry]) id
      = if id < (m.owners.heap.modify _ _).length then 1 else 0
    rw [StreamCallbackOwners.tally_append, StreamCallbackOwners.tally_cons, hchained,
      StreamCallbackOwners.tally_frame fun id hid => hframe id fun heq => hnotMem.2 (heq ▸ hid),
      List.length_modify, ← hplaces]
    show _ + (_ + (_ + 0 + 0)) = _
    omega
  · rcases List.mem_append.mp (hvalues.subset hid) with hid | hid
    · exact .inl (hkeep id (hsettled id (Option.mem_toList.mp hid)))
    · exact StreamCallbackOwners.stored_frame (hframe id (hrest id hid)) hkeep
        (h.stored id (hperm.symm.subset (List.mem_cons_of_mem _ hid)))

/-- An accepted candidate is settled, and the entry behind it is handed out. -/
theorem Inv.accepted : Inv (m.accepted c) := by
  have hsettled := hc.settled h
  have hnotMem := hc.notMem h
  have hperm := hc.values_perm
  obtain ⟨entry, hentry⟩ := hc.exists_entry h
  have hself : (m.accepted c).owners.Settled c.entry := by
    simp [StreamCallbackOwners.Settled, StreamCallbackOwners.status?,
      StreamCallbackOwners.previous?, Mutation.accepted, hentry]
  have hframe : ∀ id ≠ c.entry, (m.accepted c).owners.heap[id]? = m.owners.heap[id]? :=
    fun id hid => m.accepted_frame hid
  have hkeep : ∀ p, m.owners.Settled p → (m.accepted c).owners.Settled p := by
    intro p hp
    refine hp.frame (hframe p ?_)
    rintro rfl
    exact absurd (hc.status.symm.trans hp.1) (by simp)
  have hrest : ∀ id ∈ (m.owners.entries.remove c.key).values, id ≠ c.entry :=
    fun id hid heq => hnotMem.1 (heq ▸ hid)
  refine ⟨fun id => ?_, fun id hid => ?_⟩
  · -- the tally: what was behind the candidate is retired, and nothing is behind it any more
    have hplaces := hc.places h id
    show (m.accepted c).owners.tally m.owners.entries.values id
      + (m.accepted c).owners.tally (m.retired ++ c.previous.toList) id
      = if id < (m.owners.heap.modify _ _).length then 1 else 0
    rw [StreamCallbackOwners.tally_perm hperm, StreamCallbackOwners.tally_cons,
      StreamCallbackOwners.chained_settled hself, StreamCallbackOwners.tally_append,
      StreamCallbackOwners.tally_toList fun p hp => hkeep p (hsettled p hp),
      StreamCallbackOwners.tally_frame fun id hid => hframe id (hrest id hid),
      StreamCallbackOwners.tally_frame fun id hid => hframe id fun heq => hnotMem.2 (heq ▸ hid),
      List.length_modify, ← hplaces]
    show _ + 0 + _ + _ = _
    omega
  · rcases List.mem_cons.mp (hperm.subset hid) with rfl | hrest'
    · exact .inl hself
    · exact StreamCallbackOwners.stored_frame (hframe id (hrest id hrest')) hkeep
        (h.stored id hid)

end Calling

/-! ## Reachable states -/

/-- The invariant of a history. -/
structure StateInv (s : CallbackState ident Root) : Prop where
  inv : Inv s.mutation
  calling : ∀ c, s.pending = some c → Calling s.mutation c

omit [DecidableEq I] in
/-- An empty table has nothing in two places. -/
theorem inv_init {capacity : Int} {owners : StreamCallbackOwners ident Root}
    (h : StreamCallbackOwners.init capacity = .ok owners) : Inv ⟨owners, []⟩ := by
  unfold StreamCallbackOwners.init at h
  split at h
  · cases h
    exact ⟨fun id => rfl, fun id hid => absurd hid List.not_mem_nil⟩
  · cases h

/-- Behind a publication the call is running. -/
theorem Mutation.calling_published (m : Mutation ident Root) (key : K) (root : Root)
    (previous : Option Nat) :
    Calling (m.published key root previous) ⟨key, m.owners.heap.length, previous⟩ := by
  refine ⟨Dictionary.get?_set_self _ _ _, ?_, ?_⟩
  · simp [StreamCallbackOwners.status?, Mutation.published]
  · simp [StreamCallbackOwners.previous?, Mutation.published]

/-- The first half of `admit` keeps the invariant, whichever way it ends. -/
theorem Inv.publish {m : Mutation ident Root} (h : Inv m) {key : K} {root : Root}
    {presence : K → Int32} {outcome : Except RuntimeError (Candidate K)}
    {m' : Mutation ident Root} (hrun : PublishRun m key root presence (outcome, m')) :
    Inv m' ∧ ∀ c, outcome.toOption = some c → Calling m' c := by
  cases hrun with
  | unresolved => exact ⟨h, fun c hc => by cases hc⟩
  | exhausted => exact ⟨h.pruned presence, fun c hc => by cases hc⟩
  | pruned hget hfull hroom =>
    have hnone := Mutation.get?_pruned_of_none hget presence
    have hinv := (h.pruned presence).published key root (by simp [hnone])
    rw [hnone] at hinv
    refine ⟨hinv, fun c hc => ?_⟩
    cases hc
    exact Mutation.calling_published _ key root none
  | published hprevious hroom =>
    refine ⟨h.published _ root hprevious, fun c hc => ?_⟩
    cases hc
    exact Mutation.calling_published _ key root _

/-- Every event keeps the invariant. -/
theorem stateInv_step {s s' : CallbackState ident Root} {event : CallbackEvent K Root}
    (h : StateInv s) (hstep : s.step event = some s') : StateInv s' := by
  have hinv := h.inv
  cases stepRun_of_step hstep with
  | publish key root presence hidle hrun =>
    obtain ⟨hinv', hcalling⟩ := hinv.publish hrun
    exact ⟨hinv', hcalling⟩
  | accepted c presence hpending =>
    exact ⟨(hinv.accepted (h.calling c hpending)).pruned presence, fun _ hc => by cases hc⟩
  | refused c status presence hpending =>
    exact ⟨hinv.refused (h.calling c hpending) status, fun _ hc => by cases hc⟩
  | unreceived c hpending => exact ⟨hinv, fun _ hc => by cases hc⟩
  | forget key => exact ⟨hinv.retire key, fun _ hc => by cases hc⟩
  | detach => exact ⟨hinv.detached, fun _ hc => by cases hc⟩

/-- **The invariant holds in every history.** -/
theorem stateInv_reachable {s : CallbackState ident Root}
    (hs : (callbackSystem ident Root).Reachable s) : StateInv s := by
  refine hs.invariant ?_ ?_
  · rintro s ⟨capacity, owners, hinit, rfl⟩
    exact ⟨inv_init hinit, fun c hc => by cases hc⟩
  · intro s event s' _ h hstep
    have hstep : s.step event = some s' := hstep
    exact stateInv_step h hstep

/-- A whole `admit` on idle owners stays among the reachable states. -/
theorem reachable_admitRoot {s : CallbackState ident Root}
    (hs : (callbackSystem ident Root).Reachable s) (hidle : s.pending = none) (key : K)
    (root : Root) (call : Except RuntimeError Int32) (presence presence' : K → Int32) :
    (callbackSystem ident Root).Reachable
      (.after (exec (admitRoot key root call presence presence') s.mutation).2 none) := by
  rw [exec_admitRoot]
  cases hrun : exec (publish key root presence) s.mutation with
  | mk outcome m =>
    have hstep : (callbackSystem ident Root).step s (.publish key root presence)
        (.after m outcome.toOption) := by
      show s.step _ = _
      rw [CallbackState.step, hidle, hrun]
      cases outcome <;> rfl
    have hpublished := hs.step hstep
    cases outcome with
    | error error => exact hpublished
    | ok candidate =>
      cases call with
      | error error => exact hpublished.step (a := .unreceived) rfl
      | ok status => exact hpublished.step (a := .received status presence') rfl

end CoAkka.Stream
