import CoAkkaRuntime.Stream.OwnersInvariant

/-!
# Stream — why an entry leaves the ownership table

An entry is held by the table while it is current for its key or chained to an unresolved current
entry. A step lets go of it for one of five reasons (`Leaves`), and an unresolved entry or the one
it would replace is never among the pruned ones.

* `StreamCallbackOwners.holds`, `Mutation.holds` — how often an address is in the table or retired.
* `Mutation.of_publish`, `Mutation.of_accepted`, `Mutation.of_refused` — where an entry goes.
* `callbackOwners_conserve` — each entry is in one place as long as it is there, and leaves the
  table by the rules of the source only.
-/

namespace CoAkka.Stream

open Throwing

variable {K I Root : Type} {ident : K → I} [DecidableEq I]

/-! ## Leaving the table -/

/-- `id` is current for some key, or the `previous` of an unresolved current entry. -/
def StreamCallbackOwners.Holds (o : StreamCallbackOwners ident Root) (id : Nat) : Prop :=
  ∃ current ∈ o.entries.values, id = current ∨ id ∈ o.chained current

/-- The answers of the pruning pass of an event. -/
def CallbackEvent.presence? : CallbackEvent K Root → Option (K → Int32)
  | .publish _ _ presence => some presence
  | .received _ presence => some presence
  | _ => none

/-- Why the entry `id` leaves the table in a step. -/
inductive Leaves (s s' : CallbackState ident Root) : CallbackEvent K Root → Nat → Prop where
  /-- Core accepted another candidate for its key. -/
  | replaced (c : Candidate K) (presence : K → Int32) (hpending : s.pending = some c) (id : Nat)
      (hprevious : c.previous = some id) : Leaves s s' (.received 0 presence) id
  /-- Core refused this very candidate. -/
  | refused (c : Candidate K) (status : Int32) (presence : K → Int32)
      (hpending : s.pending = some c) (hstatus : status ≠ 0) :
      Leaves s s' (.received status presence) c.entry
  /-- Its outcome is received, and Core does not know its key any more. -/
  | absent (event : CallbackEvent K Root) (presence : K → Int32) (key : K) (id : Nat)
      (hevent : event.presence? = some presence) (hstored : (key, id) ∈ s.owners.entries.pairs)
      (hreceived : s'.owners.status? id = some 0) (habsent : presence key = Status.badState) :
      Leaves s s' event id
  | forgotten (key : K) (current id : Nat) (hget : s.owners.entries.get? key = some current)
      (hid : id = current ∨ id ∈ s.owners.chained current) : Leaves s s' (.forget key) id
  | detached (id : Nat) : Leaves s s' .detach id

section Holds

variable {m : Mutation ident Root} {id : Nat}

/-- What a table holds, it holds under a key or under the others. -/
theorem StreamCallbackOwners.holds_perm {o : StreamCallbackOwners ident Root} (key : K)
    (h : o.Holds id) :
    (∃ current, o.entries.get? key = some current ∧ (id = current ∨ id ∈ o.chained current)) ∨
    ∃ current ∈ (o.entries.remove key).values, id = current ∨ id ∈ o.chained current := by
  obtain ⟨current, hcurrent, hid⟩ := h
  rcases List.mem_append.mp ((o.entries.values_perm key).subset hcurrent) with hmem | hmem
  · exact .inl ⟨current, Option.mem_toList.mp hmem, hid⟩
  · exact .inr ⟨current, hmem, hid⟩

/-- Retiring a key takes its entry and what is chained to it. -/
theorem Mutation.of_retire (key : K) (h : m.owners.Holds id)
    (hnot : ¬ (m.retire key).owners.Holds id) :
    ∃ current, m.owners.entries.get? key = some current ∧
      (id = current ∨ id ∈ m.owners.chained current) := by
  refine (StreamCallbackOwners.holds_perm key h).resolve_right fun hrest => hnot ?_
  cases hget : m.owners.entries.get? key with
  | none => rwa [retire_of_none hget]
  | some entry =>
    rw [retire_of_some hget]
    exact hrest

/-- What a pass lets go of was under one of its keys. -/
theorem Mutation.of_retireAll (keys : List K) (h : m.owners.Holds id)
    (hnot : ¬ (keys.foldl Mutation.retire m).owners.Holds id) :
    ∃ key ∈ keys, ∃ current, m.owners.entries.get? key = some current ∧
      (id = current ∨ id ∈ m.owners.chained current) := by
  induction keys generalizing m with
  | nil => exact absurd h hnot
  | cons key keys ih =>
    by_cases hkey : (m.retire key).owners.Holds id
    · obtain ⟨key', hmem, current, hget, hid⟩ := ih hkey hnot
      rw [get?_retire] at hget
      split at hget
      · cases hget
      · have hchained : (m.retire key).owners.chained current = m.owners.chained current :=
          StreamCallbackOwners.chained_frame (by rw [retire_heap])
        rw [hchained] at hid
        exact ⟨key', List.mem_cons_of_mem _ hmem, current, hget, hid⟩
    · obtain ⟨current, hget, hid⟩ := of_retire key h hkey
      exact ⟨key, List.mem_cons_self, current, hget, hid⟩

/-- Pruning takes settled entries of keys that Core reports absent. -/
theorem Mutation.of_pruned (hinv : Inv m) (presence : K → Int32) (h : m.owners.Holds id)
    (hnot : ¬ (m.pruned presence).owners.Holds id) :
    ∃ key, (key, id) ∈ m.owners.entries.pairs ∧ presence key = Status.badState ∧
      m.owners.status? id = some 0 := by
  obtain ⟨key, hkey, current, hget, hid⟩ := of_retireAll _ h hnot
  obtain ⟨stored, hstored, hreceived, habsent⟩ := mem_absentKeys.mp hkey
  have hcurrent : stored = current := by
    have := Dictionary.get?_eq_some_iff.mpr ⟨key, rfl, hstored⟩
    rw [this] at hget
    exact Option.some.inj hget
  subst hcurrent
  have hsettled : m.owners.Settled stored :=
    (hinv.stored stored (List.mem_map.mpr ⟨_, hstored, rfl⟩)).resolve_right
      fun hu => hreceived hu.1
  -- nothing is chained to a settled entry
  rw [StreamCallbackOwners.chained_settled hsettled] at hid
  obtain rfl : id = stored := hid.resolve_right (List.not_mem_nil)
  exact ⟨key, hstored, habsent, hsettled.1⟩

/-- Publishing a candidate chains the entry it replaces, and lets go of none. -/
theorem Mutation.holds_published (hinv : Inv m) (key : K) (root : Root)
    (hprevious : ∀ previous, m.owners.entries.get? key = some previous →
      m.owners.status? previous ≠ none) (h : m.owners.Holds id) :
    (m.published key root (m.owners.entries.get? key)).owners.Holds id := by
  have hvalues := m.owners.entries.values_set_perm key m.owners.heap.length
  rcases StreamCallbackOwners.holds_perm key h with
    ⟨current, hget, hid⟩ | ⟨current, hcurrent, hid⟩
  · -- the key's entry is settled, and now hangs on the candidate
    rw [StreamCallbackOwners.chained_settled (hinv.settled_of_get? hprevious current hget)] at hid
    obtain rfl : id = current := hid.resolve_right List.not_mem_nil
    refine ⟨_, hvalues.symm.subset List.mem_cons_self, .inr ?_⟩
    simp [StreamCallbackOwners.chained, StreamCallbackOwners.status?,
      StreamCallbackOwners.previous?, m.published_self, hget]
  · refine ⟨current, hvalues.symm.subset (List.mem_cons_of_mem _ hcurrent), ?_⟩
    have hmem := (m.owners.entries.values_perm key).symm.subset (List.mem_append_right _ hcurrent)
    rwa [StreamCallbackOwners.chained_frame
      (m.published_frame key root _ (hinv.lt_of_mem (.inl hmem)))]

/-- Core's acceptance of the candidate lets go of the entry it replaces. -/
theorem Mutation.of_accepted {c : Candidate K} (hc : Calling m c) (h : m.owners.Holds id)
    (hnot : ¬ (m.accepted c).owners.Holds id) : c.previous = some id := by
  obtain ⟨current, hcurrent, hid⟩ := h
  by_cases heq : current = c.entry
  · subst heq
    rw [StreamCallbackOwners.chained, if_pos hc.status, hc.previous] at hid
    refine Option.mem_toList.mp (hid.resolve_left fun hself => hnot ?_)
    exact ⟨c.entry, hcurrent, .inl hself⟩
  · refine absurd ⟨current, hcurrent, ?_⟩ hnot
    rwa [StreamCallbackOwners.chained_frame (m.accepted_frame heq)]

/-- Core's refusal lets go of the candidate. -/
theorem Mutation.of_refused {c : Candidate K} (hc : Calling m c) (status : Int32)
    (h : m.owners.Holds id) (hnot : ¬ (m.refused c status).owners.Holds id) : id = c.entry := by
  have hvalues := m.refused_values (c := c) status
  obtain ⟨current, hcurrent, hid⟩ := h
  by_cases heq : current = c.entry
  · subst heq
    rw [StreamCallbackOwners.chained, if_pos hc.status, hc.previous] at hid
    refine hid.resolve_right fun hprevious => hnot ?_
    exact ⟨id, hvalues.symm.subset (List.mem_append_left _ hprevious), .inl rfl⟩
  · have hrest := (List.mem_cons.mp (hc.values_perm.subset hcurrent)).resolve_left heq
    refine absurd ⟨current, hvalues.symm.subset (List.mem_append_right _ hrest), ?_⟩ hnot
    rwa [StreamCallbackOwners.chained_frame (m.refused_frame status heq)]

/-- The first half of `admit` lets go of pruned entries only. -/
theorem Mutation.of_publish (hinv : Inv m) {key : K} {root : Root} {presence : K → Int32}
    {outcome : Except RuntimeError (Candidate K)} {m' : Mutation ident Root}
    (hrun : PublishRun m key root presence (outcome, m')) (h : m.owners.Holds id)
    (hnot : ¬ m'.owners.Holds id) :
    ∃ key, (key, id) ∈ m.owners.entries.pairs ∧ presence key = Status.badState ∧
      m'.owners.status? id = some 0 := by
  cases hrun with
  | unresolved => exact absurd h hnot
  | exhausted =>
    obtain ⟨key', hstored, habsent, hreceived⟩ := of_pruned hinv presence h hnot
    refine ⟨key', hstored, habsent, ?_⟩
    rwa [StreamCallbackOwners.status?, pruned_heap]
  | pruned hget hfull hroom =>
    have hnone := get?_pruned_of_none hget presence
    -- lost in the pass; a publication itself loses nothing
    by_cases hpruned : (m.pruned presence).owners.Holds id
    · have hpublished := holds_published (hinv.pruned presence) key root
        (by simp [hnone]) hpruned
      rw [hnone] at hpublished
      exact absurd hpublished hnot
    · obtain ⟨key', hstored, habsent, hreceived⟩ := of_pruned hinv presence h hpruned
      refine ⟨key', hstored, habsent, ?_⟩
      have hlt : id < (m.pruned presence).owners.heap.length := by
        rw [pruned_heap]
        exact hinv.lt_of_mem (.inl (List.mem_map.mpr ⟨_, hstored, rfl⟩))
      rwa [StreamCallbackOwners.status?, published_frame _ _ _ _ hlt, pruned_heap]
  | published hprevious hroom => exact absurd (holds_published hinv _ root hprevious h) hnot

end Holds

/-- **An entry leaves the table for one of the reasons only**, step by step. -/
theorem leaves_of_step {s s' : CallbackState ident Root} {event : CallbackEvent K Root}
    (hs : StateInv s) (hstep : s.step event = some s') {id : Nat} (h : s.owners.Holds id)
    (hnot : ¬ s'.owners.Holds id) : Leaves s s' event id := by
  have hinv := hs.inv
  cases stepRun_of_step hstep with
  | publish key root presence hidle hrun =>
    obtain ⟨key', hstored, habsent, hreceived⟩ := Mutation.of_publish hinv hrun h hnot
    exact .absent _ presence key' id rfl hstored hreceived habsent
  | accepted c presence hpending =>
    have hc := hs.calling c hpending
    -- let go by the candidate, or in the pass behind that
    by_cases haccepted : (s.mutation.accepted c).owners.Holds id
    · obtain ⟨key, hstored, habsent, hreceived⟩ :=
        Mutation.of_pruned (hinv.accepted hc) presence haccepted hnot
      refine .absent _ presence key id rfl hstored ?_ habsent
      show ((s.mutation.accepted c).pruned presence).owners.status? id = some 0
      rwa [StreamCallbackOwners.status?, Mutation.pruned_heap]
    · exact .replaced c presence hpending id (Mutation.of_accepted hc h haccepted)
  | refused c status presence hpending hstatus =>
    rw [Mutation.of_refused (hs.calling c hpending) status h hnot]
    exact .refused c status presence hpending hstatus
  | unreceived c hpending => exact absurd h hnot
  | forget key =>
    obtain ⟨current, hget, hid⟩ := Mutation.of_retire key h hnot
    exact .forgotten key current id hget hid
  | detach => exact .detached id

/-- **Representation and conservation of the ownership table.** In every state of every history,
a stored entry with a received status has status 0 and no `previous`, an unresolved one replaces at
most one entry, which is resolved and replaces none; each of the entries ever published is in
exactly one place, current, chained to an unresolved current entry, or handed out once (with what is
chained to it); and an entry leaves the table for one of the reasons of `Leaves` only. -/
theorem callbackOwners_conserve {s : CallbackState ident Root}
    (hs : (callbackSystem ident Root).Reachable s) :
    (∀ id ∈ s.owners.entries.values, ∀ status, s.owners.status? id = some status →
      status = 0 ∧ s.owners.previous? id = none) ∧
    (∀ id ∈ s.owners.entries.values, s.owners.status? id = none →
      ∀ previous, s.owners.previous? id = some previous →
        s.owners.status? previous = some 0 ∧ s.owners.previous? previous = none) ∧
    (∀ id < s.owners.heap.length,
      s.owners.entries.values.count id + (s.owners.entries.values.flatMap s.owners.chained).count id
        + (s.retired.count id + (s.retired.flatMap s.owners.chained).count id) = 1) ∧
    (∀ event s', s.step event = some s' → ∀ id, s.owners.Holds id → ¬ s'.owners.Holds id →
      Leaves s s' event id) := by
  have h := stateInv_reachable hs
  refine ⟨fun id hid status hstatus => ?_, fun id hid hstatus => ?_, fun id hid => ?_,
    fun event s' hstep id hheld hnot => leaves_of_step h hstep hheld hnot⟩
  · rcases h.inv.stored id hid with hsettled | hunsettled
    · exact ⟨Option.some.inj (hstatus.symm.trans hsettled.1), hsettled.2⟩
    · exact absurd (hstatus.symm.trans hunsettled.1) (by simp)
  · rcases h.inv.stored id hid with hsettled | hunsettled
    · exact absurd (hstatus.symm.trans hsettled.1) (by simp)
    · exact hunsettled.2
  · have hplaces := h.inv.places id
    have hid : id < s.mutation.owners.heap.length := hid
    rwa [if_pos hid] at hplaces

/-- Owners of capacity one after Core has accepted an admission of key 7. -/
def oneAdmission : CallbackState (id : Nat → Nat) Nat where
  owners := { limit := 2, entries := Dictionary.empty.set 7 0, heap := [⟨10, none, some 0⟩] }
  retired := []
  pending := none

theorem reachable_oneAdmission : (callbackSystem (id : Nat → Nat) Nat).Reachable oneAdmission := by
  have hinit : (callbackSystem (id : Nat → Nat) Nat).Reachable
      ⟨{ limit := 2, entries := .empty, heap := [] }, [], none⟩ := .init ⟨1, _, rfl, rfl⟩
  have hcalling : (callbackSystem (id : Nat → Nat) Nat).Reachable
      ⟨{ limit := 2, entries := Dictionary.empty.set 7 0, heap := [⟨10, none, none⟩] }, [],
        some ⟨7, 0, none⟩⟩ :=
    hinit.step (a := .publish 7 10 fun _ => 0) (show CallbackState.step _ _ = some _ from rfl)
  exact hcalling.step (a := .received 0 fun _ => 0) (show CallbackState.step _ _ = some _ from rfl)

/-- A second admission of key 7 whose outcome was not received: its entry is current, and holds on to
the one it was to replace. -/
def openReplacement : CallbackState (id : Nat → Nat) Nat where
  owners :=
    { limit := 2
      entries := (Dictionary.empty.set 7 0).set 7 1
      heap := [⟨10, none, some 0⟩, ⟨20, some 0, none⟩] }
  retired := []
  pending := none

theorem reachable_openReplacement :
    (callbackSystem (id : Nat → Nat) Nat).Reachable openReplacement := by
  have hcalling : (callbackSystem (id : Nat → Nat) Nat).Reachable
      ⟨openReplacement.owners, [], some ⟨7, 1, some 0⟩⟩ :=
    reachable_oneAdmission.step (a := .publish 7 20 fun _ => 0)
      (show CallbackState.step _ _ = some _ from rfl)
  exact hcalling.step (a := .unreceived) (show CallbackState.step _ _ = some _ from rfl)

/-- The replaced entry is in one place, behind the unresolved one, and was received. -/
theorem callbackOwners_conserve_openReplacement :
    (openReplacement.owners.status? 0 = some 0 ∧ openReplacement.owners.previous? 0 = none) ∧
    openReplacement.owners.entries.values.count 0
        + (openReplacement.owners.entries.values.flatMap openReplacement.owners.chained).count 0
        + (openReplacement.retired.count 0
          + (openReplacement.retired.flatMap openReplacement.owners.chained).count 0) = 1 :=
  ⟨(callbackOwners_conserve reachable_openReplacement).2.1 1 (by decide) rfl 0 rfl,
    (callbackOwners_conserve reachable_openReplacement).2.2.1 0 (by decide)⟩

end CoAkka.Stream
