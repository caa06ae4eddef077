import CoAkkaRuntime.Stream.CallbackOwners

/-!
# Stream — what each ownership method does

One description per method of `StreamCallbackOwners`: the state it leaves, as a function of the
state it found, and for `publish` the four ways it may end. `StepRun` collects them for the events
of a history; no later proof looks inside a method.

* `run_prune`, `run_settle`, `exec_publish` — one equation for each part of the methods.
* `StepRun`, `stepRun_of_step` — the inversion of a step of a history.
* `Mutation.pairs_pruned`, `Mutation.retired_pruned` — what a pass leaves in the table and what it
  retires.
-/

namespace CoAkka.Stream

open Throwing

variable {K I Root : Type} {ident : K → I} [DecidableEq I]

/-! ## The states left -/

/-- The state `prune` leaves. -/
def Mutation.pruned (m : Mutation ident Root) (presence : K → Int32) : Mutation ident Root :=
  (absentKeys m.owners presence).foldl Mutation.retire m

/-- The state in which `admit` calls Core. -/
def Mutation.published (m : Mutation ident Root) (key : K) (root : Root)
    (previous : Option Nat) : Mutation ident Root where
  owners := { m.owners with
    heap := m.owners.heap ++ [⟨root, previous, none⟩]
    entries := m.owners.entries.set key m.owners.heap.length }
  retired := m.retired

/-- The state `admit` leaves when Core refused the candidate. -/
def Mutation.refused (m : Mutation ident Root) (c : Candidate K) (status : Int32) :
    Mutation ident Root where
  owners := { m.owners with
    heap := m.owners.heap.modify c.entry fun entry => { entry with status := some status }
    entries := match c.previous with
      | some previous => m.owners.entries.set c.key previous
      | none => m.owners.entries.remove c.key }
  retired := m.retired ++ [c.entry]

/-- The state in which `admit` prunes after Core accepted the candidate. -/
def Mutation.accepted (m : Mutation ident Root) (c : Candidate K) : Mutation ident Root where
  owners := { m.owners with
    heap := m.owners.heap.modify c.entry fun entry =>
      { entry with status := some 0, previous := none } }
  retired := m.retired ++ c.previous.toList

/-- The state `detach` leaves. -/
def Mutation.detached (m : Mutation ident Root) : Mutation ident Root where
  owners := { m.owners with entries := .empty }
  retired := m.retired ++ m.owners.entries.values

/-! ## What a method leaves alone

Entries other than those that a method is about have their root, status and chain as before.
-/

/-- A part of the entries that a change to one of them leaves alone. -/
theorem bind_modify {α : Type} {g : Entry Root → Entry Root} (part : Entry Root → Option α)
    (hg : ∀ e, part (g e) = part e) (heap : List (Entry Root)) (entry id : Nat) :
    (heap.modify entry g)[id]?.bind part = heap[id]?.bind part := by
  rw [List.getElem?_modify]
  cases heap[id]? with
  | none => rfl
  | some e =>
    by_cases h : entry = id
    · simp [h, hg]
    · simp [h]

theorem map_modify {g : Entry Root → Entry Root} (hg : ∀ e, (g e).root = e.root)
    (heap : List (Entry Root)) (entry id : Nat) :
    (heap.modify entry g)[id]?.map Entry.root = heap[id]?.map Entry.root := by
  rw [Option.map_eq_bind, Option.map_eq_bind]
  exact bind_modify (fun e => some e.root) (fun e => congrArg some (hg e)) heap entry id

section Frame

variable (m : Mutation ident Root) {c : Candidate K} {id : Nat}

/-- A refusal restores what the key had before. -/
theorem Mutation.refused_entries (c : Candidate K) (status : Int32) :
    (m.refused c status).owners.entries = m.owners.entries.restore c.key c.previous := by
  obtain ⟨key, entry, previous⟩ := c
  cases previous <;> rfl

/-- Publishing touches no entry of before. -/
theorem Mutation.published_frame (key : K) (root : Root) (previous : Option Nat)
    (hid : id < m.owners.heap.length) :
    (m.published key root previous).owners.heap[id]? = m.owners.heap[id]? :=
  List.getElem?_append_left hid

/-- The candidate is new, and its outcome is open. -/
theorem Mutation.published_self (key : K) (root : Root) (previous : Option Nat) :
    (m.published key root previous).owners.heap[m.owners.heap.length]?
      = some ⟨root, previous, none⟩ := by
  simp [published]

/-- A received outcome touches the candidate alone. -/
theorem Mutation.refused_frame (status : Int32) (hid : id ≠ c.entry) :
    (m.refused c status).owners.heap[id]? = m.owners.heap[id]? :=
  List.getElem?_modify_ne _ _ (Ne.symm hid)

theorem Mutation.refused_values (status : Int32) : (m.refused c status).owners.entries.values.Perm
    (c.previous.toList ++ (m.owners.entries.remove c.key).values) := by
  unfold refused
  cases c.previous with
  | none => exact List.Perm.refl _
  | some p => exact m.owners.entries.values_set_perm c.key p

omit [DecidableEq I] in
theorem Mutation.accepted_frame (hid : id ≠ c.entry) :
    (m.accepted c).owners.heap[id]? = m.owners.heap[id]? :=
  List.getElem?_modify_ne _ _ (Ne.symm hid)

end Frame

/-- A pruning pass is the removal of the absent keys. -/
theorem run_prune (presence : K → Int32) (m : Mutation ident Root) :
    (prune presence).run m = ((), m.pruned presence) :=
  run_forIn_modify Mutation.retire (absentKeys m.owners presence) m

/-- **What `settle` does, by the status.** -/
theorem run_settle (c : Candidate K) (status : Int32) (presence : K → Int32)
    (m : Mutation ident Root) :
    (settle c status presence).run m
      = ((), if status = 0 then (m.accepted c).pruned presence else m.refused c status) := by
  unfold settle
  by_cases hstatus : status = 0
  · subst hstatus
    simp [run_prune, Mutation.accepted, List.modify_modify_eq, Function.comp_def]
  · simp only [hstatus, ne_eq, not_false_eq_true, if_true, if_false, StateT.run_bind]
    rfl

/-- What `publish` may do. -/
inductive PublishRun (m : Mutation ident Root) (key : K) (root : Root) (presence : K → Int32) :
    Except RuntimeError (Candidate K) × Mutation ident Root → Prop where
  | unresolved (previous : Nat) (hget : m.owners.entries.get? key = some previous)
      (hstatus : m.owners.status? previous = none) :
      PublishRun m key root presence (.error (.contractViolation
        "Stream callback outcome unresolved; successful forget or close required"), m)
  | exhausted (hget : m.owners.entries.get? key = none)
      (hfull : m.owners.entries.count = m.owners.limit)
      (hstill : ¬ (m.pruned presence).owners.entries.count < (m.pruned presence).owners.limit) :
      PublishRun m key root presence (.error (.resourceLimit
        "Stream callback ownership storage exhausted"), m.pruned presence)
  | pruned (hget : m.owners.entries.get? key = none)
      (hfull : m.owners.entries.count = m.owners.limit)
      (hroom : (m.pruned presence).owners.entries.count < (m.pruned presence).owners.limit) :
      PublishRun m key root presence
        (.ok ⟨key, (m.pruned presence).owners.heap.length, none⟩,
          (m.pruned presence).published key root none)
  | published (hprevious : ∀ previous, m.owners.entries.get? key = some previous →
        m.owners.status? previous ≠ none)
      (hroom : m.owners.entries.get? key = none → m.owners.entries.count ≠ m.owners.limit) :
      PublishRun m key root presence
        (.ok ⟨key, m.owners.heap.length, m.owners.entries.get? key⟩, m.published key root (m.owners.entries.get? key))

/-- **What `publish` does, by what the table holds.** -/
theorem exec_publish (key : K) (root : Root) (presence : K → Int32) (m : Mutation ident Root) :
    PublishRun m key root presence (exec (publish key root presence) m) := by
  unfold publish
  cases hget : m.owners.entries.get? key with
  | some previous =>
    by_cases hstatus : m.owners.status? previous = none
    · have hrun : PublishRun m key root presence _ := .unresolved previous hget hstatus
      simpa [hget, hstatus] using hrun
    · have hrun : PublishRun m key root presence _ :=
        .published (by simp [hget, hstatus]) (by simp [hget])
      simpa [hget, hstatus, Except.map, Mutation.published] using hrun
  | none =>
    by_cases hfull : m.owners.entries.count = m.owners.limit
    · by_cases hroom : (m.pruned presence).owners.entries.count < (m.pruned presence).owners.limit
      · have hrun : PublishRun m key root presence _ := .pruned hget hfull hroom
        simpa [hget, hfull, run_prune, hroom, Nat.not_le.mpr hroom, Except.map,
          Mutation.published] using hrun
      · have hrun : PublishRun m key root presence _ := .exhausted hget hfull hroom
        simpa [hget, hfull, run_prune, hroom, Nat.not_lt.mp hroom] using hrun
    · have hrun : PublishRun m key root presence _ :=
        .published (by simp [hget]) (fun _ => hfull)
      simpa [hget, hfull, Except.map, Mutation.published] using hrun

/-- What an event does to a history, and when it is possible. -/
inductive StepRun (s : CallbackState ident Root) :
    CallbackEvent K Root → CallbackState ident Root → Prop where
  | publish (key : K) (root : Root) (presence : K → Int32)
      {outcome : Except RuntimeError (Candidate K)} {m : Mutation ident Root}
      (hidle : s.pending = none) (hrun : PublishRun s.mutation key root presence (outcome, m)) :
      StepRun s (.publish key root presence) (.after m outcome.toOption)
  | accepted (c : Candidate K) (presence : K → Int32) (hpending : s.pending = some c) :
      StepRun s (.received 0 presence) (.after ((s.mutation.accepted c).pruned presence) none)
  | refused (c : Candidate K) (status : Int32) (presence : K → Int32)
      (hpending : s.pending = some c) (hstatus : status ≠ 0) :
      StepRun s (.received status presence) (.after (s.mutation.refused c status) none)
  | unreceived (c : Candidate K) (hpending : s.pending = some c) :
      StepRun s .unreceived { s with pending := none }
  | forget (key : K) (hidle : s.pending = none) :
      StepRun s (.forget key) (.after (s.mutation.retire key) none)
  | detach (hidle : s.pending = none) : StepRun s .detach (.after s.mutation.detached none)

/-- **What a step of a history does.** This is the inversion that the invariants rest on. -/
theorem stepRun_of_step {s s' : CallbackState ident Root} {event : CallbackEvent K Root}
    (h : s.step event = some s') : StepRun s event s' := by
  cases event with
  | publish key root presence =>
    -- a mutation starts only where no call is running
    cases hpending : s.pending with
    | some c => simp [CallbackState.step, hpending] at h
    | none =>
      have hrun := exec_publish key root presence s.mutation
      rw [CallbackState.step, hpending] at h
      generalize exec (publish key root presence) s.mutation = out at hrun h
      obtain ⟨outcome, m⟩ := out
      cases outcome with
      | ok c =>
        cases h
        exact .publish key root presence hpending hrun
      | error error =>
        cases h
        exact .publish key root presence hpending hrun
  | received status presence =>
    obtain ⟨c, hpending, rfl⟩ := Option.map_eq_some_iff.mp h
    rw [run_settle]
    by_cases hstatus : status = 0
    · subst hstatus
      exact .accepted c presence hpending
    · rw [if_neg hstatus]
      exact .refused c status presence hpending hstatus
  | unreceived =>
    obtain ⟨c, hpending, rfl⟩ := Option.map_eq_some_iff.mp h
    exact .unreceived c hpending
  | forget key =>
    cases hpending : s.pending with
    | some c => simp [CallbackState.step, hpending] at h
    | none =>
      rw [CallbackState.step, hpending] at h
      cases h
      exact .forget key hpending
  | detach =>
    cases hpending : s.pending with
    | some c => simp [CallbackState.step, hpending] at h
    | none =>
      rw [CallbackState.step, hpending] at h
      cases h
      exact .detach hpending

/-! ## Retiring and pruning

Retiring removes one key; a pass retires the received keys that Core does not know.
-/

theorem Mutation.retire_of_some {m : Mutation ident Root} {key : K} {entry : Nat}
    (h : m.owners.entries.get? key = some entry) : m.retire key =
      { owners := { m.owners with entries := m.owners.entries.remove key }
        retired := m.retired ++ [entry] } := by
  rw [retire, h]

theorem Mutation.retire_of_none {m : Mutation ident Root} {key : K}
    (h : m.owners.entries.get? key = none) : m.retire key = m := by
  rw [retire, h]

section Pruned

variable (m : Mutation ident Root)

/-- A retired key is gone, and every other key stays. -/
theorem Mutation.get?_retire (key k : K) : (m.retire key).owners.entries.get? k
    = if ident key = ident k then none else m.owners.entries.get? k := by
  cases hget : m.owners.entries.get? key with
  | none =>
    rw [retire_of_none hget]
    split
    · next heq => rw [← Dictionary.get?_congr _ heq, hget]
    · rfl
  | some entry =>
    rw [retire_of_some hget]
    exact Dictionary.get?_remove _ _ _

theorem Mutation.retire_heap (key : K) : (m.retire key).owners.heap = m.owners.heap := by
  unfold retire
  split <;> rfl

theorem Mutation.pruned_heap (presence : K → Int32) :
    (m.pruned presence).owners.heap = m.owners.heap := by
  unfold pruned
  generalize absentKeys m.owners presence = keys
  induction keys generalizing m with
  | nil => rfl
  | cons key keys ih => rw [List.foldl_cons, ih, retire_heap]

variable {m}

omit [DecidableEq I] in
/-- A pass removes the received entries that Core reports absent. -/
theorem mem_absentKeys {o : StreamCallbackOwners ident Root} {presence : K → Int32} {key : K} :
    key ∈ absentKeys o presence
      ↔ ∃ id, (key, id) ∈ o.entries.pairs ∧ o.status? id ≠ none ∧ presence key = Status.badState := by
  simp [absentKeys, Option.isSome_iff_ne_none, and_assoc]

theorem Mutation.mem_pairs_retire {key : K} {p : K × Nat} :
    p ∈ (m.retire key).owners.entries.pairs
      ↔ p ∈ m.owners.entries.pairs ∧ ident p.1 ≠ ident key := by
  cases hget : m.owners.entries.get? key with
  | none =>
    rw [retire_of_none hget]
    exact ⟨fun hp => ⟨hp, Dictionary.get?_eq_none_iff.mp hget p hp⟩, fun hp => hp.1⟩
  | some entry =>
    rw [retire_of_some hget]
    exact Dictionary.mem_pairs_remove

/-- Pruning removes the pairs whose outcome is received and whose key is reported absent.
Induction on the reported keys; a stored key stands for its identity. -/
theorem Mutation.mem_pairs_pruned {presence : K → Int32} {p : K × Nat} :
    p ∈ (m.pruned presence).owners.entries.pairs
      ↔ p ∈ m.owners.entries.pairs ∧
        ¬ (m.owners.status? p.2 ≠ none ∧ presence p.1 = Status.badState) := by
  have hfold : ∀ (keys : List K) (m : Mutation ident Root),
      p ∈ (keys.foldl Mutation.retire m).owners.entries.pairs
        ↔ p ∈ m.owners.entries.pairs ∧ ∀ key ∈ keys, ident p.1 ≠ ident key := by
    intro keys
    induction keys with
    | nil => simp
    | cons key keys ih =>
      intro m
      rw [List.foldl_cons, ih, mem_pairs_retire, List.forall_mem_cons, and_assoc]
  rw [pruned, hfold]
  refine and_congr_right fun hp => ⟨fun h habsent => ?_, fun h key hkey heq => h ?_⟩
  · exact h p.1 (mem_absentKeys.mpr ⟨p.2, hp, habsent⟩) rfl
  · obtain ⟨id, hstored, habsent⟩ := mem_absentKeys.mp hkey
    rwa [Dictionary.eq_of_mem hp hstored heq]

/-- The pairs and the list, after the keys of some stored pairs are retired. Induction on the
pairs; their identities are distinct, so each still finds its own. -/
theorem Mutation.foldl_retire {ps : List (K × Nat)} (hstored : ∀ p ∈ ps, p ∈ m.owners.entries.pairs)
    (hnodup : (ps.map fun p => ident p.1).Nodup) :
    ((ps.map Prod.fst).foldl retire m).retired = m.retired ++ ps.map Prod.snd := by
  induction ps generalizing m with
  | nil => exact (List.append_nil _).symm
  | cons p ps ih =>
    obtain ⟨hnotMem, hrest⟩ := List.nodup_cons.mp hnodup
    have hget : m.owners.entries.get? p.1 = some p.2 :=
      Dictionary.get?_eq_some_iff.mpr ⟨p.1, rfl, hstored p List.mem_cons_self⟩
    rw [List.map_cons, List.foldl_cons, ih (fun q hq => mem_pairs_retire.mpr ⟨?_, ?_⟩) hrest,
      retire_of_some hget, List.append_assoc, List.map_cons, List.singleton_append]
    · exact hstored q (List.mem_cons_of_mem p hq)
    · exact fun heq => hnotMem (List.mem_map.mpr ⟨q, hq, heq⟩)

/-- The stored pairs a pruning pass removes. -/
def StreamCallbackOwners.absentPairs (o : StreamCallbackOwners ident Root) (presence : K → Int32) :
    List (K × Nat) :=
  o.entries.pairs.filter fun p => (o.status? p.2).isSome ∧ presence p.1 = Status.badState

/-- **What a pruning pass hands out**: the entries it removes, in the order of the table. -/
theorem Mutation.retired_pruned (m : Mutation ident Root) (presence : K → Int32) :
    (m.pruned presence).retired
      = m.retired ++ (m.owners.absentPairs presence).map Prod.snd :=
  foldl_retire (fun _ hp => (List.mem_filter.mp hp).1)
    (m.owners.entries.nodup.sublist (List.filter_sublist.map _))

theorem Mutation.pairs_retire (m : Mutation ident Root) (key : K) :
    (m.retire key).owners.entries.pairs
      = m.owners.entries.pairs.filter fun p => ident p.1 ≠ ident key := by
  cases hget : m.owners.entries.get? key with
  | none =>
    rw [retire_of_none hget]
    refine (List.filter_eq_self.mpr fun p hp => ?_).symm
    simpa using Dictionary.get?_eq_none_iff.mp hget p hp
  | some entry =>
    rw [retire_of_some hget]
    rfl

/-- **What a pruning pass leaves.** -/
theorem Mutation.pairs_pruned (m : Mutation ident Root) (presence : K → Int32) :
    (m.pruned presence).owners.entries.pairs = m.owners.entries.pairs.filter fun p =>
      ¬ ((m.owners.status? p.2).isSome ∧ presence p.1 = Status.badState) := by
  have hfold : ∀ (keys : List K) (m : Mutation ident Root),
      (keys.foldl retire m).owners.entries.pairs
        = m.owners.entries.pairs.filter fun p => ∀ key ∈ keys, ident p.1 ≠ ident key := by
    intro keys
    induction keys with
    | nil => simp
    | cons key keys ih =>
      intro m
      rw [List.foldl_cons, ih, pairs_retire, List.filter_filter]
      refine List.filter_congr fun p _ => ?_
      simp [Bool.and_comm]
  rw [pruned, hfold]
  refine List.filter_congr fun p hp => decide_eq_decide.mpr ?_
  have hmem : p ∈ (m.pruned presence).owners.entries.pairs ↔ _ := mem_pairs_pruned
  rw [pruned, hfold, List.mem_filter, decide_eq_true_eq] at hmem
  rw [Option.isSome_iff_ne_none]
  exact (and_congr_right_iff.mp hmem) hp

theorem Mutation.retire_limit (m : Mutation ident Root) (key : K) :
    (m.retire key).owners.limit = m.owners.limit := by
  unfold retire
  split <;> rfl

theorem Mutation.pruned_limit (m : Mutation ident Root) (presence : K → Int32) :
    (m.pruned presence).owners.limit = m.owners.limit := by
  unfold pruned
  generalize absentKeys m.owners presence = keys
  induction keys generalizing m with
  | nil => rfl
  | cons key keys ih => rw [List.foldl_cons, ih, retire_limit]

/-- A pass makes no key. -/
theorem Mutation.get?_pruned_of_none {key : K} (h : m.owners.entries.get? key = none)
    (presence : K → Int32) : (m.pruned presence).owners.entries.get? key = none :=
  Dictionary.get?_eq_none_iff.mpr fun p hp =>
    Dictionary.get?_eq_none_iff.mp h p (mem_pairs_pruned.mp hp).1

end Pruned

/-- The limit never changes. -/
theorem limit_step {s s' : CallbackState ident Root} {event : CallbackEvent K Root}
    (hstep : s.step event = some s') : s'.owners.limit = s.owners.limit := by
  cases stepRun_of_step hstep with
  | publish key root presence hidle hrun =>
    cases hrun with
    | unresolved | published => rfl
    | exhausted | pruned => exact s.mutation.pruned_limit presence
  | accepted c presence => exact (s.mutation.accepted c).pruned_limit presence
  | forget key => exact s.mutation.retire_limit key
  | refused | unreceived | detach => rfl

end CoAkka.Stream
