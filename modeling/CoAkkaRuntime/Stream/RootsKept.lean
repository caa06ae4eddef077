import CoAkkaRuntime.Stream.AdmitSteps

/-!
# Stream — no statement of a mutation drops a root

An entry is alive while the table, a list of retired entries or a local variable refers to it, or
another living entry does through `previous`; its root lives as long. Inside a mutation entries move
between these places, and each is in its next place before it leaves the last: no statement of
`admit`, `forget` or `detach` is the end of an entry.

* `Closure`, `Alive` — the entries that something refers to, over the chains as well.
* `KeepsRoots` — a statement after which every entry that was alive is alive.
* `retireSteps_keeps`, `pruneSteps_keeps`, `storeSteps_keeps` — one lemma per program, by the rules
  of `Along` and in the order of the source; `admitSteps_keeps` and `detachSteps_keeps` are the
  methods.
* `Admitting` — where the candidate of an admission is while it is no longer only a local variable
  and not yet in the table.

A statement that moves an entry is two accesses in the source, and the order matters: it is stored
at its new place first. The lemmas hold for the order of the source and for no other.
-/

namespace CoAkka.Stream

open Throwing Steps

/-! ## Reachable entries

Reachability is a closure over the chains, so that it is monotone in what is referred to.
-/

/-- What `base` refers to, directly or through `next`. -/
inductive Closure (base : Nat → Prop) (next : Nat → Option Nat) : Nat → Prop where
  | base {id : Nat} (h : base id) : Closure base next id
  | next {id id' : Nat} (h : Closure base next id) (hnext : next id = some id') :
      Closure base next id'

/-- A root that is reachable stays so where every link is kept or bridged. -/
theorem Closure.mono {base base' : Nat → Prop} {next next' : Nat → Option Nat}
    (hbase : ∀ id, base id → Closure base' next' id)
    (hnext : ∀ id id', next id = some id' → next' id = some id' ∨ Closure base' next' id') {id : Nat}
    (h : Closure base next id) : Closure base' next' id := by
  induction h with
  | base h => exact hbase _ h
  | next h hnext' ih => exact (hnext _ _ hnext').elim (.next ih) fun h => h

variable {K I Root : Type} {ident : K → I}

namespace MutationFrame

variable (f : MutationFrame ident Root)

def Refers (id : Nat) : Prop :=
  id ∈ f.owners.entries.values ∨ id ∈ f.retired ∨ id ∈ f.locals

/-- The entry is alive by what the frame itself refers to. -/
def Alive (id : Nat) : Prop := Closure f.Refers f.owners.previous? id

end MutationFrame

/-- A statement after which everything that was alive still is. -/
structure KeepsRoots (f f' : MutationFrame ident Root) : Prop where
  refers : ∀ id, f.Refers id → f'.Alive id
  previous : ∀ id p, f.owners.previous? id = some p → f'.owners.previous? id = some p ∨ f'.Alive p
  root : ∀ id root, f.owners.root? id = some root → f'.owners.root? id = some root

section Keeps

variable {f f' : MutationFrame ident Root}

/-- Entries whose references are only added to. -/
theorem KeepsRoots.of_refers (hheap : f'.owners.heap = f.owners.heap)
    (h : ∀ id, f.Refers id → f'.Refers id) : KeepsRoots f f' where
  refers id hid := .base (h id hid)
  previous id p hp := by
    left
    rwa [StreamCallbackOwners.previous?, hheap]
  root id root hroot := by rwa [StreamCallbackOwners.root?, hheap]

end Keeps

variable [DecidableEq I]

/-! ## Where a key's entry goes -/

section Values

variable {d : Dictionary ident Nat} {key : K} {id : Nat}

theorem self_mem_values_set (entry : Nat) : entry ∈ (d.set key entry).values :=
  (d.values_set_perm key entry).symm.subset List.mem_cons_self

theorem mem_values_of_get? (h : d.get? key = some id) : id ∈ d.values := by
  obtain ⟨k, -, hmem⟩ := Dictionary.get?_eq_some_iff.mp h
  exact List.mem_map.mpr ⟨_, hmem, rfl⟩

end Values

/-! ## The programs

From the smallest program to the whole method, each in the terms of those before it.
-/

section Programs

variable {f : MutationFrame ident Root}

omit [DecidableEq I] in
theorem KeepsRoots.rfl' : KeepsRoots f f := .of_refers rfl fun _ h => h

/-- Each operation, statement by statement, drops no root: what leaves the table is in a local or
handed out. First the removal of one key. -/
theorem retireSteps_keeps (key : K) (hlocals : f.locals = []) :
    Along KeepsRoots (fun outcome f' => (∃ u, outcome = .ok u) ∧ f'.locals = [])
      (retireSteps key) f := by
  unfold retireSteps
  refine along_current_bind .rfl' ?_
  cases hget : f.owners.entries.get? key with
  | none => exact ⟨⟨(), rfl⟩, hlocals⟩
  | some entry =>
    refine along_statement_bind (.of_refers rfl ?_)
      (along_statement (.of_refers rfl ?_) ⟨⟨(), rfl⟩, rfl⟩)
    · -- the entry leaves the table and is a local variable until it is in the list
      rintro id (hid | hid | hid)
      · rcases Dictionary.mem_values_restore key none hid with hentry | hrest
        · rw [hget] at hentry
          exact .inr (.inr (List.mem_singleton.mpr (Option.some.inj hentry).symm))
        · exact .inl hrest
      · exact .inr (.inl hid)
      · rw [hlocals] at hid
        cases hid
    · rintro id (hid | hid | hid)
      · exact .inl hid
      · exact .inr (.inl (List.mem_append_left _ hid))
      · exact .inr (.inl (List.mem_append_right _ hid))

/-- A pruning pass. -/
theorem pruneSteps_keeps (presence : K → Int32) (hlocals : f.locals = []) :
    Along KeepsRoots (fun outcome f' => (∃ u, outcome = .ok u) ∧ f'.locals = [])
      (pruneSteps presence) f := by
  have hscratch : ∀ (f : MutationFrame ident Root) (retiredKeys : List K),
      KeepsRoots f { f with retiredKeys } := fun f _ => .of_refers rfl fun _ h => h
  unfold pruneSteps
  refine along_statement_bind (hscratch f []) (along_current_bind .rfl' ?_)
  -- the first loop collects keys and moves no entry; the second retires them one by one
  refine along_bind_of_ok (along_forEach (I := fun _ f => f.locals = []) ?_ hlocals)
    fun _ f hlocals => ?_
  · intro p _ f hlocals
    refine along_current_bind .rfl' ?_
    split
    · exact along_statement (hscratch f _) ⟨⟨(), rfl⟩, hlocals⟩
    · exact ⟨⟨(), rfl⟩, hlocals⟩
  · refine along_current_bind .rfl' (along_bind_of_ok (along_forEach (I := fun _ f => f.locals = [])
      (fun key _ f hlocals => retireSteps_keeps key hlocals) hlocals) fun _ f hlocals => ?_)
    exact along_statement (hscratch f []) ⟨⟨(), rfl⟩, hlocals⟩

/-- The frame of a running call: the candidate is its key's entry, and what it replaces hangs on
it. -/
structure Admitting (c : Candidate K) (f : MutationFrame ident Root) : Prop where
  stored : f.owners.entries.get? c.key = some c.entry
  previous : f.owners.previous? c.entry = c.previous
  locals : f.locals = [c.entry]

/-- Storing the candidate, which holds on to the entry that it replaces. -/
theorem storeSteps_keeps (key : K) (root : Root) (hlocals : f.locals = []) :
    Along KeepsRoots (fun outcome f' => ∃ c, outcome = .ok c ∧ Admitting c f')
      (storeSteps key root (f.owners.entries.get? key)) f := by
  have hself := f.mutation.published_self key root (f.owners.entries.get? key)
  have hself : (f.owners.heap ++ [_])[f.owners.heap.length]? = some _ := hself
  refine along_current_bind .rfl' (along_statement_bind ?_ (along_statement_bind ?_ ?_))
  · -- the new entry is behind all others
    have hframe : ∀ (id : Nat) (e : Entry Root), f.owners.heap[id]? = some e →
        (f.owners.heap ++ [⟨root, f.owners.entries.get? key, none⟩])[id]? = some e := by
      intro id e he
      obtain ⟨hlt, -⟩ := List.getElem?_eq_some_iff.mp he
      rwa [List.getElem?_append_left hlt]
    refine ⟨?_, ?_, ?_⟩
    · rintro id (hid | hid | hid)
      · exact .base (.inl hid)
      · exact .base (.inr (.inl hid))
      · rw [hlocals] at hid
        cases hid
    · intro id p hp
      obtain ⟨e, he, hp⟩ := Option.bind_eq_some_iff.mp hp
      exact .inl (Option.bind_eq_some_iff.mpr ⟨e, hframe id e he, hp⟩)
    · intro id r hr
      obtain ⟨e, he, hr⟩ := Option.map_eq_some_iff.mp hr
      exact Option.map_eq_some_iff.mpr ⟨e, hframe id e he, hr⟩
  · -- the entry of before hangs on the candidate
    refine ⟨?_, fun id p hp => .inl hp, fun id r hr => hr⟩
    rintro id (hid | hid | hid)
    · rcases Dictionary.mem_values_restore key (some f.owners.heap.length) hid with hold | hrest
      · refine .next (.base (.inl (self_mem_values_set f.owners.heap.length))) ?_
        show ((f.owners.heap ++ [_])[f.owners.heap.length]?.bind Entry.previous) = some id
        rw [hself]
        exact hold
      · exact .base (.inl hrest)
    · exact .base (.inr (.inl hid))
    · exact .base (.inr (.inr hid))
  · refine along_pure ⟨_, rfl, Dictionary.get?_set_self _ _ _, ?_, rfl⟩
    show ((f.owners.heap ++ [_])[f.owners.heap.length]?.bind Entry.previous) = _
    rw [hself]
    rfl

/-- The first half of `admit`. -/
theorem publishSteps_keeps (key : K) (root : Root) (presence : K → Int32) (hlocals : f.locals = []) :
    Along KeepsRoots (fun outcome f' => (∃ c, outcome = .ok c ∧ Admitting c f') ∨
      ((∃ e, outcome = .error e) ∧ f'.locals = [])) (publishSteps key root presence) f := by
  unfold publishSteps
  refine along_current_bind .rfl' ?_
  dsimp only
  split
  · -- an open outcome: refused before anything is touched
    exact along_throw (.inr ⟨⟨_, rfl⟩, hlocals⟩)
  · split
    · next hfull =>
      refine along_bind_of_run ((pruneSteps_keeps presence hlocals).mono (fun _ _ h => h)
        fun _ _ _ => trivial) (run_pruneSteps presence hlocals) (along_current_bind .rfl' ?_)
      split
      · -- no room after the pass: what it retired is in the list
        exact along_bind (.inr ⟨⟨_, rfl⟩, hlocals⟩)
      · -- the new key is not there after the pass either
        have hnone : (f.mutation.pruned presence).owners.entries.get? key = none :=
          Mutation.get?_pruned_of_none hfull.1 presence
        have hstored := storeSteps_keeps
          (f := { f.put (f.mutation.pruned presence) with retiredKeys := [] }) key root hlocals
        have hget : f.owners.entries.get? key
            = (f.put (f.mutation.pruned presence)).owners.entries.get? key := hfull.1.trans hnone.symm
        rw [hget]
        exact hstored.mono (fun _ _ h => h) fun _ _ h => .inl h
    · exact (storeSteps_keeps key root hlocals).mono (fun _ _ h => h) fun _ _ h => .inl h

/-- The second half, whichever status it got. -/
theorem settleSteps_keeps {c : Candidate K} (h : Admitting c f) (status : Int32)
    (presence : K → Int32) :
    Along KeepsRoots (fun outcome f' => (∃ u, outcome = .ok u) ∧ f'.locals = [])
      (settleSteps c status presence) f := by
  obtain ⟨hstored, hprevious, hlocals⟩ := h
  unfold settleSteps
  have hchained : ∀ id, (f.owners.heap.modify c.entry fun e => { e with status := some status })[id]?.bind
      Entry.previous = f.owners.previous? id :=
    bind_modify (g := fun e => { e with status := some status }) _ (fun _ => rfl) _ c.entry
  have hroot : ∀ id, (f.owners.heap.modify c.entry fun e => { e with status := some status })[id]?.map
      Entry.root = f.owners.root? id :=
    map_modify (g := fun e => { e with status := some status }) (fun _ => rfl) _ c.entry
  -- the status is written into the entry; chains and roots are as they were
  refine along_statement_bind ⟨fun id hid => .base hid, fun id p hp => .inl ?_, fun id r hr => ?_⟩ ?_
  · exact (hchained id).trans hp
  · exact (hroot id).trans hr
  split
  · -- the candidate is a local variable between the table and the list
    refine along_statement_bind (.of_refers rfl ?_)
      (along_statement (.of_refers rfl ?_) ⟨⟨(), rfl⟩, rfl⟩)
    · rintro id (hid | hid | hid)
      · have hmoved : f.owners.entries.get? c.key = some id
            ∨ id ∈ (f.owners.entries.restore c.key c.previous).values :=
          Dictionary.mem_values_restore c.key c.previous hid
        rcases hmoved with hcandidate | hrest
        · rw [hstored] at hcandidate
          refine .inr (.inr ?_)
          show id ∈ f.locals
          rw [hlocals, List.mem_singleton]
          exact (Option.some.inj hcandidate).symm
        · obtain ⟨key, entry, previous⟩ := c
          cases previous <;> exact .inl hrest
      · exact .inr (.inl hid)
      · exact .inr (.inr hid)
    · rintro id (hid | hid | hid)
      · exact .inl hid
      · exact .inr (.inl (List.mem_append_left _ hid))
      · have hid : id ∈ f.locals := hid
        rw [hlocals] at hid
        exact .inr (.inl (List.mem_append_right _ hid))
  · -- accepted: the entry of before goes to the list first, and is let go by the candidate then
    refine along_statement_bind (.of_refers rfl ?_) (along_statement_bind ?_ ?_)
    · rintro id (hid | hid | hid)
      · exact .inl hid
      · exact .inr (.inl (List.mem_append_left _ hid))
      · exact .inr (.inr hid)
    · refine ⟨?_, fun id p hp => ?_, fun id r hr => ?_⟩
      · rintro id (hid | hid | hid)
        · exact .base (.inl hid)
        · exact .base (.inr (.inl hid))
        · have hid : id ∈ f.locals := hid
          rw [hlocals, List.mem_singleton] at hid
          exact .base (.inl (mem_values_of_get? (hid ▸ hstored)))
      · have hp : f.owners.previous? id = some p := (hchained id).symm.trans hp
        by_cases hid : c.entry = id
        · -- what hung on the candidate is in the list
          rw [← hid, hprevious] at hp
          refine .inr (.base (.inr (.inl (List.mem_append_right _ ?_))))
          rw [hp]
          exact List.mem_singleton_self p
        · left
          show ((f.owners.heap.modify c.entry _).modify c.entry _)[id]?.bind Entry.previous = some p
          rw [List.getElem?_modify_ne _ _ hid, List.getElem?_modify_ne _ _ hid]
          exact hp
      · refine (map_modify (g := fun e => { e with previous := none }) (fun _ => rfl) _ c.entry
          id).trans hr
    · exact pruneSteps_keeps presence rfl

/-- **An admission drops no root.** -/
theorem admitSteps_keeps (key : K) (root : Root) (call : Except RuntimeError Int32)
    (presence presence' : K → Int32) (hlocals : f.locals = []) :
    Along KeepsRoots (fun _ f' => f'.locals = [])
      (admitSteps key root call presence presence') f := by
  unfold admitSteps
  refine along_bind ((publishSteps_keeps key root presence hlocals).mono (fun _ _ h => h) ?_)
  rintro _ f (⟨c, rfl, hstored, hprevious, hlocals⟩ | ⟨⟨error, rfl⟩, hlocals⟩)
  swap
  · exact hlocals
  refine along_statement_bind (.of_refers rfl fun _ h => h) ?_
  cases call with
  | error error =>
    refine along_statement_bind (.of_refers rfl ?_) (along_throw rfl)
    rintro id (hid | hid | hid)
    · exact .inl hid
    · exact .inr (.inl hid)
    · -- the table has the candidate
      have hid : id ∈ f.locals := hid
      rw [hlocals, List.mem_singleton] at hid
      exact .inl (mem_values_of_get? (hid ▸ hstored))
  | ok status =>
    have hcalled : Admitting c { f with calls := f.calls + 1 } := ⟨hstored, hprevious, hlocals⟩
    exact along_bind_of_ok (settleSteps_keeps hcalled status presence') fun _ f h => along_pure h

omit [DecidableEq I] in
/-- Nor does a detachment. -/
theorem detachSteps_keeps (hlocals : f.locals = []) :
    Along KeepsRoots (fun _ f' => f'.locals = []) detachSteps f := by
  refine along_statement_bind (.of_refers rfl ?_) (along_statement (.of_refers rfl ?_) hlocals)
  · rintro id (hid | hid | hid)
    · exact .inl hid
    · exact .inr (.inl (List.mem_append_left _ hid))
    · exact .inr (.inr hid)
  · rintro id (hid | hid | hid)
    · exact .inr (.inl (List.mem_append_right _ hid))
    · exact .inr (.inl hid)
    · exact .inr (.inr hid)

end Programs

end CoAkka.Stream
