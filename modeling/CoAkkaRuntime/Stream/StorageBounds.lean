import CoAkkaRuntime.Stream.AdmitSteps
import CoAkkaRuntime.Stream.OwnersPlaces

/-!
# Stream — the storage of the owners suffices

The owners reserve room for `limit` entries and `limit` keys, and a mutation reserves room for
`limit + 1` retired objects. What is retired leaves the table, so the two together only grow when a
candidate is published or is handed back; an admission does either once.

* `Bounded` — the arrays of a frame within what was reserved for them.
* `Keeping` — a program that leaves them so at every statement.
* `pruneSteps_bounded`, `publishSteps_bounded`, `settleSteps_bounded` — the parts; where an entry is
  added the bound is widened by one and used up again (`Bounded.widen`).
* `storage_suffices` — every intermediate state of `admit` and `forget`, from every reachable state.
-/

namespace CoAkka.Stream

open Throwing Steps

variable {K I Root : Type} {ident : K → I} [DecidableEq I]

/-- The table and the scratch list are within `limit`, and what is retired or stored within
`total`. -/
structure Bounded (limit total : Nat) (f : MutationFrame ident Root) : Prop where
  ofLimit : f.owners.limit = limit
  entries : f.owners.entries.count ≤ limit
  keys : f.retiredKeys.length ≤ limit
  held : f.retired.length + f.owners.entries.count ≤ total

variable {limit total : Nat} {f : MutationFrame ident Root}

/-- Every statement keeps within the bounds. -/
abbrev Keeping (limit total : Nat) (_ f' : MutationFrame ident Root) : Prop := Bounded limit total f'

/-! ## Pruning -/

/-- Each operation, statement by statement, stays within the limit. A removal only makes room. -/
theorem retireSteps_bounded (h : Bounded limit total f) (key : K) :
    Along (Keeping limit total) (fun outcome f' => (∃ u, outcome = .ok u) ∧ Bounded limit total f')
      (retireSteps key) f := by
  unfold retireSteps
  refine along_current_bind h ?_
  cases hget : f.owners.entries.get? key with
  | none => exact ⟨⟨(), rfl⟩, h⟩
  | some entry =>
    have hcount : f.owners.entries.count = 1 + (f.owners.entries.remove key).count := by
      rw [f.owners.entries.count_eq key, hget]
      rfl
    obtain ⟨hlimit, hentries, hkeys, htotal⟩ := h
    -- the entry is on its way from the table to the list
    refine along_statement_bind ⟨hlimit, ?_, hkeys, ?_⟩ (along_statement ?_ ⟨⟨(), rfl⟩, ?_⟩)
    · show (f.owners.entries.remove key).count ≤ limit
      omega
    · show f.retired.length + (f.owners.entries.remove key).count ≤ total
      omega
    all_goals
      refine ⟨hlimit, ?_, hkeys, ?_⟩
      · show (f.owners.entries.remove key).count ≤ limit
        omega
      · show (f.retired ++ [entry]).length + (f.owners.entries.remove key).count ≤ total
        rw [List.length_append, List.length_singleton]
        omega

omit [DecidableEq I] in
/-- The scratch list takes one key for each pair at most. -/
theorem collectAll_bounded (h : Bounded limit total f) (presence : K → Int32) {ps : List (K × Nat)}
    (hroom : f.retiredKeys.length + ps.length ≤ limit) :
    Along (Keeping limit total) (fun outcome f' => (∃ u, outcome = .ok u) ∧ Bounded limit total f')
      (forEach (collectSteps presence) ps) f := by
  -- every stored key is asked about once
  refine (along_forEach (I := fun ps f => Bounded limit total f ∧
    f.retiredKeys.length + ps.length ≤ limit) ?_ ⟨h, hroom⟩).mono (fun _ _ h => h)
      fun _ _ h => ⟨h.1, h.2.1⟩
  rintro p ps f ⟨h, hroom⟩
  rw [List.length_cons] at hroom
  unfold collectSteps
  refine along_current_bind h ?_
  split
  · have hkept : Bounded limit total { f with retiredKeys := f.retiredKeys ++ [p.1] } := by
      refine ⟨h.ofLimit, h.entries, ?_, h.held⟩
      rw [List.length_append, List.length_singleton]
      omega
    refine along_statement hkept ⟨⟨(), rfl⟩, hkept, ?_⟩
    rw [List.length_append, List.length_singleton]
    omega
  · exact ⟨⟨(), rfl⟩, h, by omega⟩

/-- So a pruning pass needs no more than the table has. -/
theorem pruneSteps_bounded (h : Bounded limit total f) (presence : K → Int32) :
    Along (Keeping limit total) (fun outcome f' => (∃ u, outcome = .ok u) ∧ Bounded limit total f')
      (pruneSteps presence) f := by
  have hcleared : ∀ {f : MutationFrame ident Root}, Bounded limit total f →
      Bounded limit total { f with retiredKeys := [] } :=
    fun h => ⟨h.ofLimit, h.entries, Nat.zero_le limit, h.held⟩
  unfold pruneSteps
  refine along_statement_bind (hcleared h) (along_current_bind (hcleared h) ?_)
  have hroom : ([] : List K).length + f.owners.entries.pairs.length ≤ limit := by
    rw [List.length_nil, Nat.zero_add]
    exact h.entries
  refine along_bind_of_ok (collectAll_bounded (hcleared h) presence hroom) fun _ f h => ?_
  -- each of the collected keys only moves an entry from the table to the list
  refine along_current_bind h (along_bind_of_ok (along_forEach
    (I := fun _ f => Bounded limit total f) (fun key _ f h => retireSteps_bounded h key) h) ?_)
  exact fun _ f h => along_statement (hcleared h) ⟨⟨(), rfl⟩, hcleared h⟩

/-! ## Admission

The candidate is the one entry that an admission adds, whether it is kept or handed back.
-/

/-- A published candidate is its key's entry, and the table has grown only if the key was new. -/
def Stored (bound : Nat) (c : Candidate K) (f : MutationFrame ident Root) : Prop :=
  f.owners.entries.get? c.key = some c.entry ∧
    (c.previous = none ∨ f.retired.length + f.owners.entries.count ≤ bound)

variable {bound : Nat}

/-- Storing needs room for a new key, and none for a replacement. -/
theorem storeSteps_bounded (h : Bounded limit bound f) {key : K} {previous : Option Nat}
    (hroom : (previous = none ∧ f.owners.entries.count < limit) ∨ f.owners.entries.get? key ≠ none)
    (root : Root) :
    Along (Keeping limit (bound + 1)) (fun outcome f' => Bounded limit (bound + 1) f' ∧
      ∀ c, outcome = .ok c → Stored bound c f') (storeSteps key root previous) f := by
  have hset := f.owners.entries.count_set key f.owners.heap.length
  have hcount := f.owners.entries.count_eq key
  obtain ⟨hlimit, hentries, hkeys, hheld⟩ := h
  have hgrown : (f.owners.entries.set key f.owners.heap.length).count ≤ limit ∧
      (f.owners.entries.set key f.owners.heap.length).count ≤ f.owners.entries.count + 1 ∧
      (previous = none ∨ (f.owners.entries.set key f.owners.heap.length).count
        = f.owners.entries.count) := by
    -- a new key takes the free place; a stored one keeps its own
    rcases hroom with ⟨hnew, hroom⟩ | hsome
    · exact ⟨by omega, by omega, .inl hnew⟩
    · obtain ⟨old, hold⟩ := Option.ne_none_iff_exists'.mp hsome
      rw [hold] at hcount
      have hcount : f.owners.entries.count = 1 + (f.owners.entries.remove key).count := hcount
      exact ⟨by omega, by omega, .inr (by omega)⟩
  have hpublished : Bounded limit (bound + 1) (f.published (f.mutation.published key root previous)
      ⟨key, f.owners.heap.length, previous⟩) := by
    refine ⟨hlimit, hgrown.1, hkeys, ?_⟩
    show f.retired.length + (f.owners.entries.set key f.owners.heap.length).count ≤ bound + 1
    omega
  refine along_current_bind ⟨hlimit, hentries, hkeys, by omega⟩ ?_
  refine along_statement_bind ⟨hlimit, hentries, hkeys, ?_⟩ (along_statement_bind hpublished ?_)
  · show f.retired.length + f.owners.entries.count ≤ bound + 1
    omega
  refine along_pure ⟨hpublished, fun c hc => ?_⟩
  cases hc
  refine ⟨Dictionary.get?_set_self _ _ _, hgrown.2.2.imp_right fun hsame => ?_⟩
  show f.retired.length + (f.owners.entries.set key f.owners.heap.length).count ≤ bound
  omega

omit [DecidableEq I] in
/-- A bound may be given away. -/
theorem Bounded.widen (h : Bounded limit bound f) : Bounded limit (bound + 1) f :=
  ⟨h.ofLimit, h.entries, h.keys, Nat.le_succ_of_le h.held⟩

/-- The first half of `admit` makes sure of the room before it stores. -/
theorem publishSteps_bounded (h : Bounded limit bound f) (key : K) (root : Root)
    (presence : K → Int32) :
    Along (Keeping limit (bound + 1)) (fun outcome f' => Bounded limit (bound + 1) f' ∧
      ∀ c, outcome = .ok c → Stored bound c f') (publishSteps key root presence) f := by
  unfold publishSteps
  refine along_current_bind h.widen ?_
  dsimp only
  split
  · exact along_throw ⟨h.widen, fun c hc => by cases hc⟩
  · split
    · next hfull =>
      refine along_bind_of_ok ((pruneSteps_bounded h presence).mono (fun _ _ h => h.widen)
        fun _ _ h => h) fun _ f h => along_current_bind h.widen ?_
      split
      · exact along_bind ⟨h.widen, fun c hc => by cases hc⟩
      · next hroom =>
        rw [not_not, h.ofLimit] at hroom
        exact storeSteps_bounded h (.inl ⟨hfull.1, hroom⟩) root
    · next hnotFull =>
      refine storeSteps_bounded h ?_ root
      by_cases hget : f.owners.entries.get? key = none
      · have hcount : f.owners.entries.count ≠ f.owners.limit :=
          fun hcount => hnotFull ⟨hget, hcount⟩
        rw [h.ofLimit] at hcount
        exact .inl ⟨hget, Nat.lt_of_le_of_ne h.entries hcount⟩
      · exact .inr hget

/-- The second half hands out the replaced or refused entry, and what its pass removes. -/
theorem settleSteps_bounded {c : Candidate K} (h : Bounded limit (bound + 1) f)
    (hstored : Stored bound c f) (status : Int32) (presence : K → Int32) :
    Along (Keeping limit (bound + 1))
      (fun outcome f' => (∃ u, outcome = .ok u) ∧ Bounded limit (bound + 1) f')
      (settleSteps c status presence) f := by
  obtain ⟨hget, hheld⟩ := hstored
  have hcount : f.owners.entries.count = 1 + (f.owners.entries.remove c.key).count := by
    rw [f.owners.entries.count_eq c.key, hget]
    rfl
  obtain ⟨hlimit, hentries, hkeys, htotal⟩ := h
  unfold settleSteps
  refine along_statement_bind ⟨hlimit, hentries, hkeys, htotal⟩ ?_
  split
  · -- the candidate leaves the table, or what it replaced comes back
    have hrestored : (f.owners.entries.restore c.key c.previous).count ≤ limit ∧
        f.retired.length + 1 + (f.owners.entries.restore c.key c.previous).count ≤ bound + 1 := by
      rw [Dictionary.count_restore]
      cases hprevious : c.previous with
      | none => exact ⟨by rw [Option.toList_none, List.length_nil]; omega,
          by rw [Option.toList_none, List.length_nil]; omega⟩
      | some previous =>
        rw [hprevious] at hheld
        have hheld := hheld.resolve_left (by simp)
        rw [Option.toList_some, List.length_singleton]
        exact ⟨by omega, by omega⟩
    obtain ⟨key, entry, previous⟩ := c
    cases previous
    all_goals
      refine along_statement_bind ⟨hlimit, hrestored.1, hkeys, ?_⟩
        (along_statement ?_ ⟨⟨(), rfl⟩, ?_⟩)
      · exact Nat.le_trans (Nat.add_le_add_right (Nat.le_succ _) _) hrestored.2
      all_goals
        refine ⟨hlimit, hrestored.1, hkeys, ?_⟩
        show (f.retired ++ [entry]).length + _ ≤ bound + 1
        rw [List.length_append, List.length_singleton]
        exact hrestored.2
  · -- what the candidate replaced is handed out
    have hretired : (f.retired ++ c.previous.toList).length + f.owners.entries.count ≤ bound + 1 := by
      rw [List.length_append]
      cases hprevious : c.previous with
      | none => exact htotal
      | some previous =>
        rw [hprevious] at hheld
        have hheld := hheld.resolve_left (by simp)
        show f.retired.length + 1 + _ ≤ bound + 1
        omega
    refine along_statement_bind ⟨hlimit, hentries, hkeys, hretired⟩
      (along_statement_bind ⟨hlimit, hentries, hkeys, hretired⟩ ?_)
    refine pruneSteps_bounded ?_ presence
    exact ⟨hlimit, hentries, hkeys, hretired⟩

/-- **An admission stays within the limit after each statement.** -/
theorem admitSteps_bounded (h : Bounded limit bound f) (key : K) (root : Root)
    (call : Except RuntimeError Int32) (presence presence' : K → Int32) :
    Along (Keeping limit (bound + 1)) (fun _ f' => Bounded limit (bound + 1) f')
      (admitSteps key root call presence presence') f := by
  unfold admitSteps
  refine along_bind ((publishSteps_bounded h key root presence).mono (fun _ _ h => h) ?_)
  rintro (error | c) f ⟨h, hstored⟩
  · exact h
  have hcalled : Bounded limit (bound + 1) { f with calls := f.calls + 1 } :=
    ⟨h.ofLimit, h.entries, h.keys, h.held⟩
  refine along_statement_bind hcalled ?_
  cases call with
  | error error =>
    have hleft : Bounded limit (bound + 1) { f with calls := f.calls + 1, locals := [] } :=
      ⟨h.ofLimit, h.entries, h.keys, h.held⟩
    exact along_statement_bind hleft (along_throw hleft)
  | ok status =>
    have hsettled := settleSteps_bounded hcalled (hstored c rfl) status presence'
    exact along_bind_of_ok hsettled fun _ f h => along_pure h

/-! ## Every reachable state -/

/-- A pass adds nothing. -/
theorem count_pruned_le (m : Mutation ident Root) (presence : K → Int32) :
    (m.pruned presence).owners.entries.count ≤ m.owners.entries.count := by
  rw [Dictionary.count, Mutation.pairs_pruned]
  exact List.length_filter_le _ _

/-- No history fills the table beyond its limit. -/
theorem count_le_limit {s : CallbackState ident Root} (hs : (callbackSystem ident Root).Reachable s) :
    s.owners.entries.count ≤ s.owners.limit := by
  refine hs.invariant (I := fun s => s.owners.entries.count ≤ s.owners.limit) ?_ ?_
  · rintro s ⟨capacity, owners, hinit, rfl⟩
    unfold StreamCallbackOwners.init at hinit
    split at hinit
    · cases hinit
      exact Nat.zero_le _
    · cases hinit
  · intro s event s' hs h hstep
    have hstep : s.step event = some s' := hstep
    rw [limit_step hstep]
    cases stepRun_of_step hstep with
    | publish key root presence hidle hrun =>
      have hpruned := count_pruned_le s.mutation presence
      cases hrun with
      | unresolved => exact h
      | exhausted => exact Nat.le_trans hpruned h
      | pruned hget hfull hroom =>
        show ((s.mutation.pruned presence).owners.entries.set key _).count ≤ _
        have hcount := (s.mutation.pruned presence).owners.entries.count_eq key
        rw [Mutation.get?_pruned_of_none hget, Option.toList_none, List.length_nil] at hcount
        have hlimit := s.mutation.pruned_limit presence
        have hlimit : (s.mutation.pruned presence).owners.limit = s.owners.limit := hlimit
        rw [Dictionary.count_set]
        omega
      | published hprevious hroom =>
        show (s.owners.entries.set key _).count ≤ _
        have hcount := s.owners.entries.count_eq key
        rw [Dictionary.count_set]
        cases hget : s.owners.entries.get? key with
        | none =>
          have hfull : s.owners.entries.count ≠ s.owners.limit := hroom hget
          rw [hget, Option.toList_none, List.length_nil] at hcount
          omega
        | some previous =>
          rw [hget, Option.toList_some, List.length_singleton] at hcount
          omega
    | accepted c presence => exact Nat.le_trans (count_pruned_le _ presence) h
    | refused c status presence hpending =>
      have hstored := ((stateInv_reachable hs).calling c hpending).stored
      have hcount := s.owners.entries.count_eq c.key
      have hstored : s.owners.entries.get? c.key = some c.entry := hstored
      rw [hstored, Option.toList_some, List.length_singleton] at hcount
      show (s.mutation.refused c status).owners.entries.count ≤ s.owners.limit
      rw [Mutation.refused_entries, Dictionary.count_restore,
        show s.mutation.owners = s.owners from rfl]
      -- one entry goes, and at most one comes back
      have hone : c.previous.toList.length ≤ 1 := c.previous.length_toList_le
      omega
    | unreceived => exact h
    | forget key =>
      rw [CallbackState.after, Dictionary.count, Mutation.pairs_retire]
      exact Nat.le_trans (List.length_filter_le _ _) h
    | detach => exact Nat.zero_le _

/-- **Reserved storage suffices.** In every reachable state, and whatever its call and the two
pruning passes answer, an admission keeps the table and the scratch list within the limit after
each of its statements, and hands out at most one object more than the limit. So does a `forget`. -/
theorem storage_suffices {s : CallbackState ident Root}
    (hs : (callbackSystem ident Root).Reachable s) (retired : List Nat) :
    let within := fun f : MutationFrame ident Root =>
      f.owners.entries.count ≤ s.owners.limit ∧ f.retiredKeys.length ≤ s.owners.limit ∧
      f.retired.length ≤ retired.length + (s.owners.limit + 1)
    (∀ key root call presence presence', Along (fun _ f' => within f') (fun _ f' => within f')
      (admitSteps key root call presence presence') (.idle ⟨s.owners, retired⟩)) ∧
    ∀ key, Along (fun _ f' => within f') (fun _ f' => within f') (retireSteps key)
      (.idle ⟨s.owners, retired⟩) := by
  intro within
  have hcount := count_le_limit hs
  have hidle : Bounded s.owners.limit (retired.length + s.owners.limit)
      (.idle ⟨s.owners, retired⟩ : MutationFrame ident Root) :=
    ⟨rfl, hcount, Nat.zero_le _, Nat.add_le_add_left hcount _⟩
  have hwithin : ∀ f : MutationFrame ident Root,
      Bounded s.owners.limit (retired.length + s.owners.limit + 1) f → within f :=
    fun f h => ⟨h.entries, h.keys, Nat.le_trans (Nat.le_add_right _ _) h.held⟩
  refine ⟨fun key root call presence presence' => ?_, fun key => ?_⟩
  · exact (admitSteps_bounded hidle key root call presence presence').mono (fun _ f' h => hwithin f' h)
      fun _ f' h => hwithin f' h
  · exact (retireSteps_bounded hidle key).mono (fun _ f' h => hwithin f' h.widen)
      fun _ f' h => hwithin f' h.2.widen

/-- A full table of a lane of capacity one: a received entry, and one whose outcome is open. -/
def fullTable : StreamCallbackOwners (id : Nat → Nat) Nat where
  limit := 2
  entries := (Dictionary.empty.set 7 0).set 8 1
  heap := [⟨10, none, some 0⟩, ⟨20, none, none⟩]

theorem reachable_fullTable :
    (callbackSystem (id : Nat → Nat) Nat).Reachable ⟨fullTable, [], none⟩ := by
  have hcalling : (callbackSystem (id : Nat → Nat) Nat).Reachable
      ⟨fullTable, [], some ⟨8, 1, none⟩⟩ :=
    reachable_oneAdmission.step (a := .publish 8 20 fun _ => 0)
      (show CallbackState.step _ _ = some _ from rfl)
  exact hcalling.step (a := .unreceived) (show CallbackState.step _ _ = some _ from rfl)

/-- A third key is admitted into the full table, whose received entry Core reports absent. -/
theorem storage_suffices_full :
    Along (fun _ f' => f'.owners.entries.count ≤ 2 ∧ f'.retiredKeys.length ≤ 2 ∧
        f'.retired.length ≤ 0 + (2 + 1))
      (fun _ f' => f'.owners.entries.count ≤ 2 ∧ f'.retiredKeys.length ≤ 2 ∧
        f'.retired.length ≤ 0 + (2 + 1))
      (admitSteps 9 30 (.ok 0) (fun _ => Status.badState) fun _ => 0)
      (.idle ⟨fullTable, []⟩ : MutationFrame (id : Nat → Nat) Nat) :=
  (storage_suffices reachable_fullTable []).1 9 30 (.ok 0) (fun _ => Status.badState) fun _ => 0

end CoAkka.Stream
