import CoAkkaRuntime.Stream.CoreRetention

/-!
# Stream — a Core that does not admit every key

Core checks what it is given before it looks for a record: a key that is not admissible is refused in
every call, so that there is never a record for it. The owners know nothing of this check. They may
hold a candidate of a refused key, or of one whose call was not received, and where such a key has the
identity of an admissible one, the two meet in the table.

As long as no two *admissible* keys share an identity without sharing a record, this harms nobody: to
the owners, such a Core looks like one that knows its records by the identity of their keys
(`reachable_byIdentity`), and what holds for that Core (`retained_of_reachable`) holds here. The
simulation rests on the keys that a pruning pass asks for. They are the stored keys of received
outcomes, and Core has admitted those (`OnlyAdmissible`).

* `reachable_byIdentity` — the simulation, by induction on the run.
* `rooted_of_admissible` — its use: the context of a record that Core has is rooted under its key.
-/

namespace CoAkka.Stream

open Throwing

variable {K I N Root : Type} {ident : K → I} [DecidableEq I] {name : K → N}

/-- Core accepts, and the owners are told to forget, admissible keys only. -/
def refusing (admissible : K → Prop) (s : CoreLane ident N Root) : CoreEvent K Root → Prop
  | .accept => ∀ c, s.callbacks.pending = some c → admissible c.key
  | .callback (.forget key) => admissible key
  | _ => True

/-! ## The keys that a pass asks for -/

section Presence

variable {m : Mutation ident Root} {presence presence' : K → Int32}

/-- Two passes that get the same answers for the stored keys of received outcomes are the same. -/
theorem Mutation.pruned_congr (h : ∀ p ∈ m.owners.entries.pairs, m.owners.status? p.2 ≠ none →
    presence p.1 = presence' p.1) : m.pruned presence = m.pruned presence' := by
  have hkeys : absentKeys m.owners presence = absentKeys m.owners presence' := by
    unfold absentKeys
    congr 1
    refine List.filter_congr fun p hp => decide_eq_decide.mpr ?_
    refine and_congr_right fun hstatus => ?_
    rw [h p hp (Option.isSome_iff_ne_none.mp hstatus)]
  rw [Mutation.pruned, Mutation.pruned, hkeys]

/-- `admit` asks in its passes only. -/
theorem exec_publish_congr (key : K) (root : Root) (h : m.pruned presence = m.pruned presence') :
    exec (publish key root presence) m = exec (publish key root presence') m := by
  unfold publish
  cases hget : m.owners.entries.get? key with
  | some previous =>
    by_cases hstatus : m.owners.status? previous = none
    · simp [hget, hstatus]
    · simp [hget, hstatus]
  | none =>
    by_cases hfull : m.owners.entries.count = m.owners.limit
    · simp [hget, hfull, run_prune, h]
    · simp [hget, hfull]

/-- So does the step that publishes. -/
theorem step_publish_congr {s : CallbackState ident Root} (key : K) (root : Root)
    (h : s.mutation.pruned presence = s.mutation.pruned presence') :
    s.step (.publish key root presence) = s.step (.publish key root presence') := by
  unfold CallbackState.step
  simp only [exec_publish_congr key root h]

end Presence

/-! ## Only admissible keys are received -/

/-- **What Core's check leaves of the table.** A received outcome is stored under an admissible key,
and Core has records of admissible keys only. The candidate of a running call is stored under the key
of the entry it replaces, which was received, or else under its own. -/
structure OnlyAdmissible (admissible : K → Prop) (name : K → N) (s : CoreLane ident N Root) :
    Prop where
  state : StateInv s.callbacks
  records : ∀ n, s.records n ≠ none → ∃ key, admissible key ∧ name key = n
  stored : ∀ p ∈ s.callbacks.owners.entries.pairs, s.callbacks.owners.status? p.2 ≠ none →
    admissible p.1
  calling : ∀ c, s.callbacks.pending = some c → (s.admitted = true → admissible c.key) ∧
    ∀ p ∈ s.callbacks.owners.entries.pairs, p.2 = c.entry →
      admissible p.1 ∨ (c.previous = none ∧ p.1 = c.key)

variable {admissible : K → Prop}

/-- The pairs behind a publication: those of before, and the candidate's. -/
theorem stored_published {m : Mutation ident Root} (hinv : Inv m)
    (hstored : ∀ p ∈ m.owners.entries.pairs, m.owners.status? p.2 ≠ none → admissible p.1)
    (key : K) (root : Root) (hprevious : ∀ previous, m.owners.entries.get? key = some previous →
      m.owners.status? previous ≠ none) :
    ∀ p ∈ (m.published key root (m.owners.entries.get? key)).owners.entries.pairs,
      ((m.published key root (m.owners.entries.get? key)).owners.status? p.2 ≠ none →
        admissible p.1) ∧
      (p.2 = m.owners.heap.length →
        admissible p.1 ∨ (m.owners.entries.get? key = none ∧ p.1 = key)) := by
  -- the candidate's outcome is open
  have hnew : (m.published key root (m.owners.entries.get? key)).owners.status?
      m.owners.heap.length = none := by
    rw [StreamCallbackOwners.status?, Mutation.published_self]
    rfl
  have hold : ∀ p ∈ m.owners.entries.pairs,
      ((m.published key root (m.owners.entries.get? key)).owners.status? p.2 ≠ none →
        admissible p.1) ∧ p.2 ≠ m.owners.heap.length := by
    intro p hp
    have hlt := hinv.lt_of_mem (.inl (List.mem_map.mpr ⟨p, hp, rfl⟩))
    refine ⟨fun hstatus => hstored p hp ?_, Nat.ne_of_lt hlt⟩
    rwa [StreamCallbackOwners.status?, m.published_frame key root _ hlt] at hstatus
  intro p hp
  have hp : p ∈ (m.owners.entries.set key m.owners.heap.length).pairs := hp
  cases hget : m.owners.entries.get? key with
  | none =>
    rw [hget] at hnew hold
    rcases (Dictionary.mem_pairs_set_of_none hget p).mp hp with hp | rfl
    · exact ⟨(hold p hp).1, fun heq => absurd heq (hold p hp).2⟩
    · exact ⟨fun hstatus => absurd hnew hstatus, fun _ => .inr ⟨rfl, rfl⟩⟩
  | some previous =>
    rw [hget] at hnew hold
    have hsome : m.owners.entries.get? key ≠ none := by simp [hget]
    rcases (Dictionary.mem_pairs_set_of_some hsome p).mp hp with ⟨-, hp⟩ | ⟨hident, hentry, old, hp⟩
    · exact ⟨(hold p hp).1, fun heq => absurd heq (hold p hp).2⟩
    · -- the stored key stays, and its outcome was received
      have hstatus : m.owners.status? old ≠ none := by
        refine hprevious old ?_
        exact Dictionary.get?_eq_some_iff.mpr ⟨p.1, hident, hp⟩
      have hkey : admissible p.1 := hstored (p.1, old) hp hstatus
      exact ⟨fun _ => hkey, fun _ => .inl hkey⟩

/-- The candidate of a running call is the only entry whose outcome comes in. -/
theorem OnlyAdmissible.received {s : CoreLane ident N Root} (h : OnlyAdmissible admissible name s)
    {c : Candidate K} (hpending : s.callbacks.pending = some c)
    {o : StreamCallbackOwners ident Root}
    (hframe : ∀ id, id ≠ c.entry → o.heap[id]? = s.callbacks.owners.heap[id]?) {p : K × Nat}
    (hp : p ∈ s.callbacks.owners.entries.pairs) (hstatus : o.status? p.2 ≠ none) :
    admissible p.1 ∨ (c.previous = none ∧ p.1 = c.key) := by
  by_cases hentry : p.2 = c.entry
  · exact (h.calling c hpending).2 p hp hentry
  · refine .inl (h.stored p hp ?_)
    rwa [StreamCallbackOwners.status?, hframe p.2 hentry] at hstatus

/-- Core's records only become fewer when it drops some. -/
theorem OnlyAdmissible.dropped {s : CoreLane ident N Root} (h : OnlyAdmissible admissible name s)
    {records : N → Option Root} (hdrops : Drops s.records records) :
    ∀ n, records n ≠ none → ∃ key, admissible key ∧ name key = n := by
  intro n hn
  refine h.records n fun hnone => hn ?_
  rcases hdrops n with hdrop | hsame
  · exact hdrop
  · rw [hsame, hnone]

/-- The first half of an admission, which stores a candidate or refuses it. -/
theorem OnlyAdmissible.published {s : CoreLane ident N Root} (h : OnlyAdmissible admissible name s)
    {key : K} {root : Root} {presence : K → Int32} {outcome : Except RuntimeError (Candidate K)}
    {m : Mutation ident Root}
    (hrun : PublishRun s.callbacks.mutation key root presence (outcome, m)) :
    (∀ p ∈ m.owners.entries.pairs, m.owners.status? p.2 ≠ none → admissible p.1) ∧
    ∀ c, outcome.toOption = some c → ∀ p ∈ m.owners.entries.pairs, p.2 = c.entry →
      admissible p.1 ∨ (c.previous = none ∧ p.1 = c.key) := by
  have hinv := h.state.inv
  have hpruned : ∀ p ∈ (s.callbacks.mutation.pruned presence).owners.entries.pairs,
      (s.callbacks.mutation.pruned presence).owners.status? p.2 ≠ none → admissible p.1 := by
    intro p hp hstatus
    refine h.stored p (Mutation.mem_pairs_pruned.mp hp).1 ?_
    rwa [StreamCallbackOwners.status?, Mutation.pruned_heap] at hstatus
  cases hrun with
  | unresolved => exact ⟨h.stored, fun c hc => by cases hc⟩
  | exhausted => exact ⟨hpruned, fun c hc => by cases hc⟩
  | pruned hget hfull hroom =>
    have hnone := Mutation.get?_pruned_of_none hget presence
    have hpairs := stored_published (hinv.pruned presence) hpruned key root (by simp [hnone])
    rw [hnone] at hpairs
    refine ⟨fun p hp => (hpairs p hp).1, fun c hc p hp hentry => ?_⟩
    cases hc
    exact ((hpairs p hp).2 hentry).imp id fun h => ⟨rfl, h.2⟩
  | published hprevious hroom =>
    have hpairs := stored_published hinv h.stored key root hprevious
    refine ⟨fun p hp => (hpairs p hp).1, fun c hc p hp hentry => ?_⟩
    cases hc
    exact (hpairs p hp).2 hentry

/-- The candidate's outcome is received, and Core has admitted its key. -/
theorem OnlyAdmissible.accepted {s : CoreLane ident N Root} (h : OnlyAdmissible admissible name s)
    {c : Candidate K} (hpending : s.callbacks.pending = some c) (hadmitted : s.admitted = true)
    (presence : K → Int32) :
    ∀ p ∈ ((s.callbacks.mutation.accepted c).pruned presence).owners.entries.pairs,
      ((s.callbacks.mutation.accepted c).pruned presence).owners.status? p.2 ≠ none →
        admissible p.1 := by
  intro p hp hstatus
  have hp := (Mutation.mem_pairs_pruned.mp hp).1
  rw [StreamCallbackOwners.status?, Mutation.pruned_heap] at hstatus
  rcases h.received hpending (fun _ hne => Mutation.accepted_frame _ hne) hp hstatus with
    hadmissible | ⟨-, hkey⟩
  · exact hadmissible
  · rw [hkey]
    exact (h.calling c hpending).1 hadmitted

/-- A refused candidate goes, and what it replaced comes back under the key that was stored first. -/
theorem OnlyAdmissible.refused {s : CoreLane ident N Root} (h : OnlyAdmissible admissible name s)
    {c : Candidate K} (hpending : s.callbacks.pending = some c) (status : Int32) :
    ∀ p ∈ (s.callbacks.mutation.refused c status).owners.entries.pairs,
      (s.callbacks.mutation.refused c status).owners.status? p.2 ≠ none → admissible p.1 := by
  intro p hp hreceived
  have hcalling := h.state.calling c hpending
  -- a pair of another identity is one of before
  have hother : p ∈ s.callbacks.owners.entries.pairs → ident p.1 ≠ ident c.key →
      admissible p.1 := by
    intro hp hident
    rcases h.received hpending (fun _ hne => s.callbacks.mutation.refused_frame status hne) hp
      hreceived with hadmissible | ⟨-, hkey⟩
    · exact hadmissible
    · exact absurd (congrArg ident hkey) hident
  unfold Mutation.refused at hp
  cases hprevious : c.previous with
  | none =>
    rw [hprevious] at hp
    obtain ⟨hp, hident⟩ := Dictionary.mem_pairs_remove.mp hp
    exact hother hp hident
  | some previous =>
    have hsome : s.callbacks.owners.entries.get? c.key ≠ none := by
      rw [show s.callbacks.owners.entries.get? c.key = some c.entry from hcalling.stored]
      simp
    rw [hprevious] at hp
    rcases (Dictionary.mem_pairs_set_of_some hsome p).mp hp with
      ⟨hident, hp⟩ | ⟨hident, -, old, hold⟩
    · exact hother hp hident
    · -- the candidate is current under this key until now
      have hget : s.callbacks.owners.entries.get? c.key = some old :=
        Dictionary.get?_eq_some_iff.mpr ⟨p.1, hident, hold⟩
      have hentry : old = c.entry := Option.some.inj (hget.symm.trans hcalling.stored)
      rcases (h.calling c hpending).2 _ hold hentry with hadmissible | ⟨hnone, -⟩
      · exact hadmissible
      · rw [hprevious] at hnone
        cases hnone

/-- **Every step of a refusing Core keeps the invariant.** -/
theorem onlyAdmissible_step {s s' : CoreLane ident N Root} {event : CoreEvent K Root}
    (h : OnlyAdmissible admissible name s) (hallowed : refusing admissible s event)
    (hstep : CoreStep name s event s') : OnlyAdmissible admissible name s' := by
  cases hstep with
  | drop records hdrops => exact ⟨h.state, h.dropped hdrops, h.stored, h.calling⟩
  | accept c root records hpending hfirst hroot hrecord hothers =>
    -- Core has one record more, that of the key it has just admitted
    refine ⟨h.state, fun n hn => ?_, h.stored, fun c' hc' => ?_⟩
    · by_cases heq : n = name c.key
      · exact ⟨c.key, hallowed c hpending, heq.symm⟩
      · refine h.records n fun hnone => hn ?_
        rcases hothers n heq with hdrop | hsame
        · exact hdrop
        · exact hsame.trans hnone
    · exact ⟨fun _ => hallowed c' hc', (h.calling c' hc').2⟩
  | publish key root presence callbacks records hstep hdrops hanswers =>
    have hstate := stateInv_step h.state hstep
    cases stepRun_of_step hstep with
    | publish _ _ _ hidle hrun =>
      obtain ⟨hstored, hcalling⟩ := h.published hrun
      exact ⟨hstate, h.dropped hdrops, hstored, fun c hc =>
        ⟨fun hadmitted => absurd hadmitted Bool.false_ne_true, hcalling c hc⟩⟩
  | accepted presence callbacks records hadmitted hstep hdrops hanswers =>
    have hstate := stateInv_step h.state hstep
    cases stepRun_of_step hstep with
    | accepted c _ hpending =>
      exact ⟨hstate, h.dropped hdrops, h.accepted hpending hadmitted presence,
        fun _ hc => by cases hc⟩
    | refused c status _ hpending hstatus => exact absurd rfl hstatus
  | refused status presence callbacks hstatus hrefused hstep =>
    have hstate := stateInv_step h.state hstep
    cases stepRun_of_step hstep with
    | accepted => exact absurd rfl hstatus
    | refused c _ _ hpending _ =>
      exact ⟨hstate, h.records, h.refused hpending status, fun _ hc => by cases hc⟩
  | unreceived callbacks hstep =>
    have hstate := stateInv_step h.state hstep
    cases stepRun_of_step hstep with
    | unreceived c hpending => exact ⟨hstate, h.records, h.stored, fun _ hc => by cases hc⟩
  | forget key callbacks hforgotten hstep =>
    have hstate := stateInv_step h.state hstep
    cases stepRun_of_step hstep with
    | forget _ hidle =>
      refine ⟨hstate, h.records, fun p hp hstatus => ?_, fun _ hc => by cases hc⟩
      refine h.stored p (Mutation.mem_pairs_retire.mp hp).1 ?_
      rwa [CallbackState.after, StreamCallbackOwners.status?, Mutation.retire_heap] at hstatus
  | detach callbacks hdestroyed hstep =>
    have hstate := stateInv_step h.state hstep
    cases stepRun_of_step hstep with
    | detach hidle =>
      exact ⟨hstate, h.records, fun p hp => absurd hp List.not_mem_nil, fun _ hc => by cases hc⟩

theorem onlyAdmissible_init {s : CoreLane ident N Root}
    (hs : (coreSystem ident name Root).init s) : OnlyAdmissible admissible name s := by
  obtain ⟨⟨capacity, owners, hinit, hcallbacks⟩, hrecords, -⟩ := hs
  have hempty : owners.entries.pairs = [] := by
    unfold StreamCallbackOwners.init at hinit
    split at hinit
    · cases hinit
      rfl
    · cases hinit
  refine ⟨stateInv_reachable (.init ⟨capacity, owners, hinit, hcallbacks⟩),
    fun n hn => absurd (hrecords n) hn, fun p hp => ?_, fun c hc => ?_⟩
  · rw [hcallbacks, hempty] at hp
    exact absurd hp List.not_mem_nil
  · rw [hcallbacks] at hc
    cases hc

/-- The invariant holds in every run over such a Core. -/
theorem onlyAdmissible_reachable {s : CoreLane ident N Root}
    (hs : ((coreSystem ident name Root).restrict (refusing admissible)).Reachable s) :
    OnlyAdmissible admissible name s := by
  refine hs.invariant (I := OnlyAdmissible admissible name) (fun s hinit => ?_) ?_
  · exact onlyAdmissible_init hinit
  · intro s event s' _ h ⟨hallowed, hstep⟩
    exact onlyAdmissible_step h hallowed hstep

/-! ## Records by identity -/

open Classical in
/-- Core's records, each under the identity of the admissible key it is for. -/
noncomputable def byIdentity (ident : K → I) (name : K → N) (admissible : K → Prop)
    (records : N → Option Root) (i : I) : Option Root :=
  if h : ∃ key, admissible key ∧ ident key = i then records (name h.choose) else none

section Simulation

variable (hseparated : ∀ k k', admissible k → admissible k' → ident k = ident k' → name k = name k')
  {records records' : N → Option Root}
include hseparated

omit [DecidableEq I] in
/-- An admissible key finds its own record under its identity. -/
theorem byIdentity_of_admissible (records : N → Option Root) {key : K} (hkey : admissible key) :
    byIdentity ident name admissible records (ident key) = records (name key) := by
  have h : ∃ key', admissible key' ∧ ident key' = ident key := ⟨key, hkey, rfl⟩
  rw [byIdentity, dif_pos h, hseparated _ _ h.choose_spec.1 hkey h.choose_spec.2]

omit [DecidableEq I] hseparated in
theorem byIdentity_eq_none {i : I} (h : ¬ ∃ key, admissible key ∧ ident key = i) :
    byIdentity ident name admissible records i = none := by
  rw [byIdentity, dif_neg h]

omit [DecidableEq I] in
/-- What Core drops, it drops under the identity too. -/
theorem drops_byIdentity (h : Drops records records') :
    Drops (byIdentity ident name admissible records) (byIdentity ident name admissible records') := by
  intro i
  by_cases hi : ∃ key, admissible key ∧ ident key = i
  · obtain ⟨key, hkey, rfl⟩ := hi
    rw [byIdentity_of_admissible hseparated _ hkey, byIdentity_of_admissible hseparated _ hkey]
    exact h (name key)
  · exact .inl (byIdentity_eq_none hi)

open Classical in
omit [DecidableEq I] in
/-- Answers for the admissible keys can be completed to answers for all identities. -/
theorem exists_answers_byIdentity {presence : K → Int32} (hdrops : Drops records records')
    (hanswers : Answers name records records' presence) :
    ∃ presence', (∀ key, admissible key → presence' key = presence key) ∧
      Answers ident (byIdentity ident name admissible records)
        (byIdentity ident name admissible records') presence' := by
  refine ⟨fun key => if admissible key then presence key else
      if byIdentity ident name admissible records' (ident key) = none then Status.badState else 0,
    fun key hkey => if_pos hkey, fun key => ?_⟩
  by_cases hkey : admissible key
  · simp only [if_pos hkey, byIdentity_of_admissible hseparated _ hkey]
    exact hanswers key
  · simp only [if_neg hkey]
    by_cases hnone : byIdentity ident name admissible records' (ident key) = none
    · simp [hnone]
    · refine ⟨fun hbad => ?_, fun hbefore => ?_⟩
      · rw [if_neg hnone] at hbad
        exact absurd hbad (by decide)
      · rcases drops_byIdentity hseparated hdrops (ident key) with hdrop | hsame
        · exact absurd hdrop hnone
        · exact absurd (hsame.trans hbefore) hnone

/-- The lane as it looks to owners who know a record by the identity of its key. -/
noncomputable def CoreLane.byIdentity (name : K → N) (admissible : K → Prop)
    (s : CoreLane ident N Root) : CoreLane ident I Root :=
  ⟨s.callbacks, Stream.byIdentity ident name admissible s.records, s.admitted⟩

/-- **One step, by identity.** -/
theorem coreStep_byIdentity (hname : ∀ k k', name k = name k' → ident k = ident k')
    {s s' : CoreLane ident N Root} {event : CoreEvent K Root}
    (h : OnlyAdmissible admissible name s) (hallowed : refusing admissible s event)
    (hstep : CoreStep name s event s') :
    ∃ event', CoreStep ident (s.byIdentity name admissible) event'
      (s'.byIdentity name admissible) := by
  cases hstep with
  | drop records hdrops => exact ⟨.drop, .drop _ (drops_byIdentity hseparated hdrops)⟩
  | accept c root records hpending hfirst hroot hrecord hothers =>
    refine ⟨.accept, .accept c root _ hpending hfirst hroot ?_ fun i hi => ?_⟩
    · rw [byIdentity_of_admissible hseparated _ (hallowed c hpending)]
      exact hrecord
    · by_cases hkey : ∃ key, admissible key ∧ ident key = i
      · obtain ⟨key, hkey, rfl⟩ := hkey
        have hne : name key ≠ name c.key := fun heq => hi (hname _ _ heq)
        show Stream.byIdentity ident name admissible records (ident key) = none ∨
          Stream.byIdentity ident name admissible records (ident key)
            = Stream.byIdentity ident name admissible s.records (ident key)
        rw [byIdentity_of_admissible hseparated _ hkey, byIdentity_of_admissible hseparated _ hkey]
        exact hothers (name key) hne
      · exact .inl (byIdentity_eq_none hkey)
  | publish key root presence callbacks records hstep hdrops hanswers =>
    obtain ⟨presence', hsame, hanswers'⟩ := exists_answers_byIdentity hseparated hdrops hanswers
    refine ⟨.callback (.publish key root presence'),
      .publish key root presence' callbacks _ ?_ (drops_byIdentity hseparated hdrops) hanswers'⟩
    -- the pass asks for received keys only, and for these the two Cores answer alike
    have hpruned : s.callbacks.mutation.pruned presence' = s.callbacks.mutation.pruned presence :=
      Mutation.pruned_congr fun p hp hstatus => hsame p.1 (h.stored p hp hstatus)
    exact (step_publish_congr key root hpruned).trans hstep
  | accepted presence callbacks records hadmitted hstep hdrops hanswers =>
    obtain ⟨presence', hsame, hanswers'⟩ := exists_answers_byIdentity hseparated hdrops hanswers
    refine ⟨.callback (.received 0 presence'),
      .accepted presence' callbacks _ hadmitted ?_ (drops_byIdentity hseparated hdrops) hanswers'⟩
    obtain ⟨c, hpending, heq⟩ := Option.map_eq_some_iff.mp hstep
    have hpruned : (s.callbacks.mutation.accepted c).pruned presence'
        = (s.callbacks.mutation.accepted c).pruned presence := by
      refine Mutation.pruned_congr fun p hp hstatus => hsame p.1 ?_
      -- the candidate is received by now, and its key was admitted
      rcases h.received hpending (fun _ hne => Mutation.accepted_frame _ hne) hp hstatus with
        hadmissible | ⟨-, hkey⟩
      · exact hadmissible
      · rw [hkey]
        exact (h.calling c hpending).1 hadmitted
    refine Option.map_eq_some_iff.mpr ⟨c, hpending, ?_⟩
    rw [← heq, run_settle, run_settle, if_pos rfl, if_pos rfl]
    exact congrArg (fun m => CallbackState.after m none) hpruned
  | refused status presence callbacks hstatus hrefused hstep =>
    exact ⟨_, .refused status presence callbacks hstatus hrefused hstep⟩
  | unreceived callbacks hstep => exact ⟨_, .unreceived callbacks hstep⟩
  | forget key callbacks hforgotten hstep =>
    refine ⟨_, .forget key callbacks ?_ hstep⟩
    exact (byIdentity_of_admissible hseparated _ hallowed).trans hforgotten
  | detach callbacks hdestroyed hstep =>
    refine ⟨_, .detach callbacks (fun i => ?_) hstep⟩
    by_cases hi : ∃ key, admissible key ∧ ident key = i
    · obtain ⟨key, hkey, rfl⟩ := hi
      exact (byIdentity_of_admissible hseparated _ hkey).trans (hdestroyed (name key))
    · exact byIdentity_eq_none hi

/-- **The simulation.** A Core that admits separated keys only is, to the owners, one that knows its
records by identity. -/
theorem reachable_byIdentity (hname : ∀ k k', name k = name k' → ident k = ident k')
    {s : CoreLane ident N Root}
    (hs : ((coreSystem ident name Root).restrict (refusing admissible)).Reachable s) :
    (coreSystem ident ident Root).Reachable (s.byIdentity name admissible) := by
  induction hs with
  | init hinit =>
    obtain ⟨hcallbacks, hrecords, hadmitted⟩ := hinit
    refine .init ⟨hcallbacks, fun i => ?_, hadmitted⟩
    by_cases hi : ∃ key, admissible key ∧ ident key = i
    · obtain ⟨key, hkey, rfl⟩ := hi
      exact (byIdentity_of_admissible hseparated _ hkey).trans (hrecords (name key))
    · exact byIdentity_eq_none hi
  | step hs hstep ih =>
    obtain ⟨event', hstep'⟩ := coreStep_byIdentity hseparated hname (onlyAdmissible_reachable hs)
      hstep.1 hstep.2
    exact ih.step hstep'

end Simulation

/-! ## Roots -/

/-- `root` is in the table for `key`, in its entry or in the one that this replaces while its outcome
is open, and has not been handed to a caller for release. -/
def Rooted (s : CallbackState ident Root) (key : K) (root : Root) : Prop :=
  ∃ current entry, s.owners.entries.get? key = some current ∧
    (entry = current ∨ s.owners.status? current = none ∧ s.owners.previous? current = some entry) ∧
    s.owners.root? entry = some root ∧ entry ∉ s.retired

omit [DecidableEq I] in
/-- What the table holds is not in a list for release. -/
theorem Inv.notMem_retired {m : Mutation ident Root} (h : Inv m) {current entry : Nat}
    (hcurrent : current ∈ m.owners.entries.values)
    (hentry : entry = current ∨
      m.owners.status? current = none ∧ m.owners.previous? current = some entry) :
    entry ∉ m.retired := by
  intro hretired
  have hplaces := h.places entry
  have hcount : 0 < m.owners.tally m.owners.entries.values entry := by
    unfold StreamCallbackOwners.tally
    rcases hentry with rfl | ⟨hstatus, hprevious⟩
    · exact Nat.add_pos_left (List.count_pos_iff.mpr hcurrent) _
    · refine Nat.add_pos_right _ (List.count_pos_iff.mpr (List.mem_flatMap.mpr ⟨_, hcurrent, ?_⟩))
      simp [StreamCallbackOwners.chained, hstatus, hprevious]
  have hlist : 0 < m.owners.tally m.retired entry :=
    Nat.add_pos_left (List.count_pos_iff.mpr hretired) _
  split at hplaces <;> omega

/-- **Every context that Core retains for an admissible key is rooted.** -/
theorem rooted_of_admissible (hname : ∀ k k', name k = name k' → ident k = ident k')
    (hseparated : ∀ k k', admissible k → admissible k' → ident k = ident k' → name k = name k')
    {s : CoreLane ident N Root}
    (hs : ((coreSystem ident name Root).restrict (refusing admissible)).Reachable s) {key : K}
    (hkey : admissible key) {root : Root} (hroot : s.records (name key) = some root) :
    Rooted s.callbacks key root := by
  have h := retained_of_reachable (reachable_byIdentity hseparated hname hs)
  have hrecord : byIdentity ident name admissible s.records (ident key) = some root := by
    rw [byIdentity_of_admissible hseparated _ hkey, hroot]
  obtain ⟨p, hp, hident, hcovers⟩ := h.held _ root hrecord
  have hcurrent : p.2 ∈ s.callbacks.owners.entries.values := List.mem_map.mpr ⟨p, hp, rfl⟩
  have hget : s.callbacks.owners.entries.get? key = some p.2 :=
    Dictionary.get?_eq_some_iff.mpr ⟨p.1, hident, hp⟩
  have hinv : Inv s.callbacks.mutation := h.state.inv
  rcases hcovers with hroot | ⟨hopen, previous, hprevious, hroot⟩
  · exact ⟨p.2, p.2, hget, .inl rfl, hroot, hinv.notMem_retired hcurrent (.inl rfl)⟩
  · exact ⟨p.2, previous, hget, .inr ⟨hopen, hprevious⟩, hroot,
      hinv.notMem_retired hcurrent (.inr ⟨hopen, hprevious⟩)⟩

end CoAkka.Stream
