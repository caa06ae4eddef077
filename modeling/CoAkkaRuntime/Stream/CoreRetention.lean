import CoAkkaRuntime.Stream.OwnersInvariant

/-!
# Stream — the contexts Core retains

Core keeps the callback context of each admitted record and calls into it from its own threads, so
the connector may not release a context that Core retains. Core is an oracle here: an accepted
admission replaces the context of the record, a refused one leaves it, Core may drop records at any
time, and a presence answer is `BAD_STATE` exactly for a record it does not have.

Core knows a record by what the C call tells it, `name key`; the owners compare keys through
`ident`. The invariant holds along runs in which the two agree on the keys that meet
(`separated`), and on all runs when they agree on every key.

* `CoreStep` — what Core may do: answer a call of the owners, or drop records.
* `Held`, `Retained` — the invariant: the context of each record is the root of a stored entry, or
  of the entry behind it in its chain.
* `Held.published`, `Held.accepted`, `Held.refused` — the three moments of an admission.
* `core_contexts_are_held` — with every answer and at every moment, the call itself included.
-/

namespace CoAkka.Stream

section Core

variable {K I N Root : Type}

/-- The owners of one lane together with Core's records. -/
structure CoreLane (ident : K → I) (N Root : Type) where
  callbacks : CallbackState ident Root
  /-- The context Core retains for a record. -/
  records : N → Option Root
  /-- The running call has reached Core's acceptance. -/
  admitted : Bool

/-- Core drops any number of records. -/
def Drops (records records' : N → Option Root) : Prop :=
  ∀ n, records' n = none ∨ records' n = records n

/-- The answers of a pruning pass during which Core's records go from `records` to `records'`. -/
def Answers (name : K → N) (records records' : N → Option Root) (presence : K → Int32) : Prop :=
  ∀ key, (presence key = Status.badState → records' (name key) = none) ∧
    (records (name key) = none → presence key = Status.badState)

/-- What a Core that keeps its records answers. -/
def presenceOf (name : K → N) (records : N → Option Root) (key : K) : Int32 :=
  if (records (name key)).isNone then Status.badState else 0

/-- These answers are truthful. -/
theorem answers_presenceOf (name : K → N) (records : N → Option Root) :
    Answers name records records (presenceOf name records) := by
  intro key
  unfold presenceOf
  cases records (name key) with
  | none => simp
  | some root => simp [Status.badState]

inductive CoreEvent (K Root : Type) where
  | drop
  | accept
  | callback (event : CallbackEvent K Root)

variable {ident : K → I} [DecidableEq I]

/-- Core's contract, and the connector's steps under it. -/
inductive CoreStep (name : K → N) (s : CoreLane ident N Root) :
    CoreEvent K Root → CoreLane ident N Root → Prop where
  | drop (records : N → Option Root) (hdrops : Drops s.records records) :
      CoreStep name s .drop { s with records }
  /-- Core accepts the candidate of the running call, and may drop other records. -/
  | accept (c : Candidate K) (root : Root) (records : N → Option Root)
      (hpending : s.callbacks.pending = some c) (hfirst : s.admitted = false)
      (hroot : s.callbacks.owners.root? c.entry = some root)
      (hrecord : records (name c.key) = some root)
      (hothers : ∀ n ≠ name c.key, records n = none ∨ records n = s.records n) :
      CoreStep name s .accept { s with records, admitted := true }
  | publish (key : K) (root : Root) (presence : K → Int32) (callbacks : CallbackState ident Root)
      (records : N → Option Root)
      (hstep : s.callbacks.step (.publish key root presence) = some callbacks)
      (hdrops : Drops s.records records) (hanswers : Answers name s.records records presence) :
      CoreStep name s (.callback (.publish key root presence)) ⟨callbacks, records, false⟩
  | accepted (presence : K → Int32) (callbacks : CallbackState ident Root)
      (records : N → Option Root) (hadmitted : s.admitted = true)
      (hstep : s.callbacks.step (.received 0 presence) = some callbacks)
      (hdrops : Drops s.records records) (hanswers : Answers name s.records records presence) :
      CoreStep name s (.callback (.received 0 presence)) ⟨callbacks, records, false⟩
  | refused (status : Int32) (presence : K → Int32) (callbacks : CallbackState ident Root)
      (hstatus : status ≠ 0) (hrefused : s.admitted = false)
      (hstep : s.callbacks.step (.received status presence) = some callbacks) :
      CoreStep name s (.callback (.received status presence)) { s with callbacks }
  /-- A call that throws may have been accepted or not. -/
  | unreceived (callbacks : CallbackState ident Root)
      (hstep : s.callbacks.step .unreceived = some callbacks) :
      CoreStep name s (.callback .unreceived) ⟨callbacks, s.records, false⟩
  /-- The owners forget a key after Core has. -/
  | forget (key : K) (callbacks : CallbackState ident Root)
      (hforgotten : s.records (name key) = none)
      (hstep : s.callbacks.step (.forget key) = some callbacks) :
      CoreStep name s (.callback (.forget key)) { s with callbacks }
  /-- The owners let go of everything after Core has destroyed the lane. -/
  | detach (callbacks : CallbackState ident Root) (hdestroyed : ∀ n, s.records n = none)
      (hstep : s.callbacks.step .detach = some callbacks) :
      CoreStep name s (.callback .detach) { s with callbacks }

/-- The connector's part of a step. -/
theorem CoreStep.callbacks_step {name : K → N} {s s' : CoreLane ident N Root}
    {event : CallbackEvent K Root} (h : CoreStep name s (.callback event) s') :
    s.callbacks.step event = some s'.callbacks := by
  cases h <;> assumption

/-- Every run of a lane whose owners `init` accepted, from a Core without records. -/
def coreSystem (ident : K → I) (name : K → N) (Root : Type) :
    Transition.System (CoreLane ident N Root) (CoreEvent K Root) where
  init s := (callbackSystem ident Root).init s.callbacks ∧ (∀ n, s.records n = none) ∧
    s.admitted = false
  step := CoreStep name

/-- The keys stored under the identity of the event's key are the same record for Core. -/
def separated (name : K → N) (s : CoreLane ident N Root) : CoreEvent K Root → Prop
  | .callback (.publish key _ _) | .callback (.forget key) =>
    ∀ p ∈ s.callbacks.owners.entries.pairs, ident p.1 = ident key → name p.1 = name key
  | _ => True

/-- `root` is the root of the entry `id`, or of the one it replaces while its outcome is open. -/
def StreamCallbackOwners.Covers (o : StreamCallbackOwners ident Root) (id : Nat) (root : Root) :
    Prop :=
  o.root? id = some root ∨
    (o.status? id = none ∧ ∃ previous, o.previous? id = some previous ∧
      o.root? previous = some root)

/-- The table covers every context Core retains, under a key of its record. -/
def Held (name : K → N) (o : StreamCallbackOwners ident Root) (records : N → Option Root) : Prop :=
  ∀ n root, records n = some root → ∃ p ∈ o.entries.pairs, name p.1 = n ∧ o.Covers p.2 root

/-- **Core's contexts are held.** -/
structure Retained (name : K → N) (s : CoreLane ident N Root) : Prop where
  state : StateInv s.callbacks
  held : Held name s.callbacks.owners s.records
  /-- The candidate is stored under a key that is its record, which has the candidate's context
  after Core's acceptance and the previous one before. -/
  calling : ∀ c, s.callbacks.pending = some c →
    (∃ p ∈ s.callbacks.owners.entries.pairs, name p.1 = name c.key ∧ p.2 = c.entry) ∧
    ∀ root, s.records (name c.key) = some root →
      if s.admitted then s.callbacks.owners.root? c.entry = some root
      else ∃ previous, c.previous = some previous ∧
        s.callbacks.owners.root? previous = some root

/-! ## Roots stay -/

section Roots

variable {o o' : StreamCallbackOwners ident Root} {id : Nat} {root : Root}

omit [DecidableEq I] in
/-- A covered entry stays covered while it and every root stay what they are. -/
theorem StreamCallbackOwners.Covers.frame (h : o.Covers id root)
    (hframe : o'.heap[id]? = o.heap[id]?)
    (hroots : ∀ q r, o.root? q = some r → o'.root? q = some r) : o'.Covers id root := by
  obtain ⟨hstatus, hprevious⟩ := entry_frame hframe
  rcases h with h | ⟨hopen, q, hq, hr⟩
  · exact .inl (hroots id root h)
  · exact .inr ⟨hstatus.trans hopen, q, hprevious.trans hq, hroots q root hr⟩

variable (m : Mutation ident Root)

/-- No mutation changes the root of an entry. -/
theorem Mutation.root?_published (key : K) (new : Root) (previous : Option Nat)
    (h : m.owners.root? id = some root) :
    (m.published key new previous).owners.root? id = some root := by
  have hlt : id < m.owners.heap.length := by
    by_contra hge
    simp [StreamCallbackOwners.root?, List.getElem?_eq_none (Nat.le_of_not_lt hge)] at h
  rwa [StreamCallbackOwners.root?, m.published_frame key new previous hlt]

theorem Mutation.root?_refused (c : Candidate K) (status : Int32) :
    (m.refused c status).owners.root? id = m.owners.root? id :=
  map_modify (g := fun e => { e with status := some status }) (fun _ => rfl) _ c.entry id

omit [DecidableEq I] in
theorem Mutation.root?_accepted (c : Candidate K) :
    (m.accepted c).owners.root? id = m.owners.root? id :=
  map_modify (g := fun e => { e with status := some 0, previous := none }) (fun _ => rfl) _ c.entry id

end Roots

/-! ## The invariant is kept

By each of the parts of an admission, by a pruning pass, and by what Core drops on its own.
-/

section Kept

variable {name : K → N}

/-- A record that is still there was there. -/
theorem Drops.of_some {records records' : N → Option Root} (h : Drops records records') {n : N}
    {root : Root} (hn : records' n = some root) : records n = some root := by
  rcases h n with hnone | hsame
  · rw [hnone] at hn
    cases hn
  · rwa [← hsame]

omit [DecidableEq I] in
/-- What Core drops need not be held. -/
theorem Held.drop {o : StreamCallbackOwners ident Root} {records records' : N → Option Root}
    (h : Held name o records) (hdrops : Drops records records') : Held name o records' := by
  intro n root hn
  exact h n root (hdrops.of_some hn)

/-- Pruning after answers that fit Core's records keeps what Core still retains. -/
theorem Held.pruned {m : Mutation ident Root} {records records' : N → Option Root}
    (h : Held name m.owners records') {presence : K → Int32}
    (hanswers : Answers name records records' presence) :
    Held name (m.pruned presence).owners records' := by
  intro n root hn
  obtain ⟨p, hp, rfl, hcovers⟩ := h n root hn
  refine ⟨p, Mutation.mem_pairs_pruned.mpr ⟨hp, fun habsent => ?_⟩, rfl, ?_⟩
  · rw [(hanswers p.1).1 habsent.2] at hn
    cases hn
  · refine hcovers.frame (by rw [Mutation.pruned_heap]) fun q r hr => ?_
    rwa [StreamCallbackOwners.root?, Mutation.pruned_heap]

/-- What publishing a candidate stores: the pairs of other identities, and the candidate under a
key of its record. -/
theorem mem_pairs_published {m : Mutation ident Root} {key : K} (root : Root)
    (hseparated : ∀ p ∈ m.owners.entries.pairs, ident p.1 = ident key → name p.1 = name key) :
    (∀ p ∈ m.owners.entries.pairs, ident p.1 ≠ ident key →
      p ∈ (m.published key root (m.owners.entries.get? key)).owners.entries.pairs) ∧
    ∃ p ∈ (m.published key root (m.owners.entries.get? key)).owners.entries.pairs,
      name p.1 = name key ∧ p.2 = m.owners.heap.length := by
  show (∀ p ∈ m.owners.entries.pairs, ident p.1 ≠ ident key →
      p ∈ (m.owners.entries.set key m.owners.heap.length).pairs) ∧
    ∃ p ∈ (m.owners.entries.set key m.owners.heap.length).pairs,
      name p.1 = name key ∧ p.2 = m.owners.heap.length
  by_cases hget : m.owners.entries.get? key = none
  · simp only [Dictionary.mem_pairs_set_of_none hget]
    exact ⟨fun p hp _ => .inl hp, (key, m.owners.heap.length), .inr rfl, rfl, rfl⟩
  · obtain ⟨old, hold⟩ := Option.ne_none_iff_exists'.mp hget
    obtain ⟨key', hkey, hstored⟩ := Dictionary.get?_eq_some_iff.mp hold
    simp only [Dictionary.mem_pairs_set_of_some hget]
    exact ⟨fun p hp hne => .inl ⟨hne, hp⟩, (key', m.owners.heap.length),
      .inr ⟨hkey, rfl, old, hstored⟩, hseparated (key', old) hstored hkey, rfl⟩

/-- The entry a key has when `admit` may go on carries the only context Core can retain for it. -/
theorem root_of_covers {m : Mutation ident Root} {key : K}
    (hprevious : ∀ previous, m.owners.entries.get? key = some previous →
      m.owners.status? previous ≠ none) {p : K × Nat} (hp : p ∈ m.owners.entries.pairs)
    (hident : ident p.1 = ident key) {root : Root} (hcovers : m.owners.Covers p.2 root) :
    m.owners.entries.get? key = some p.2 ∧ m.owners.root? p.2 = some root := by
  have hget : m.owners.entries.get? key = some p.2 :=
    Dictionary.get?_eq_some_iff.mpr ⟨p.1, hident, hp⟩
  exact ⟨hget, hcovers.resolve_right fun hopen => hprevious p.2 hget hopen.1⟩

section Published

variable {m : Mutation ident Root} {records : N → Option Root} (h : Held name m.owners records)
  (hinv : Inv m) {key : K} (root : Root)
  (hprevious : ∀ previous, m.owners.entries.get? key = some previous →
    m.owners.status? previous ≠ none)
include h hinv hprevious

/-- Publishing a candidate keeps the entry that it is to replace behind it. -/
theorem Held.published
    (hseparated : ∀ p ∈ m.owners.entries.pairs, ident p.1 = ident key → name p.1 = name key) :
    Held name (m.published key root (m.owners.entries.get? key)).owners records := by
  obtain ⟨hothers, p', hp', hname', hentry'⟩ := mem_pairs_published root hseparated
  have hroots : ∀ q r, m.owners.root? q = some r →
      (m.published key root (m.owners.entries.get? key)).owners.root? q = some r :=
    fun _ _ hr => m.root?_published key root _ hr
  intro n r hn
  obtain ⟨p, hp, rfl, hcovers⟩ := h n r hn
  by_cases hident : ident p.1 = ident key
  · -- the context of the key's own record: its entry now hangs on the candidate
    obtain ⟨hget, hr⟩ := root_of_covers hprevious hp hident hcovers
    refine ⟨p', hp', hname'.trans (hseparated p hp hident).symm, .inr ?_⟩
    rw [hentry', StreamCallbackOwners.status?, StreamCallbackOwners.previous?, m.published_self]
    exact ⟨rfl, p.2, hget, hroots p.2 r hr⟩
  · have hlt := hinv.lt_of_mem (.inl (List.mem_map.mpr ⟨p, hp, rfl⟩))
    exact ⟨p, hothers p hp hident, rfl,
      hcovers.frame (m.published_frame key root _ hlt) hroots⟩

omit hinv in
/-- Before Core's acceptance the record has the context of the entry that is to be replaced. -/
theorem Held.previous (hname : ∀ k k', name k = name k' → ident k = ident k') (r : Root)
    (hr : records (name key) = some r) :
    ∃ previous, m.owners.entries.get? key = some previous ∧
      (m.published key root (m.owners.entries.get? key)).owners.root? previous = some r := by
  obtain ⟨p, hp, hpkey, hcovers⟩ := h _ r hr
  obtain ⟨hget, hroot⟩ := root_of_covers hprevious hp (hname _ _ hpkey) hcovers
  exact ⟨p.2, hget, m.root?_published key root _ hroot⟩

end Published

section Calling

variable {m : Mutation ident Root} {records : N → Option Root} (h : Held name m.owners records)
  (hinv : Inv m) {c : Candidate K} (hc : Calling m c)
include hinv hc

/-- A pair of another record is not the candidate's, and has another identity. -/
theorem ne_of_name_ne (hname : ∀ k k', name k = name k' → ident k = ident k')
    (hstored : ∃ p ∈ m.owners.entries.pairs, name p.1 = name c.key ∧ p.2 = c.entry)
    {p : K × Nat} (hp : p ∈ m.owners.entries.pairs) (hne : name p.1 ≠ name c.key) :
    ident p.1 ≠ ident c.key ∧ p.2 ≠ c.entry := by
  obtain ⟨p₀, hp₀, hname₀, -⟩ := hstored
  have hident : ident p.1 ≠ ident c.key := by
    intro heq
    rw [Dictionary.eq_of_mem hp hp₀ (heq.trans (hname _ _ hname₀).symm)] at hne
    exact hne hname₀
  refine ⟨hident, fun heq => (hc.notMem hinv).1 ?_⟩
  rw [← heq]
  exact List.mem_map.mpr ⟨p, Dictionary.mem_pairs_remove.mpr ⟨hp, hident⟩, rfl⟩

include h

/-- Core has accepted the candidate: its root is the context of its record. -/
theorem Held.accepted (hname : ∀ k k', name k = name k' → ident k = ident k')
    (hstored : ∃ p ∈ m.owners.entries.pairs, name p.1 = name c.key ∧ p.2 = c.entry)
    (hroot : ∀ root, records (name c.key) = some root → m.owners.root? c.entry = some root) :
    Held name (m.accepted c).owners records := by
  intro n r hn
  obtain ⟨p, hp, rfl, hcovers⟩ := h n r hn
  by_cases heq : name p.1 = name c.key
  · obtain ⟨p₀, hp₀, hname₀, hentry⟩ := hstored
    refine ⟨p₀, hp₀, hname₀.trans heq.symm, .inl ?_⟩
    rw [m.root?_accepted, hentry]
    exact hroot r (by rw [← heq]; exact hn)
  · have hne := (ne_of_name_ne hinv hc hname hstored hp heq).2
    exact ⟨p, hp, rfl, hcovers.frame (m.accepted_frame hne)
      fun q r hr => by rwa [m.root?_accepted]⟩

/-- Core has refused the candidate: the entry it was to replace is current again. -/
theorem Held.refused (hname : ∀ k k', name k = name k' → ident k = ident k') (status : Int32)
    (hstored : ∃ p ∈ m.owners.entries.pairs, name p.1 = name c.key ∧ p.2 = c.entry)
    (hroot : ∀ root, records (name c.key) = some root → ∃ previous, c.previous = some previous ∧
      m.owners.root? previous = some root) :
    Held name (m.refused c status).owners records := by
  intro n r hn
  obtain ⟨p, hp, rfl, hcovers⟩ := h n r hn
  by_cases heq : name p.1 = name c.key
  · -- the record of the refused key: its context is that of the entry that comes back
    obtain ⟨p₀, hp₀, hname₀, -⟩ := hstored
    obtain ⟨previous, hprevious, hr⟩ := hroot r (by rw [← heq]; exact hn)
    refine ⟨(p₀.1, previous), ?_, hname₀.trans heq.symm, .inl (by rwa [m.root?_refused])⟩
    have hget : m.owners.entries.get? c.key ≠ none := by simp [hc.stored]
    unfold Mutation.refused
    rw [hprevious]
    exact (Dictionary.mem_pairs_set_of_some hget _).mpr
      (.inr ⟨hname _ _ hname₀, rfl, p₀.2, hp₀⟩)
  · -- any other record is held by another entry
    obtain ⟨hident, hne⟩ := ne_of_name_ne hinv hc hname hstored hp heq
    refine ⟨p, ?_, rfl, hcovers.frame (m.refused_frame status hne)
      fun q r hr => by rwa [m.root?_refused]⟩
    unfold Mutation.refused
    cases c.previous with
    | none => exact Dictionary.mem_pairs_remove.mpr ⟨hp, hident⟩
    | some previous =>
      have hget : m.owners.entries.get? c.key ≠ none := by simp [hc.stored]
      exact (Dictionary.mem_pairs_set_of_some hget p).mpr (.inl ⟨hident, hp⟩)

end Calling

/-- The first half of `admit`, with the pruning pass it may start with. -/
theorem Held.publish (hname : ∀ k k', name k = name k' → ident k = ident k')
    {m m' : Mutation ident Root} {records records' : N → Option Root}
    (h : Held name m.owners records) (hinv : Inv m) {key : K} {root : Root} {presence : K → Int32}
    {outcome : Except RuntimeError (Candidate K)}
    (hrun : PublishRun m key root presence (outcome, m')) (hdrops : Drops records records')
    (hanswers : Answers name records records' presence)
    (hseparated : ∀ p ∈ m.owners.entries.pairs, ident p.1 = ident key → name p.1 = name key) :
    Held name m'.owners records' ∧ ∀ c, outcome.toOption = some c →
      (∃ p ∈ m'.owners.entries.pairs, name p.1 = name c.key ∧ p.2 = c.entry) ∧
      ∀ r, records' (name c.key) = some r → ∃ previous, c.previous = some previous ∧
        m'.owners.root? previous = some r := by
  have h' := h.drop hdrops
  cases hrun with
  | unresolved => exact ⟨h', fun c hc => by cases hc⟩
  | exhausted => exact ⟨h'.pruned hanswers, fun c hc => by cases hc⟩
  | pruned hget hfull hroom =>
    have hnone := Mutation.get?_pruned_of_none hget presence
    -- a new key, after a pass that asked Core for every received entry
    have hpruned := h'.pruned hanswers
    have hprevious : ∀ previous, (m.pruned presence).owners.entries.get? key = some previous →
        (m.pruned presence).owners.status? previous ≠ none := by simp [hnone]
    have hseparated' : ∀ p ∈ (m.pruned presence).owners.entries.pairs,
        ident p.1 = ident key → name p.1 = name key :=
      fun p hp => hseparated p (Mutation.mem_pairs_pruned.mp hp).1
    have hheld := hpruned.published (hinv.pruned presence) root hprevious hseparated'
    have hctx := hpruned.previous root hprevious hname
    have hstored := (mem_pairs_published root hseparated').2
    rw [hnone] at hheld hctx hstored
    refine ⟨hheld, fun c hc => ?_⟩
    cases hc
    exact ⟨hstored, hctx⟩
  | published hprevious hroom =>
    refine ⟨h'.published hinv root hprevious hseparated, fun c hc => ?_⟩
    cases hc
    exact ⟨(mem_pairs_published root hseparated).2, h'.previous root hprevious hname⟩

/-- **Every step keeps Core's contexts held**, as long as the keys that meet in the table are the
same record. -/
theorem retained_step (hname : ∀ k k', name k = name k' → ident k = ident k')
    {s s' : CoreLane ident N Root} {event : CoreEvent K Root} (h : Retained name s)
    (hseparated : separated name s event) (hstep : CoreStep name s event s') :
    Retained name s' := by
  have hinv := h.state.inv
  cases hstep with
  | drop records hdrops =>
    refine ⟨h.state, h.held.drop hdrops, fun c hpending => ?_⟩
    obtain ⟨hstored, hroot⟩ := h.calling c hpending
    exact ⟨hstored, fun r hr => hroot r (hdrops.of_some hr)⟩
  | accept c root records hpending hfirst hroot hrecord hothers =>
    obtain ⟨⟨p, hp, hpname, hpentry⟩, -⟩ := h.calling c hpending
    refine ⟨h.state, fun n r hn => ?_, fun c' hpending' => ?_⟩
    · have hn : records n = some r := hn
      by_cases heq : n = name c.key
      · -- the record now has the candidate's context
        rw [heq, hrecord, Option.some.injEq] at hn
        exact ⟨p, hp, hpname.trans heq.symm, .inl (by rw [hpentry, hroot, hn])⟩
      · refine h.held n r ?_
        rcases hothers n heq with hnone | hsame
        · rw [hnone] at hn
          cases hn
        · rwa [← hsame]
    · obtain rfl := Option.some.inj (hpending.symm.trans hpending')
      refine ⟨⟨p, hp, hpname, hpentry⟩, fun r hr => ?_⟩
      have hr : records (name c.key) = some r := hr
      rw [if_pos rfl, hroot, ← hr, hrecord]
  | publish key root presence callbacks records hstep hdrops hanswers =>
    have hstate := stateInv_step h.state hstep
    cases stepRun_of_step hstep with
    | publish _ _ _ hidle hrun =>
      obtain ⟨hheld, hcalling⟩ :=
        Held.publish hname h.held hinv hrun hdrops hanswers hseparated
      exact ⟨hstate, hheld, hcalling⟩
  | accepted presence callbacks records hadmitted hstep hdrops hanswers =>
    have hstate := stateInv_step h.state hstep
    cases stepRun_of_step hstep with
    | accepted c _ hpending =>
      obtain ⟨hstored, hroot⟩ := h.calling c hpending
      rw [hadmitted] at hroot
      have hheld := Held.accepted h.held hinv (h.state.calling c hpending) hname hstored hroot
      exact ⟨hstate, (hheld.drop hdrops).pruned hanswers, fun _ hc => by cases hc⟩
    | refused _ _ _ _ hstatus => exact absurd rfl hstatus
  | refused status presence callbacks hstatus hrefused hstep =>
    have hstate := stateInv_step h.state hstep
    cases stepRun_of_step hstep with
    | accepted => exact absurd rfl hstatus
    | refused c _ _ hpending =>
      obtain ⟨hstored, hroot⟩ := h.calling c hpending
      rw [hrefused] at hroot
      exact ⟨hstate, Held.refused h.held hinv (h.state.calling c hpending) hname status hstored
        hroot, fun _ hc => by cases hc⟩
  | unreceived callbacks hstep =>
    have hstate := stateInv_step h.state hstep
    cases stepRun_of_step hstep with
    | unreceived c hpending => exact ⟨hstate, h.held, fun _ hc => by cases hc⟩
  | forget key callbacks hforgotten hstep =>
    have hstate := stateInv_step h.state hstep
    cases stepRun_of_step hstep with
    | forget _ hidle =>
      refine ⟨hstate, fun n r hn => ?_, fun _ hc => by cases hc⟩
      obtain ⟨p, hp, rfl, hcovers⟩ := h.held n r hn
      -- the forgotten identity is the forgotten record
      have hne : ident p.1 ≠ ident key := by
        intro heq
        rw [show s.records (name p.1) = none from hseparated p hp heq ▸ hforgotten] at hn
        cases hn
      refine ⟨p, Mutation.mem_pairs_retire.mpr ⟨hp, hne⟩, rfl, ?_⟩
      refine hcovers.frame (by rw [CallbackState.after, Mutation.retire_heap]; rfl) fun q r hr => ?_
      rwa [CallbackState.after, StreamCallbackOwners.root?, Mutation.retire_heap]
  | detach callbacks hdestroyed hstep =>
    have hstate := stateInv_step h.state hstep
    cases stepRun_of_step hstep with
    | detach hidle =>
      refine ⟨hstate, fun n r hn => ?_, fun _ hc => by cases hc⟩
      rw [hdestroyed n] at hn
      cases hn

/-- Core's contexts are held in every run in which the two notions of a key agree where keys meet.
-/
theorem retained_reachable (hname : ∀ k k', name k = name k' → ident k = ident k')
    {s : CoreLane ident N Root}
    (hs : ((coreSystem ident name Root).restrict (separated name)).Reachable s) :
    Retained name s := by
  refine hs.invariant ?_ ?_
  · rintro s ⟨hcallbacks, hrecords, -⟩
    refine ⟨stateInv_reachable (.init hcallbacks), fun n root hn => ?_, fun c hc => ?_⟩
    · rw [hrecords n] at hn
      cases hn
    · obtain ⟨capacity, owners, -, heq⟩ := hcallbacks
      rw [heq] at hc
      cases hc
  · intro s event s' _ h hstep
    exact retained_step hname h hstep.1 hstep.2

end Kept

/-! ## Core identifies records by key equality

This is the Core that the owners are written for; then no condition on the keys is needed.
-/

/-- The candidate of a call, what it is to replace, and its root. -/
theorem previous_of_publish {s s' : CallbackState ident Root} {key : K} {root : Root}
    {presence : K → Int32} (hstep : s.step (.publish key root presence) = some s')
    {c : Candidate K} (hc : s'.pending = some c) :
    c.key = key ∧ c.previous = s.owners.entries.get? key ∧
      s'.owners.root? c.entry = some root := by
  cases stepRun_of_step hstep with
  | publish _ _ _ hidle hrun =>
    cases hrun with
    | unresolved | exhausted => cases hc
    | pruned hget =>
      cases hc
      refine ⟨rfl, hget.symm, ?_⟩
      simp [StreamCallbackOwners.root?, CallbackState.after, Mutation.published_self]
    | published =>
      cases hc
      refine ⟨rfl, rfl, ?_⟩
      simp [StreamCallbackOwners.root?, CallbackState.after, Mutation.published_self]

/-- Where Core knows its records by the identity of the keys, nothing can disagree. -/
theorem retained_of_reachable {s : CoreLane ident I Root}
    (hs : (coreSystem ident ident Root).Reachable s) : Retained ident s := by
  have hseparated : ∀ (s : CoreLane ident I Root) (event : CoreEvent K Root),
      separated ident s event := by
    intro s event
    unfold separated
    split
    · exact fun p _ h => h
    · exact fun p _ h => h
    · trivial
  exact retained_reachable (fun _ _ h => h) (hs.restrict hseparated)

/-- **No context that Core retains is released.** Core knows a record by the key's identity. In
every reachable state each context it retains is the root of the key's entry or of the entry that
one replaces, and while Core is called the candidate is the key's entry and the entry the key had
before hangs on it. -/
theorem core_contexts_are_held {s : CoreLane ident I Root}
    (hs : (coreSystem ident ident Root).Reachable s) :
    (∀ key root, s.records (ident key) = some root →
      ∃ current, s.callbacks.owners.entries.get? key = some current ∧
        (s.callbacks.owners.root? current = some root ∨
          ∃ previous, s.callbacks.owners.previous? current = some previous ∧
            s.callbacks.owners.root? previous = some root)) ∧
    (∀ c, s.callbacks.pending = some c →
      s.callbacks.owners.entries.get? c.key = some c.entry ∧
      s.callbacks.owners.previous? c.entry = c.previous) ∧
    (∀ key root presence s' c, s.callbacks.step (.publish key root presence) = some s' →
      s'.pending = some c → c.key = key ∧ c.previous = s.callbacks.owners.entries.get? key ∧
        s'.owners.root? c.entry = some root) := by
  have h := retained_of_reachable hs
  refine ⟨fun key root hroot => ?_, fun c hc => ?_,
    fun key root presence s' c hstep hc => previous_of_publish hstep hc⟩
  · obtain ⟨p, hp, hident, hcovers⟩ := h.held _ root hroot
    exact ⟨p.2, Dictionary.get?_eq_some_iff.mpr ⟨p.1, hident, hp⟩, hcovers.imp id And.right⟩
  · have hcalling := h.state.calling c hc
    exact ⟨hcalling.stored, hcalling.previous⟩

end Core

/-- A lane whose Core has accepted an admission of key 7 with the context 10. -/
def coreAdmission : CoreLane (id : Nat → Nat) Nat Nat where
  callbacks :=
    { owners := { limit := 2, entries := Dictionary.empty.set 7 0, heap := [⟨10, none, some 0⟩] }
      retired := []
      pending := none }
  records n := if n = 7 then some 10 else none
  admitted := false

theorem reachable_coreAdmission : (coreSystem (id : Nat → Nat) id Nat).Reachable coreAdmission := by
  have hinit : (coreSystem (id : Nat → Nat) id Nat).Reachable
      ⟨⟨{ limit := 2, entries := .empty, heap := [] }, [], none⟩, fun _ => none, false⟩ :=
    .init ⟨⟨1, _, rfl, rfl⟩, fun _ => rfl, rfl⟩
  have hcalling : (coreSystem (id : Nat → Nat) id Nat).Reachable
      ⟨⟨{ limit := 2, entries := Dictionary.empty.set 7 0, heap := [⟨10, none, none⟩] }, [],
        some ⟨7, 0, none⟩⟩, fun _ => none, false⟩ :=
    hinit.step (.publish 7 10 (fun _ => Status.badState) _ _ rfl (fun _ => .inl rfl)
      fun _ => ⟨fun _ => rfl, fun _ => rfl⟩)
  have haccepted : (coreSystem (id : Nat → Nat) id Nat).Reachable
      ⟨⟨{ limit := 2, entries := Dictionary.empty.set 7 0, heap := [⟨10, none, none⟩] }, [],
        some ⟨7, 0, none⟩⟩, coreAdmission.records, true⟩ :=
    hcalling.step (.accept ⟨7, 0, none⟩ 10 _ rfl rfl rfl rfl fun n hn => .inl (if_neg hn))
  exact haccepted.step (.accepted (presenceOf id coreAdmission.records) _ _ rfl rfl
    (fun _ => .inr rfl) (answers_presenceOf _ _))

/-- The lane after a second admission of key 7 that Core did not accept and whose outcome was not
received. -/
def unreceivedReplacement : CoreLane (id : Nat → Nat) Nat Nat where
  callbacks :=
    { owners :=
        { limit := 2
          entries := (Dictionary.empty.set 7 0).set 7 1
          heap := [⟨10, none, some 0⟩, ⟨20, some 0, none⟩] }
      retired := []
      pending := none }
  records := coreAdmission.records
  admitted := false

theorem reachable_unreceivedReplacement :
    (coreSystem (id : Nat → Nat) id Nat).Reachable unreceivedReplacement := by
  have hcalling : (coreSystem (id : Nat → Nat) id Nat).Reachable
      ⟨{ unreceivedReplacement.callbacks with pending := some ⟨7, 1, some 0⟩ },
        coreAdmission.records, false⟩ :=
    reachable_coreAdmission.step (.publish 7 20 (presenceOf id coreAdmission.records) _ _ rfl
      (fun _ => .inr rfl) (answers_presenceOf _ _))
  exact hcalling.step (.unreceived _ rfl)

/-- Core still has the first context, which the current entry holds as its previous one. -/
theorem core_contexts_are_held_unreceived :
    ∃ current, unreceivedReplacement.callbacks.owners.entries.get? 7 = some current ∧
      (unreceivedReplacement.callbacks.owners.root? current = some 10 ∨
        ∃ previous, unreceivedReplacement.callbacks.owners.previous? current = some previous ∧
          unreceivedReplacement.callbacks.owners.root? previous = some 10) :=
  (core_contexts_are_held reachable_unreceivedReplacement).1 7 10 rfl

end CoAkka.Stream
