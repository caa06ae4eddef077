import CoAkkaRuntime.Stream.AdmitSteps

/-!
# Stream — how an admission ends

When `admit` refuses to call Core, and what it leaves of the owners when Core refuses the candidate
or the call throws. A pruning pass that ran before the refusal has removed nothing: had it, there
would have been room.

* `Unresolved`, `Exhausted` — the conditions of the two refusals.
* `Published` — what the first half of `admit` does, up to the call; `published_of_exec` its
  inversion.
* `RefusedLeaves`, `ThrownLeaves` — the table and the retired list afterwards, for a refusal by Core
  and for a call that throws.
* `admit_outcomes` — all of it, with the accepted case, in every reachable state.
-/

namespace CoAkka.Stream

open Throwing Steps

variable {K I Root : Type} {ident : K → I} [DecidableEq I]

namespace StreamCallbackOwners

variable (o : StreamCallbackOwners ident Root) (key : K)

/-- The outcome of the key's entry has not been received. -/
def Unresolved : Prop := ∃ entry, o.entries.get? key = some entry ∧ o.status? entry = none

/-- The key is new and the table is full: the admission starts with a pruning pass. -/
def Full : Prop := o.entries.get? key = none ∧ o.entries.count = o.limit

instance : Decidable (o.Full key) := inferInstanceAs (Decidable (_ ∧ _))

/-- The table is full, and no entry of it is known to be gone from Core. -/
def Exhausted (presence : K → Int32) : Prop :=
  o.Full key ∧ ∀ p ∈ o.entries.pairs, o.status? p.2 ≠ none → presence p.1 ≠ Status.badState

/-- The table after the pruning pass an admission may start with. -/
def remaining (presence : K → Int32) : Dictionary ident Nat :=
  if o.Full key then
    { pairs := o.entries.pairs.filter fun p =>
        ¬ ((o.status? p.2).isSome ∧ presence p.1 = Status.badState)
      nodup := o.entries.nodup.sublist (List.filter_sublist.map _) }
  else
    o.entries

/-- The entries that pass hands out. -/
def removed (presence : K → Int32) : List Nat :=
  if o.Full key then (o.absentPairs presence).map Prod.snd else []

end StreamCallbackOwners

/-! ## Publication -/

section Publish

variable {m : Mutation ident Root} {key : K} {presence : K → Int32}

/-- A pass that finds nothing to remove changes nothing. -/
theorem Mutation.pruned_of_exhausted (h : m.owners.Exhausted key presence) :
    m.pruned presence = m := by
  have hnone : absentKeys m.owners presence = [] := by
    refine List.eq_nil_iff_forall_not_mem.mpr fun key hkey => ?_
    obtain ⟨id, hstored, hstatus, habsent⟩ := mem_absentKeys.mp hkey
    exact h.2 _ hstored hstatus habsent
  rw [pruned, hnone, List.foldl_nil]

/-- A full table has room after a pass if and only if the pass removed something. -/
theorem room_iff (hfull : m.owners.Full key) :
    (m.pruned presence).owners.entries.count < (m.pruned presence).owners.limit
      ↔ ¬ m.owners.Exhausted key presence := by
  rw [Mutation.pruned_limit, ← hfull.2, Dictionary.count, Dictionary.count, Mutation.pairs_pruned]
  rw [Nat.lt_iff_le_and_ne, and_iff_right (List.length_filter_le _ _), Ne, not_congr]
  -- no room is left exactly where the pass kept every pair
  rw [List.length_filter_eq_length_iff]
  constructor
  · intro h
    refine ⟨hfull, fun p hp hstatus habsent => ?_⟩
    have hkept := h p hp
    rw [decide_eq_true_eq] at hkept
    exact hkept ⟨Option.isSome_iff_ne_none.mpr hstatus, habsent⟩
  · rintro ⟨-, h⟩ p hp
    rw [decide_eq_true_eq]
    exact fun habsent => h p hp (Option.isSome_iff_ne_none.mp habsent.1) habsent.2

/-- The owners an admission publishes its candidate in. -/
def Mutation.readied (m : Mutation ident Root) (key : K) (presence : K → Int32) :
    Mutation ident Root :=
  if m.owners.Full key then m.pruned presence else m

/-- The pass that makes room changes the table and what is handed out, and nothing of any entry. -/
theorem Mutation.readied_spec (m : Mutation ident Root) (key : K) (presence : K → Int32) :
    (m.readied key presence).owners.entries = m.owners.remaining key presence ∧
    (m.readied key presence).owners.heap = m.owners.heap ∧
    (m.readied key presence).owners.limit = m.owners.limit ∧
    (m.readied key presence).retired = m.retired ++ m.owners.removed key presence ∧
    (m.readied key presence).owners.entries.get? key = m.owners.entries.get? key := by
  unfold readied StreamCallbackOwners.remaining StreamCallbackOwners.removed
  by_cases hfull : m.owners.Full key
  · rw [if_pos hfull, if_pos hfull, if_pos hfull]
    exact ⟨Dictionary.eq_of_pairs (m.pairs_pruned presence), m.pruned_heap presence,
      m.pruned_limit presence, m.retired_pruned presence,
      (get?_pruned_of_none hfull.1 presence).trans hfull.1.symm⟩
  · rw [if_neg hfull, if_neg hfull, if_neg hfull]
    exact ⟨rfl, rfl, rfl, (List.append_nil _).symm, rfl⟩

/-- How an admission gets to its call. -/
inductive Published (m : Mutation ident Root) (key : K) (root : Root) (presence : K → Int32) :
    Except RuntimeError (Candidate K) × Mutation ident Root → Prop where
  | unresolved (message : String) (h : m.owners.Unresolved key) :
      Published m key root presence (.error (.contractViolation message), m)
  | exhausted (message : String) (h : m.owners.Exhausted key presence) :
      Published m key root presence (.error (.resourceLimit message), m)
  | published (hresolved : ¬ m.owners.Unresolved key)
      (hroom : ¬ m.owners.Exhausted key presence) :
      Published m key root presence
        (.ok ⟨key, m.owners.heap.length, m.owners.entries.get? key⟩,
          (m.readied key presence).published key root (m.owners.entries.get? key))

/-- **How an admission gets to its call**, by conditions on the table alone. -/
theorem published_of_exec (m : Mutation ident Root) (key : K) (root : Root) (presence : K → Int32) :
    Published m key root presence (exec (publish key root presence) m) := by
  have hrun := exec_publish key root presence m
  generalize exec (publish key root presence) m = out at hrun
  cases hrun with
  | unresolved previous hget hstatus => exact .unresolved _ ⟨previous, hget, hstatus⟩
  | exhausted hget hfull hstill =>
    have hexhausted : m.owners.Exhausted key presence := by
      by_contra hnot
      exact hstill ((room_iff ⟨hget, hfull⟩).mpr hnot)
    -- no room after the pass means that it removed nothing
    rw [Mutation.pruned_of_exhausted hexhausted]
    exact .exhausted _ hexhausted
  | pruned hget hfull hroom =>
    have hresolved : ¬ m.owners.Unresolved key := by
      rintro ⟨entry, hentry, -⟩
      rw [hget] at hentry
      cases hentry
    have hpublished : Published m key root presence _ :=
      .published hresolved ((room_iff ⟨hget, hfull⟩).mp hroom)
    rw [Mutation.readied, if_pos ⟨hget, hfull⟩, hget] at hpublished
    rwa [Mutation.pruned_heap]
  | published hprevious hroom =>
    have hresolved : ¬ m.owners.Unresolved key := by
      rintro ⟨entry, hentry, hstatus⟩
      exact hprevious entry hentry hstatus
    -- no pass was made: the key is stored, or a place was free
    have hnotFull : ¬ m.owners.Full key := fun hfull => hroom hfull.1 hfull.2
    have hpublished : Published m key root presence _ :=
      .published hresolved fun h => hnotFull h.1
    rwa [Mutation.readied, if_neg hnotFull] at hpublished

end Publish

/-! ## The outcomes

Refused before the call, thrown by it, or decided by its status.
-/

/-- What is left when Core refused the candidate. -/
structure RefusedLeaves (m : Mutation ident Root) (key : K) (root : Root) (presence : K → Int32)
    (status : Int32) (m' : Mutation ident Root) : Prop where
  entries : m'.owners.entries = m.owners.remaining key presence
  previous : m'.owners.entries.get? key = m.owners.entries.get? key
  /-- Every entry of before is as it was. -/
  entry : ∀ id < m.owners.heap.length, m'.owners.heap[id]? = m.owners.heap[id]?
  candidate : m'.owners.heap[m.owners.heap.length]?
    = some ⟨root, m.owners.entries.get? key, some status⟩
  limit : m'.owners.limit = m.owners.limit
  retired : m'.retired = m.retired ++ m.owners.removed key presence ++ [m.owners.heap.length]

/-- What is left when the call threw. -/
structure ThrownLeaves (m : Mutation ident Root) (key : K) (root : Root) (presence : K → Int32)
    (m' : Mutation ident Root) : Prop where
  entries : m'.owners.entries = (m.owners.remaining key presence).set key m.owners.heap.length
  heap : m'.owners.heap = m.owners.heap ++ [⟨root, m.owners.entries.get? key, none⟩]
  limit : m'.owners.limit = m.owners.limit
  retired : m'.retired = m.retired ++ m.owners.removed key presence

section Leaves

variable (m : Mutation ident Root) (key : K) (root : Root) (presence : K → Int32)

/-- A call that throws leaves the candidate with an open outcome. -/
theorem thrownLeaves_published : ThrownLeaves m key root presence
    ((m.readied key presence).published key root (m.owners.entries.get? key)) := by
  obtain ⟨hentries, hheap, hlimit, hretired, -⟩ := m.readied_spec key presence
  refine ⟨?_, ?_, hlimit, hretired⟩
  · show (m.readied key presence).owners.entries.set key (m.readied key presence).owners.heap.length = _
    rw [hentries, hheap]
  · show (m.readied key presence).owners.heap ++ _ = _
    rw [hheap]

/-- A refusal undoes the publication. -/
theorem refusedLeaves_refused (status : Int32) : RefusedLeaves m key root presence status
    (((m.readied key presence).published key root (m.owners.entries.get? key)).refused
      ⟨key, m.owners.heap.length, m.owners.entries.get? key⟩ status) := by
  obtain ⟨hentries, hheap, hlimit, hretired, hget⟩ := m.readied_spec key presence
  have hrestored : (((m.readied key presence).published key root (m.owners.entries.get? key)).refused
      ⟨key, m.owners.heap.length, m.owners.entries.get? key⟩ status).owners.entries
      = m.owners.remaining key presence := by
    rw [← hentries, Mutation.refused_entries, ← hget]
    exact Dictionary.restore_set _ key _
  refine ⟨hrestored, ?_, fun id hid => ?_, ?_, hlimit, ?_⟩
  · rw [hrestored, ← hentries, hget]
  · rw [Mutation.refused_frame _ _ (Nat.ne_of_lt hid), Mutation.published_frame _ key root _
      (by rwa [hheap]), hheap]
  · have hself := (m.readied key presence).published_self key root (m.owners.entries.get? key)
    rw [hheap] at hself
    simp [Mutation.refused, hself]
  · show (m.readied key presence).retired ++ [_] = _
    rw [hretired]

end Leaves

/-- What an admission does, statement by statement, from one end to the other. -/
inductive AdmitRun (m : Mutation ident Root) (key : K) (root : Root)
    (call : Except RuntimeError Int32) (presence presence' : K → Int32) :
    Except RuntimeError Int32 × MutationFrame ident Root → Prop where
  | unresolved (message : String) (h : m.owners.Unresolved key) :
      AdmitRun m key root call presence presence' (.error (.contractViolation message), .idle m)
  | exhausted (message : String) (h : m.owners.Exhausted key presence) :
      AdmitRun m key root call presence presence' (.error (.resourceLimit message), .idle m)
  | thrown (error : RuntimeError) (hresolved : ¬ m.owners.Unresolved key)
      (hroom : ¬ m.owners.Exhausted key presence) (hcall : call = .error error) :
      AdmitRun m key root call presence presence' (.error error,
        { MutationFrame.idle ((m.readied key presence).published key root
          (m.owners.entries.get? key)) with calls := 1 })
  | received (status : Int32) (hresolved : ¬ m.owners.Unresolved key)
      (hroom : ¬ m.owners.Exhausted key presence) (hcall : call = .ok status) :
      AdmitRun m key root call presence presence' (.ok status,
        { MutationFrame.idle ((settle ⟨key, m.owners.heap.length, m.owners.entries.get? key⟩ status
          presence').run ((m.readied key presence).published key root
            (m.owners.entries.get? key))).2 with calls := 1 })

/-- An admission from one end to the other. -/
theorem admitRun_of_run (m : Mutation ident Root) (key : K) (root : Root)
    (call : Except RuntimeError Int32) (presence presence' : K → Int32) :
    AdmitRun m key root call presence presence'
      ((admitSteps key root call presence presence').run (.idle m)) := by
  have hpublished := published_of_exec m key root presence
  have hsame : (MutationFrame.idle m).mutation = m := rfl
  rw [run_admitSteps key root call presence presence' rfl rfl, hsame, exec_admitRoot]
  generalize exec (publish key root presence) m = out at hpublished
  cases hpublished with
  | unresolved message h => exact .unresolved message h
  | exhausted message h => exact .exhausted message h
  | published hresolved hroom =>
    cases call with
    | error error => exact .thrown error hresolved hroom rfl
    | ok status => exact .received status hresolved hroom rfl

/-- What an admission that gets to its call leaves, by what the call does. -/
def Called (m : Mutation ident Root) (key : K) (root : Root) (presence : K → Int32)
    (call outcome : Except RuntimeError Int32) (m' : Mutation ident Root) : Prop :=
  outcome = call ∧ match call with
    | .ok status => status ≠ 0 → RefusedLeaves m key root presence status m'
    | .error _ => ThrownLeaves m key root presence m'

/-- **Refused admissions leave ownership as it was.** An admission throws before its call exactly
when the key's entry is unresolved, or the key is new and no entry of a full table is known to be
gone; it then changes nothing. Otherwise it calls Core once; a candidate Core refuses leaves the
table and every entry as they were, but for the resolved entries of a full table that were reported
absent, and a call that throws leaves the candidate as well. -/
theorem admit_outcomes (m : Mutation ident Root) (key : K) (root : Root)
    (call : Except RuntimeError Int32) (presence presence' : K → Int32) :
    let out := (admitSteps key root call presence presence').run (.idle m)
    ((∃ message, out.1 = .error (.contractViolation message)) ∧ out.2.calls = 0
      ↔ m.owners.Unresolved key) ∧
    ((∃ message, out.1 = .error (.resourceLimit message)) ∧ out.2.calls = 0
      ↔ m.owners.Exhausted key presence) ∧
    (m.owners.Unresolved key ∨ m.owners.Exhausted key presence → out.2 = .idle m) ∧
    (¬ m.owners.Unresolved key → ¬ m.owners.Exhausted key presence →
      out.2.calls = 1 ∧ Called m key root presence call out.1 out.2.mutation) := by
  -- a key that is stored needs no room
  have hdisjoint : m.owners.Unresolved key → ¬ m.owners.Exhausted key presence := by
    rintro ⟨entry, hentry, -⟩ hexhausted
    rw [hexhausted.1.1] at hentry
    cases hentry
  have hrun := admitRun_of_run m key root call presence presence'
  generalize (admitSteps key root call presence presence').run (.idle m) = out at hrun
  cases hrun with
  | unresolved message h =>
    -- both refusals are before the call and leave everything as it was
    exact ⟨⟨fun _ => h, fun _ => ⟨⟨message, rfl⟩, rfl⟩⟩,
      ⟨fun ⟨⟨_, h'⟩, _⟩ => (by cases h'), fun h' => absurd h' (hdisjoint h)⟩,
      fun _ => rfl, fun h' => absurd h h'⟩
  | exhausted message h =>
    exact ⟨⟨fun ⟨⟨_, h'⟩, _⟩ => (by cases h'), fun h' => absurd h (hdisjoint h')⟩,
      ⟨fun _ => h, fun _ => ⟨⟨message, rfl⟩, rfl⟩⟩, fun _ => rfl, fun _ h' => absurd h h'⟩
  | thrown error hresolved hroom hcall =>
    refine ⟨⟨fun h => absurd h.2 Nat.one_ne_zero, fun h => absurd h hresolved⟩,
      ⟨fun h => absurd h.2 Nat.one_ne_zero, fun h => absurd h hroom⟩,
      fun h => absurd h (not_or.mpr ⟨hresolved, hroom⟩), fun _ _ => ⟨rfl, ?_⟩⟩
    subst hcall
    exact ⟨rfl, thrownLeaves_published m key root presence⟩
  | received status hresolved hroom hcall =>
    refine ⟨⟨fun h => absurd h.2 Nat.one_ne_zero, fun h => absurd h hresolved⟩,
      ⟨fun h => absurd h.2 Nat.one_ne_zero, fun h => absurd h hroom⟩,
      fun h => absurd h (not_or.mpr ⟨hresolved, hroom⟩), fun _ _ => ⟨rfl, ?_⟩⟩
    subst hcall
    -- the call's own status decides between keeping the candidate and taking it back
    refine ⟨rfl, fun hstatus => ?_⟩
    have hrefused := refusedLeaves_refused m key root presence status
    rw [run_settle, if_neg hstatus]
    exact hrefused

end CoAkka.Stream
