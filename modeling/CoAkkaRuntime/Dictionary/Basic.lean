import Mathlib.Data.List.Perm.Basic
import Mathlib.Data.List.Nodup
import Mathlib.Tactic.Common

/-!
# Dictionary — a hashed collection up to a key identity

A dictionary whose keys are compared through an identity `ident : K → I`, as a hashed
collection compares them through `==`: two keys with one identity address the same entry. As in
such a collection, overwriting an entry keeps the key that was stored first. That at most one
stored key has a given identity is a field, so no dictionary breaks it.

* `get?_set`, `get?_remove` — what a lookup finds after a change.
* `mem_pairs_set_of_none`, `mem_pairs_set_of_some`, `mem_pairs_remove` — the pairs after one.
* `values_set_perm`, `count_set`, `count_restore` — the values as a multiset, which is what the
  counting invariants of the tables are about.

A replaced value keeps the key that was stored first, as a Swift dictionary does. So the keys of a
table are those of the first insertions, and the lemmas on pairs say so.
-/

/-- Key–value pairs with pairwise distinct key identities. -/
structure Dictionary {K I : Type} (ident : K → I) (V : Type) where
  pairs : List (K × V)
  nodup : (pairs.map fun p => ident p.1).Nodup

namespace Dictionary

variable {K I V : Type} {ident : K → I}

def empty : Dictionary ident V := ⟨[], .nil⟩

def count (d : Dictionary ident V) : Nat := d.pairs.length

def values (d : Dictionary ident V) : List V := d.pairs.map Prod.snd

/-- The stored pair of an identity is unique. -/
theorem eq_of_mem {d : Dictionary ident V} {p q : K × V} (hp : p ∈ d.pairs) (hq : q ∈ d.pairs)
    (h : ident p.1 = ident q.1) : p = q :=
  List.inj_on_of_nodup_map d.nodup hp hq h

variable [DecidableEq I]

/-- `d[k]`. -/
def get? (d : Dictionary ident V) (k : K) : Option V :=
  (d.pairs.find? fun p => ident p.1 = ident k).map Prod.snd

/-- `d.removeValue(forKey: k)`. -/
def remove (d : Dictionary ident V) (k : K) : Dictionary ident V where
  pairs := d.pairs.filter fun p => ident p.1 ≠ ident k
  nodup := d.nodup.sublist (List.filter_sublist.map _)

/-- A lookup finds the pair whose key has the identity asked for. -/
theorem get?_eq_some_iff {d : Dictionary ident V} {k : K} {v : V} :
    d.get? k = some v ↔ ∃ k', ident k' = ident k ∧ (k', v) ∈ d.pairs := by
  unfold get?
  constructor
  · intro h
    obtain ⟨p, hp, rfl⟩ := Option.map_eq_some_iff.mp h
    exact ⟨p.1, by simpa using List.find?_some hp, List.mem_of_find?_eq_some hp⟩
  · rintro ⟨k', hk, hmem⟩
    cases hp : d.pairs.find? fun p => ident p.1 = ident k with
    | none => exact absurd hk (by simpa using List.find?_eq_none.mp hp _ hmem)
    | some p =>
      have hpk : ident p.1 = ident k := by simpa using List.find?_some hp
      have hpeq : p = (k', v) := eq_of_mem (List.mem_of_find?_eq_some hp) hmem (hpk.trans hk.symm)
      rw [hpeq, Option.map_some]

/-- It finds none where no stored key has it. -/
theorem get?_eq_none_iff {d : Dictionary ident V} {k : K} :
    d.get? k = none ↔ ∀ p ∈ d.pairs, ident p.1 ≠ ident k := by
  simp [get?]

/-- `d[k] = v`: the value of the stored key, or a new pair. -/
def set (d : Dictionary ident V) (k : K) (v : V) : Dictionary ident V :=
  if h : d.get? k = none then
    { pairs := d.pairs ++ [(k, v)]
      nodup := by
        rw [List.map_append, List.nodup_append]
        refine ⟨d.nodup, List.nodup_singleton _, ?_⟩
        intro i hi j hj
        obtain ⟨p, hp, rfl⟩ := List.mem_map.mp hi
        obtain rfl := List.mem_singleton.mp hj
        exact get?_eq_none_iff.mp h p hp }
  else
    { pairs := d.pairs.map fun p => if ident p.1 = ident k then (p.1, v) else p
      nodup := by
        have hident : (fun p : K × V => ident p.1) ∘
            (fun p => if ident p.1 = ident k then (p.1, v) else p) = fun p => ident p.1 := by
          funext p
          dsimp only [Function.comp_apply]
          split <;> rfl
        rw [List.map_map, hident]
        exact d.nodup }

/-! ## Lookup

A lookup finds the pair whose key has the identity; there is one such pair at most.
-/

/-- Keys of one identity are one key. -/
theorem get?_congr (d : Dictionary ident V) {k k' : K} (h : ident k = ident k') :
    d.get? k = d.get? k' := by
  unfold get?
  rw [h]

@[simp] theorem get?_empty (k : K) : (empty : Dictionary ident V).get? k = none := rfl

theorem get?_remove (d : Dictionary ident V) (k k' : K) :
    (d.remove k).get? k' = if ident k = ident k' then none else d.get? k' := by
  refine Option.ext fun v => ?_
  rw [get?_eq_some_iff]
  by_cases h : ident k = ident k'
  · simp only [if_pos h, reduceCtorEq, iff_false, not_exists, not_and]
    rintro k'' hk'' hmem
    simp [remove, hk'', h] at hmem
  · rw [if_neg h, get?_eq_some_iff]
    refine exists_congr fun k'' => and_congr_right fun hk'' => ?_
    simp only [remove, List.mem_filter, hk'', decide_eq_true_eq, and_iff_left_iff_imp]
    exact fun _ => Ne.symm h

theorem mem_pairs_remove {d : Dictionary ident V} {k : K} {p : K × V} :
    p ∈ (d.remove k).pairs ↔ p ∈ d.pairs ∧ ident p.1 ≠ ident k := by
  simp [remove]

/-- Setting a new key adds a pair. -/
theorem mem_pairs_set_of_none {d : Dictionary ident V} {k : K} {v : V} (h : d.get? k = none)
    (p : K × V) : p ∈ (d.set k v).pairs ↔ p ∈ d.pairs ∨ p = (k, v) := by
  rw [set, dif_pos h, List.mem_append, List.mem_singleton]

/-- Setting a key that is there replaces its value, and keeps the stored key. -/
theorem mem_pairs_set_of_some {d : Dictionary ident V} {k : K} {v : V} (h : d.get? k ≠ none)
    (p : K × V) : p ∈ (d.set k v).pairs
      ↔ (ident p.1 ≠ ident k ∧ p ∈ d.pairs) ∨
        (ident p.1 = ident k ∧ p.2 = v ∧ ∃ old, (p.1, old) ∈ d.pairs) := by
  rw [set, dif_neg h, List.mem_map]
  constructor
  · rintro ⟨q, hq, rfl⟩
    by_cases hk : ident q.1 = ident k
    · rw [if_pos hk]
      exact .inr ⟨hk, rfl, q.2, hq⟩
    · rw [if_neg hk]
      exact .inl ⟨hk, hq⟩
  · rintro (⟨hk, hp⟩ | ⟨hk, rfl, old, hold⟩)
    · exact ⟨p, hp, if_neg hk⟩
    · exact ⟨(p.1, old), hold, if_pos hk⟩

/-- **Setting a key** changes what its identity addresses, and nothing else. -/
theorem get?_set (d : Dictionary ident V) (k k' : K) (v : V) :
    (d.set k v).get? k' = if ident k = ident k' then some v else d.get? k' := by
  refine Option.ext fun w => ?_
  rw [get?_eq_some_iff]
  -- a new key is appended; a known one keeps its place and the key stored first
  by_cases hnone : d.get? k = none
  · simp only [mem_pairs_set_of_none hnone, Prod.mk.injEq]
    by_cases h : ident k = ident k'
    · rw [if_pos h, Option.some.injEq]
      constructor
      · rintro ⟨k'', hk'', hmem | ⟨rfl, rfl⟩⟩
        · exact absurd (hk''.trans h.symm) (get?_eq_none_iff.mp hnone _ hmem)
        · rfl
      · rintro rfl
        exact ⟨k, h, .inr ⟨rfl, rfl⟩⟩
    · rw [if_neg h, get?_eq_some_iff]
      refine exists_congr fun k'' => and_congr_right fun hk'' => or_iff_left ?_
      rintro ⟨rfl, -⟩
      exact h hk''
  · simp only [mem_pairs_set_of_some hnone]
    by_cases h : ident k = ident k'
    · rw [if_pos h, Option.some.injEq]
      constructor
      · rintro ⟨k'', hk'', ⟨hne, -⟩ | ⟨-, rfl, -⟩⟩
        · exact absurd (hk''.trans h.symm) hne
        · rfl
      · rintro rfl
        obtain ⟨old, hold⟩ := Option.ne_none_iff_exists'.mp hnone
        obtain ⟨k'', hk'', hmem⟩ := get?_eq_some_iff.mp hold
        exact ⟨k'', hk''.trans h, .inr ⟨hk'', rfl, old, hmem⟩⟩
    · rw [if_neg h, get?_eq_some_iff]
      refine exists_congr fun k'' => and_congr_right fun hk'' => ?_
      have hne : ident k'' ≠ ident k := fun heq => h (heq.symm.trans hk'')
      simp [hne]

theorem get?_set_self (d : Dictionary ident V) (k : K) (v : V) : (d.set k v).get? k = some v := by
  rw [get?_set, if_pos rfl]

/-! ## Values

The values are counted as a multiset, since an invariant of a table is about where its values are.
-/

/-- Pairwise distinct keys of one identity: at most one. -/
theorem eq_toList_head? {α β : Type} {f : α → β} {b : β} {l : List α} (hnodup : (l.map f).Nodup)
    (hl : ∀ a ∈ l, f a = b) : l = l.head?.toList := by
  match l with
  | [] => rfl
  | [a] => rfl
  | a :: a' :: l =>
    have haa' : f a = f a' := by rw [hl a (by simp), hl a' (by simp)]
    rw [List.map_cons, List.map_cons, haa'] at hnodup
    exact absurd (List.mem_cons_self) hnodup.notMem

/-- The values are the one `k` addresses, if any, and the rest. -/
theorem values_perm (d : Dictionary ident V) (k : K) :
    d.values.Perm ((d.get? k).toList ++ (d.remove k).values) := by
  have hsplit := (List.filter_append_perm (fun p : K × V => decide (ident p.1 = ident k))
    d.pairs).symm.map Prod.snd
  have hone := eq_toList_head? (b := ident k) (f := fun p : K × V => ident p.1)
    (l := d.pairs.filter fun p => ident p.1 = ident k)
    (d.nodup.sublist (List.filter_sublist.map _)) (by simp)
  rw [List.head?_filter] at hone
  rw [List.map_append, hone] at hsplit
  have hget : ((d.pairs.find? fun p => ident p.1 = ident k).toList.map Prod.snd)
      = (d.get? k).toList := by
    unfold get?
    cases d.pairs.find? fun p => ident p.1 = ident k <;> rfl
  have hrest : (d.pairs.filter fun p => !decide (ident p.1 = ident k)).map Prod.snd
      = (d.remove k).values := by simp [remove, values]
  rwa [hget, hrest] at hsplit

/-- What is removed leaves no trace of what was set. -/
theorem remove_set (d : Dictionary ident V) (k : K) (v : V) :
    ((d.set k v).remove k).pairs = (d.remove k).pairs := by
  unfold set remove
  split
  · simp
  · next hsome =>
    dsimp only
    rw [List.filter_map]
    -- the filter drops every pair the map changes
    have hfilter : (d.pairs.filter ((fun p : K × V => decide (ident p.1 ≠ ident k)) ∘
        fun p => if ident p.1 = ident k then (p.1, v) else p))
        = d.pairs.filter fun p => ident p.1 ≠ ident k := by
      refine List.filter_congr fun p _ => ?_
      by_cases h : ident p.1 = ident k <;> simp [h]
    rw [hfilter, List.map_congr_left (g := id), List.map_id]
    intro p hp
    have hne : ident p.1 ≠ ident k := by simpa using (List.mem_filter.mp hp).2
    exact if_neg hne

/-- After setting `k`, the values are the new one and the rest. -/
theorem values_set_perm (d : Dictionary ident V) (k : K) (v : V) :
    (d.set k v).values.Perm (v :: (d.remove k).values) := by
  have h := (d.set k v).values_perm k
  have hrest : ((d.set k v).remove k).values = (d.remove k).values := by
    unfold values
    rw [remove_set]
  rwa [get?_set_self, hrest] at h

/-! ## Counts -/

/-- A key counts once. -/
theorem count_eq (d : Dictionary ident V) (k : K) :
    d.count = (d.get? k).toList.length + (d.remove k).count := by
  have h := (d.values_perm k).length_eq
  rwa [List.length_append, values, values, List.length_map, List.length_map] at h

theorem count_set (d : Dictionary ident V) (k : K) (v : V) :
    (d.set k v).count = (d.remove k).count + 1 := by
  have h := (d.values_set_perm k v).length_eq
  rwa [List.length_cons, values, values, List.length_map, List.length_map] at h

/-! ## Undoing an assignment

What was there before is put back, or the key is removed where there was nothing.
-/

/-- What a key had before comes back: a value, or none. -/
def restore (d : Dictionary ident V) (k : K) (previous : Option V) : Dictionary ident V :=
  match previous with
  | some v => d.set k v
  | none => d.remove k

theorem count_restore (d : Dictionary ident V) (k : K) (previous : Option V) :
    (d.restore k previous).count = (d.remove k).count + previous.toList.length := by
  cases previous with
  | none => rfl
  | some v => exact d.count_set k v

/-- A value that goes was the key's own. -/
theorem mem_values_restore {d : Dictionary ident V} {v : V} (k : K) (previous : Option V)
    (hv : v ∈ d.values) : d.get? k = some v ∨ v ∈ (d.restore k previous).values := by
  rcases List.mem_append.mp ((d.values_perm k).subset hv) with h | h
  · exact .inl (Option.mem_toList.mp h)
  · cases previous with
    | none => exact .inr h
    | some w => exact .inr ((d.values_set_perm k w).symm.subset (List.mem_cons_of_mem _ h))

omit [DecidableEq I] in
theorem eq_of_pairs {d d' : Dictionary ident V} (h : d.pairs = d'.pairs) : d = d' := by
  obtain ⟨pairs, hnodup⟩ := d
  obtain rfl : pairs = d'.pairs := h
  rfl

/-- Removing a key that was not there before it was set. -/
theorem remove_set_of_none {d : Dictionary ident V} {k : K} (h : d.get? k = none) (v : V) :
    (d.set k v).remove k = d := by
  refine eq_of_pairs ((remove_set d k v).trans (List.filter_eq_self.mpr fun p hp => ?_))
  simpa using get?_eq_none_iff.mp h p hp

/-- Setting a key back to the value it had. -/
theorem set_set_of_some {d : Dictionary ident V} {k : K} {v : V} (h : d.get? k = some v) (w : V) :
    (d.set k w).set k v = d := by
  have hsome : d.get? k ≠ none := by simp [h]
  have hsome' : (d.set k w).get? k ≠ none := by simp [get?_set_self]
  refine eq_of_pairs ?_
  rw [set, dif_neg hsome', set, dif_neg hsome]
  dsimp only
  rw [List.map_map]
  refine (List.map_congr_left fun p hp => ?_).trans (List.map_id d.pairs)
  by_cases hk : ident p.1 = ident k
  · obtain ⟨k', hk', hmem⟩ := get?_eq_some_iff.mp h
    -- the only pair of the key
    obtain rfl : p = (k', v) := eq_of_mem hp hmem (hk.trans hk'.symm)
    simp [hk]
  · simp [hk]

/-- **Restoring undoes a set.** -/
theorem restore_set (d : Dictionary ident V) (k : K) (v : V) :
    (d.set k v).restore k (d.get? k) = d := by
  cases h : d.get? k with
  | none => exact remove_set_of_none h v
  | some previous => exact set_set_of_some h v

end Dictionary
