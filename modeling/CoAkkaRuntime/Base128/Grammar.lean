import Mathlib.Tactic.Common

/-!
# Base128 — prefix-free grammars

A *grammar* for values of a type relates a value to the byte segments that denote it. A
reader that works through a buffer left to right parses a grammar exactly when the grammar is
prefix-free: the head of the buffer then determines both the value and where it ends.

`PrefixFree` is that condition, and `PrefixFree.seq_iff` composes two such grammars: what follows
the first segment is the rest of the buffer, whichever way the buffer was cut.
-/

namespace Base128

/-- Which segments denote which values. -/
abbrev Grammar (α : Type*) := α → List UInt8 → Prop

namespace Grammar

variable {α β : Type*}

/-- No segment of the grammar is a proper prefix of another, and a segment denotes one value. -/
def PrefixFree (P : Grammar α) : Prop :=
  ∀ ⦃a b : α⦄ ⦃s t u v : List UInt8⦄, P a s → P b t → s ++ u = t ++ v → a = b ∧ s = t

/-- A segment of `P`, then a segment of the grammar its value selects. -/
def seq (P : Grammar α) (Q : α → Grammar β) : Grammar β :=
  fun b seg => ∃ a s t, P a s ∧ Q a b t ∧ seg = s ++ t

/-- A sequence parses at the head of a buffer iff its parts do, in order. For a prefix-free
first part the split is the one already found. -/
theorem PrefixFree.seq_iff {P : Grammar α} (hP : P.PrefixFree) {Q : α → Grammar β} {a : α}
    {s rest : List UInt8} (ha : P a s) (b : β) :
    (∃ seg tail, s ++ rest = seg ++ tail ∧ P.seq Q b seg)
      ↔ ∃ t tail, rest = t ++ tail ∧ Q a b t := by
  constructor
  · rintro ⟨seg, tail, hsplit, a', s', t, ha', hb, rfl⟩
    rw [List.append_assoc] at hsplit
    obtain ⟨rfl, rfl⟩ := hP ha ha' hsplit
    exact ⟨t, tail, List.append_cancel_left hsplit, hb⟩
  · rintro ⟨t, tail, rfl, hb⟩
    exact ⟨s ++ t, tail, by rw [List.append_assoc], a, s, t, ha, hb, rfl⟩

end Grammar

end Base128
