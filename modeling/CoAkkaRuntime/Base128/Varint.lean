import Mathlib.Data.List.Basic
import Mathlib.Tactic.Ring

/-!
# Base128 — prefix-free base-128 groups

A *group* is a non-empty byte string whose last byte, and no other, has its high bit
clear. Its *value* reads the low seven bits of every byte, least significant first. The
module develops the two facts every decoder of such groups rests on:

* a group is found in one way only at the head of a byte string (`IsGroup.append_inj`);
* a prefix of continuation bytes contributes its own value below the rest
  (`value_append`), so an accumulating reader can be related to `value` byte by byte.

`Varint maxLen width` packages a group with the two bounds a machine decoder enforces,
its number of bytes and the width of its value. Overlong groups (a high group of zeros)
are groups like any other; `encode` is the shortest one.
-/

namespace Base128

/-- A base-128 group: continuation bytes (high bit set), then one final byte (high bit clear). -/
def IsGroup : List UInt8 → Prop
  | [] => False
  | b :: bs => if b < 128 then bs = [] else IsGroup bs

/-- The number a group stands for: seven bits a byte, least significant byte first. -/
def value : List UInt8 → Nat
  | [] => 0
  | b :: bs => b.toNat % 128 + 128 * value bs

instance decidableIsGroup : (g : List UInt8) → Decidable (IsGroup g)
  | [] => .isFalse id
  | b :: bs =>
    if h : b < 128 then
      decidable_of_iff (bs = []) (by simp [IsGroup, h])
    else
      @decidable_of_iff _ (IsGroup bs) (by simp [IsGroup, h]) (decidableIsGroup bs)

@[simp] theorem isGroup_nil : ¬ IsGroup [] := id

/-- A byte without its first bit ends a group. -/
theorem isGroup_final {b : UInt8} (hb : b < 128) (bs : List UInt8) :
    IsGroup (b :: bs) ↔ bs = [] := by
  simp [IsGroup, hb]

/-- One with it is followed by a group. -/
theorem isGroup_more {b : UInt8} (hb : ¬ b < 128) (bs : List UInt8) :
    IsGroup (b :: bs) ↔ IsGroup bs := by
  simp [IsGroup, hb]

@[simp] theorem value_nil : value [] = 0 := rfl

theorem value_cons (b : UInt8) (bs : List UInt8) :
    value (b :: bs) = b.toNat % 128 + 128 * value bs := rfl

theorem IsGroup.length_pos {g : List UInt8} (h : IsGroup g) : 0 < g.length := by
  cases g with
  | nil => exact absurd h isGroup_nil
  | cons b bs => simp

/-- Exactly the last byte of a group has its high bit clear. -/
theorem isGroup_iff_getElem (g : List UInt8) :
    IsGroup g ↔ g ≠ [] ∧ ∀ (i : Nat) (hi : i < g.length), g[i] < 128 ↔ i + 1 = g.length := by
  induction g with
  | nil => simp
  | cons b bs ih =>
    by_cases hb : b < 128
    · rw [isGroup_final hb]
      constructor
      · rintro rfl
        refine ⟨List.cons_ne_nil _ _, fun i hi => ?_⟩
        obtain rfl : i = 0 := by simpa using hi
        simpa using hb
      · rintro ⟨-, h⟩
        have hlast := (h 0 (by simp)).mp hb
        exact List.length_eq_zero_iff.mp (by simpa using hlast.symm)
    · rw [isGroup_more hb, ih]
      constructor
      · rintro ⟨hne, h⟩
        refine ⟨List.cons_ne_nil _ _, fun i hi => ?_⟩
        cases i with
        | zero => simpa [hb] using hne
        | succ i => simpa using h i (by simpa using hi)
      · rintro ⟨-, h⟩
        constructor
        · rintro rfl
          exact hb ((h 0 (by simp)).mpr rfl)
        · intro i hi
          have hnext := h (i + 1) (Nat.succ_lt_succ hi)
          rwa [List.getElem_cons_succ, List.length_cons, Nat.add_left_inj] at hnext

/-! ## Groups are prefix-free -/

/-- **Unique split.** Two byte strings that both start with a group and are equal start with
the same group and continue with the same bytes. Induction on the first group. -/
theorem IsGroup.append_inj {g g' s s' : List UInt8} (hg : IsGroup g) (hg' : IsGroup g')
    (h : g ++ s = g' ++ s') : g = g' ∧ s = s' := by
  induction g generalizing g' with
  | nil => exact absurd hg isGroup_nil
  | cons b bs ih =>
    cases g' with
    | nil => exact absurd hg' isGroup_nil
    | cons c cs =>
      rw [List.cons_append, List.cons_append, List.cons.injEq] at h
      obtain ⟨rfl, htail⟩ := h
      by_cases hb : b < 128
      · -- both groups end here
        rw [isGroup_final hb] at hg hg'
        subst hg hg'
        exact ⟨rfl, htail⟩
      · rw [isGroup_more hb] at hg hg'
        obtain ⟨rfl, hs⟩ := ih hg hg' htail
        exact ⟨rfl, hs⟩

/-- Every byte of a run is a continuation byte. -/
def AllContinue (g : List UInt8) : Prop := ∀ b ∈ g, ¬ b < 128

@[simp] theorem allContinue_nil : AllContinue [] := by simp [AllContinue]

theorem AllContinue.concat {g : List UInt8} (h : AllContinue g) {b : UInt8} (hb : ¬ b < 128) :
    AllContinue (g ++ [b]) := by
  intro c hc
  rcases List.mem_append.mp hc with hc | hc
  · exact h c hc
  · rw [List.mem_singleton.mp hc]; exact hb

/-- A run of continuation bytes followed by a group is a group, and nothing shorter is. -/
theorem AllContinue.isGroup_append {g : List UInt8} (h : AllContinue g) (s : List UInt8) :
    IsGroup (g ++ s) ↔ IsGroup s := by
  induction g with
  | nil => rfl
  | cons b bs ih =>
    have hb : ¬ b < 128 := h b (by simp)
    rw [List.cons_append, isGroup_more hb]
    exact ih (fun c hc => h c (List.mem_cons_of_mem b hc))

/-- A group is bytes that continue, and one that ends. -/
theorem AllContinue.isGroup_concat {g : List UInt8} (h : AllContinue g) {b : UInt8}
    (hb : b < 128) : IsGroup (g ++ [b]) := by
  rw [h.isGroup_append, isGroup_final hb]

/-! ## The value of a group -/

/-- The value of two sequences, the second of which stands higher. -/
theorem value_append (g s : List UInt8) :
    value (g ++ s) = value g + 128 ^ g.length * value s := by
  induction g with
  | nil => simp
  | cons b bs ih =>
    rw [List.cons_append, value_cons, value_cons, ih, List.length_cons, pow_succ]
    ring

/-- A sequence has seven bits for each byte. -/
theorem value_lt (g : List UInt8) : value g < 128 ^ g.length := by
  induction g with
  | nil => simp
  | cons b bs ih =>
    rw [value_cons, List.length_cons, pow_succ]
    have := Nat.mod_lt b.toNat (show 0 < 128 by decide)
    omega

theorem sum_mapIdx_mul (g : List UInt8) (f : Nat → UInt8 → Nat) (c : Nat) :
    (g.mapIdx fun i b => c * f i b).sum = c * (g.mapIdx f).sum := by
  induction g generalizing f with
  | nil => simp
  | cons b bs ih => simp [List.mapIdx_cons, ih, Nat.mul_add]

/-- The value is the sum over the bytes. -/
theorem value_eq_sum (g : List UInt8) :
    value g = (g.mapIdx fun i b => b.toNat % 128 * 2 ^ (7 * i)).sum := by
  induction g with
  | nil => rfl
  | cons b bs ih =>
    rw [value_cons, ih, List.mapIdx_cons, List.sum_cons, ← sum_mapIdx_mul]
    simp only [Nat.mul_zero, pow_zero, mul_one, Nat.add_left_cancel_iff]
    congr 2
    funext i b
    rw [Nat.mul_succ, pow_add]
    ring

/-! ## Bounded groups

A machine decoder gives up after a number of bytes, and has a number of bits for the value.
-/

/-- A base-128 group of at most `maxLen` bytes whose value fits `width` bits. -/
@[ext] structure Varint (maxLen width : Nat) where
  bytes : List UInt8
  isGroup : IsGroup bytes
  length_le : bytes.length ≤ maxLen
  value_lt : Base128.value bytes < 2 ^ width

namespace Varint

variable {maxLen width : Nat}

/-- The number a bounded group stands for. -/
def value (v : Varint maxLen width) : Nat := Base128.value v.bytes

theorem value_lt_two_pow (v : Varint maxLen width) : v.value < 2 ^ width := v.value_lt

theorem length_pos (v : Varint maxLen width) : 0 < v.bytes.length := v.isGroup.length_pos

/-- A byte string starts with at most one bounded group. -/
theorem append_inj {v w : Varint maxLen width} {s t : List UInt8}
    (h : v.bytes ++ s = w.bytes ++ t) : v = w ∧ s = t := by
  obtain ⟨hv, hs⟩ := v.isGroup.append_inj w.isGroup h
  exact ⟨Varint.ext hv, hs⟩

end Varint

/-! ## The canonical encoding

Seven bits a byte, least significant first, and no group of zeros at the end.
-/

/-- The shortest group of a number. -/
def encode (n : Nat) : List UInt8 :=
  if n < 128 then [UInt8.ofNat n] else UInt8.ofNat (n % 128 + 128) :: encode (n / 128)
termination_by n

/-- A small number is its own byte. -/
theorem encode_lt {n : Nat} (h : n < 128) : encode n = [UInt8.ofNat n] := by
  rw [encode, if_pos h]

/-- A larger one is its lowest seven bits and the rest. -/
theorem encode_ge {n : Nat} (h : ¬ n < 128) :
    encode n = UInt8.ofNat (n % 128 + 128) :: encode (n / 128) := by
  rw [encode, if_neg h]

/-- What is encoded is one group. -/
theorem isGroup_encode (n : Nat) : IsGroup (encode n) := by
  induction n using Nat.strong_induction_on with
  | _ n ih =>
    by_cases h : n < 128
    · rw [encode_lt h, isGroup_final]
      rw [UInt8.lt_iff_toNat_lt, UInt8.toNat_ofNat']
      exact Nat.lt_of_le_of_lt (Nat.mod_le _ _) h
    · rw [encode_ge h, isGroup_more]
      · exact ih (n / 128) (by omega)
      · rw [UInt8.lt_iff_toNat_lt, UInt8.toNat_ofNat']
        simp only [UInt8.reduceToNat]
        omega

/-- And has the number as its value. -/
@[simp] theorem value_encode (n : Nat) : value (encode n) = n := by
  induction n using Nat.strong_induction_on with
  | _ n ih =>
    by_cases h : n < 128
    · rw [encode_lt h, value_cons, value_nil, UInt8.toNat_ofNat']
      omega
    · rw [encode_ge h, value_cons, ih (n / 128) (by omega), UInt8.toNat_ofNat']
      omega

/-- A number of so many times seven bits needs so many bytes. -/
theorem length_encode_le {n k : Nat} (h : n < 128 ^ (k + 1)) : (encode n).length ≤ k + 1 := by
  induction k generalizing n with
  | zero => rw [encode_lt (by simpa using h)]; simp
  | succ k ih =>
    by_cases hn : n < 128
    · rw [encode_lt hn]; simp
    · rw [encode_ge hn, List.length_cons]
      have : n / 128 < 128 ^ (k + 1) := by
        rw [Nat.div_lt_iff_lt_mul (by decide)]
        rwa [pow_succ] at h
      have := ih this
      omega

/-- No group of a number is shorter than the canonical one. -/
theorem length_encode_value_le {g : List UInt8} (h : 0 < g.length) :
    (encode (value g)).length ≤ g.length := by
  obtain ⟨k, hk⟩ := Nat.exists_eq_add_of_lt h
  rw [Nat.zero_add] at hk
  have hlt := value_lt g
  rw [hk] at hlt ⊢
  exact length_encode_le hlt

/-- The canonical group of a 64-bit number, within ten bytes. -/
def Varint.ofNat (n : Nat) (h : n < 2 ^ 64) : Varint 10 64 where
  bytes := encode n
  isGroup := isGroup_encode n
  length_le := length_encode_le (k := 9) (Nat.lt_of_lt_of_le h (by decide))
  value_lt := by rwa [value_encode]

@[simp] theorem Varint.value_ofNat (n : Nat) (h : n < 2 ^ 64) : (Varint.ofNat n h).value = n :=
  value_encode n

end Base128
