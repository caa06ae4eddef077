import CoAkkaRuntime.Base128.Fields
import CoAkkaRuntime.Base128.Grammar
import CoAkkaRuntime.Codec.FieldReader

/-!
# Codec — what a `FieldReader` method reads

`Reads P x`: on every valid reader the method `x` parses the grammar `P` at the offset. When
the unread bytes start with a segment of `P` it returns that segment's value and stops
right behind the segment; otherwise it throws. It neither traps nor runs out of fuel, keeps
the buffer, and leaves the offset inside it either way.

The rules compose such facts along `>>=`; `FieldGrammar.lean` proves `Reads` for the methods
themselves.

* `ReadSpec` — what a method does with a reader at a valid offset.
* `Reads` — the case of a method that parses one value of a prefix-free grammar, or throws.
* `Reads.bind`, `Reads.pure`, `Reads.raise` — the rules by which a method's specification is put
  together from those of the methods it calls.
-/

namespace CoAkka.Codec

open Base128 Throwing

/-! ## Running a method -/

section Exec

variable {α β : Type} (r : FieldReader)

@[simp] theorem exec_setOffset (offset : Nat) :
    exec (setOffset offset) r = (.ok (), { r with offset }) := rfl

@[simp] theorem exec_raise (message : String) :
    exec (raise message : FieldM α) r = (.error (.thrown (.invalidArgument message)), r) := rfl

@[simp] theorem exec_raise_bind (message : String) (f : α → FieldM β) :
    exec (raise message >>= f) r = (.error (.thrown (.invalidArgument message)), r) :=
  exec_bind_error rfl f

@[simp] theorem exec_setOffset_bind (offset : Nat) (f : Unit → FieldM β) :
    exec (setOffset offset >>= f) r = exec (f ()) { r with offset } :=
  exec_bind_ok rfl f

/-- Arithmetic within range goes on, and so do the other partial operations below. -/
theorem exec_addInt_bind {a b : Nat} (h : a + b < 2 ^ 63) (f : Nat → FieldM β) :
    exec (addInt a b >>= f) r = exec (f (a + b)) r := by
  rw [addInt, if_pos h, pure_bind]

theorem exec_intOf_bind {value : UInt64} (h : value.toNat < 2 ^ 63) (f : Nat → FieldM β) :
    exec (intOf value >>= f) r = exec (f value.toNat) r := by
  rw [intOf, if_pos h, pure_bind]

theorem exec_subscript_bind {bytes : Data} {offset : Nat} {byte : UInt8}
    (h : bytes.bytes[offset]? = some byte) (f : UInt8 → FieldM β) :
    exec (subscript bytes offset >>= f) r = exec (f byte) r := by
  rw [subscript, h, pure_bind]

theorem exec_subrange_bind {bytes : Data} {start stop : Nat}
    (h : start ≤ stop ∧ stop ≤ bytes.count) (f : Data → FieldM β) :
    exec (subrange bytes start stop >>= f) r = exec (f (bytes.slice start stop)) r := by
  rw [subrange, if_pos h, pure_bind]

end Exec

/-! ## The unread bytes

A reader stands at a place of its buffer; what is unread is all that a method may depend on.
-/

namespace FieldReader

/-- The offset is inside the buffer or at its end. -/
def Valid (r : FieldReader) : Prop := r.offset ≤ r.bytes.count

/-- The bytes not read yet. -/
def rest (r : FieldReader) : List UInt8 := r.bytes.bytes.drop r.offset

def advance (r : FieldReader) (n : Nat) : FieldReader := { r with offset := r.offset + n }

@[simp] theorem advance_zero (r : FieldReader) : r.advance 0 = r := rfl

/-- Two advances are one. -/
@[simp] theorem advance_advance (r : FieldReader) (m n : Nat) :
    (r.advance m).advance n = r.advance (m + n) := by
  simp [advance, Nat.add_assoc]

@[simp] theorem advance_bytes (r : FieldReader) (n : Nat) : (r.advance n).bytes = r.bytes := rfl

@[simp] theorem advance_offset (r : FieldReader) (n : Nat) :
    (r.advance n).offset = r.offset + n := rfl

/-- A new reader is within its buffer. -/
theorem valid_init (data : Data) : (init data).Valid := Nat.zero_le _

@[simp] theorem rest_init (data : Data) : (init data).rest = data.bytes := rfl

variable {r : FieldReader}

theorem length_rest : r.rest.length = r.bytes.count - r.offset := by
  simp [rest, Data.count]

/-- Nothing is left exactly at the end. -/
theorem rest_eq_nil_iff (hr : r.Valid) : r.rest = [] ↔ ¬ r.offset < r.bytes.count := by
  rw [← List.length_eq_zero_iff, length_rest]
  unfold Valid at hr
  omega

theorem rest_advance {seg tail : List UInt8} (h : r.rest = seg ++ tail) :
    (r.advance seg.length).rest = tail := by
  show r.bytes.bytes.drop (r.offset + seg.length) = tail
  rw [← List.drop_drop, show r.bytes.bytes.drop r.offset = seg ++ tail from h, List.drop_left]

theorem Valid.advance (hr : r.Valid) {seg tail : List UInt8} (h : r.rest = seg ++ tail) :
    (r.advance seg.length).Valid := by
  have hlen := congrArg List.length h
  rw [length_rest, List.length_append] at hlen
  unfold Valid at hr
  show r.offset + seg.length ≤ r.bytes.count
  omega

end FieldReader

/-! ## The specification of a read -/

/-- The outcomes a method parsing `P` may have on `r`. -/
inductive ReadSpec {α : Type} (P : Grammar α) (r : FieldReader) :
    Except Fault α × FieldReader → Prop where
  | read {a : α} (seg tail : List UInt8) (hrest : r.rest = seg ++ tail) (ha : P a seg) :
      ReadSpec P r (.ok a, r.advance seg.length)
  | refused {error : RuntimeError} {r' : FieldReader} (hbytes : r'.bytes = r.bytes)
      (hoffset : r.offset ≤ r'.offset) (hvalid : r'.Valid)
      (hno : ∀ a seg tail, r.rest = seg ++ tail → ¬ P a seg) :
      ReadSpec P r (.error (.thrown error), r')

/-- The method `x` parses the grammar `P`. -/
def Reads {α : Type} (P : Grammar α) (x : FieldM α) : Prop :=
  ∀ r : FieldReader, r.Valid → ReadSpec P r (exec x r)

section Rules

variable {α β : Type} {P : Grammar α}

/-- A read never moves back. -/
theorem ReadSpec.offset_le {r : FieldReader} {out : Except Fault α × FieldReader}
    (h : ReadSpec P r out) : r.offset ≤ out.2.offset := by
  cases h with
  | read seg tail hrest ha => exact Nat.le_add_right _ _
  | refused hbytes hoffset hvalid hno => exact hoffset

/-- A grammar may be replaced by one that agrees with it on all segments a buffer can hold. -/
theorem ReadSpec.congr {r : FieldReader} {out : Except Fault α × FieldReader} {Q : Grammar α}
    (h : ReadSpec P r out) (hPQ : ∀ a seg, seg.length < 2 ^ 63 → (P a seg ↔ Q a seg)) :
    ReadSpec Q r out := by
  have hfits : ∀ {seg tail}, r.rest = seg ++ tail → seg.length < 2 ^ 63 := by
    intro seg tail hrest
    have hlength := congrArg List.length hrest
    have hcount := r.bytes.count_lt
    rw [FieldReader.length_rest, List.length_append, Data.count] at hlength
    omega
  cases h with
  | read seg tail hrest ha => exact .read seg tail hrest ((hPQ _ seg (hfits hrest)).mp ha)
  | refused hbytes hoffset hvalid hno =>
    exact .refused hbytes hoffset hvalid
      (fun a seg tail hrest hQ => hno a seg tail hrest ((hPQ a seg (hfits hrest)).mpr hQ))

/-- A reader of a grammar is one of every grammar that is the same on what fits a buffer. -/
theorem Reads.congr {x : FieldM α} {Q : Grammar α} (h : Reads P x)
    (hPQ : ∀ a seg, seg.length < 2 ^ 63 → (P a seg ↔ Q a seg)) : Reads Q x :=
  fun r hr => (h r hr).congr hPQ

/-- Throwing without having moved parses every grammar no segment here belongs to. -/
theorem ReadSpec.throw {r : FieldReader} (hr : r.Valid) {error : RuntimeError}
    (hno : ∀ a seg tail, r.rest = seg ++ tail → ¬ P a seg) :
    ReadSpec P r (.error (.thrown error), r) :=
  .refused rfl le_rfl hr hno

/-- **Sequencing.** Behind a prefix-free first part the second part reads what is left. -/
theorem ReadSpec.bind {Q : α → Grammar β} (hP : P.PrefixFree) {r : FieldReader}
    {x : FieldM α} {f : α → FieldM β} (hx : ReadSpec P r (exec x r))
    (hf : ∀ a seg tail, P a seg → r.rest = seg ++ tail →
      ReadSpec (Q a) (r.advance seg.length) (exec (f a) (r.advance seg.length))) :
    ReadSpec (P.seq Q) r (exec (x >>= f) r) := by
  generalize hout : exec x r = out at hx
  cases hx with
  | read seg tail hrest ha =>
    rename_i a
    rw [exec_bind_ok hout]
    have hfa := hf a seg tail ha hrest
    have htail := FieldReader.rest_advance hrest
    generalize exec (f a) (r.advance seg.length) = out' at hfa
    cases hfa with
    | read seg' tail' hrest' hb =>
      rw [htail] at hrest'
      rw [FieldReader.advance_advance, ← List.length_append]
      exact .read (seg ++ seg') tail' (by rw [hrest, hrest', List.append_assoc])
        ⟨a, seg, seg', ha, hb, rfl⟩
    | refused hbytes hoffset hvalid hno =>
      refine .refused hbytes ?_ hvalid ?_
      · exact Nat.le_trans (Nat.le_add_right _ _) hoffset
      · intro b seg' tail' hsplit hseq
        -- prefix-freeness: another parse of the sequence starts with the same segment
        obtain ⟨t, tail'', htl, hb⟩ := (hP.seq_iff ha b).mp ⟨seg', tail', hrest ▸ hsplit, hseq⟩
        exact hno b t tail'' (htail.trans htl) hb
  | refused hbytes hoffset hvalid hno =>
    rw [exec_bind_error hout]
    refine .refused hbytes hoffset hvalid ?_
    rintro b _ tail hsplit ⟨a, s, t, ha, _, rfl⟩
    exact hno a s (t ++ tail) (by rw [hsplit, List.append_assoc]) ha

/-- **Readers compose as their grammars do.** -/
theorem Reads.bind {Q : α → Grammar β} (hP : P.PrefixFree) {x : FieldM α} {f : α → FieldM β}
    (hx : Reads P x) (hf : ∀ a, Reads (Q a) (f a)) : Reads (P.seq Q) (x >>= f) :=
  fun r hr => ReadSpec.bind hP (hx r hr) fun a _ _ _ hrest => hf a _ (hr.advance hrest)

theorem Reads.pure (a : α) : Reads (fun b seg => b = a ∧ seg = []) (pure a) :=
  fun r _ => ReadSpec.read (r := r) [] r.rest rfl ⟨rfl, rfl⟩

/-- What always throws reads what there is none of. -/
theorem Reads.raise (message : String) (hP : ∀ a seg, ¬ P a seg) : Reads P (raise message) :=
  fun _ hr => .throw hr fun a seg _ _ => hP a seg

end Rules

end CoAkka.Codec
