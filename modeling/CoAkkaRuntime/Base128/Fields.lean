import CoAkkaRuntime.Base128.Varint

/-!
# Base128 — tagged fields over base-128 groups

A *field* is a 64-bit base-128 tag followed by the body the tag announces: its low three
bits are the wire type, the rest is the field number, which is never zero. The four
bodies are a varint (type 0), eight bytes (type 1), a length and that many bytes
(type 2) and four bytes (type 5).

`Field` is the concrete syntax tree: an ill-formed field cannot be built, overlong tags and
lengths can. `wire` writes a list of fields down. It loses nothing (`wire_injective`), so a
byte string is a concatenation of fields in at most one way, and a decoder may be
specified by *the* fields of its input.
-/

namespace Base128

/-- The 64-bit groups a field is made of: at most ten bytes. -/
abbrev Varint64 := Varint 10 64

/-! ## Bodies and fields -/

inductive Body where
  | varint (v : Varint64)
  | fixed64 (raw : List UInt8) (hraw : raw.length = 8)
  | bytes (len : Varint64) (content : List UInt8) (hlen : len.value = content.length)
  | fixed32 (raw : List UInt8) (hraw : raw.length = 4)

namespace Body

def wireType : Body → Nat
  | .varint _ => 0
  | .fixed64 _ _ => 1
  | .bytes _ _ _ => 2
  | .fixed32 _ _ => 5

def wire : Body → List UInt8
  | .varint v => v.bytes
  | .fixed64 raw _ => raw
  | .bytes len content _ => len.bytes ++ content
  | .fixed32 raw _ => raw

/-- Bodies of one wire type are prefix-free: the type and the bytes determine where the
body ends and what it holds. -/
theorem append_inj {a b : Body} {s t : List UInt8} (htype : a.wireType = b.wireType)
    (h : a.wire ++ s = b.wire ++ t) : a = b ∧ s = t := by
  cases a with
  | varint v =>
    cases b with
    | varint w =>
      obtain ⟨rfl, hs⟩ := Varint.append_inj h
      exact ⟨rfl, hs⟩
    | fixed64 | bytes | fixed32 => simp [wireType] at htype
  | fixed64 raw hraw =>
    cases b with
    | fixed64 raw' hraw' =>
      obtain ⟨rfl, hs⟩ := List.append_inj h (by simp [wire, hraw, hraw'])
      exact ⟨rfl, hs⟩
    | varint | bytes | fixed32 => simp [wireType] at htype
  | bytes len content hlen =>
    cases b with
    | bytes len' content' hlen' =>
      simp only [wire, List.append_assoc] at h
      obtain ⟨rfl, hrest⟩ := Varint.append_inj h
      obtain ⟨rfl, hs⟩ := List.append_inj hrest (by rw [← hlen, ← hlen'])
      exact ⟨rfl, hs⟩
    | varint | fixed64 | fixed32 => simp [wireType] at htype
  | fixed32 raw hraw =>
    cases b with
    | fixed32 raw' hraw' =>
      obtain ⟨rfl, hs⟩ := List.append_inj h (by simp [wire, hraw, hraw'])
      exact ⟨rfl, hs⟩
    | varint | fixed64 | bytes => simp [wireType] at htype

end Body

/-- One complete field: a tag with a non-zero field number and the body its type announces. -/
@[ext] structure Field where
  tag : Varint64
  body : Body
  number_ne_zero : tag.value / 8 ≠ 0
  type_eq : tag.value % 8 = body.wireType

namespace Field

def number (f : Field) : Nat := f.tag.value / 8

def wire (f : Field) : List UInt8 := f.tag.bytes ++ f.body.wire

/-- The content of a length-delimited field. -/
def content? (f : Field) : Option (List UInt8) :=
  match f.body with
  | .bytes _ content _ => some content
  | _ => none

/-- The value of a varint field. -/
def varint? (f : Field) : Option Nat :=
  match f.body with
  | .varint v => some v.value
  | _ => none

/-- No field is empty. -/
theorem length_wire_pos (f : Field) : 0 < f.wire.length := by
  have := f.tag.length_pos
  simp only [wire, List.length_append]
  omega

/-- Its content is a part of it. -/
theorem length_content_le (f : Field) {content : List UInt8} (h : f.content? = some content) :
    content.length ≤ f.wire.length := by
  unfold content? at h
  unfold wire
  cases hbody : f.body with
  | bytes len raw hlen =>
    rw [hbody, Option.some.injEq] at h
    subst h
    simp only [Body.wire, List.length_append]
    omega
  | varint | fixed64 | fixed32 => rw [hbody] at h; simp at h

/-- A byte string starts with at most one field. -/
theorem append_inj {f g : Field} {s t : List UInt8} (h : f.wire ++ s = g.wire ++ t) :
    f = g ∧ s = t := by
  simp only [wire, List.append_assoc] at h
  obtain ⟨htag, hrest⟩ := Varint.append_inj h
  obtain ⟨hbody, hs⟩ := Body.append_inj (by rw [← f.type_eq, ← g.type_eq, htag]) hrest
  exact ⟨Field.ext htag hbody, hs⟩

/-- The field `number` holding `n`, canonically encoded. -/
def ofVarint (number n : Nat) (hnumber : 0 < number) (htag : 8 * number < 2 ^ 64)
    (hn : n < 2 ^ 64) : Field where
  tag := Varint.ofNat (8 * number) htag
  body := .varint (Varint.ofNat n hn)
  number_ne_zero := by rw [Varint.value_ofNat]; omega
  type_eq := by rw [Varint.value_ofNat]; simp [Body.wireType]

/-- The field `number` holding `content`, canonically encoded. -/
def ofBytes (number : Nat) (content : List UInt8) (hnumber : 0 < number)
    (htag : 8 * number + 2 < 2 ^ 64) (hcontent : content.length < 2 ^ 64) : Field where
  tag := Varint.ofNat (8 * number + 2) htag
  body := .bytes (Varint.ofNat content.length hcontent) content (Varint.value_ofNat _ _)
  number_ne_zero := by rw [Varint.value_ofNat]; omega
  type_eq := by rw [Varint.value_ofNat]; simp [Body.wireType]

section Canonical

variable {n : Nat} (hnumber : 0 < n)

/-- A tag says number and wire type. -/
theorem tag_value (f : Field) : f.tag.value = 8 * f.number + f.body.wireType := by
  rw [← f.type_eq, number]
  omega

/-- A field that holds a number is no shorter than the canonical one. -/
theorem length_ofVarint_le {value : Nat} (htag : 8 * n < 2 ^ 64) (hvalue : value < 2 ^ 64)
    {g : Field} (hg : g.number = n) {w : Nat} (hw : g.varint? = some w)
    (hle : (encode value).length ≤ (encode w).length) :
    (ofVarint n value hnumber htag hvalue).wire.length ≤ g.wire.length := by
  have htags := g.tag_value
  cases hbody : g.body with
  | varint v =>
    rw [hbody, hg] at htags
    have hv : v.value = w := by simpa [varint?, hbody] using hw
    have htaglen := length_encode_value_le g.tag.length_pos
    have hvlen := length_encode_value_le v.length_pos
    rw [show Base128.value g.tag.bytes = 8 * n from htags] at htaglen
    rw [show Base128.value v.bytes = w from hv] at hvlen
    simp only [wire, ofVarint, Body.wire, hbody, List.length_append, Varint.ofNat]
    omega
  | fixed64 | bytes | fixed32 => simp [varint?, hbody] at hw

/-- A field that holds a content is no shorter than the canonical one. -/
theorem length_ofBytes_le {content : List UInt8} (htag : 8 * n + 2 < 2 ^ 64)
    (hcontent : content.length < 2 ^ 64) {g : Field} (hg : g.number = n)
    (hget : g.content? = some content) :
    (ofBytes n content hnumber htag hcontent).wire.length ≤ g.wire.length := by
  have htags := g.tag_value
  cases hbody : g.body with
  | bytes len raw hlen =>
    rw [hbody, hg] at htags
    obtain rfl : raw = content := by simpa [content?, hbody] using hget
    have htaglen := length_encode_value_le g.tag.length_pos
    have hvlen := length_encode_value_le len.length_pos
    rw [show Base128.value g.tag.bytes = 8 * n + 2 from htags] at htaglen
    rw [show Base128.value len.bytes = raw.length from hlen] at hvlen
    simp only [wire, ofBytes, Body.wire, hbody, List.length_append, Varint.ofNat]
    omega
  | varint | fixed64 | fixed32 => simp [content?, hbody] at hget

end Canonical

end Field

/-! ## Field sequences -/

/-- The bytes of a sequence of fields: their concatenation. -/
def wire (fields : List Field) : List UInt8 := fields.flatMap Field.wire

@[simp] theorem wire_nil : wire [] = [] := rfl

@[simp] theorem wire_cons (f : Field) (fields : List Field) :
    wire (f :: fields) = f.wire ++ wire fields := rfl

/-- **One parse.** Two field sequences with the same bytes are the same sequence. -/
theorem wire_injective : Function.Injective wire := by
  intro fields
  induction fields with
  | nil =>
    intro more h
    cases more with
    | nil => rfl
    | cons g more =>
      have := congrArg List.length h
      have := g.length_wire_pos
      simp only [wire_nil, wire_cons, List.length_nil, List.length_append] at *
      omega
  | cons f fields ih =>
    intro more h
    cases more with
    | nil =>
      have := congrArg List.length h
      have := f.length_wire_pos
      simp only [wire_nil, wire_cons, List.length_nil, List.length_append] at *
      omega
    | cons g more =>
      obtain ⟨rfl, hrest⟩ := Field.append_inj h
      rw [ih hrest]

theorem wire_append (fields more : List Field) : wire (fields ++ more) = wire fields ++ wire more :=
  List.flatMap_append

/-- A sequence whose bytes start with those of another starts with it. Induction on the other. -/
theorem exists_append_of_wire {before fields : List Field} {bytes : List UInt8}
    (h : wire fields = wire before ++ bytes) : ∃ rest, fields = before ++ rest ∧ wire rest = bytes := by
  induction before generalizing fields with
  | nil => exact ⟨fields, rfl, h⟩
  | cons f before ih =>
    rw [wire_cons, List.append_assoc] at h
    cases fields with
    | nil =>
      have hlength := congrArg List.length h
      have hpos := f.length_wire_pos
      simp only [wire_nil, List.length_nil, List.length_append] at hlength
      omega
    | cons g fields =>
      obtain ⟨rfl, htail⟩ := Field.append_inj h
      obtain ⟨rest, rfl, hrest⟩ := ih htail
      exact ⟨rest, rfl, hrest⟩

/-- A field is a part of its sequence. -/
theorem length_wire_le_of_mem {fields : List Field} {f : Field} (hf : f ∈ fields) :
    f.wire.length ≤ (wire fields).length := by
  obtain ⟨before, after, rfl⟩ := List.append_of_mem hf
  rw [wire_append, wire_cons, List.length_append, List.length_append]
  omega

/-- Fields of different numbers, each no longer than one of its number in another sequence, are
together no longer than that sequence. Induction on the fields: those of the first one's number are
set aside. -/
theorem length_wire_le {short : List Field} (hdistinct : short.Pairwise (·.number ≠ ·.number))
    {fields : List Field}
    (hcover : ∀ f ∈ short, ∃ g ∈ fields, g.number = f.number ∧ f.wire.length ≤ g.wire.length) :
    (wire short).length ≤ (wire fields).length := by
  induction short generalizing fields with
  | nil => exact Nat.zero_le _
  | cons f short ih =>
    obtain ⟨hne, hdistinct⟩ := List.pairwise_cons.mp hdistinct
    obtain ⟨⟨g, hg, hnumber, hle⟩, hcover⟩ := List.forall_mem_cons.mp hcover
    have hperm := List.filter_append_perm (fun g : Field => g.number == f.number) fields
    have hsplit := (hperm.flatMap_right Field.wire).length_eq
    rw [List.flatMap_append, List.length_append] at hsplit
    have hmem : g ∈ fields.filter fun g => g.number == f.number :=
      List.mem_filter.mpr ⟨hg, beq_iff_eq.mpr hnumber⟩
    have hone := length_wire_le_of_mem hmem
    have hothers : ∀ f' ∈ short, ∃ g' ∈ fields.filter fun g => !(g.number == f.number),
        g'.number = f'.number ∧ f'.wire.length ≤ g'.wire.length := by
      intro f' hf'
      obtain ⟨g', hg', hnumber', hle'⟩ := hcover f' hf'
      have hne' : g'.number ≠ f.number := by rw [hnumber']; exact (hne f' hf').symm
      exact ⟨g', List.mem_filter.mpr ⟨hg', by simpa using hne'⟩, hnumber', hle'⟩
    have hrest := ih hdistinct hothers
    rw [wire_cons, List.length_append]
    unfold wire at hone hrest ⊢
    omega

/-! ## Last occurrences

A last-wins decoder of fields reads, for each field number it knows, the body of the last
field that carries it. -/

/-- What the last field numbered `n` holds, as read by `get?`; `none` when no such field does. -/
def lastOf {α : Type*} (get? : Field → Option α) (n : Nat) (fields : List Field) : Option α :=
  (fields.filterMap fun f => if f.number = n then get? f else none).getLast?

section LastOf

variable {α : Type*} (get? : Field → Option α) (n : Nat)

@[simp] theorem lastOf_nil : lastOf get? n [] = none := rfl

/-- Appending one more field replaces the last occurrence exactly when it has number `n` and
`get?` reads it. -/
theorem lastOf_concat (fields : List Field) (f : Field) :
    lastOf get? n (fields ++ [f])
      = if f.number = n then (get? f).or (lastOf get? n fields) else lastOf get? n fields := by
  unfold lastOf
  rw [List.filterMap_append, List.getLast?_append]
  by_cases hf : f.number = n
  · cases hget : get? f <;> simp [hf, hget]
  · simp [hf]

/-- What is left comes from a field of the sequence. -/
theorem exists_of_lastOf_eq_some {fields : List Field} {a : α} (h : lastOf get? n fields = some a) :
    ∃ f ∈ fields, f.number = n ∧ get? f = some a := by
  obtain ⟨f, hf, hget⟩ := List.mem_filterMap.mp (List.mem_of_getLast? h)
  exact ⟨f, hf, by simpa using hget⟩

/-- What is left is part of the sequence. -/
theorem length_getD_lastOf_le (fields : List Field) :
    ((lastOf Field.content? n fields).getD []).length ≤ (wire fields).length := by
  cases hlast : lastOf Field.content? n fields with
  | none => exact Nat.zero_le _
  | some content =>
    obtain ⟨f, hf, -, hget⟩ := exists_of_lastOf_eq_some _ _ hlast
    exact Nat.le_trans (f.length_content_le hget) (length_wire_le_of_mem hf)

/-- In a concatenation the second part comes first. -/
theorem lastOf_append (fields more : List Field) :
    lastOf get? n (fields ++ more) = (lastOf get? n more).or (lastOf get? n fields) := by
  unfold lastOf
  rw [List.filterMap_append, List.getLast?_append]

/-- Where `get?` reads every field numbered `n`, only their absence leaves nothing. -/
theorem lastOf_eq_none_iff {fields : List Field}
    (hget : ∀ f ∈ fields, f.number = n → (get? f).isSome) :
    lastOf get? n fields = none ↔ ∀ f ∈ fields, f.number ≠ n := by
  unfold lastOf
  rw [List.getLast?_eq_none_iff, List.filterMap_eq_nil_iff]
  refine forall₂_congr fun f hf => ?_
  by_cases hn : f.number = n
  · simp [hn, Option.isSome_iff_ne_none.mp (hget f hf hn)]
  · simp [hn]

/-- So it decides what the fields numbered `n` leave, when it has any. -/
theorem getD_lastOf_append {fields more : List Field}
    (hget : ∀ f ∈ more, f.number = n → (get? f).isSome) (d : α) :
    (lastOf get? n (fields ++ more)).getD d
      = if more.any (·.number == n) then (lastOf get? n more).getD d
        else (lastOf get? n fields).getD d := by
  have hnone := lastOf_eq_none_iff get? n hget
  rw [lastOf_append]
  cases hlast : lastOf get? n more with
  | none =>
    rw [hlast, eq_self_iff_true, true_iff] at hnone
    rw [if_neg (by simpa using hnone), Option.none_or]
  | some a =>
    rw [hlast] at hnone
    rw [if_pos (by simpa using hnone), Option.some_or, Option.getD_some]

/-- Fields of other numbers do not matter. -/
theorem lastOf_filter (known : Nat → Bool) (hn : known n = true) (fields : List Field) :
    lastOf get? n (fields.filter fun f => known f.number) = lastOf get? n fields := by
  unfold lastOf
  rw [List.filterMap_filter]
  congr 1
  refine List.filterMap_congr fun f _ => ?_
  by_cases hf : f.number = n
  · simp [hf, hn]
  · simp [hf]

end LastOf

end Base128
