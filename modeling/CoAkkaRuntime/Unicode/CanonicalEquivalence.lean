import Mathlib.Tactic.Common

/-!
# Unicode — canonical equivalence

Two strings are canonically equivalent when their full canonical decompositions, put into canonical
order, are the same sequence of scalar values (normalization form D). The decompositions of the
Hangul syllables are computed; every other property comes from the character database, which is a
parameter: the tables change with each version of the standard.

* `nfd` — the normal form, of a list of characters.
* `Inert`, `nfd_of_inert` — characters that decompose to themselves and are not reordered; a text of
  these is its own normal form.
-/

namespace Unicode

/-- The two character properties canonical equivalence rests on. -/
structure CharacterDatabase where
  /-- The full canonical decomposition of a character that is not a Hangul syllable, which is the
  character itself where it has none. -/
  decomposition : Char → List Char
  /-- `Canonical_Combining_Class`; zero for the characters that do not reorder. -/
  combiningClass : Char → Nat

namespace CharacterDatabase

variable (db : CharacterDatabase)

def isHangulSyllable (c : Char) : Bool := 0xac00 ≤ c.toNat ∧ c.toNat < 0xac00 + 11172

/-- The leading consonant, vowel and optional trailing consonant of a Hangul syllable. -/
def hangulDecomposition (c : Char) : List Char :=
  let index := c.toNat - 0xac00
  let leading := Char.ofNat (0x1100 + index / 588)
  let vowel := Char.ofNat (0x1161 + index % 588 / 28)
  if index % 28 = 0 then [leading, vowel]
  else [leading, vowel, Char.ofNat (0x11a7 + index % 28)]

def decompose (c : Char) : List Char :=
  if isHangulSyllable c then hangulDecomposition c else db.decomposition c

/-- Put a character in front of an ordered sequence, behind the marks it has to follow. -/
def insertOrdered (c : Char) : List Char → List Char
  | [] => [c]
  | d :: ds =>
    if 0 < db.combiningClass d ∧ db.combiningClass d < db.combiningClass c then
      d :: insertOrdered c ds
    else
      c :: d :: ds

/-- Canonical ordering: a stable sort of every run of characters of non-zero class. -/
def reorder (cs : List Char) : List Char := cs.foldr db.insertOrdered []

/-- Normalization form D, as a sequence of scalar values. -/
def nfd (s : String) : List Char := db.reorder (s.toList.flatMap db.decompose)

/-- A character that normalization leaves alone wherever it stands. -/
def Inert (c : Char) : Prop := db.decompose c = [c] ∧ db.combiningClass c = 0

variable {db}

/-- Nothing is moved in front of an inert character. -/
theorem insertOrdered_inert {c : Char} (h : db.Inert c) (cs : List Char) :
    db.insertOrdered c cs = c :: cs := by
  cases cs with
  | nil => rfl
  | cons d ds => rw [insertOrdered, if_neg (by rw [h.2]; omega)]

/-- A string of inert characters is its own normalization. -/
theorem nfd_of_inert {s : String} (h : ∀ c ∈ s.toList, db.Inert c) : db.nfd s = s.toList := by
  unfold nfd reorder
  generalize s.toList = cs at h
  induction cs with
  | nil => rfl
  | cons c cs ih =>
    rw [List.flatMap_cons, (h c List.mem_cons_self).1, List.singleton_append, List.foldr_cons,
      ih fun d hd => h d (List.mem_cons_of_mem _ hd), insertOrdered_inert (h c List.mem_cons_self)]

end CharacterDatabase

end Unicode
