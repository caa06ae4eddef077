import CoAkkaRuntime.Stream.AdmittedKeys
import CoAkkaRuntime.Text.Numbered
import CoAkkaRuntime.Unicode.CanonicalEquivalence

/-!
# Stream — which records the owners tell apart

`StreamCallbackKey` is hashed by Swift's `String ==`, which is canonical equivalence. Core gets the
session id as a C string and tells records apart by its bytes. The two notions differ: U+212A KELVIN
SIGN is equal to the letter K for Swift, and three other bytes for Core.

The owners are told apart from Core's records by what Core admits as an identifier. A session id is
1 to 64 bytes of `[A-Za-z0-9._-]`, and any other is refused with `INVALID_ARG` before Core looks for a
record. Identifiers of these bytes are ASCII, which normalization leaves alone, so that two of them
are canonically equivalent only where they are the same bytes. What Core admits and that ASCII is
left alone are hypotheses here: Core and the character database are not part of this repository's
code.

* `record_of_ident` — of admitted keys, equal for Swift means the same record for Core.
* `streamCallbackKeys_distinguish` — so every context that Core retains is rooted under the key of
  its record, and a refused or unreceived call under an equal key takes nothing away from it.
* `streamCallbackKeys_distinguish_kelvin` — the two ids of the example, which meet in the table.
-/

namespace CoAkka.Stream

open Throwing Unicode

/-! ## Session ids and keys -/

/-- A session id as it reaches the owners: every caller validates it first. -/
structure SessionID where
  text : String
  valid : validateCString text "session ID" = .ok ()

/-- What a `StreamCallbackKey` is compared by: Swift strings are equal when they are canonically
equivalent. -/
def StreamCallbackKey.ident (db : CharacterDatabase) (key : StreamCallbackKey SessionID) :
    List Char × StreamDirection :=
  (db.nfd key.id.text, key.direction)

/-- What C reads of a Swift string: its UTF-8 bytes up to the first zero. -/
def cString (value : String) : List UInt8 :=
  value.toByteArray.data.toList.takeWhile (· ≠ 0)

/-- What Core tells records apart by. -/
def StreamCallbackKey.record (key : StreamCallbackKey SessionID) : List UInt8 × StreamDirection :=
  (cString key.id.text, key.direction)

/-- A validated id crosses whole. -/
theorem cString_valid (id : SessionID) : cString id.text = id.text.toByteArray.data.toList :=
  takeWhile_ne_zero (validateCString_eq_ok_iff.mp id.valid).1

/-- A record of Core is one key of the owners, whatever the database says. -/
theorem ident_of_record (db : CharacterDatabase) {key key' : StreamCallbackKey SessionID}
    (h : key.record = key'.record) : key.ident db = key'.ident db := by
  obtain ⟨hbytes, hdirection⟩ := Prod.ext_iff.mp h
  simp only [StreamCallbackKey.record, cString_valid] at hbytes hdirection
  have htext : key.id.text = key'.id.text := by
    rw [← String.toByteArray_inj]
    exact ByteArray.ext (Array.toList_inj.mp hbytes)
  rw [StreamCallbackKey.ident, StreamCallbackKey.ident, htext, hdirection]

/-! ## The identifiers that Core admits -/

/-- `[A-Za-z0-9._-]`. -/
def isIdByte (b : UInt8) : Bool :=
  (0x41 ≤ b ∧ b ≤ 0x5a) ∨ (0x61 ≤ b ∧ b ≤ 0x7a) ∨ (0x30 ≤ b ∧ b ≤ 0x39) ∨
    b = 0x2e ∨ b = 0x5f ∨ b = 0x2d

/-- What is relied on of Core: the identifiers it admits are 1 to 64 bytes of its alphabet. -/
structure IdAlphabet (admits : List UInt8 → Prop) : Prop where
  length : ∀ id, admits id → 1 ≤ id.length ∧ id.length ≤ 64
  bytes : ∀ id, admits id → ∀ b ∈ id, isIdByte b

/-- Core admits a key by what it receives of the session id. -/
def StreamCallbackKey.Admitted (admits : List UInt8 → Prop) (key : StreamCallbackKey SessionID) :
    Prop :=
  admits (cString key.id.text)

/-- The alphabet is ASCII. -/
theorem lt_of_isIdByte {b : UInt8} (h : isIdByte b) : b.toNat < 128 := by
  simp only [isIdByte, UInt8.le_iff_toNat_le, ← UInt8.toNat_inj, decide_eq_true_eq] at h
  have h41 : (0x5a : UInt8).toNat = 90 := rfl
  have h61 : (0x7a : UInt8).toNat = 122 := rfl
  have h30 : (0x39 : UInt8).toNat = 57 := rfl
  have h2e : (0x2e : UInt8).toNat = 46 := rfl
  have h5f : (0x5f : UInt8).toNat = 95 := rfl
  have h2d : (0x2d : UInt8).toNat = 45 := rfl
  omega

/-- An admitted id is one of ASCII characters. -/
theorem ascii_of_admitted {admits : List UInt8 → Prop} (hadmits : IdAlphabet admits)
    {key : StreamCallbackKey SessionID} (h : key.Admitted admits) :
    ∀ c ∈ key.id.text.toList, c.toNat < 128 := by
  refine Text.ascii_of_toByteArray fun b hb => lt_of_isIdByte (hadmits.bytes _ h b ?_)
  rwa [cString_valid]

/-- **On what Core admits the two notions agree.** -/
theorem record_of_ident {db : CharacterDatabase} (hascii : ∀ c : Char, c.toNat < 128 → db.Inert c)
    {admits : List UInt8 → Prop} (hadmits : IdAlphabet admits)
    {key key' : StreamCallbackKey SessionID} (hkey : key.Admitted admits)
    (hkey' : key'.Admitted admits) (h : key.ident db = key'.ident db) : key.record = key'.record := by
  obtain ⟨hnfd, hdirection⟩ := Prod.ext_iff.mp h
  have hinert : ∀ {key : StreamCallbackKey SessionID}, key.Admitted admits →
      db.nfd key.id.text = key.id.text.toList := fun hkey =>
    CharacterDatabase.nfd_of_inert fun c hc => hascii c (ascii_of_admitted hadmits hkey c hc)
  have htext : key.id.text = key'.id.text := by
    refine String.toList_inj.mp ?_
    rw [← hinert hkey, ← hinert hkey']
    exact hnfd
  exact Prod.ext (by rw [StreamCallbackKey.record, StreamCallbackKey.record, htext]) hdirection

/-! ## What the owners distinguish -/

/-- The runs of one lane's owners over a Core that refuses what it does not admit. -/
def streamCallbackSystem (db : CharacterDatabase) (admits : List UInt8 → Prop) (Root : Type) :
    Transition.System
      (CoreLane (StreamCallbackKey.ident db) (List UInt8 × StreamDirection) Root)
      (CoreEvent (StreamCallbackKey SessionID) Root) :=
  (coreSystem (StreamCallbackKey.ident db) StreamCallbackKey.record Root).restrict
    (refusing (StreamCallbackKey.Admitted admits))

/-- **The owners of one lane distinguish exactly the records Core distinguishes.** In every state of
every run two keys that Core has records for are one key of the owners only where they are one
record, and no admission, replacement or forgetting under another key has released the root of a
record that Core retains: the table holds it under the record's own key. -/
theorem streamCallbackKeys_distinguish {db : CharacterDatabase}
    (hascii : ∀ c : Char, c.toNat < 128 → db.Inert c) {admits : List UInt8 → Prop}
    (hadmits : IdAlphabet admits) {Root : Type}
    {s : CoreLane (StreamCallbackKey.ident db) (List UInt8 × StreamDirection) Root}
    (hs : (streamCallbackSystem db admits Root).Reachable s) :
    (∀ key key', s.records (StreamCallbackKey.record key) ≠ none →
      s.records (StreamCallbackKey.record key') ≠ none →
      (key.ident db = key'.ident db ↔ key.record = key'.record)) ∧
    ∀ record root, s.records record = some root → (∃ key, StreamCallbackKey.record key = record) ∧
      ∀ key, StreamCallbackKey.record key = record → Rooted s.callbacks key root := by
  have hname : ∀ k k' : StreamCallbackKey SessionID, k.record = k'.record →
      k.ident db = k'.ident db := fun _ _ h => ident_of_record db h
  have hseparated : ∀ k k' : StreamCallbackKey SessionID, k.Admitted admits → k'.Admitted admits →
      k.ident db = k'.ident db → k.record = k'.record :=
    fun _ _ hk hk' h => record_of_ident hascii hadmits hk hk' h
  -- a record is only ever made for an id that Core admits
  have hrecords : ∀ key, s.records (StreamCallbackKey.record key) ≠ none →
      key.Admitted admits := by
    intro key hkey
    obtain ⟨admitted, hadmitted, hrecord⟩ := (onlyAdmissible_reachable hs).records _ hkey
    have hbytes : cString admitted.id.text = cString key.id.text := congrArg Prod.fst hrecord
    rwa [StreamCallbackKey.Admitted, ← hbytes]
  refine ⟨fun key key' hkey hkey' => ⟨?_, hname key key'⟩, fun record root hroot => ⟨?_, ?_⟩⟩
  · exact hseparated key key' (hrecords key hkey) (hrecords key' hkey')
  · have hsome : s.records record ≠ none := by simp [hroot]
    obtain ⟨key, -, hrecord⟩ := (onlyAdmissible_reachable hs).records record hsome
    exact ⟨key, hrecord⟩
  · rintro key rfl
    exact rooted_of_admissible hname hseparated hs (hrecords key (by simp [hroot])) hroot

/-! ### The letter K and the Kelvin sign -/

/-- The rows of the character database for U+212A and what it decomposes to. -/
def kelvinExcerpt : CharacterDatabase where
  decomposition c := if c = '\u212a' then ['K'] else [c]
  combiningClass _ := 0

def letterKey : StreamCallbackKey SessionID := ⟨⟨"K", by rfl⟩, .publish⟩

def kelvinKey : StreamCallbackKey SessionID := ⟨⟨"\u212a", by rfl⟩, .publish⟩

/-- The excerpt leaves ASCII alone, as the database does. -/
theorem kelvinExcerpt_ascii (c : Char) (h : c.toNat < 128) : kelvinExcerpt.Inert c := by
  have hhangul : CharacterDatabase.isHangulSyllable c = false := by
    simp only [CharacterDatabase.isHangulSyllable, decide_eq_false_iff_not]
    omega
  have hkelvin : c ≠ '\u212a' := by
    rintro rfl
    exact absurd h (by decide)
  refine ⟨?_, rfl⟩
  simp [CharacterDatabase.decompose, hhangul, kelvinExcerpt, hkelvin]

/-- For Swift the sign is the letter. -/
theorem ident_kelvinKey : kelvinKey.ident kelvinExcerpt = letterKey.ident kelvinExcerpt := by rfl

/-- Core's alphabet, as it is. -/
def admitsIds (id : List UInt8) : Prop :=
  (1 ≤ id.length ∧ id.length ≤ 64) ∧ ∀ b ∈ id, isIdByte b

/-- It satisfies what is relied on. -/
theorem idAlphabet_admitsIds : IdAlphabet admitsIds :=
  ⟨fun _ h => h.1, fun _ h => h.2⟩

theorem admitted_letterKey : letterKey.Admitted admitsIds := by
  have hid : cString letterKey.id.text = [0x4b] := by rfl
  have hlength : [(0x4b : UInt8)].length = 1 := by rfl
  unfold StreamCallbackKey.Admitted admitsIds
  rw [hid, hlength]
  refine ⟨⟨by omega, by omega⟩, fun b hb => ?_⟩
  rw [List.mem_singleton] at hb
  subst hb
  rfl

/-- The lane after an admission of the letter, and a refused one of the sign, which is the same entry
for the owners. -/
def letterRetained :
    CoreLane (StreamCallbackKey.ident kelvinExcerpt) (List UInt8 × StreamDirection) Nat where
  callbacks :=
    { owners :=
        { limit := 2
          entries := ((Dictionary.empty.set letterKey 0).set kelvinKey 1).set kelvinKey 0
          heap := [⟨10, none, some 0⟩, ⟨20, some 0, some Status.invalidArg⟩] }
      retired := [1]
      pending := none }
  records := fun n => if n = letterKey.record then some 10 else none
  admitted := false

theorem reachable_letterRetained :
    (streamCallbackSystem kelvinExcerpt admitsIds Nat).Reachable letterRetained := by
  let T := streamCallbackSystem kelvinExcerpt admitsIds Nat
  let records : List UInt8 × StreamDirection → Option Nat :=
    fun n => if n = letterKey.record then some 10 else none
  let owners (entries : Dictionary (StreamCallbackKey.ident kelvinExcerpt) Nat)
      (heap : List (Entry Nat)) : StreamCallbackOwners (StreamCallbackKey.ident kelvinExcerpt) Nat :=
    { limit := 2, entries, heap }
  let one : Dictionary (StreamCallbackKey.ident kelvinExcerpt) Nat := Dictionary.empty.set letterKey 0
  have hinit : T.Reachable ⟨⟨owners .empty [], [], none⟩, fun _ => none, false⟩ :=
    .init ⟨⟨1, _, rfl, rfl⟩, fun _ => rfl, rfl⟩
  have hcalling : T.Reachable
      ⟨⟨owners one [⟨10, none, none⟩], [], some ⟨letterKey, 0, none⟩⟩, fun _ => none, false⟩ :=
    hinit.step (a := .callback (.publish letterKey 10 fun _ => Status.badState))
      ⟨trivial, .publish letterKey 10 _ _ _ rfl (fun _ => .inl rfl)
        fun _ => ⟨fun _ => rfl, fun _ => rfl⟩⟩
  have haccepted : T.Reachable
      ⟨⟨owners one [⟨10, none, none⟩], [], some ⟨letterKey, 0, none⟩⟩, records, true⟩ :=
    hcalling.step (a := .accept)
      ⟨fun c hc => by cases hc; exact admitted_letterKey,
        .accept ⟨letterKey, 0, none⟩ 10 _ rfl rfl rfl rfl fun n hn => .inl (if_neg hn)⟩
  have hletter : T.Reachable ⟨⟨owners one [⟨10, none, some 0⟩], [], none⟩, records, false⟩ :=
    haccepted.step (a := .callback (.received 0 (presenceOf StreamCallbackKey.record records)))
      ⟨trivial, .accepted _ _ _ rfl rfl (fun _ => .inr rfl) (answers_presenceOf _ _)⟩
  -- Core refuses the sign before it looks for a record
  have hsign : T.Reachable
      ⟨⟨owners (one.set kelvinKey 1) [⟨10, none, some 0⟩, ⟨20, some 0, none⟩], [],
        some ⟨kelvinKey, 1, some 0⟩⟩, records, false⟩ :=
    hletter.step
      (a := .callback (.publish kelvinKey 20 (presenceOf StreamCallbackKey.record records)))
      ⟨trivial, .publish kelvinKey 20 _ _ _ rfl (fun _ => .inr rfl) (answers_presenceOf _ _)⟩
  exact hsign.step (a := .callback (.received Status.invalidArg fun _ => 0))
    ⟨trivial, .refused Status.invalidArg _ _ (by decide) rfl rfl⟩

/-- To the owners the sign is the letter, and yet its refusal leaves the letter's root in place. -/
theorem streamCallbackKeys_distinguish_kelvin :
    kelvinKey.ident kelvinExcerpt = letterKey.ident kelvinExcerpt ∧
      Rooted letterRetained.callbacks letterKey 10 :=
  ⟨ident_kelvinKey, ((streamCallbackKeys_distinguish kelvinExcerpt_ascii idAlphabet_admitsIds
    reachable_letterRetained).2 letterKey.record 10 (by simp [letterRetained])).2 letterKey rfl⟩

end CoAkka.Stream
