import Mathlib.Algebra.Group.Int.Defs
import Mathlib.Algebra.Group.Nat.Defs
import Mathlib.Data.List.TakeWhile
import Mathlib.Tactic.Common

/-!
# CoAkkaRuntime — values shared by every subsystem

The byte buffers, errors and native status codes the connector's operations exchange
(`RuntimeModels.swift`, and the status enumeration of `coakka_runtime_bridge.h`). Sizes
follow the supported targets, all 64-bit: a Swift `Int` reaches `2 ^ 63 - 1`.
-/

namespace CoAkka

/-! ## Byte buffers -/

/-- Decoding is the inverse of encoding. -/
theorem fromUTF8?_eq_some_iff {bytes : ByteArray} {s : String} :
    String.fromUTF8? bytes = some s ↔ s.toByteArray = bytes := by
  unfold String.fromUTF8?
  split
  · rw [Option.some.injEq, ← String.toByteArray_inj, eq_comm]
    rfl
  · next hinvalid =>
    refine ⟨fun h => absurd h (by simp), fun h => absurd ?_ hinvalid⟩
    rw [← h]
    exact s.isValidUTF8

/-- A zero-based Foundation `Data`. Its `count` is a Swift `Int`, so no buffer is longer than
`Int.max`. -/
@[ext] structure Data where
  bytes : List UInt8
  count_lt : bytes.length < 2 ^ 63
  deriving DecidableEq

namespace Data

def count (d : Data) : Nat := d.bytes.length

def empty : Data := ⟨[], by decide⟩

/-- `Data(bytes[start..<stop])`: an owned copy of a slice. -/
def slice (d : Data) (start stop : Nat) : Data where
  bytes := (d.bytes.drop start).take (stop - start)
  count_lt := by
    have := d.count_lt
    simp only [List.length_take, List.length_drop]
    omega

/-- `String(data:encoding:.utf8)`: the bytes unchanged when they are UTF-8, `nil` otherwise. -/
def utf8? (d : Data) : Option String := String.fromUTF8? ⟨d.bytes.toArray⟩

/-- Decoding keeps the bytes. -/
theorem utf8?_eq_some_iff {d : Data} {s : String} :
    d.utf8? = some s ↔ s.toByteArray = ⟨d.bytes.toArray⟩ :=
  fromUTF8?_eq_some_iff

/-- Bytes decode exactly where they are UTF-8. -/
theorem isSome_utf8?_iff {d : Data} :
    d.utf8?.isSome ↔ (⟨d.bytes.toArray⟩ : ByteArray).IsValidUTF8 := by
  unfold utf8? String.fromUTF8?
  split <;> simp_all

end Data

/-! ## Errors -/

structure RuntimeDeadletter where
  reasonCode : UInt32
  reason : String
  detail : String
  originalMessageID : String
  originalSource : String
  originalTarget : String
  deriving DecidableEq, Repr

/-- `TcpSecurityApplyResult`, less the name of the reason and the description of the credentials in
use. -/
structure TcpSecurityApplyResult where
  status : Int32
  changed : Bool
  reason : UInt32
  runtimeState : UInt32
  validationCode : UInt32
  validationField : UInt64
  deriving DecidableEq, Repr

/-- `RuntimeError`, less `tcpConnectionApply`, which carries the result record of an operation that
is not modelled. -/
inductive RuntimeError where
  | invalidArgument (message : String)
  | loadFailed (message : String)
  | nativeStatus (status : Int32) (operation : String)
  | unsupportedABI (version : UInt32)
  | alreadyStarted
  | closed
  | timeout (messageID : String)
  | deadletter (value : RuntimeDeadletter)
  | resourceLimit (message : String)
  | shutdown (message : String)
  | contractViolation (message : String)
  | nativeCreationRefused (message : String)
  | tcpSecurityApply (result : TcpSecurityApplyResult)
  deriving DecidableEq, Repr

/-! ## Text handed to C

A text with a NUL would end early for C, so it is refused.
-/

/-- `validateCString`. -/
def validateCString (value name : String) : Except RuntimeError Unit :=
  if value.toByteArray.data.toList.contains 0 then
    .error (.invalidArgument s!"{name} must not contain NUL")
  else if 2 ^ 31 - 1 < value.toByteArray.size then
    .error (.invalidArgument s!"{name} exceeds native string bounds")
  else
    .ok ()

/-- What C can take: no NUL, and a length that a C `int` holds. -/
theorem validateCString_eq_ok_iff {value name : String} :
    validateCString value name = .ok () ↔
      0 ∉ value.toByteArray.data.toList ∧ value.utf8ByteSize ≤ 2 ^ 31 - 1 := by
  unfold validateCString
  split
  · next hnul =>
    exact ⟨fun h => (by cases h), fun h => absurd (List.contains_iff_mem.mp hnul) h.1⟩
  · next hnul =>
    have hmem := mt List.contains_iff_mem.mpr hnul
    split
    · next hlong => exact ⟨fun h => (by cases h), fun h => absurd h.2 (Nat.not_le.mpr hlong)⟩
    · next hshort => exact ⟨fun _ => ⟨hmem, Nat.not_lt.mp hshort⟩, fun _ => rfl⟩

/-- The reading up to the first zero of a text without zeros is the text. -/
theorem takeWhile_ne_zero {bytes : List UInt8} (h : 0 ∉ bytes) :
    bytes.takeWhile (· ≠ 0) = bytes := by
  apply List.takeWhile_eq_self_iff.mpr
  intro b hb
  rw [decide_eq_true_eq]
  rintro rfl
  exact h hb

/-! ## Native statuses

The bridge's and Core's status codes that the connector tests for. -/

namespace Status

def ok : Int32 := 0
def invalidArg : Int32 := -1
def noMem : Int32 := -2
def badState : Int32 := -3
def wouldBlock : Int32 := -6
def closed : Int32 := -7
def featureUnavailable : Int32 := -8
/-- A bridge answer, not Core's: the module could not be loaded. -/
def load : Int32 := -100
/-- A bridge answer, not Core's: the loaded module does not export the called symbol. -/
def symbol : Int32 := -101

end Status

/-- `throwIfNativeError`. -/
def throwIfNativeError (status : Int32) (operation : String) : Except RuntimeError Unit :=
  if status = Status.ok then .ok () else .error (.nativeStatus status operation)

end CoAkka
