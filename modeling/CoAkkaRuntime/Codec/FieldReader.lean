import CoAkkaRuntime.Models
import CoAkkaRuntime.Throwing.Exec

/-!
# Codec — the `FieldReader` cursor

`FieldReader` of `RuntimeEnvelopeCodec.swift`: an offset into a buffer, moved by reads that
may throw. A throwing Swift method keeps the mutations it made before it threw, so a
reader method is a state transformer *under* an exception: `FieldM α` returns the reader
in every case.

What would trap in Swift is part of the model. A subscript outside the buffer and an
`Int` that leaves the 64-bit range end in `Fault.trapped`; the checked operations below are
the only places a read can get there. The `while` loops carry fuel, and running out of it is
`Fault.unfinished`, a third outcome that no source behaviour corresponds to.
-/

namespace CoAkka.Codec

/-- How a decoding run ends without a value. -/
inductive Fault where
  | thrown (error : RuntimeError)
  | trapped
  | unfinished
  deriving DecidableEq, Repr

structure FieldReader where
  bytes : Data
  offset : Nat

structure FieldTag where
  number : Nat
  type : Nat
  deriving DecidableEq, Repr

abbrev FieldM := ExceptT Fault (StateM FieldReader)

def fieldVarint : Nat := 0
def fieldBytes : Nat := 2

/-! ## Checked Swift operations

Each of them traps where Swift does.
-/

def raise {α : Type} (message : String) : FieldM α :=
  throw (.thrown (.invalidArgument message))

/-- Swift `Int` addition of two non-negative values: traps on overflow. -/
def addInt (a b : Nat) : FieldM Nat :=
  if a + b < 2 ^ 63 then pure (a + b) else throw .trapped

/-- `Int(value)`: traps on a value `Int` cannot hold. -/
def intOf (value : UInt64) : FieldM Nat :=
  if value.toNat < 2 ^ 63 then pure value.toNat else throw .trapped

/-- `Int(exactly:)`: `nil` on a value `Int` cannot hold. -/
def intExactly (value : UInt64) : Option Nat :=
  if value.toNat < 2 ^ 63 then some value.toNat else none

/-- `bytes[offset]`: traps outside the buffer. -/
def subscript (bytes : Data) (offset : Nat) : FieldM UInt8 :=
  match bytes.bytes[offset]? with
  | some byte => pure byte
  | none => throw .trapped

/-- `Data(bytes[start..<stop])`: traps unless `start ≤ stop ≤ count`. -/
def subrange (bytes : Data) (start stop : Nat) : FieldM Data :=
  if start ≤ stop ∧ stop ≤ bytes.count then pure (bytes.slice start stop) else throw .trapped

def setOffset (offset : Nat) : FieldM Unit := modify fun r => { r with offset }

/-! ## The reader's methods -/

namespace FieldReader

def init (data : Data) : FieldReader := ⟨data, 0⟩

/-- The `while offset < bytes.count` loop of `readVarintRaw`, entered with the accumulated
`result` and the current `shift`. -/
def readVarintLoop : Nat → UInt64 → UInt64 → FieldM UInt64
  | 0, _, _ => throw .unfinished
  | fuel + 1, result, shift => do
    let r ← get
    if r.offset < r.bytes.count then
      let byte ← subscript r.bytes r.offset
      setOffset (← addInt r.offset 1)
      if ¬ (shift ≠ 63 ∨ byte ≤ 1) then
        raise "field value is too large"
      let result := result ||| (byte &&& 0x7f).toUInt64 <<< shift
      if byte &&& 0x80 = 0 then
        return result
      let shift := shift + 7
      if shift ≥ 64 then
        raise "field value is too large"
      readVarintLoop fuel result shift
    else
      raise "truncated field"

/-- Every iteration consumes a byte, so one more than the buffer's length is fuel enough. -/
def readVarintRaw : FieldM UInt64 := do
  let r ← get
  readVarintLoop (r.bytes.count + 1) 0 0

def nextTag : FieldM (Option FieldTag) := do
  let r ← get
  if ¬ r.offset < r.bytes.count then
    return none
  let value ← readVarintRaw
  if ¬ value >>> 3 ≠ 0 then
    raise "invalid field tag"
  return some ⟨← intOf (value >>> 3), ← intOf (value &&& 0x7)⟩

def readVarint (expected : Nat) : FieldM UInt64 := do
  if ¬ expected = fieldVarint then
    raise s!"unexpected field type {expected}"
  readVarintRaw

def readBytes (expected : Nat) : FieldM Data := do
  if ¬ expected = fieldBytes then
    raise s!"unexpected field type {expected}"
  let value ← readVarintRaw
  let r ← get
  match intExactly value with
  | none => raise "truncated field"
  | some length =>
    if ¬ length ≤ r.bytes.count - r.offset then
      raise "truncated field"
    let stop ← addInt r.offset length
    let content ← subrange r.bytes r.offset stop
    setOffset stop
    return content

def readString (expected : Nat) : FieldM String := do
  match (← readBytes expected).utf8? with
  | some text => return text
  | none => raise "invalid UTF-8 field"

def skip (type : Nat) : FieldM Unit := do
  if type = fieldVarint then
    let _ ← readVarintRaw
  else if type = fieldBytes then
    let _ ← readBytes type
  else if type = 1 ∨ type = 5 then
    let size := if type = 1 then 8 else 4
    let r ← get
    if ¬ size ≤ r.bytes.count - r.offset then
      raise "truncated fixed field"
    setOffset (← addInt r.offset size)
  else
    raise s!"unsupported field type {type}"

end FieldReader

end CoAkka.Codec
