import CoAkkaRuntime.Codec.EnvelopeCodec

/-!
# Codec — the decoders, watched

`RuntimeEnvelopeCodec.swift` once more, at the level of the machine: offsets and lengths are Swift
`Int`s, which are signed, shifts are Swift's, and every operation that could trap, lose bits or run
on leaves a `Probe` with the numbers it was applied to. `DecodeSafety.lean` shows that the probes
change nothing and that every one of them is `Safe`.

* `Probe` — one checked operation of the machine: an addition, a shift, a subscript, a conversion.
* `Probe.Safe` — that it does not trap in Swift.
* `ProbedM` — the decoders' monad with the record of probes, and the methods of the reader in it.

The probed decoder is the decoder with the record added; `DecodeSafety` proves that it is.
-/

namespace CoAkka.Codec.Probed

open Throwing

/-! ## Probes -/

inductive Probe where
  /-- A `FieldReader` method is entered or left, with or without an error. -/
  | cursor (offset count : Int)
  | subscript (index count : Int)
  | range (start stop count : Int)
  /-- The exact result of an operation whose value is an `Int`. -/
  | int (exact : Int)
  /-- The exact result of an addition of two `UInt64`s. -/
  | uint64 (exact : Nat)
  | shift (value amount : UInt64)
  /-- The branch `shift >= 64`. -/
  | overshift
  /-- A `readVarintRaw` loop is left after `bytes` bytes. -/
  | consumed (bytes : Int)
  /-- An iteration of a field loop that did not throw. -/
  | iteration (before after : Int)
  /-- A field loop is left after `iterations` iterations, one that threw included. -/
  | ended (iterations count : Nat)
  deriving DecidableEq, Repr

/-- Nothing traps, no bit is lost, and no loop runs on. -/
def Probe.Safe : Probe → Prop
  | .cursor offset count => 0 ≤ offset ∧ offset ≤ count
  | .subscript index count => 0 ≤ index ∧ index < count
  | .range start stop count => 0 ≤ start ∧ start ≤ stop ∧ stop ≤ count
  | .int exact => -2 ^ 63 ≤ exact ∧ exact < 2 ^ 63
  | .uint64 exact => exact < 2 ^ 64
  | .shift value amount => amount.toNat < 64 ∧ value.toNat * 2 ^ amount.toNat < 2 ^ 64
  | .overshift => False
  | .consumed bytes => bytes ≤ 10
  | .iteration before after => before < after
  | .ended iterations count => iterations ≤ count

structure Reader where
  bytes : Data
  offset : Int
  /-- The iterations of the field loop so far. -/
  iterations : Nat
  probes : List Probe

abbrev ProbedM := ExceptT Fault (StateM Reader)

def Reader.note (r : Reader) (p : Probe) : Reader := { r with probes := r.probes ++ [p] }

def note (p : Probe) : ProbedM Unit := modify fun r => r.note p

/-! ## Checked Swift operations

As in the reader, with a probe before the result.
-/

def raise {α : Type} (message : String) : ProbedM α :=
  throw (.thrown (.invalidArgument message))

/-- An `Int` operation with the mathematical result `exact`: traps when `Int` cannot hold it. -/
def int (exact : Int) : ProbedM Int := do
  note (.int exact)
  if -2 ^ 63 ≤ exact ∧ exact < 2 ^ 63 then pure exact else throw .trapped

def addInt (a b : Int) : ProbedM Int := int (a + b)

def subInt (a b : Int) : ProbedM Int := int (a - b)

/-- `Int(value)`. -/
def intOf (value : UInt64) : ProbedM Int := int value.toNat

/-- `Int(exactly:)`: `nil` on a value `Int` cannot hold. -/
def intExactly (value : UInt64) : ProbedM (Option Int) :=
  if value.toNat < 2 ^ 63 then some <$> int value.toNat else pure none

/-- `UInt64` addition: traps on overflow. -/
def addUInt64 (a b : UInt64) : ProbedM UInt64 := do
  note (.uint64 (a.toNat + b.toNat))
  if a.toNat + b.toNat < 2 ^ 64 then pure (a + b) else throw .trapped

/-- `value << amount`: from 64 on, Swift shifts every bit out. -/
def shiftLeft (value amount : UInt64) : ProbedM UInt64 := do
  note (.shift value amount)
  pure (if amount < 64 then value <<< amount else 0)

/-- `bytes[index]`: traps outside the buffer. -/
def subscript (bytes : Data) (index : Int) : ProbedM UInt8 := do
  note (.subscript index bytes.count)
  if 0 ≤ index then
    match bytes.bytes[index.toNat]? with
    | some byte => pure byte
    | none => throw .trapped
  else
    throw .trapped

/-- `Data(bytes[start..<stop])`: traps unless `0 ≤ start ≤ stop ≤ count`. -/
def subrange (bytes : Data) (start stop : Int) : ProbedM Data := do
  note (.range start stop bytes.count)
  if 0 ≤ start ∧ start ≤ stop ∧ stop ≤ bytes.count then
    pure (bytes.slice start.toNat stop.toNat)
  else
    throw .trapped

def setOffset (offset : Int) : ProbedM Unit := modify fun r => { r with offset }

/-- The cursor as it is. -/
def watch : StateM Reader Unit := modify fun r => r.note (.cursor r.offset r.bytes.count)

/-- A `FieldReader` method, watched where it is entered and however it is left. -/
def method {α : Type} (body : ProbedM α) : ProbedM α := do
  liftM watch
  deferring watch body

/-! ## The reader's methods -/

def Reader.init (data : Data) : Reader := ⟨data, 0, 0, []⟩

/-- The `while offset < bytes.count` loop of `readVarintRaw`. -/
def readVarintLoop : Nat → UInt64 → UInt64 → ProbedM UInt64
  | 0, _, _ => throw .unfinished
  | fuel + 1, result, shift => do
    let r ← get
    if r.offset < r.bytes.count then
      let byte ← subscript r.bytes r.offset
      setOffset (← addInt r.offset 1)
      -- the tenth byte holds one bit
      if shift ≠ 63 ∨ byte ≤ 1 then
        let bits ← shiftLeft (byte &&& 0x7f).toUInt64 shift
        if byte &&& 0x80 = 0 then
          return result ||| bits
        else
          let shift ← addUInt64 shift 7
          if shift ≥ 64 then
            note .overshift
            raise "field value is too large"
          else
            readVarintLoop fuel (result ||| bits) shift
      else
        raise "field value is too large"
    else
      raise "truncated field"

def readVarintRaw : ProbedM UInt64 := method do
  let r ← get
  deferring (modify fun r' => r'.note (.consumed (r'.offset - r.offset)))
    (readVarintLoop (r.bytes.count + 1) 0 0)

def nextTag : ProbedM (Option FieldTag) := method do
  let r ← get
  if r.offset < r.bytes.count then
    let value ← readVarintRaw
    if value >>> 3 ≠ 0 then
      let number ← intOf (value >>> 3)
      let type ← intOf (value &&& 0x7)
      return some ⟨number.toNat, type.toNat⟩
    else
      raise "invalid field tag"
  else
    return none

def readVarint (expected : Nat) : ProbedM UInt64 := method do
  if expected = fieldVarint then
    readVarintRaw
  else
    raise s!"unexpected field type {expected}"

def readBytes (expected : Nat) : ProbedM Data := method do
  if expected = fieldBytes then
    let value ← readVarintRaw
    match ← intExactly value with
    | none => raise "truncated field"
    | some length =>
      let r ← get
      let remaining ← subInt r.bytes.count r.offset
      if length ≤ remaining then
        let stop ← addInt r.offset length
        let content ← subrange r.bytes r.offset stop
        -- the `defer`: the offset moves once the content is copied
        setOffset (← addInt r.offset length)
        return content
      else
        raise "truncated field"
  else
    raise s!"unexpected field type {expected}"

def readString (expected : Nat) : ProbedM String := method do
  let content ← readBytes expected
  match content.utf8? with
  | some text => return text
  | none => raise "invalid UTF-8 field"

def skip (type : Nat) : ProbedM Unit := method do
  if type = fieldVarint then
    let _ ← readVarintRaw
  else if type = fieldBytes then
    let _ ← readBytes type
  else if type = 1 ∨ type = 5 then
    let size := if type = 1 then 8 else 4
    let r ← get
    let remaining ← subInt r.bytes.count r.offset
    if size ≤ remaining then
      setOffset (← addInt r.offset size)
    else
      raise "truncated fixed field"
  else
    raise s!"unsupported field type {type}"

/-! ## The decoders -/

/-- An iteration begins wherever bytes are left: only at the end of the buffer does `nextTag`
return `nil`. -/
def Reader.begin (r : Reader) : Reader :=
  if r.offset < r.bytes.count then { r with iterations := r.iterations + 1 } else r

/-- `while let tag = try reader.nextTag() { … }` with the body `field`. -/
def fieldLoop {σ : Type} (field : FieldTag → σ → ProbedM σ) : Nat → σ → ProbedM σ
  | 0, _ => throw .unfinished
  | fuel + 1, state => do
    let before ← get
    -- counted before `nextTag`, which may throw
    modify Reader.begin
    match ← nextTag with
    | none => return state
    | some tag =>
      let state ← field tag state
      let after ← get
      note (.iteration before.offset after.offset)
      fieldLoop field fuel state

/-- A decoding loop over a whole buffer, and the probes it leaves. -/
def decodeFields {σ : Type} (field : FieldTag → σ → ProbedM σ) (state : σ) (data : Data) :
    Except Fault σ × List Probe :=
  let (outcome, r) := exec (fieldLoop field (data.count + 1) state) (.init data)
  (outcome, r.probes ++ [.ended r.iterations data.count])

def envelopeField (tag : FieldTag) (envelope : RuntimeEnvelope) : ProbedM RuntimeEnvelope :=
  match tag.number with
  | 1 => do return { envelope with messageID := ← readString tag.type }
  | 2 => do return { envelope with correlationID := ← readString tag.type }
  | 3 => do return { envelope with source := ← readString tag.type }
  | 4 => do return { envelope with target := ← readString tag.type }
  | 6 => do return { envelope with kind := ← readVarint tag.type }
  | 7 => do return { envelope with oneWay := (← readVarint tag.type) ≠ 0 }
  | 9 => do return { envelope with payload := ← readBytes tag.type }
  | _ => do
    skip tag.type
    return envelope

def decodeEnvelope (data : Data) : Except Fault RuntimeEnvelope × List Probe :=
  decodeFields envelopeField {} data

/-- The nested decode has a reader of its own; its probes join those of the outer one. -/
def decodeNested (content : Data) : ProbedM RuntimeEnvelope := do
  modify fun r => { r with probes := r.probes ++ (decodeEnvelope content).2 }
  ofExcept (decodeEnvelope content).1

def deadletterField (tag : FieldTag) (fields : DeadletterFields) : ProbedM DeadletterFields :=
  match tag.number with
  | 1 => do
    let content ← readBytes tag.type
    return { fields with original := ← decodeNested content }
  | 2 => do return { fields with reason := ← readVarint tag.type }
  | 3 => do return { fields with detail := ← readString tag.type }
  | _ => do
    skip tag.type
    return fields

/-- The outcome of `decodeDeadletter`, the codes `reasonName` was called with, and the probes. -/
def decodeDeadletter (data : Data) (reasonName : UInt32 → Except RuntimeError String) :
    (Except Fault RuntimeDeadletter × List UInt32) × List Probe :=
  let (outcome, probes) := decodeFields deadletterField {} data
  let report : ReasonM RuntimeDeadletter :=
    match outcome with
    | .error fault => throw fault
    | .ok fields =>
      match uint32Exactly fields.reason with
      | none => throw (.thrown (.invalidArgument "deadletter reason exceeds UInt32 representation"))
      | some code => do
        return {
          reasonCode := code
          reason := ← consult reasonName code
          detail := fields.detail
          originalMessageID := fields.original.messageID
          originalSource := fields.original.source
          originalTarget := fields.original.target }
  (report.run.run [], probes)

end CoAkka.Codec.Probed
