import CoAkkaRuntime.Codec.FieldReader

/-!
# Codec — `RuntimeEnvelopeCodec`

The two decoders of `RuntimeEnvelopeCodec.swift`. Both are the loop
`while let tag = try reader.nextTag() { switch tag.number … }` over their own accumulator;
`fieldLoop` is that loop and each decoder supplies its `switch`. A case reads through the
reader and returns the updated accumulator, so a later field overwrites an earlier one.

The seven fields of an envelope with their numbers and wire types are those of the source's
`switch`. A number that the source knows with another wire type is an error; a number it does not
know is skipped, whatever its type.
-/

namespace CoAkka.Codec

open FieldReader Throwing

/-- `while let tag = try reader.nextTag() { … }` with the body `field`. An iteration that does
not throw consumes at least one byte. -/
def fieldLoop {σ : Type} (field : FieldTag → σ → FieldM σ) : Nat → σ → FieldM σ
  | 0, _ => throw .unfinished
  | fuel + 1, state => do
    match ← nextTag with
    | none => return state
    | some tag => fieldLoop field fuel (← field tag state)

/-- A decoding loop over a whole buffer, with fuel for every byte of it. -/
def decodeFields {σ : Type} (field : FieldTag → σ → FieldM σ) (state : σ) (data : Data) :
    Except Fault σ :=
  (exec (fieldLoop field (data.count + 1) state) (.init data)).1

/-! ## `decodeEnvelope` -/

structure RuntimeEnvelope where
  messageID : String := ""
  correlationID : String := ""
  source : String := ""
  target : String := ""
  kind : UInt64 := 0
  oneWay : Bool := false
  payload : Data := .empty
  deriving DecidableEq

def envelopeField (tag : FieldTag) (envelope : RuntimeEnvelope) : FieldM RuntimeEnvelope :=
  match tag.number with
  | 1 => do return { envelope with messageID := ← readString tag.type }
  | 2 => do return { envelope with correlationID := ← readString tag.type }
  | 3 => do return { envelope with source := ← readString tag.type }
  | 4 => do return { envelope with target := ← readString tag.type }
  | 6 => do return { envelope with kind := ← readVarint tag.type }
  | 7 => do return { envelope with oneWay := (← readVarint tag.type) ≠ 0 }
  | 9 => do return { envelope with payload := ← readBytes tag.type }
  | _ => do
    skip tag.type
    return envelope

def decodeEnvelope (data : Data) : Except Fault RuntimeEnvelope :=
  decodeFields envelopeField {} data

/-! ## `decodeDeadletter` -/

/-- The three local variables of `decodeDeadletter`. -/
structure DeadletterFields where
  original : RuntimeEnvelope := {}
  reason : UInt64 := 0
  detail : String := ""
  deriving DecidableEq

def deadletterField (tag : FieldTag) (fields : DeadletterFields) : FieldM DeadletterFields :=
  match tag.number with
  | 1 => do
    let content ← readBytes tag.type
    match decodeEnvelope content with
    | .ok original => return { fields with original }
    | .error fault => throw fault
  | 2 => do return { fields with reason := ← readVarint tag.type }
  | 3 => do return { fields with detail := ← readString tag.type }
  | _ => do
    skip tag.type
    return fields

/-- The caller's `reasonName` closure together with the record of the codes it was asked for. -/
abbrev ReasonM := ExceptT Fault (StateM (List UInt32))

def consult (reasonName : UInt32 → Except RuntimeError String) (code : UInt32) : ReasonM String := do
  modify (· ++ [code])
  match reasonName code with
  | .ok name => return name
  | .error error => throw (.thrown error)

/-- `UInt32(exactly:)`. -/
def uint32Exactly (value : UInt64) : Option UInt32 :=
  if value.toNat < 2 ^ 32 then some value.toUInt32 else none

def decodeDeadletterM (data : Data) (reasonName : UInt32 → Except RuntimeError String) :
    ReasonM RuntimeDeadletter :=
  match decodeFields deadletterField {} data with
  | .error fault => throw fault
  | .ok fields =>
    match uint32Exactly fields.reason with
    | none => throw (.thrown (.invalidArgument "deadletter reason exceeds UInt32 representation"))
    | some code => do
      return {
        reasonCode := code
        reason := ← consult reasonName code
        detail := fields.detail
        originalMessageID := fields.original.messageID
        originalSource := fields.original.source
        originalTarget := fields.original.target }

/-- The outcome of `decodeDeadletter` and the codes `reasonName` was called with, in order. -/
def decodeDeadletter (data : Data) (reasonName : UInt32 → Except RuntimeError String) :
    Except Fault RuntimeDeadletter × List UInt32 :=
  (decodeDeadletterM data reasonName).run.run []

end CoAkka.Codec
