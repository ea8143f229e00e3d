import CounterFormula.Fault
import CounterFormula.Json.Decode

/-!
# Fault — File

A reported fault as a record of a data file.
-/

namespace CounterFormula

open Json (Decoded)

namespace FaultKind

/-- The kind that a word names. -/
def ofWord (word : Text) : Decoded FaultKind :=
  match ofWord? word with
  | some kind => .ok kind
  | none => .error (.unknownVariant word (all.map FaultKind.word))

/-- A kind is written as its word, or as an object with the word as its one key and no
value. -/
def decode : Json → Decoded FaultKind
  | .object [(key, value)] => do
    let kind ← ofWord (← Json.keyText key)
    match value with
    | .null => return kind
    | value => throw (Json.mismatch value "unit")
  | .object _ => throw (.wrongValue .map "map with a single key")
  | .string spelling => do ofWord (← Json.keyText spelling)
  | value => throw (Json.mismatch value "string or map")

end FaultKind

/-- The fields of a fault's record read so far. -/
structure FaultFields where
  kind : Option FaultKind
  pass : Option Int
  message : Option Text

namespace FaultFields

def empty : FaultFields := ⟨none, none, none⟩

def shapeAsArray : String := "struct FormulaError with 3 elements"

def decodePass : Json → Decoded Int := Json.toInt 0 255 "u8"

def decodeMessage : Json → Decoded Text := Json.toText "a string"

/-- One more field. -/
def take (fields : FaultFields) (key : Text) (value : Json) : Decoded FaultFields := do
  match String.ofList key with
  | "kind" => return { fields with kind := ← Json.once "kind" fields.kind (FaultKind.decode value) }
  | "pass" => return { fields with pass := ← Json.once "pass" fields.pass (decodePass value) }
  | "message" =>
    return { fields with message := ← Json.once "message" fields.message (decodeMessage value) }
  | _ =>
    Json.skip value
    return fields

/-- The fault, if all its fields are there. -/
def finish (fields : FaultFields) : Decoded FaultRecord := do
  let kind ← Json.required "kind" fields.kind
  let pass ← Json.required "pass" fields.pass
  let message ← Json.required "message" fields.message
  return ⟨kind, pass.toNat, String.ofList message⟩

end FaultFields

namespace FaultRecord

open FaultFields (shapeAsArray decodePass decodeMessage)

def decode : Json → Decoded FaultRecord
  | .object fields => do
    (← Json.foldFields FaultFields.take .empty fields).finish
  | .array items => do
    let length := items.length
    let (kind, items) ← Json.next shapeAsArray 0 FaultKind.decode items
    let (pass, items) ← Json.next shapeAsArray 1 decodePass items
    let (message, items) ← Json.next shapeAsArray 2 decodeMessage items
    Json.noMore length items
    return ⟨kind, pass.toNat, String.ofList message⟩
  | value => throw (Json.mismatch value "struct FormulaError")

/-- The record with its fields in the order of their declaration. -/
def toJson (record : FaultRecord) : Json :=
  .ofFields
    [("kind", .ofString record.kind.word), ("pass", .ofNat record.pass),
      ("message", .ofString record.message)]

end FaultRecord

end CounterFormula
