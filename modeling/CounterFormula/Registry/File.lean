import CounterFormula.Json.Decode
import CounterFormula.Registry

/-!
# Registry — File

The registries as data files: KPIs as an object from ids to records, screenings as an array of
records.  Of several entries for one KPI the last one counts.
-/

namespace CounterFormula

open Json (Decoded)

/-! ### KPIs -/

namespace KpiRegistry

/-- A KPI's record, which holds its formula document. -/
def decodeRecord : Json → Decoded Text
  | .object fields => do
    let document ← Json.foldFields
      (fun document key value =>
        if key = "raw_formula".toList then
          Json.once "raw_formula" document (Json.toText "a string" value)
        else do
          Json.skip value
          return document)
      none fields
    Json.required "raw_formula" document
  | .array items => do
    let (document, rest) ←
      Json.next "struct KpiRecord with 1 element" 0 (Json.toText "a string") items
    Json.atEnd rest
    return document
  | value => throw (Json.mismatch value "struct KpiRecord")

def decode : Json → Decoded KpiRegistry
  | .object fields =>
    Json.foldFields
      (fun registry id value => return registry.insert id (← decodeRecord value)) empty fields
  | value => throw (Json.mismatch value "a map")

/-- The registry that a data file holds. -/
def ofFile (text : Text) : Decoded KpiRegistry :=
  (Json.File.read text).decode decode

end KpiRegistry

/-! ### Screenings -/

/-- The fields of a screening's record read so far. -/
structure ScreeningFields where
  counter : Option Text
  release : Option Text
  version : Option (Option Text)
  id : Option Int
  suffix : Option Text

namespace ScreeningFields

def empty : ScreeningFields := ⟨none, none, none, none, none⟩

def shape : String := "struct CounterScreening"

def shapeAsArray : String := "struct CounterScreening with 5 elements"

def decodeText : Json → Decoded Text := Json.toText "a string"

def decodeVersion : Json → Decoded (Option Text) := Json.toOption decodeText

/-- A signed integer of 64 bits. -/
def decodeId : Json → Decoded Int :=
  Json.toInt Int64.minValue.toInt Int64.maxValue.toInt "i64"

/-- One more field. -/
def take (fields : ScreeningFields) (key : Text) (value : Json) : Decoded ScreeningFields := do
  match String.ofList key with
  | "counter_name" =>
    return { fields with
      counter := ← Json.once "counter_name" fields.counter (decodeText value) }
  | "release" =>
    return { fields with release := ← Json.once "release" fields.release (decodeText value) }
  | "version" =>
    return { fields with version := ← Json.once "version" fields.version (decodeVersion value) }
  | "screening_id" =>
    return { fields with id := ← Json.once "screening_id" fields.id (decodeId value) }
  | "screening_suffix" =>
    return { fields with
      suffix := ← Json.once "screening_suffix" fields.suffix (decodeText value) }
  | _ =>
    Json.skip value
    return fields

/-- The screening, if all its fields are there. -/
def finish (fields : ScreeningFields) : Decoded Screening := do
  let counter ← Json.required "counter_name" fields.counter
  let release ← Json.required "release" fields.release
  let id ← Json.required "screening_id" fields.id
  let suffix ← Json.required "screening_suffix" fields.suffix
  return ⟨counter, release, fields.version.getD none, id, suffix⟩

end ScreeningFields

namespace Screening

open ScreeningFields (shape shapeAsArray decodeText decodeVersion decodeId)

def decode (source : Json.Source) : Json → Decoded Screening
  | .object fields => do
    (← Json.foldFields ScreeningFields.take .empty fields).finish
  | .array items => do
    let length := items.length
    let (counter, items) ← Json.next shapeAsArray 0 decodeText items
    let (release, items) ← Json.next shapeAsArray 1 decodeText items
    match items with
    | [] => throw (.wrongLength 3 shapeAsArray)
    | _ :: _ =>
      let (version, items) ← Json.next shapeAsArray 2 decodeVersion items
      let (id, items) ← Json.next shapeAsArray 3 decodeId items
      let (suffix, items) ← Json.next shapeAsArray 4 decodeText items
      source.close length items
      return ⟨counter, release, version, id, suffix⟩
  | value => throw (Json.mismatch value shape)

end Screening

namespace ScreeningRegistry

def decodeRows : List Json → Decoded (List Screening)
  | [] => return []
  | item :: rest => return (← Screening.decode .file item) :: (← decodeRows rest)

def decode : Json → Decoded ScreeningRegistry
  | .array items => return ⟨← decodeRows items⟩
  | value => throw (Json.mismatch value "a sequence")

/-- The registry that a data file holds. -/
def ofFile (text : Text) : Decoded ScreeningRegistry :=
  (Json.File.read text).decode decode

end ScreeningRegistry

/-! ### Writing -/

/-- The record of a KPI. -/
def KpiRegistry.recordJson (document : Text) : Json :=
  .ofFields [("raw_formula", .ofText document)]

def KpiRegistry.toJson (registry : KpiRegistry) : Json :=
  .object (registry.entries.map fun (id, document) => (Json.spell id, recordJson document))

def Screening.toJson (row : Screening) : Json :=
  .ofFields
    [("counter_name", .ofText row.counter),
      ("release", .ofText row.release),
      ("version", .ofOption .ofText row.version),
      ("screening_id", .ofInt row.id),
      ("screening_suffix", .ofText row.suffix)]

def ScreeningRegistry.toJson (registry : ScreeningRegistry) : Json :=
  .array (registry.rows.map Screening.toJson)

end CounterFormula
