import CounterFormula.Config
import CounterFormula.Json.Decode

/-!
# Settings

The settings of a command: what a settings file says, and the flags that override it.
-/

namespace CounterFormula

open Json (Decoded)

/-- What a settings file says; every setting is optional. -/
structure Settings where
  startPhrase : Option Text
  relaxed : Option Bool
  encoding : Option Text
  release : Option Text
  version : Option Text
  /-- The path of the KPI registry's file. -/
  kpis : Option Text
  /-- The path of the screening registry's file. -/
  screenings : Option Text
  deriving DecidableEq, Repr

/-- The flags of a command that runs a formula. -/
structure Flags where
  startPhrase : Option Text
  relaxed : Bool
  encoding : Option Text
  release : Option Text
  version : Option Text
  kpis : Option Text
  screenings : Option Text
  deriving DecidableEq, Repr

namespace Settings

def empty : Settings := ⟨none, none, none, none, none, none, none⟩

/-- The keys of a settings file. -/
def keys : List String :=
  ["start_phrase", "relaxed", "encoding", "release", "version", "kpis", "screenings"]

def shape : String := "struct FileSettings"

def shapeAsArray : String := "struct FileSettings with 7 elements"

def decodeText : Json → Decoded (Option Text) := Json.toOption (Json.toText "a string")

def decodePath : Json → Decoded (Option Text) := Json.toOption (Json.toText "path string")

def decodeBool : Json → Decoded (Option Bool) := Json.toOption Json.toBool

/-- Settings read so far, and the keys that were seen. -/
structure Draft where
  seen : List String
  settings : Settings

/-- One more key; an unknown one is refused. -/
def Draft.take (draft : Draft) (key : Text) (value : Json) : Decoded Draft := do
  let name := String.ofList key
  if name ∉ keys then throw (.unknownField key keys)
  if name ∈ draft.seen then throw (.duplicateField name)
  let old := draft.settings
  let settings : Settings ←
    match name with
    | "start_phrase" => do pure { old with startPhrase := ← decodeText value }
    | "relaxed" => do pure { old with relaxed := ← decodeBool value }
    | "encoding" => do pure { old with encoding := ← decodeText value }
    | "release" => do pure { old with release := ← decodeText value }
    | "version" => do pure { old with version := ← decodeText value }
    | "kpis" => do pure { old with kpis := ← decodePath value }
    | _ => do pure { old with screenings := ← decodePath value }
  return ⟨name :: draft.seen, settings⟩

def decode : Json → Decoded Settings
  | .object fields => return (← Json.foldFields Draft.take ⟨[], empty⟩ fields).settings
  | .array items => do
    let length := items.length
    let (startPhrase, items) ← Json.next shapeAsArray 0 decodeText items
    let (relaxed, items) ← Json.next shapeAsArray 1 decodeBool items
    let (encoding, items) ← Json.next shapeAsArray 2 decodeText items
    let (release, items) ← Json.next shapeAsArray 3 decodeText items
    let (version, items) ← Json.next shapeAsArray 4 decodeText items
    let (kpis, items) ← Json.next shapeAsArray 5 decodePath items
    let (screenings, items) ← Json.next shapeAsArray 6 decodePath items
    Json.noMore length items
    return ⟨startPhrase, relaxed, encoding, release, version, kpis, screenings⟩
  | value => throw (Json.mismatch value shape)

/-- The mode that the file asks for. -/
def mode (settings : Settings) : Mode :=
  if settings.relaxed.getD false then .relaxed else .strict

end Settings

namespace Flags

def none : Flags := ⟨.none, false, .none, .none, .none, .none, .none⟩

/-- The configuration of a run under these flags over `settings`. -/
def config (flags : Flags) (settings : Settings) : Except UnknownEncoding Config := do
  let encoding ←
    match flags.encoding <|> settings.encoding with
    | some name => Encoding.ofName name
    | .none => pure Config.default.encoding
  return {
    startPhrase := (flags.startPhrase <|> settings.startPhrase).getD Config.default.startPhrase
    mode := if flags.relaxed then .relaxed else settings.mode
    encoding := encoding
    release := (flags.release <|> settings.release).getD Config.default.release
    version :=
      ((flags.version <|> settings.version).map VersionPolicy.ofName).getD
        Config.default.version }

/-- The path of the KPI registry's file, if one is named. -/
def kpisPath (flags : Flags) (settings : Settings) : Option Text :=
  flags.kpis <|> settings.kpis

/-- The path of the screening registry's file, if one is named. -/
def screeningsPath (flags : Flags) (settings : Settings) : Option Text :=
  flags.screenings <|> settings.screenings

end Flags

end CounterFormula
