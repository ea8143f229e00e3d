import CounterFormula.Json.Basic
import CounterFormula.Json.Number
import CounterFormula.Text.Quoted

/-!
# Json — Decode

Reading domain values out of a data file, left to right and up to the first problem.  A record
is written as an object, in any order of its fields, or as the array of its fields.
-/

namespace CounterFormula.Json

/-! ### Faults -/

/-- What stands in the place of a value that was wanted. -/
inductive Found where
  | null
  | bool (value : Bool)
  | number (value : Number)
  | text (content : Text)
  | sequence
  | map

def Found.describe : Found → String
  | null => "null"
  | bool value => s!"boolean `{value}`"
  | number (.integer value) => s!"integer `{value}`"
  | number (.float value) => s!"floating point `{String.ofList (Number.showFloat value)}`"
  | text content => s!"string {String.ofList (Text.quoted content)}"
  | sequence => "sequence"
  | map => "map"

/-- Why a file does not hold what it should. -/
inductive Mismatch where
  /-- The file is no well-formed text. -/
  | malformed
  | wrongType (found : Found) (wanted : String)
  | wrongValue (found : Found) (wanted : String)
  | missingField (name : String)
  | duplicateField (name : String)
  | unknownField (name : Text) (known : List String)
  | unknownVariant (name : Text) (known : List String)
  | wrongLength (length : Nat) (wanted : String)

/-- Names between backquotes. -/
def listed (names : List String) : String :=
  String.intercalate ", " (names.map fun name => s!"`{name}`")

def Mismatch.message : Mismatch → String
  | malformed => "not well formed"
  | wrongType found wanted => s!"invalid type: {found.describe}, expected {wanted}"
  | wrongValue found wanted => s!"invalid value: {found.describe}, expected {wanted}"
  | missingField name => s!"missing field `{name}`"
  | duplicateField name => s!"duplicate field `{name}`"
  | unknownField name known =>
    s!"unknown field `{String.ofList name}`, expected one of {listed known}"
  | unknownVariant name known =>
    s!"unknown variant `{String.ofList name}`, expected one of {listed known}"
  | wrongLength length wanted => s!"invalid length {length}, expected {wanted}"

abbrev Decoded := Except Mismatch

/-! ### Scalars -/

/-- What a value is, as a message names it. -/
def found : Json → Decoded Found
  | .null => .ok .null
  | .bool value => .ok (.bool value)
  | .number spelling =>
    match Number.ofSpelling? spelling with
    | some value => .ok (.number value)
    | none => .error .malformed
  | .string spelling =>
    match unspell? spelling with
    | some text => .ok (.text text)
    | none => .error .malformed
  | .array _ => .ok .sequence
  | .object _ => .ok .map
  | .broken => .error .malformed

/-- The fault of `value` standing where something else is wanted. -/
def mismatch (value : Json) (wanted : String) : Mismatch :=
  match found value with
  | .ok found => .wrongType found wanted
  | .error fault => fault

def toText (wanted : String) (value : Json) : Decoded Text := do
  match ← found value with
  | .text text => return text
  | found => throw (.wrongType found wanted)

def toBool (value : Json) : Decoded Bool := do
  match ← found value with
  | .bool value => return value
  | found => throw (.wrongType found "a boolean")

/-- An integer from `least` to `greatest`, of the type called `wanted`. -/
def toInt (least greatest : Int) (wanted : String) (value : Json) : Decoded Int := do
  match ← found value with
  | .number (.integer value) =>
    if least ≤ value ∧ value ≤ greatest then return value
    else throw (.wrongValue (.number (.integer value)) wanted)
  | found => throw (.wrongType found wanted)

/-- None for `null`. -/
def toOption {α : Type} (decode : Json → Decoded α) : Json → Decoded (Option α)
  | .null => return none
  | value => some <$> decode value

/-- A value that nobody asks for only has to be well formed. -/
def skip (value : Json) : Decoded Unit :=
  if value.isWhole then .ok () else .error .malformed

/-- The spelled key of a field. -/
def keyText (spelling : Text) : Decoded Text :=
  match unspell? spelling with
  | some text => .ok text
  | none => .error .malformed

/-! ### Records -/

/-- The fields of an object taken in order by `step`, which is given each key and value. -/
def foldFields {σ : Type} (step : σ → Text → Json → Decoded σ) :
    σ → List (Text × Json) → Decoded σ
  | state, [] => return state
  | state, (key, value) :: rest => do
    let key ← keyText key
    foldFields step (← step state key value) rest

/-- The value of the field `name`, which must not have one already. -/
def once {α : Type} (name : String) (earlier : Option α) (decode : Decoded α) :
    Decoded (Option α) :=
  match earlier with
  | some _ => throw (.duplicateField name)
  | none => some <$> decode

/-- The value of the field `name`, which must have one. -/
def required {α : Type} (name : String) : Option α → Decoded α
  | some value => return value
  | none => throw (.missingField name)

/-- The next item of a record of `shape` written as an array, of which `position` items have
been taken. -/
def next {α : Type} (shape : String) (position : Nat) (decode : Json → Decoded α) :
    List Json → Decoded (α × List Json)
  | [] => throw (.wrongLength position shape)
  | item :: rest => return (← decode item, rest)

/-- The end of a file's record written as an array: more items are no part of the file. -/
def atEnd : List Json → Decoded Unit
  | [] => return ()
  | _ :: _ => throw .malformed

/-- The end of a value's record of `length` items that was written as an array. -/
def noMore (length : Nat) : List Json → Decoded Unit
  | [] => return ()
  | _ :: _ => throw (.wrongLength length "fewer elements in array")

/-- What a tree comes from: the text of a file, or a value that is at hand. -/
inductive Source where
  | file
  | value
  deriving DecidableEq, Repr

/-- The end of a record of `length` items that was written as an array in `source`. -/
def Source.close (source : Source) (length : Nat) (items : List Json) : Decoded Unit :=
  match source with
  | file => atEnd items
  | value => noMore length items

/-- A whole file read by `decode`; nothing may follow the value. -/
def File.decode {α : Type} (decode : Json → Decoded α) (file : File) : Decoded α := do
  let value ← decode file.value
  if file.excess then throw .malformed else return value

end CounterFormula.Json
