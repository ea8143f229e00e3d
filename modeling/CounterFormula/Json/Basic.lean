import CounterFormula.Json.Spelling

/-!
# Json

A data file as a tree.  Numbers and texts stay as they are spelled, so that a value which
nobody asks for is never judged.  A file that stops being well formed somewhere reads as the
tree up to there, with `broken` in the place of what could not be read: whoever walks the tree
in order meets a fault of an earlier value first.

* `Taken`: a part and the text after it, which is no longer than the text it was taken from, so
  reading ends however deep brackets nest and wherever the text breaks off.
* `takeNumber?_append`: the spelling of a number and the text after it are the text.
* `render` writes a tree with two spaces of indentation a level, `compact` on one line.
-/

namespace CounterFormula

inductive Json where
  | null
  | bool (value : Bool)
  | number (spelling : Text)
  /-- The spelling between the quotation marks. -/
  | string (spelling : Text)
  | array (items : List Json)
  /-- Keys as spelled, with their values, in order. -/
  | object (fields : List (Text × Json))
  /-- Here the text is not well formed. -/
  | broken

namespace Json

/-! ### Building -/

def ofText (text : Text) : Json := .string (spell text)

def ofString (text : String) : Json := ofText text.toList

def ofInt (value : Int) : Json := .number (toString value).toList

def ofNat (value : Nat) : Json := ofInt value

/-- An object; the keys need no escape. -/
def ofFields (fields : List (String × Json)) : Json :=
  .object (fields.map fun (key, value) => (key.toList, value))

/-- `null` for none. -/
def ofOption {α : Type} (f : α → Json) : Option α → Json
  | some value => f value
  | none => .null

/-! ### Reading -/

/-- The characters that may stand between the parts of a file. -/
def isGap (c : Char) : Bool :=
  c == ' ' || c == '\n' || c == '\t' || c == '\r'

def skipGap (text : Text) : Text :=
  text.dropWhile isGap

/-- Digits, at least one, and the text after them. -/
def takeDigits? (text : Text) : Option (Text × Text) :=
  let digits := text.takeWhile Char.isDigit
  if digits.isEmpty then none else some (digits, text.dropWhile Char.isDigit)

/-- The digits before a point: no zero stands before another digit. -/
def takeWhole? (text : Text) : Option (Text × Text) :=
  match takeDigits? text with
  | some ('0' :: _ :: _, _) => none
  | taken => taken

/-- A point and digits, if there is a point. -/
def takeFraction? : Text → Option (Text × Text)
  | '.' :: rest => (takeDigits? rest).map fun (digits, rest) => ('.' :: digits, rest)
  | rest => some ([], rest)

/-- An exponent, if there is one. -/
def takeExponent? : Text → Option (Text × Text)
  | c :: rest =>
    if c == 'e' || c == 'E' then
      match rest with
      | sign :: more =>
        if sign == '+' || sign == '-' then
          (takeDigits? more).map fun (digits, rest) => (c :: sign :: digits, rest)
        else (takeDigits? rest).map fun (digits, rest) => (c :: digits, rest)
      | [] => none
    else some ([], c :: rest)
  | [] => some ([], [])

/-- The spelling of the number that `text` begins with, and the text after it. -/
def takeNumber? (text : Text) : Option (Text × Text) := do
  let (sign, unsigned) : Text × Text :=
    match text with
    | '-' :: rest => (['-'], rest)
    | rest => ([], rest)
  let (whole, rest) ← takeWhole? unsigned
  let (fraction, rest) ← takeFraction? rest
  let (exponent, rest) ← takeExponent? rest
  return (sign ++ whole ++ fraction ++ exponent, rest)

/-- The words that are values. -/
def words : List (Text × Json) :=
  [("null".toList, .null), ("true".toList, .bool true), ("false".toList, .bool false)]

theorem takeDigits?_append {text digits rest : Text}
    (h : takeDigits? text = some (digits, rest)) : digits ++ rest = text := by
  simp only [takeDigits?] at h
  split at h
  · cases h
  · cases h
    exact List.takeWhile_append_dropWhile

theorem takeWhole?_append {text whole rest : Text}
    (h : takeWhole? text = some (whole, rest)) : whole ++ rest = text := by
  unfold takeWhole? at h
  split at h
  · cases h
  · exact takeDigits?_append h

theorem takeFraction?_append {text fraction rest : Text}
    (h : takeFraction? text = some (fraction, rest)) : fraction ++ rest = text := by
  unfold takeFraction? at h
  split at h
  · obtain ⟨taken, found, same⟩ := Option.map_eq_some_iff.mp h
    cases same
    simp [takeDigits?_append found]
  · cases h
    rfl

theorem takeExponent?_append {text exponent rest : Text}
    (h : takeExponent? text = some (exponent, rest)) : exponent ++ rest = text := by
  unfold takeExponent? at h
  repeat' split at h
  all_goals first
    | (obtain ⟨taken, found, same⟩ := Option.map_eq_some_iff.mp h
       cases same
       simp [takeDigits?_append found])
    | (cases h; done)
    | (cases h; rfl)

/-- A number's spelling and the text after it are the text it was taken from. -/
theorem takeNumber?_append {text spelling rest : Text}
    (h : takeNumber? text = some (spelling, rest)) : spelling ++ rest = text := by
  unfold takeNumber? at h
  split at h
  rename_i parts
  simp only [Option.bind_eq_bind, Option.bind_eq_some_iff, Option.pure_def, Option.some.injEq,
    Prod.mk.injEq, Prod.exists] at h
  obtain ⟨whole, afterWhole, foundWhole, fraction, afterFraction, foundFraction, exponent,
    afterExponent, foundExponent, rfl, rfl⟩ := h
  simp only [List.append_assoc, takeExponent?_append foundExponent,
    takeFraction?_append foundFraction, takeWhole?_append foundWhole]
  split at parts <;> (cases parts; rfl)

/-- A part that `text` begins with, and the text after it. -/
structure Taken (α : Type) (text : Text) where
  part : α
  rest : Text
  within : rest.length ≤ text.length

/-- A part that breaks off: nothing follows it. -/
def Taken.last {α : Type} {text : Text} (part : α) : Taken α text :=
  ⟨part, [], Nat.zero_le _⟩

theorem length_skipGap (text : Text) : (skipGap text).length ≤ text.length :=
  (List.dropWhile_sublist _).length_le

/-- The value that is a word or a number. -/
def takeScalar (text : Text) : Taken Json text :=
  match words.find? fun (word, _) => word.isPrefixOf text with
  | some (word, value) => ⟨value, text.drop word.length, by simp⟩
  | none =>
    match taken : takeNumber? text with
    | some (spelling, rest) => ⟨.number spelling, rest, by simp [← takeNumber?_append taken]⟩
    | none => .last .broken

mutual

/-- The value that `text` begins with. -/
def takeValue (text : Text) : Taken Json text :=
  have within := length_skipGap text
  match start : skipGap text with
  | '"' :: rest =>
    match taken : takeSpelling? rest with
    | some (spelling, left) =>
      ⟨.string spelling, left, by
        have := length_takeSpelling? taken
        simp only [start, List.length_cons] at within; omega⟩
    | none => .last .broken
  | '[' :: rest =>
    have := length_skipGap rest
    match inside : skipGap rest with
    | ']' :: left =>
      ⟨.array [], left, by simp only [start, inside, List.length_cons] at *; omega⟩
    | _ =>
      let items := takeItems rest
      ⟨.array items.part, items.rest, by
        have := items.within
        simp only [start, List.length_cons] at within; omega⟩
  | '\x7b' :: rest =>
    have := length_skipGap rest
    match inside : skipGap rest with
    | '\x7d' :: left =>
      ⟨.object [], left, by simp only [start, inside, List.length_cons] at *; omega⟩
    | _ =>
      let fields := takeFields rest
      ⟨.object fields.part, fields.rest, by
        have := fields.within
        simp only [start, List.length_cons] at within; omega⟩
  | rest =>
    let scalar := takeScalar rest
    ⟨scalar.part, scalar.rest, by
      have := scalar.within
      simp only [start] at within; omega⟩
termination_by 2 * text.length
decreasing_by
  all_goals simp only [start, List.length_cons] at within; omega

/-- The items of an array up to its closing bracket. -/
def takeItems (text : Text) : Taken (List Json) text :=
  let value := takeValue text
  have within := length_skipGap value.rest
  have := value.within
  match start : skipGap value.rest with
  | ',' :: rest =>
    let items := takeItems rest
    ⟨value.part :: items.part, items.rest, by
      have := items.within
      simp only [start, List.length_cons] at within; omega⟩
  | ']' :: rest => ⟨[value.part], rest, by simp only [start, List.length_cons] at within; omega⟩
  | _ => .last [value.part, .broken]
termination_by 2 * text.length + 1
decreasing_by
  · omega
  · simp only [start, List.length_cons] at within; omega

/-- The fields of an object up to its closing brace. -/
def takeFields (text : Text) : Taken (List (Text × Json)) text :=
  have within := length_skipGap text
  match start : skipGap text with
  | '"' :: rest =>
    match taken : takeSpelling? rest with
    | none => .last [([], .broken)]
    | some (key, afterKey) =>
      have keyLength := length_takeSpelling? taken
      have gapLength := length_skipGap afterKey
      match colon : skipGap afterKey with
      | ':' :: afterColon =>
        let value := takeValue afterColon
        have valueLength := value.within
        have lastLength := length_skipGap value.rest
        match stop : skipGap value.rest with
        | ',' :: more =>
          let fields := takeFields more
          ⟨(key, value.part) :: fields.part, fields.rest, by
            have := fields.within
            simp only [start, colon, stop, List.length_cons] at within gapLength lastLength
            omega⟩
        | '\x7d' :: left =>
          ⟨[(key, value.part)], left, by
            simp only [start, colon, stop, List.length_cons] at within gapLength lastLength
            omega⟩
        | _ => .last [(key, value.part), ([], .broken)]
      | _ => .last [(key, .broken)]
  | _ => .last [([], .broken)]
termination_by 2 * text.length + 1
decreasing_by
  · simp only [start, colon, List.length_cons] at within gapLength
    omega
  · simp only [start, colon, stop, List.length_cons] at within gapLength lastLength
    omega

end

/-- A text read as one value, and whether anything follows it. -/
structure File where
  value : Json
  excess : Bool

def File.read (text : Text) : File :=
  let value := takeValue text
  ⟨value.part, !(skipGap value.rest).isEmpty⟩

mutual

/-- Whether nothing in a value is broken. -/
def isWhole : Json → Bool
  | .broken => false
  | .array items => areWhole items
  | .object fields => fieldsAreWhole fields
  | .null | .bool _ | .number _ | .string _ => true

def areWhole : List Json → Bool
  | [] => true
  | item :: rest => isWhole item && areWhole rest

def fieldsAreWhole : List (Text × Json) → Bool
  | [] => true
  | (_, value) :: rest => isWhole value && fieldsAreWhole rest

end

/-! ### Keys -/

/-- The text that a key is spelled for; a key that spells no text stands for itself. -/
def keyOf (spelling : Text) : Text :=
  (unspell? spelling).getD spelling

/-- The value of an object's field `key`, the last one of several. -/
def field? (value : Json) (key : String) : Option Json :=
  match value with
  | .object fields =>
    (fields.reverse.find? fun (spelling, _) => keyOf spelling == key.toList).map Prod.snd
  | _ => none

/-! ### Writing -/

def quote (spelling : Text) : Text :=
  ['"'] ++ spelling ++ ['"']

/-- A new line at `level`. -/
def newLine (level : Nat) : Text :=
  '\n' :: List.replicate (2 * level) ' '

/-- The line break before a part at `level`. -/
def lineIn (gap : Bool) (level : Nat) : Text :=
  if gap then newLine level else []

/-- What separates a key from its value. -/
def colon (gap : Bool) : Text :=
  if gap then [':', ' '] else [':']

mutual

/-- The text of a value at `level`; `gap` tells whether lines are broken and indented. -/
def write (gap : Bool) (level : Nat) : Json → Text
  | .null | .broken => "null".toList
  | .bool value => (toString value).toList
  | .number spelling => spelling
  | .string spelling => quote spelling
  | .array [] => ['[', ']']
  | .array (item :: rest) =>
    ['['] ++ lineIn gap (level + 1) ++ write gap (level + 1) item ++
      writeItems gap (level + 1) rest ++ lineIn gap level ++ [']']
  | .object [] => ['\x7b', '\x7d']
  | .object ((key, value) :: rest) =>
    ['\x7b'] ++ lineIn gap (level + 1) ++ quote key ++ colon gap ++
      write gap (level + 1) value ++ writeFields gap (level + 1) rest ++ lineIn gap level ++
      ['\x7d']

def writeItems (gap : Bool) (level : Nat) : List Json → Text
  | [] => []
  | item :: rest =>
    [','] ++ lineIn gap level ++ write gap level item ++ writeItems gap level rest

def writeFields (gap : Bool) (level : Nat) : List (Text × Json) → Text
  | [] => []
  | (key, value) :: rest =>
    [','] ++ lineIn gap level ++ quote key ++ colon gap ++ write gap level value ++
      writeFields gap level rest

end

/-- A value written over lines. -/
def render (value : Json) : Text := write true 0 value

/-- A value written on one line. -/
def compact (value : Json) : Text := write false 0 value

end Json

end CounterFormula
