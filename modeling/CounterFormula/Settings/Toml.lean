import CounterFormula.Json.Spelling
import CounterFormula.Settings

/-!
# Settings — Toml

A settings file: lines of `key = value`, where a value is a text, `true` or `false`, with blank
lines and comments between.  A text is basic, with escapes, or literal, and either kind may be
long, between three marks, and then run over lines.  Any other line, and a key given twice,
make the file unreadable.
-/

namespace CounterFormula.Settings.Toml

/-- A value of a settings file. -/
inductive Value where
  | text (content : Text)
  | bool (value : Bool)
  deriving DecidableEq, Repr

/-! ### Characters -/

def isSpace (c : Char) : Bool :=
  c == ' ' || c == '\t'

def skipSpace (text : Text) : Text :=
  text.dropWhile isSpace

/-- A character that may stand in a comment or a literal text. -/
def isPlain (c : Char) : Bool :=
  c == '\t' || (0x20 ≤ c.toNat && c.toNat != 0x7F)

/-- What follows the end of a line; none when `text` does not begin with one. -/
def afterBreak? : Text → Option Text
  | '\n' :: rest => some rest
  | '\r' :: '\n' :: rest => some rest
  | _ => none

/-! ### Escapes -/

/-- The short escapes of a basic text. -/
def escapes : List (Char × Char) :=
  [('b', '\x08'), ('t', '\t'), ('n', '\n'), ('f', '\x0c'), ('r', '\r'), ('"', '"'), ('\\', '\\')]

/-- The character with a hexadecimal code, which must be a character's code. -/
def fromCode? (digits : List Char) : Option Char := do
  let values ← digits.mapM Json.hexDigit?
  let code := values.foldl (fun code digit => code * 16 + digit) 0
  if code.isValidChar then some (Char.ofNat code) else none

/-- The character that an escape stands for, given what follows its backslash, and the text
after the escape. -/
def takeEscape? : (text : Text) → Option (Char × { rest : Text // rest.length < text.length })
  | 'u' :: a :: b :: c :: d :: rest =>
    (fromCode? [a, b, c, d]).map fun char =>
      (char, ⟨rest, by simp only [List.length_cons]; omega⟩)
  | 'U' :: a :: b :: c :: d :: e :: f :: g :: h :: rest =>
    (fromCode? [a, b, c, d, e, f, g, h]).map fun char =>
      (char, ⟨rest, by simp only [List.length_cons]; omega⟩)
  | c :: rest => (escapes.lookup c).map fun char => (char, ⟨rest, by simp⟩)
  | [] => none

/-! ### Texts -/

/-- The rest of a basic text up to its quotation mark, and what follows the mark. -/
def takeBasic? : Text → Option (Text × Text)
  | [] => none
  | '"' :: rest => some ([], rest)
  | '\\' :: rest => do
    let (char, ⟨rest, _⟩) ← takeEscape? rest
    let (text, rest) ← takeBasic? rest
    return (char :: text, rest)
  | c :: rest =>
    if isPlain c then (takeBasic? rest).map fun (text, rest) => (c :: text, rest) else none
termination_by text => text.length
decreasing_by all_goals simp only [List.length_cons]; omega

/-- The rest of a literal text up to its apostrophe, and what follows. -/
def takeLiteral? : Text → Option (Text × Text)
  | [] => none
  | '\'' :: rest => some ([], rest)
  | c :: rest =>
    if isPlain c then (takeLiteral? rest).map fun (text, rest) => (c :: text, rest) else none

/-- The end of a long text, given what follows the first three marks in a row: up to two more
marks mean that as many of the row belong to the text. -/
def closeLong (mark : Char) (text : Text) : Text × Text :=
  let marks := (text.take 2).takeWhile (· == mark)
  (marks, text.drop marks.length)

/-- The rest of a long basic text up to its three quotation marks, and what follows.  A
backslash at the end of a line takes away the blanks and line ends after it, and they are
`folded` until something else comes. -/
def takeLongBasic? (folded : Bool) : Text → Option (Text × Text)
  | [] => none
  | '"' :: '"' :: '"' :: rest => some (closeLong '"' rest)
  | '\r' :: '\n' :: rest =>
    if folded then takeLongBasic? true rest
    else (takeLongBasic? false rest).map fun (text, rest) => ('\n' :: text, rest)
  | '\n' :: rest =>
    if folded then takeLongBasic? true rest
    else (takeLongBasic? false rest).map fun (text, rest) => ('\n' :: text, rest)
  | '\\' :: rest =>
    if (afterBreak? (skipSpace rest)).isSome then takeLongBasic? true rest
    else do
      let (char, ⟨rest, _⟩) ← takeEscape? rest
      let (text, rest) ← takeLongBasic? false rest
      return (char :: text, rest)
  | c :: rest =>
    if folded && isSpace c then takeLongBasic? true rest
    else if isPlain c then
      (takeLongBasic? false rest).map fun (text, rest) => (c :: text, rest)
    else none
termination_by text => text.length
decreasing_by all_goals simp only [List.length_cons]; omega

/-- The rest of a long literal text up to its three apostrophes, and what follows. -/
def takeLongLiteral? : Text → Option (Text × Text)
  | [] => none
  | '\'' :: '\'' :: '\'' :: rest => some (closeLong '\'' rest)
  | '\r' :: '\n' :: rest => (takeLongLiteral? rest).map fun (text, rest) => ('\n' :: text, rest)
  | '\n' :: rest => (takeLongLiteral? rest).map fun (text, rest) => ('\n' :: text, rest)
  | c :: rest =>
    if isPlain c then (takeLongLiteral? rest).map fun (text, rest) => (c :: text, rest) else none

/-! ### Assignments -/

/-- A character of a key that is not quoted. -/
def isBare (c : Char) : Bool :=
  c.isAlphanum || c == '_' || c == '-'

/-- The key that `text` begins with, and what follows it. -/
def takeKey? (text : Text) : Option (Text × Text) :=
  match text with
  | '"' :: rest => takeBasic? rest
  | '\'' :: rest => takeLiteral? rest
  | text =>
    let key := text.takeWhile isBare
    if key.isEmpty then none else some (key, text.dropWhile isBare)

/-- What follows the opening marks of a long text: a line end right after them is no part
of it. -/
def openLong (text : Text) : Text :=
  (afterBreak? text).getD text

/-- The text that `text` begins with, and what follows it. -/
def takeText? (text : Text) : Option (Text × Text) :=
  match text with
  | '"' :: '"' :: '"' :: rest => takeLongBasic? false (openLong rest)
  | '\'' :: '\'' :: '\'' :: rest => takeLongLiteral? (openLong rest)
  | '"' :: rest => takeBasic? rest
  | '\'' :: rest => takeLiteral? rest
  | _ => none

/-- The value that `text` begins with, and what follows it. -/
def takeValue? (text : Text) : Option (Value × Text) :=
  match text with
  | 't' :: 'r' :: 'u' :: 'e' :: rest => some (.bool true, rest)
  | 'f' :: 'a' :: 'l' :: 's' :: 'e' :: rest => some (.bool false, rest)
  | text => (takeText? text).map fun (content, rest) => (.text content, rest)

/-- The assignment that `text` begins with, and what follows it. -/
def takeAssignment? (text : Text) : Option ((Text × Value) × Text) := do
  let (key, rest) ← takeKey? text
  match skipSpace rest with
  | '=' :: rest =>
    let (value, rest) ← takeValue? (skipSpace rest)
    return ((key, value), rest)
  | _ => none

/-- What follows the line that `text` begins in, of which nothing but a comment is left. -/
def endLine? (text : Text) : Option Text :=
  let rest :=
    match skipSpace text with
    | '#' :: comment => comment.dropWhile isPlain
    | rest => rest
  if rest.isEmpty then some [] else afterBreak? rest

/-- The assignments on at most `limit` lines. -/
def takeLines? (limit : Nat) (text : Text) : Option (List (Text × Value)) :=
  match limit, skipSpace text with
  | 0, _ => none
  | _, [] => some []
  | limit + 1, start => do
    if (endLine? start).isSome then
      takeLines? limit (← endLine? start)
    else
      let (assignment, rest) ← takeAssignment? start
      return assignment :: (← takeLines? limit (← endLine? rest))

/-- The assignments of a file in order.  A byte order mark may stand before them.  Every line
but the last ends in a character of its own, so the length of the text bounds their number. -/
def assignments? (text : Text) : Option (List (Text × Value)) :=
  match text with
  | '\ufeff' :: text => takeLines? (text.length + 1) text
  | text => takeLines? (text.length + 1) text

/-! ### Settings -/

/-- `settings` with one more key; none for an unknown key or a value of another type. -/
def assign? (settings : Settings) (key : Text) (value : Value) : Option Settings :=
  match String.ofList key, value with
  | "start_phrase", .text content => some { settings with startPhrase := some content }
  | "relaxed", .bool value => some { settings with relaxed := some value }
  | "encoding", .text content => some { settings with encoding := some content }
  | "release", .text content => some { settings with release := some content }
  | "version", .text content => some { settings with version := some content }
  | "kpis", .text content => some { settings with kpis := some content }
  | "screenings", .text content => some { settings with screenings := some content }
  | _, _ => none

/-- The settings that a file gives; none when it is not readable. -/
def read? (text : Text) : Option Settings := do
  let assignments ← assignments? text
  if (assignments.map Prod.fst).Nodup then
    assignments.foldlM (fun settings (key, value) => assign? settings key value) empty
  else none

end CounterFormula.Settings.Toml
