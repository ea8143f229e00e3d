import CounterFormula.Text.Basic

/-!
# Command line — Directory

A directory of files held in memory, and where a path leads from there.  A path is followed part
by part: an empty part and `.` stay, `..` leaves the directory, of whose surroundings nothing is
known, and nothing follows a file, not even a slash.
-/

namespace CounterFormula.CommandLine

/-- Why a path leads to no text. -/
inductive PathFault where
  | missing
  | notADirectory
  | isADirectory
  | tooLong
  /-- A path holds no NUL. -/
  | nul
  deriving DecidableEq, Repr

/-- The fault in the words of the operating system. -/
def PathFault.message : PathFault → String
  | missing => "No such file or directory (os error 2)"
  | notADirectory => "Not a directory (os error 20)"
  | isADirectory => "Is a directory (os error 21)"
  | tooLong => "File name too long (os error 36)"
  | nul => "file name contained an unexpected NUL byte"

/-- Files by name. -/
structure Directory where
  files : List (Text × Text)
  deriving DecidableEq, Repr

/-- Where a path has led so far. -/
inductive Place where
  | inside
  | outside
  | atFile (text : Text)
  deriving DecidableEq, Repr

/-- The longest name of a file, in bytes. -/
def nameLimit : Nat := 255

/-- The longest path, in bytes. -/
def pathLimit : Nat := 4095

def byteLength (text : Text) : Nat :=
  (String.ofList text).utf8ByteSize

/-- The parts of a path between its slashes. -/
def parts : Text → List Text
  | [] => [[]]
  | '/' :: rest => [] :: parts rest
  | c :: rest =>
    match parts rest with
    | part :: more => (c :: part) :: more
    | [] => [[c]]

namespace Directory

/-- One part further on a path. -/
def follow (directory : Directory) (place : Place) (part : Text) : Except PathFault Place :=
  match place with
  | .atFile _ => .error .notADirectory
  | place =>
    if part.isEmpty || part == ['.'] then .ok place
    else if part == ['.', '.'] then .ok .outside
    else if nameLimit < byteLength part then .error .tooLong
    else if place = .inside then
      match directory.files.lookup part with
      | some text => .ok (.atFile text)
      | none => .error .missing
    else .error .missing

/-- The text of the file that a path leads to. -/
def read (directory : Directory) (path : Text) : Except PathFault Text := do
  if '\x00' ∈ path then throw .nul
  if path.isEmpty then throw .missing
  if pathLimit < byteLength path then throw .tooLong
  let start : Place := if path.head? = some '/' then .outside else .inside
  match ← (parts path).foldlM directory.follow start with
  | .atFile text => return text
  | .inside | .outside => throw .isADirectory

end Directory

end CounterFormula.CommandLine
