import CounterFormula.Text.Blank
import CounterFormula.Token.Basic

/-!
# Assignment

The assignments `$name = value` at the tail of a formula.  A pair is a variable directly
followed by `=`; the value of an assignment runs up to the next pair or the end.  The formula
proper is what stands before the first assignment; in it every name is replaced by its value
text, name by name in the order of definition.

* `length_takeValue`: a value and the tokens after it are the tokens it was taken from.
-/

namespace CounterFormula

/-- An assignment: the token that names the variable and the tokens of its value. -/
structure Assignment where
  name : Token
  value : List Token
  deriving DecidableEq, Repr

/-- What is wrong with an equals sign, or with the assignment it makes. -/
inductive AssignmentFault where
  | leading
  | afterOther
  | shortName (name : Text)
  | redefined (name : Text)
  | noValue (name : Text)
  deriving DecidableEq, Repr

def AssignmentFault.message : AssignmentFault → String
  | leading => "Assignment operator can not be first token."
  | afterOther => "Assignment operator can only occur after a variable."
  | shortName name => s!"Variable name is too short: {String.ofList name}"
  | redefined name => s!"Multiple definitions of variable {String.ofList name} detected."
  | noValue name => s!"Variable {String.ofList name} has no value."

namespace Assignment

/-- The least length of a variable's name, its sigil included. -/
def leastName : Nat := 2

/-- The number of tokens of an assignment, its name and equals sign included. -/
def size (assignment : Assignment) : Nat :=
  assignment.value.length + 2

/-! ### Extraction -/

/-- Whether `tokens` begin with a variable and an equals sign. -/
def startsPair : List Token → Bool
  | name :: equals :: _ => name.isVariable && equals.isOperator '='
  | _ => false

/-- The tokens up to the next pair, and the tokens from there on. -/
def takeValue : List Token → List Token × List Token
  | [] => ([], [])
  | token :: rest =>
    if startsPair (token :: rest) then ([], token :: rest)
    else
      let (value, after) := takeValue rest
      (token :: value, after)

theorem takeValue_append (tokens : List Token) :
    (takeValue tokens).1 ++ (takeValue tokens).2 = tokens := by
  induction tokens with
  | nil => rfl
  | cons token rest ih =>
    simp only [takeValue]
    split
    next => rfl
    next => simp [ih]

theorem length_takeValue (tokens : List Token) :
    (takeValue tokens).1.length + (takeValue tokens).2.length = tokens.length := by
  rw [← List.length_append, takeValue_append]

/-- The variable that an equals sign after `previous` defines, given the assignments so far. -/
def definedName (table : List Assignment) : Option Token → Except AssignmentFault Token
  | none => .error .leading
  | some previous =>
    if !previous.isVariable then .error .afterOther
    else if previous.text.length < leastName then .error (.shortName previous.text)
    else if table.any fun assignment => assignment.name.text == previous.text then
      .error (.redefined previous.text)
    else .ok previous

/-- The assignments among the tokens that follow `previous`, added to `table`. -/
def extractFrom (table : List Assignment) (previous : Option Token) :
    List Token → List Assignment × List AssignmentFault
  | [] => (table, [])
  | token :: rest =>
    if token.isOperator '=' then
      match definedName table previous with
      | .error fault =>
        let (table, faults) := extractFrom table (some token) rest
        (table, fault :: faults)
      | .ok name =>
        extractFrom (table ++ [⟨name, (takeValue rest).1⟩]) (some token) (takeValue rest).2
    else
      extractFrom table (some token) rest
termination_by tokens => tokens.length
decreasing_by
  · simp
  · have := length_takeValue rest; simp only [List.length_cons]; omega
  · simp

/-- The assignments of a formula in the order of their definition, and the faults met. -/
def extract (tokens : List Token) : List Assignment × List AssignmentFault :=
  extractFrom [] none tokens

/-! ### Values -/

/-- The part of `source` that an assignment's value tokens span; none without a token. -/
def valueText? (source : Text) (assignment : Assignment) : Option Text :=
  match assignment.value.head?, assignment.value.getLast? with
  | some first, some last => some (Text.slice source first.first last.last)
  | _, _ => none

/-- The names defined in `table`, each with its value text. -/
def values (source : Text) (table : List Assignment) : List (Text × Text) :=
  table.map fun assignment =>
    (assignment.name.text, (valueText? source assignment).getD [])

/-- The assignments of `table` that have no value. -/
def valueFaults (source : Text) (table : List Assignment) : List AssignmentFault :=
  table.filterMap fun assignment =>
    match valueText? source assignment with
    | some _ => none
    | none => some (.noValue assignment.name.text)

/-- `text` with every name replaced by its value, name by name. -/
def sweep (values : List (Text × Text)) (text : Text) : Text :=
  values.foldl (fun text (name, value) => Text.replace name value text) text

/-- What stands before the first assignment of `table`. -/
def formulaPart (source : Text) : List Assignment → Text
  | [] => source
  | first :: _ => Text.trimEnd (source.take first.name.first)

/-- The formula proper of `source` with the values of `table` put in. -/
def substitute (source : Text) (table : List Assignment) : Text :=
  sweep (values source table) (formulaPart source table)

/-! ### Single variables -/

/-- The value of `name` with the values of all names put into it. -/
def resolved? (values : List (Text × Text)) (name : Text) : Option Text :=
  (values.lookup name).map (sweep values)

/-- The text that stands in for a variable that is not defined. -/
def missing (name : Text) : Text :=
  "ERROR_Variable_NotFound_".toList ++ name

/-- The resolved value of `name`, or a text that says it is missing. -/
def sourceOf (values : List (Text × Text)) (name : Text) : Text :=
  (resolved? values name).getD (missing name)

end Assignment

end CounterFormula
