import CounterFormula.Config
import CounterFormula.Registry.Screening

/-!
# Summation

Sums over a counter's screenings, written `~Counter` or `~Counter(list)`.  A list holds
screening ids, ranges of ids and screening names; without one the ids 0 to 8 are meant.  A
summation expands to the explicit sum of the screenings that its ids and names select.

`expandAll` works from the right; a summation inside the list of another one is expanded
before it.
-/

namespace CounterFormula

/-- What to sum: a counter, and which of its screenings. -/
structure Summation where
  counter : Text
  /-- Ascending. -/
  ids : List Int
  /-- In the order written. -/
  names : List Text
  deriving DecidableEq, Repr

inductive SummationFault where
  | unterminated (counter : Text)
  | notAnId (text : Text)
  | reversed (first last : Int)
  | tooWide (first last : Int)
  | twoNumbers
  | strayOperator
  | commaInRange
  | closingInRange
  | strayToken
  | noRegistry
  /-- The release has no screenings of the counter. -/
  | unknownCounter (counter release : Text)
  | unknownIds (ids : List Int)
  | unknownNames (names : List Text)
  deriving DecidableEq, Repr

namespace Summation

/-- The ids that are meant without a list. -/
def defaultIds : List Int := [0, 1, 2, 3, 4, 5, 6, 7, 8]

/-- The most ids that one range may hold. -/
def rangeLimit : Nat := 1024

/-- The greatest screening id. -/
def greatestId : Nat := Nat.pow 2 63 - 1

end Summation

def SummationFault.message : SummationFault → String
  | unterminated counter => s!"Unterminated summation range for {String.ofList counter}."
  | notAnId text => s!"Invalid screening id in summation range: {String.ofList text}"
  | reversed first last => s!"Reversed summation range: {first}-{last}"
  | tooWide first last =>
    s!"Summation range {first}-{last} exceeds {Summation.rangeLimit} ids."
  | twoNumbers => "Two consecutive numbers seen in summation range"
  | strayOperator => "Unexpected operator in summation range."
  | commaInRange => "In summation range: expecting number, got a comma instead."
  | closingInRange => "In summation range: expecting number, got a closing paren instead."
  | strayToken => "Unexpected syntax in summation range."
  | noRegistry => "PM SRS is not set - can not expand summation."
  | unknownCounter counter release =>
    s!"{String.ofList counter} not in PM SRS for release {String.ofList release}."
  | unknownIds ids =>
    "Invalid Screening IDs found: " ++ String.intercalate ", " (ids.map toString)
  | unknownNames names =>
    "Invalid Screening Names found: " ++ String.intercalate ", " (names.map String.ofList)

namespace Summation

/-! ### Reading a list -/

/-- `summation` with one more id. -/
def addId (summation : Summation) (id : Int) : Summation :=
  { summation with ids := Ascending.insert id summation.ids }

/-- `summation` with the `count` ids from `first` on. -/
def addIds (summation : Summation) (first : Int) : Nat → Summation
  | 0 => summation
  | count + 1 => addIds (summation.addId first) (first + 1) count

/-- `summation` with one more name, unless it has it already. -/
def addName (summation : Summation) (name : Text) : Summation :=
  if name ∈ summation.names then summation
  else { summation with names := summation.names ++ [name] }

/-- Where in a list a reader is. -/
inductive Place where
  /-- Before an id or a name. -/
  | fresh
  /-- After an id that may begin a range. -/
  | afterId (id : Int)
  /-- After an id and a hyphen. -/
  | inRange (first : Int)
  deriving DecidableEq, Repr

/-- The id that a number token spells. -/
def readId? (text : Text) : Option Int :=
  if !text.isEmpty && text.all Char.isDigit then
    let value := text.foldl (fun value c => value * 10 + (c.toNat - '0'.toNat)) 0
    if value ≤ greatestId then some value else none
  else none

/-- What one step of reading a list leads to. -/
structure Step where
  place : Place
  summation : Summation
  faults : List SummationFault

/-- A number in the list. -/
def readNumber (summation : Summation) (id : Int) : Place → Step
  | .fresh => ⟨.afterId id, summation, []⟩
  | .afterId previous => ⟨.afterId previous, summation, [.twoNumbers]⟩
  | .inRange first =>
    if id < first then ⟨.fresh, summation, [.reversed first id]⟩
    else if id - first ≥ rangeLimit then ⟨.fresh, summation, [.tooWide first id]⟩
    else ⟨.fresh, summation.addIds first (id - first + 1).toNat, []⟩

/-- A hyphen in the list. -/
def readHyphen (summation : Summation) : Place → Step
  | .afterId id => ⟨.inRange id, summation, []⟩
  | place => ⟨place, summation, [.strayOperator]⟩

/-- A comma in the list. -/
def readComma (summation : Summation) : Place → Step
  | .fresh => ⟨.fresh, summation, []⟩
  | .afterId id => ⟨.fresh, summation.addId id, []⟩
  | .inRange first => ⟨.inRange first, summation, [.commaInRange]⟩

/-- Any token of the list but its closing parenthesis. -/
def readToken (summation : Summation) (place : Place) (token : Token) : Step :=
  match token.kind with
  | .number =>
    match readId? token.text with
    | some id => readNumber summation id place
    | none => ⟨place, summation, [.notAnId token.text]⟩
  | .operator =>
    if token.isOperator '-' then readHyphen summation place
    else if token.isOperator ',' then readComma summation place
    else ⟨place, summation, [.strayOperator]⟩
  | .symbol => ⟨place, summation.addName token.text, []⟩
  | .var | .error | .stop => ⟨place, summation, [.strayToken]⟩

/-- The closing parenthesis of the list. -/
def close (summation : Summation) : Place → Summation × List SummationFault
  | .fresh => (summation, [])
  | .afterId id => (summation.addId id, [])
  | .inRange _ => (summation, [.closingInRange])

/-- A list from `place` on, up to its closing parenthesis or the end: the summation it
completes, its last token, which is `last` when nothing follows, and the faults met. -/
def readList (summation : Summation) (place : Place) (last : Token) :
    List Token → Summation × Token × List SummationFault
  | [] => (summation, last, [.unterminated summation.counter])
  | token :: rest =>
    if token.isOperator ')' then
      let (summation, faults) := close summation place
      (summation, token, faults)
    else
      let step := readToken summation place token
      let (summation, last, faults) := readList step.summation step.place token rest
      (summation, last, step.faults ++ faults)

/-- The summation that `tokens` begin with, its last token, and the faults met. -/
def read? : List Token → Option (Summation × Token × List SummationFault)
  | sign :: counter :: rest =>
    if sign.isOperator Lexer.summationSign && counter.isSymbol then
      match rest with
      | opening :: list =>
        if opening.isOperator '(' then
          some (readList ⟨counter.text, [], []⟩ .fresh opening list)
        else some (⟨counter.text, defaultIds, []⟩, counter, [])
      | [] => some (⟨counter.text, defaultIds, []⟩, counter, [])
    else none
  | _ => none

/-! ### Expanding -/

/-- The version of `release` that a policy picks; none when all count. -/
def versionFor (registry : ScreeningRegistry) (release : Text) : VersionPolicy → Option Text
  | .latest => (registry.versions release).head?
  | .pinned version => some version
  | .unversioned => none

/-- Whether a screening is asked for, by id or by name. -/
def selects (summation : Summation) (row : Screening) : Bool :=
  summation.ids.contains row.id || summation.names.contains row.suffix

/-- The term of one screening. -/
def term (summation : Summation) (row : Screening) : Text :=
  summation.counter ++ ['.'] ++ row.suffix

/-- The sum of `terms` in parentheses; nothing without a term. -/
def sum (terms : List Text) : Text :=
  if terms.isEmpty then [] else ['('] ++ Text.join ['+'] terms ++ [')']

/-- The ids asked for that no row has. -/
def unknownIds (summation : Summation) (rows : List Screening) : List Int :=
  summation.ids.filter fun id => rows.all fun row => row.id != id

/-- The names asked for that no row has. -/
def unknownNames (summation : Summation) (rows : List Screening) : List Text :=
  summation.names.filter fun name => rows.all fun row => row.suffix != name

/-- What a summation stands for, and the faults met. -/
def expand (config : Config) (screenings : Option ScreeningRegistry) (summation : Summation) :
    Text × List SummationFault :=
  match screenings with
  | none => ([], [.noRegistry])
  | some registry =>
    let rows := registry.query summation.counter config.release
      (versionFor registry config.release config.version)
    if rows.isEmpty then
      ([], [.unknownCounter summation.counter config.release])
    else
      let ids := summation.unknownIds rows
      let names := summation.unknownNames rows
      (sum ((rows.filter summation.selects).map summation.term),
        (if ids.isEmpty then [] else [.unknownIds ids]) ++
          (if names.isEmpty then [] else [.unknownNames names]))

/-- `source` with the summations among `tokens` expanded, the last one first. -/
def expandAll (config : Config) (screenings : Option ScreeningRegistry) (source : Text) :
    List Token → Text × List SummationFault
  | [] => (source, [])
  | token :: rest =>
    let (text, faults) := expandAll config screenings source rest
    match read? (token :: rest) with
    | none => (text, faults)
    | some (summation, last, readFaults) =>
      let (new, expandFaults) := summation.expand config screenings
      (Text.splice text token.first last.last new, faults ++ readFaults ++ expandFaults)

end Summation

end CounterFormula
