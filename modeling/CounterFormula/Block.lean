import CounterFormula.Text.Blank
import CounterFormula.Text.Lowercase

/-!
# Block

The formula block of a document: the text between `BEGIN` and `END` that follows a start
phrase.  The phrase is matched case aside; the search for `BEGIN` starts where the phrase
starts, so a phrase that holds the marker holds the beginning of its own block.
-/

namespace CounterFormula

/-- What is wrong with a block whose start phrase is there. -/
inductive BlockFlaw where
  | noBegin
  | noEnd
  | blank
  deriving DecidableEq, Repr

/-- Where the formula of a document is. -/
inductive Block where
  /-- Without a start phrase there is nothing to read, which is no fault. -/
  | noPhrase
  | flawed (flaw : BlockFlaw)
  /-- The trimmed text of a block, not empty. -/
  | formula (text : Text)
  deriving DecidableEq, Repr

def BlockFlaw.message : BlockFlaw → String
  | noBegin => "BEGIN not found."
  | noEnd => "Found BEGIN but no END"
  | blank => "Found empty BEGIN/END block"

namespace Block

/-- One sentence on the outcome of the search. -/
def status : Block → String
  | noPhrase => "Start phrase not found."
  | flawed flaw => flaw.message
  | formula _ => "Formula text found."

def beginMark : Text := "BEGIN".toList

def endMark : Text := "END".toList

/-- A document with the stray blank removed that some carry before the colon of the usual
start phrase. -/
def mendPhrase (document : Text) : Text :=
  Text.replace "eNB Counter Method :".toList "eNB Counter Method:".toList document

/-! ### Searching -/

/-- Whether `text` begins with `phrase`, case aside. -/
def beginsWithPhrase : (phrase text : Text) → Bool
  | [], _ => true
  | _ :: _, [] => false
  | p :: phrase, c :: text => Text.sameLetter c p && beginsWithPhrase phrase text

/-- `text` from the first place on where `phrase` occurs, case aside. -/
def fromPhrase? (phrase : Text) : Text → Option Text
  | [] => if beginsWithPhrase phrase [] then some [] else none
  | c :: rest =>
    if beginsWithPhrase phrase (c :: rest) then some (c :: rest) else fromPhrase? phrase rest

/-- The block of `document` that follows `phrase`. -/
def locate (phrase document : Text) : Block :=
  match fromPhrase? phrase document with
  | none => noPhrase
  | some fromPhrase =>
    match Text.cut? beginMark fromPhrase with
    | none => flawed .noBegin
    | some (_, afterBegin) =>
      match Text.cut? endMark afterBegin with
      | none => flawed .noEnd
      | some (body, _) =>
        let text := Text.trim body
        if text.isEmpty then flawed .blank else formula text

end Block

end CounterFormula
