import CounterFormula.Text.Blank
import CounterFormula.Token.Basic

/-!
# Token — Lexer

Cutting a formula into tokens.  Blanks and operators are boundaries: each operator is a token
of its own, and the characters between two boundaries form a word.  A word begins with the
longest run of one class — symbol, variable or number, by its first character — and whatever
is left of the word is one error token.  In relaxed mode that rest is skipped in silence.

* `flatMap_text_pieces`: cutting a text into pieces loses nothing.
-/

namespace CounterFormula

/-- Whether characters that fit no token are reported or skipped. -/
inductive Mode where
  | strict
  | relaxed
  deriving DecidableEq, Repr

/-- A run of characters that fits no token, found at `offset`; `snippet` is the text up to
there, cut to its last characters. -/
structure LexicalFault where
  offset : Nat
  snippet : Text
  deriving DecidableEq, Repr

def LexicalFault.message (fault : LexicalFault) : String :=
  s!"Lexical error at offset {fault.offset}: [...{String.ofList fault.snippet}]"

namespace Lexer

/-! ### Characters -/

/-- The summation sign of a document, and the plain sign that stands for it. -/
def summationGlyph : Char := '∑'

def summationSign : Char := '~'

/-- The characters that are operators wherever they stand. -/
def operators : List Char :=
  ['[', ']', '(', ')', '+', '-', '*', '%', '/', '^', '=', summationGlyph, summationSign,
    ',', '#', ':']

def isOperator (c : Char) : Bool :=
  operators.contains c

def startsSymbol (c : Char) : Bool :=
  c.isAlpha || c == '_' || c == '@'

def continuesSymbol (c : Char) : Bool :=
  c.isAlphanum || c == '_' || c == '.' || c == '$'

def continuesVariable (c : Char) : Bool :=
  c.isAlphanum || c == '_' || c == '.'

def continuesNumber (c : Char) : Bool :=
  c.isDigit || c == '.'

/-- The class of a word that begins with `c`, and the characters that carry its run on; none
when no run begins with `c`. -/
def runOf? (c : Char) : Option (TokenClass × (Char → Bool)) :=
  if startsSymbol c then some (.symbol, continuesSymbol)
  else if c == '$' then some (.var, continuesVariable)
  else if continuesNumber c then some (.number, continuesNumber)
  else none

/-! ### Pieces -/

/-- A stretch of text between boundaries, or a boundary. -/
inductive Piece where
  | gap (c : Char)
  | sign (c : Char)
  | word (text : Text)
  deriving DecidableEq, Repr

/-- The characters of a piece. -/
def Piece.text : Piece → Text
  | gap c | sign c => [c]
  | word text => text

/-- `text` cut at its boundaries, no two words side by side. -/
def pieces : Text → List Piece
  | [] => []
  | c :: rest =>
    if Text.isBlank c then .gap c :: pieces rest
    else if isOperator c then .sign c :: pieces rest
    else
      match pieces rest with
      | .word text :: more => .word (c :: text) :: more
      | more => .word [c] :: more

theorem flatMap_text_pieces (text : Text) : (pieces text).flatMap Piece.text = text := by
  induction text with
  | nil => rfl
  | cons c rest ih =>
    simp only [pieces]
    split
    next => simp [Piece.text, ih]
    next =>
      split
      next => simp [Piece.text, ih]
      next =>
        split
        next text more h => rw [h] at ih; simpa [Piece.text] using ih
        next => simp [Piece.text, ih]

/-! ### Tokens of a piece -/

/-- What reading a stretch of text yields. -/
structure Reading where
  tokens : List Token
  faults : List LexicalFault
  deriving DecidableEq, Repr

namespace Reading

def empty : Reading := ⟨[], []⟩

def append (a b : Reading) : Reading :=
  ⟨a.tokens ++ b.tokens, a.faults ++ b.faults⟩

end Reading

/-- The longest piece of source that a fault quotes. -/
def snippetLimit : Nat := 32

/-- The end of `source` up to and including `offset`, at most `snippetLimit` characters. -/
def snippet (source : Text) (offset : Nat) : Text :=
  let upTo := source.take (offset + 1)
  upTo.drop (upTo.length - snippetLimit)

/-- The operator `c` at `start`; the summation glyph reads as the plain sign. -/
def operatorToken (start : Nat) (c : Char) : Token :=
  .ofRun .operator start [if c == summationGlyph then summationSign else c]

/-- The word that reads as a minus sign, in any case. -/
def reservedMinus : Text := ['t', 'o']

/-- The token of a complete run. -/
def runToken (kind : TokenClass) (start : Nat) (run : Text) : Token :=
  if kind == .symbol && Text.lowerAscii run == reservedMinus then
    { Token.ofRun kind start run with kind := .operator, text := ['-'] }
  else
    .ofRun kind start run

/-- The rest of a word that no run covers, one error token with its fault. -/
def readRest (mode : Mode) (source : Text) (start : Nat) (rest : Text) : Reading :=
  match mode, rest with
  | .strict, _ :: _ => ⟨[.ofRun .error start rest], [⟨start, snippet source start⟩]⟩
  | _, _ => .empty

/-- A word at `start`: its first run, and the rest. -/
def readWord (mode : Mode) (source : Text) (start : Nat) : Text → Reading
  | [] => .empty
  | c :: more =>
    match runOf? c with
    | none => readRest mode source start (c :: more)
    | some (kind, continues) =>
      let run := c :: more.takeWhile continues
      Reading.append ⟨[runToken kind start run], []⟩
        (readRest mode source (start + run.length) (more.dropWhile continues))

/-- One piece of `source`, found at `start`. -/
def readPiece (mode : Mode) (source : Text) (start : Nat) : Piece → Reading
  | .gap _ => .empty
  | .sign c => ⟨[operatorToken start c], []⟩
  | .word text => readWord mode source start text

/-- The pieces of `source` from offset `start` on. -/
def readPieces (mode : Mode) (source : Text) : Nat → List Piece → Reading
  | _, [] => .empty
  | start, piece :: more =>
    (readPiece mode source start piece).append
      (readPieces mode source (start + piece.text.length) more)

end Lexer

/-- A text cut into tokens. -/
structure Lexed where
  /-- The tokens in source order, without the mark at the end. -/
  body : List Token
  /-- The number of characters read. -/
  extent : Nat
  faults : List LexicalFault
  deriving DecidableEq, Repr

namespace Lexed

/-- The tokens with the mark at the end. -/
def tokens (lexed : Lexed) : List Token :=
  lexed.body ++ [.stop lexed.extent]

/-- The token listing: a line for each token before the mark. -/
def listing (lexed : Lexed) : String :=
  String.join (lexed.body.map Token.line)

end Lexed

/-- `source` cut into tokens. -/
def lex (mode : Mode) (source : Text) : Lexed :=
  let reading := Lexer.readPieces mode source 0 (Lexer.pieces source)
  ⟨reading.tokens, source.length, reading.faults⟩

end CounterFormula
