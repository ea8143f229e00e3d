import CounterFormula.Text.Quoted
import CounterFormula.Token.Lexer

/-!
# Config

How a run is to be made: where the formula block begins, how strictly it is read, which
characters it is folded into, and which screenings count.
-/

namespace CounterFormula

/-- The characters a formula is folded into. -/
inductive Encoding where
  /-- Characters up to U+00FF. -/
  | latin1
  | ascii
  deriving DecidableEq, Repr

/-- An encoding name that is not known, in lower case. -/
structure UnknownEncoding where
  name : Text
  deriving DecidableEq, Repr

def UnknownEncoding.message (fault : UnknownEncoding) : String :=
  s!"unknown encoding '{String.ofList fault.name}'"

namespace Encoding

/-- The encoding that `name` names in any case. -/
def ofName (name : Text) : Except UnknownEncoding Encoding :=
  let name := Text.lowerAscii name
  if name ∈ ["latin1".toList, "latin-1".toList, "iso-8859-1".toList] then .ok .latin1
  else if name = "ascii".toList then .ok .ascii
  else .error ⟨name⟩

def name : Encoding → String
  | latin1 => "latin1"
  | ascii => "ascii"

end Encoding

/-- Which version of a release's screenings counts. -/
inductive VersionPolicy where
  /-- The greatest version of the release. -/
  | latest
  | pinned (version : Text)
  /-- Every version. -/
  | unversioned
  deriving DecidableEq, Repr

/-- The policy that `name` names; any other text is itself a version. -/
def VersionPolicy.ofName (name : Text) : VersionPolicy :=
  if name = "latest".toList then .latest
  else if name = "unversioned".toList ∨ name = "any".toList then .unversioned
  else .pinned name

/-- The phrase that precedes a formula block unless another is configured, and always in the
document of a KPI that is referred to. -/
def counterMethodPhrase : Text := "eNB Counter Method:".toList

structure Config where
  startPhrase : Text
  mode : Mode
  encoding : Encoding
  release : Text
  version : VersionPolicy
  deriving DecidableEq, Repr

namespace Config

def default : Config := ⟨counterMethodPhrase, .strict, .latin1, [], .latest⟩

/-- The default with another start phrase. -/
def withPhrase (phrase : Text) : Config := { default with startPhrase := phrase }

/-- The configuration of a run over a KPI that is referred to. -/
def nested (config : Config) : Config :=
  { config with startPhrase := counterMethodPhrase }

theorem nested_nested (config : Config) : config.nested.nested = config.nested := rfl

/-! ### Description -/

def describeMode : Mode → String
  | .strict => "relaxed: false"
  | .relaxed => "relaxed: true"

def describeEncoding : Encoding → String
  | .latin1 => "encoding: Latin1"
  | .ascii => "encoding: Ascii"

def describeVersion : VersionPolicy → String
  | .latest => "version: Latest"
  | .pinned version => s!"version: Pinned({String.ofList (Text.quoted version)})"
  | .unversioned => "version: Unversioned"

/-- The settings on one line, texts quoted. -/
def describe (config : Config) : String :=
  "ParserConfig \x7b " ++
    String.intercalate ", "
      [s!"start_phrase: {String.ofList (Text.quoted config.startPhrase)}",
        describeMode config.mode,
        describeEncoding config.encoding,
        s!"release: {String.ofList (Text.quoted config.release)}",
        describeVersion config.version,
        ".. \x7d"]

end Config

end CounterFormula
