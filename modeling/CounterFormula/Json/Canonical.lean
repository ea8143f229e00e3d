import CounterFormula.Json.Basic
import CounterFormula.Json.Number

/-!
# Json — Canonical

The one tree among those of equal content that is written to files: the fields of every object
are in order of their keys, each key once, and every number is written with the fewest digits.
-/

namespace CounterFormula.Json

/-! ### Key order -/

/-- A field put into fields that are in order of their keys; a later value takes the place of
an earlier one. -/
def putField (key : Text) (value : Json) : List (Text × Json) → List (Text × Json)
  | [] => [(key, value)]
  | (other, old) :: rest =>
    if keyOf key < keyOf other then (key, value) :: (other, old) :: rest
    else if keyOf key = keyOf other then (key, value) :: rest
    else (other, old) :: putField key value rest

mutual

/-- `value` with the fields of every object in order of their keys, each key once. -/
def inKeyOrder : Json → Json
  | .array items => .array (itemsInKeyOrder items)
  | .object fields => .object (fieldsInKeyOrder [] fields)
  | .null => .null
  | .bool value => .bool value
  | .number spelling => .number spelling
  | .string spelling => .string spelling
  | .broken => .broken

def itemsInKeyOrder : List Json → List Json
  | [] => []
  | item :: rest => inKeyOrder item :: itemsInKeyOrder rest

def fieldsInKeyOrder (done : List (Text × Json)) : List (Text × Json) → List (Text × Json)
  | [] => done
  | (key, value) :: rest => fieldsInKeyOrder (putField key (inKeyOrder value) done) rest

end

/-! ### Numbers -/

/-- The spelling of a number in its shortest form; one that is out of range has no other. -/
def shortestSpelling (spelling : Text) : Text :=
  match Number.ofSpelling? spelling with
  | some value => value.write
  | none => spelling

mutual

/-- `value` with every number in its shortest form. -/
def inShortestNumbers : Json → Json
  | .number spelling => .number (shortestSpelling spelling)
  | .array items => .array (itemsInShortestNumbers items)
  | .object fields => .object (fieldsInShortestNumbers fields)
  | .null => .null
  | .bool value => .bool value
  | .string spelling => .string spelling
  | .broken => .broken

def itemsInShortestNumbers : List Json → List Json
  | [] => []
  | item :: rest => inShortestNumbers item :: itemsInShortestNumbers rest

def fieldsInShortestNumbers : List (Text × Json) → List (Text × Json)
  | [] => []
  | (key, value) :: rest => (key, inShortestNumbers value) :: fieldsInShortestNumbers rest

end

/-- `value` as it is written to a file. -/
def canonical (value : Json) : Json :=
  inShortestNumbers (inKeyOrder value)

end CounterFormula.Json
