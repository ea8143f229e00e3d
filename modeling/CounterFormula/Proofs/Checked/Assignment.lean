import CounterFormula.Proofs.Assignment.Pairs
import CounterFormula.Proofs.Checked.Block

/-!
# Checked — Assignment

The assignments of a formula, read by the indexes of their tokens, and kept as the tokens that they
are made of: the name, the equals sign and the value.  A definition is only made where an equals
sign stands behind a variable, so that both are always there when the name and the value are asked
for.

* `takeValue?_eq`: the value of an assignment is found by index.
* `extract?_eq`: so are the assignments, and each of them has its name and its equals sign.
* `assign?_eq`: the values are put in without a failure.
-/

namespace CounterFormula.Checked

open Assignment (Precedes definedName extractFrom not_equals_of_startsPair precedes_succ startsPair
  startsPair_of_takeValue takeValue)

/-! ### Definitions -/

/-- An assignment as it is recorded. -/
structure Definition where
  name : Text
  /-- The name, the equals sign, and the value. -/
  tokens : List Token
  deriving DecidableEq, Repr

namespace Definition

/-- The token that names the variable. -/
def nameToken? (definition : Definition) : Option Token :=
  definition.tokens[0]?

/-- The tokens of the value. -/
def valueTokens? (definition : Definition) : Option (List Token) :=
  slice? definition.tokens 2 definition.tokens.length

/-- `definition` records `assignment`: its name, an equals sign, and its value. -/
structure Records (definition : Definition) (assignment : Assignment) : Prop where
  name_eq : definition.name = assignment.name.text
  tokens_eq : ∃ equals : Token, equals.isOperator '=' = true ∧
    definition.tokens = assignment.name :: equals :: assignment.value

variable {definition : Definition} {assignment : Assignment}

theorem Records.nameToken? (h : definition.Records assignment) :
    definition.nameToken? = some assignment.name := by
  obtain ⟨equals, -, htokens⟩ := h.tokens_eq
  rw [Definition.nameToken?, htokens]
  rfl

theorem Records.valueTokens? (h : definition.Records assignment) :
    definition.valueTokens? = some assignment.value := by
  obtain ⟨equals, -, htokens⟩ := h.tokens_eq
  rw [Definition.valueTokens?, slice?_of_le (by simp [htokens]) (Nat.le_refl _), htokens]
  exact congrArg some (List.take_of_length_le (by simp))

/-- The assignment that a definition records. -/
def read? (definition : Definition) : Option Assignment := do
  let name ← definition.nameToken?
  let value ← definition.valueTokens?
  some ⟨name, value⟩

theorem Records.read? (h : definition.Records assignment) :
    definition.read? = some assignment := by
  rw [Definition.read?, h.nameToken?, h.valueTokens?]
  rfl

end Definition

/-! ### Extraction -/

/-- Whether an assignment starts at index `i`. -/
def startsAt? (tokens : List Token) (i : Nat) : Option Bool := do
  let name ← tokens[i]?
  some (name.isVariable && tokens[i + 1]?.any (·.isOperator '='))

/-- The tokens from index `i` up to the next assignment, and where that starts. -/
def takeValue? (tokens : List Token) (i : Nat) : Option (List Token × { next : Nat // i ≤ next }) :=
  if i < tokens.length then do
    if ← startsAt? tokens i then some ([], ⟨i, Nat.le_refl i⟩)
    else
      let token ← tokens[i]?
      let (value, next) ← takeValue? tokens (i + 1)
      some (token :: value, ⟨next.1, Nat.le_of_succ_le next.2⟩)
  else some ([], ⟨i, Nat.le_refl i⟩)
termination_by tokens.length - i

/-- The definition that the equals sign at index `i` makes, given the ones so far. -/
def nameAt? (tokens : List Token) (table : List Definition) (i : Nat) :
    Option (Except AssignmentFault Token) :=
  if i = 0 then some (.error .leading)
  else do
    let previous ← sub? i 1
    let name ← tokens[previous]?
    some <|
      if !name.isVariable then .error .afterOther
      else if name.text.length < Assignment.leastName then .error (.shortName name.text)
      else if table.any fun definition => definition.name == name.text then
        .error (.redefined name.text)
      else .ok name

/-- The assignments from index `i` on, added to `table`. -/
def extractFrom? (tokens : List Token) (table : List Definition) (i : Nat) :
    Option (List Definition × List AssignmentFault) :=
  if i < tokens.length then do
    let token ← tokens[i]?
    if token.isOperator '=' then
      match ← nameAt? tokens table i with
      | .error fault =>
        let (table, faults) ← extractFrom? tokens table (i + 1)
        some (table, fault :: faults)
      | .ok name =>
        let (value, next) ← takeValue? tokens (i + 1)
        let definition : Definition := ⟨name.text, name :: token :: value⟩
        -- a listing of the run counts the tokens of the value
        let _ ← sub? definition.tokens.length 2
        extractFrom? tokens (table ++ [definition]) next.1
    else
      extractFrom? tokens table (i + 1)
  else some (table, [])
termination_by tokens.length - i
decreasing_by
  · omega
  · have := next.2
    omega
  · omega

/-- The assignments before the mark, and the faults met. -/
def extract? (stream : List Token) : Option (List Definition × List AssignmentFault) := do
  let body ← body? stream
  extractFrom? body [] 0

variable {tokens rest more : List Token} {token : Token} {i : Nat} {table : List Definition}
  {recorded : List Assignment} {previous : Option Token}

theorem startsAt?_eq (h : tokens.drop i = token :: more) :
    startsAt? tokens i = some (startsPair (token :: more)) := by
  rw [startsAt?, getElem?_of_drop h, getElem?_add_of_drop h 1]
  cases more with
  | nil => exact congrArg some (Bool.and_false _)
  | cons => rfl

/-- **A value** is found by index. -/
theorem takeValue?_eq (h : tokens.drop i = rest) :
    ∃ next, takeValue? tokens i = some ((takeValue rest).1, next) ∧
      tokens.drop next.1 = (takeValue rest).2 := by
  induction rest generalizing i with
  | nil =>
      rw [takeValue?, if_neg (Nat.not_lt.mpr (List.drop_eq_nil_iff.mp h))]
      exact ⟨_, rfl, h⟩
  | cons token more ih =>
      obtain ⟨next, hnext, hdrop⟩ := ih (drop_succ_of_drop h)
      rw [takeValue?, if_pos (lt_length_of_drop h), startsAt?_eq h, getElem?_of_drop h, takeValue]
      simp only [Option.bind_eq_bind, Option.bind_some]
      by_cases hpair : startsPair (token :: more) = true
      · rw [if_pos hpair, if_pos hpair]
        exact ⟨_, rfl, h⟩
      · rw [if_neg hpair, if_neg hpair, hnext]
        exact ⟨_, rfl, hdrop⟩

theorem any_records (h : List.Forall₂ Definition.Records table recorded) (name : Text) :
    (table.any fun definition => definition.name == name) =
      recorded.any fun assignment => assignment.name.text == name := by
  induction h with
  | nil => rfl
  | cons hhead _ ih => rw [List.any_cons, List.any_cons, ih, hhead.name_eq]

/-- **The variable** before an equals sign is found by index. -/
theorem nameAt?_eq (htable : List.Forall₂ Definition.Records table recorded)
    (h : tokens.drop i = token :: more) (hprevious : Precedes tokens i previous) :
    nameAt? tokens table i = some (definedName recorded previous) := by
  subst hprevious
  rw [nameAt?]
  cases i with
  | zero => rfl
  | succ i =>
      have hlt := lt_length_of_drop h
      have hname : tokens[i]? = some tokens[i] := List.getElem?_eq_getElem _
      have hsub : sub? (i + 1) 1 = some i := sub?_of_le (Nat.succ_pos i)
      rw [if_neg (Nat.succ_ne_zero i), if_neg (Nat.succ_ne_zero i), hsub, Nat.add_sub_cancel, hname]
      simp only [Option.bind_eq_bind, Option.bind_some, hname, any_records htable, definedName]

/-- **The assignments** are found by index, each with its name and its equals sign. -/
theorem extractFrom?_eq (htable : List.Forall₂ Definition.Records table recorded)
    (h : tokens.drop i = rest)
    (hprevious : ∀ token more, rest = token :: more → token.isOperator '=' = true →
      Precedes tokens i previous) :
    ∃ found, extractFrom? tokens table i = some (found, (extractFrom recorded previous rest).2) ∧
      List.Forall₂ Definition.Records found (extractFrom recorded previous rest).1 := by
  fun_induction extractFrom recorded previous rest generalizing i table with
  | case1 recorded previous =>
      rw [extractFrom?, if_neg (Nat.not_lt.mpr (List.drop_eq_nil_iff.mp h))]
      exact ⟨_, rfl, htable⟩
  | case2 recorded previous token rest hequals fault hname _ faults hrest ih =>
      obtain ⟨found, hfound, hrecords⟩ := ih htable (drop_succ_of_drop h) fun _ _ _ _ =>
        precedes_succ h
      rw [hrest] at hfound hrecords
      refine ⟨found, ?_, hrecords⟩
      rw [extractFrom?, if_pos (lt_length_of_drop h), getElem?_of_drop h]
      simp only [Option.bind_eq_bind, Option.bind_some, if_pos hequals,
        nameAt?_eq htable h (hprevious token rest rfl hequals), hname, hfound]
  | case3 recorded previous token rest hequals name hname ih =>
      obtain ⟨next, hvalue, hdrop⟩ := takeValue?_eq (drop_succ_of_drop h)
      -- no equals sign stands where the value ends
      have hnext : ∀ token' more, (takeValue rest).2 = token' :: more →
          token'.isOperator '=' = true → Precedes tokens next.1 (some token) := by
        intro token' more hrest hequals'
        rw [not_equals_of_startsPair (startsPair_of_takeValue hrest)] at hequals'
        cases hequals'
      have hrecords : Definition.Records ⟨name.text, name :: token :: (takeValue rest).1⟩
          ⟨name, (takeValue rest).1⟩ := ⟨rfl, token, hequals, rfl⟩
      obtain ⟨found, hfound, hall⟩ :=
        ih (List.rel_append htable (.cons hrecords .nil)) hdrop hnext
      have hcount : sub? (name :: token :: (takeValue rest).1).length 2 =
          some (takeValue rest).1.length := sub?_of_le (Nat.le_add_left 2 _)
      refine ⟨found, ?_, hall⟩
      rw [extractFrom?, if_pos (lt_length_of_drop h), getElem?_of_drop h]
      simp only [Option.bind_eq_bind, Option.bind_some, if_pos hequals,
        nameAt?_eq htable h (hprevious token rest rfl hequals), hname, hvalue, hcount]
      exact hfound
  | case4 recorded previous token rest hequals ih =>
      obtain ⟨found, hfound, hrecords⟩ := ih htable (drop_succ_of_drop h) fun _ _ _ _ =>
        precedes_succ h
      refine ⟨found, ?_, hrecords⟩
      rw [extractFrom?, if_pos (lt_length_of_drop h), getElem?_of_drop h]
      simp only [Option.bind_eq_bind, Option.bind_some, if_neg hequals, hfound]

/-- **The assignments** before the mark are found. -/
theorem extract?_eq (body : List Token) (mark : Token) :
    ∃ table, extract? (body ++ [mark]) = some (table, (Assignment.extract body).2) ∧
      List.Forall₂ Definition.Records table (Assignment.extract body).1 := by
  have hprevious : ∀ token more, body = token :: more → token.isOperator '=' = true →
      Precedes body 0 none := fun _ _ _ _ => rfl
  have hall : body.drop 0 = body := rfl
  obtain ⟨table, htable, hrecords⟩ := extractFrom?_eq .nil hall hprevious
  refine ⟨table, ?_, hrecords⟩
  rw [extract?, body?_concat]
  exact htable

/-- A definition has its name and its equals sign. -/
theorem tokens_of_records (h : List.Forall₂ Definition.Records table recorded) :
    ∀ definition ∈ table, ∃ name equals value,
      definition.tokens = name :: equals :: value ∧ equals.isOperator '=' = true := by
  induction h with
  | nil => exact List.forall_mem_nil _
  | cons hhead _ ih =>
      obtain ⟨equals, hequals, htokens⟩ := hhead.tokens_eq
      exact List.forall_mem_cons.mpr ⟨⟨_, equals, _, htokens, hequals⟩, ih⟩

/-- The assignments that a table records. -/
theorem mapM_read? (h : List.Forall₂ Definition.Records table recorded) :
    table.mapM Definition.read? = some recorded := by
  induction h with
  | nil => rfl
  | cons hhead _ ih =>
      rw [List.mapM_cons, hhead.read?, ih]
      rfl

/-! ### Values -/

/-- The characters at offsets `first` to `last`, both included; none when `last < first`. -/
def characters? (text : Text) (first last : Nat) : Option Text :=
  if last < first then some []
  else do
    let count ← sub? last first
    some ((text.drop first).take (count + 1))

theorem characters?_eq (text : Text) (first last : Nat) :
    characters? text first last = some (Text.slice text first last) := by
  rw [characters?, Text.slice]
  split
  · rename_i hlt
    rw [Nat.sub_eq_zero_of_le hlt, List.take_zero]
  · rename_i hle
    rw [sub?_of_le (Nat.le_of_not_lt hle), Nat.sub_add_comm (Nat.le_of_not_lt hle)]
    rfl

/-- `text` cut off at a byte index; an index behind its end cuts nothing off. -/
def truncate? (text : Text) (index : Nat) : Option Text :=
  if index ≤ bytes text then upTo? text index else some text

theorem truncate?_of_isPrefix {text front : Text} (h : front <+: text) :
    truncate? text (bytes front) = some front := by
  obtain ⟨behind, rfl⟩ := h
  rw [truncate?, if_pos (by rw [bytes_append]; exact Nat.le_add_right _ _)]
  exact upTo?_append front behind

theorem trimEnd_isPrefix (text : Text) : Text.trimEnd text <+: text := by
  have hsuffix := List.dropWhile_suffix (l := text.reverse) Text.isBlank
  rwa [← List.reverse_prefix, List.reverse_reverse] at hsuffix

/-- The value of a definition, if it has one. -/
def valueText? (source : Text) (definition : Definition) : Option (Option Text) := do
  let value ← definition.valueTokens?
  match value.head?, value.getLast? with
  | some first, some last => do
    let text ← characters? source first.first last.last
    some (some text)
  | _, _ => some none

theorem valueText?_eq {definition : Definition} {assignment : Assignment} (source : Text)
    (h : definition.Records assignment) :
    valueText? source definition = some (Assignment.valueText? source assignment) := by
  rw [valueText?, h.valueTokens?, Assignment.valueText?]
  simp only [Option.bind_eq_bind, Option.bind_some, characters?_eq]
  cases assignment.value.head? <;> cases assignment.value.getLast? <;> rfl

/-- The names defined in a table, each with its value text, and the faults met. -/
def values? (source : Text) :
    List Definition → Option (List (Text × Text) × List AssignmentFault)
  | [] => some ([], [])
  | definition :: rest => do
    let text ← valueText? source definition
    let (values, faults) ← values? source rest
    match text with
    | some text => some ((definition.name, text) :: values, faults)
    | none => some ((definition.name, []) :: values, .noValue definition.name :: faults)

theorem values?_eq (source : Text) (h : List.Forall₂ Definition.Records table recorded) :
    values? source table =
      some (Assignment.values source recorded, Assignment.valueFaults source recorded) := by
  induction h with
  | nil => rfl
  | cons hhead _ ih =>
      rw [values?, valueText?_eq source hhead, ih, hhead.name_eq]
      simp only [Option.bind_eq_bind, Option.bind_some, Assignment.values, Assignment.valueFaults,
        List.map_cons, List.filterMap_cons]
      cases Assignment.valueText? source _ <;> rfl

/-- The formula proper of `source` with the values of `table` put in, the values, and the faults
met. -/
def assign? (source : Text) :
    List Definition → Option (Text × List (Text × Text) × List AssignmentFault)
  | [] => some (source, [], [])
  | first :: rest => do
    let (values, faults) ← values? source (first :: rest)
    let name ← first.nameToken?
    let front := source.take name.first
    let front ← truncate? front (bytes (Text.trimEnd front))
    some (Assignment.sweep values front, values, faults)

/-- **The values are put in** without a failure. -/
theorem assign?_eq (source : Text) (h : List.Forall₂ Definition.Records table recorded) :
    assign? source table = some (Assignment.substitute source recorded,
      Assignment.values source recorded, Assignment.valueFaults source recorded) := by
  cases h with
  | nil => rfl
  | cons hhead hrest =>
      rw [assign?, values?_eq source (.cons hhead hrest), hhead.nameToken?]
      simp only [Option.bind_eq_bind, Option.bind_some, truncate?_of_isPrefix (trimEnd_isPrefix _)]
      rfl

end CounterFormula.Checked
