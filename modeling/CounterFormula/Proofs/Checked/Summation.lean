import CounterFormula.Proofs.Checked.Reference
import CounterFormula.Proofs.Summation.Rewriting
import CounterFormula.Proofs.Token.Surroundings

/-!
# Checked — Summation

The summations among the tokens of a text, read by their indexes.  The reader of a list goes on from
token to token until a closing parenthesis or the mark, which it cannot pass.  An id is a 64-bit
integer, and so is the width of a range; a number token has no sign, so that no id is negative, and
no width is too great.

* `Made`, `made_of_mem_body`: what is known of every token of a text.
* `integer?_of_number`: a number token spells an id just as `readId?` reads it.
* `listAt?_eq`: a list is read by index, and ends at its first closing parenthesis or at the mark.
* `expandAll?_eq`: summations are expanded without a failure.
-/

namespace CounterFormula

namespace Lexer

variable {place : Place} {start : Nat} {text : Text} {token : Token} {tokens : List Token}

/-- What is known of every token of a text: it is not the mark, and a number is spelled with digits
and dots. -/
structure Made (token : Token) : Prop where
  not_stop : token.kind ≠ .stop
  number : token.isNumber = true → ∀ c ∈ token.text, continuesNumber c = true

theorem made_runToken {c : Char} {kind : TokenClass} {more : Text} (hc : Begins c kind)
    (hmore : ∀ d ∈ more, carriesOn kind d = true) (start : Nat) :
    Made (runToken kind start (c :: more)) := by
  rcases kind_runToken kind start (c :: more) with hrun | hrun
  · refine ⟨by rw [hrun]; decide, fun hnumber => ?_⟩
    rw [Token.isNumber, hrun] at hnumber
    cases hnumber
  · rw [hrun]
    cases hc with
    | symbol => exact ⟨nofun, nofun⟩
    | var => exact ⟨nofun, nofun⟩
    | number hc => exact ⟨nofun, fun _ => List.forall_mem_cons.mpr ⟨hc, hmore⟩⟩

theorem Scans.made (h : Scans place start text tokens) : ∀ token ∈ tokens, Made token := by
  induction h with
  | done => exact nofun
  | blank _ _ ih => exact ih
  | sign _ _ ih => exact List.forall_mem_cons.mpr ⟨⟨nofun, nofun⟩, ih⟩
  | run hc hmore _ _ ih => exact List.forall_mem_cons.mpr ⟨made_runToken hc hmore _, ih⟩
  | error _ _ _ _ ih => exact List.forall_mem_cons.mpr ⟨⟨nofun, nofun⟩, ih⟩

end Lexer

theorem made_of_mem_body {mode : Mode} {source : Text} :
    ∀ token ∈ (lex mode source).body, Lexer.Made token := fun token hmem =>
  (scans_iff.mpr rfl : Lexer.Scans .boundary 0 source _).made token (mem_body_strict hmem)

namespace Checked

open Lexer (Made continuesNumber)
open Summation (Place Step close greatestId rangeLimit readId? readList readNumber readToken read?)

/-! ### Integers -/

/-- The difference of two 64-bit integers; it fails when it is none itself. -/
def difference? (a b : Int) : Option Int :=
  if -(greatestId + 1) ≤ a - b ∧ a - b ≤ greatestId then some (a - b) else none

/-- The number up to `limit` that is spelled by its digits. -/
def decimal? (limit : Nat) (digits : Text) : Option Nat :=
  if !digits.isEmpty && digits.all Char.isDigit then
    let value := digits.foldl (fun value c => value * 10 + (c.toNat - '0'.toNat)) 0
    if value ≤ limit then some value else none
  else none

/-- The 64-bit integer that a text spells, with a sign or without one. -/
def integer? : Text → Option Int
  | '-' :: digits => (decimal? (greatestId + 1) digits).map fun (n : Nat) => -(n : Int)
  | '+' :: digits => (decimal? greatestId digits).map Int.ofNat
  | digits => (decimal? greatestId digits).map Int.ofNat

theorem readId?_eq (text : Text) : readId? text = (decimal? greatestId text).map Int.ofNat := by
  rw [readId?, decimal?]
  split
  · dsimp only
    split <;> rfl
  · rfl

/-- **A number token has no sign.** -/
theorem integer?_of_number {text : Text} (h : ∀ c ∈ text, continuesNumber c = true) :
    integer? text = readId? text := by
  rw [readId?_eq, integer?.eq_def]
  split
  · exact absurd (h '-' List.mem_cons_self) (by decide)
  · exact absurd (h '+' List.mem_cons_self) (by decide)
  · rfl

theorem bounds_of_readId? {text : Text} {id : Int} (h : readId? text = some id) :
    0 ≤ id ∧ id ≤ greatestId := by
  rw [readId?_eq] at h
  obtain ⟨n, hn, rfl⟩ := Option.map_eq_some_iff.mp h
  rw [decimal?] at hn
  split at hn
  · dsimp only at hn
    split at hn
    · rename_i hle
      obtain rfl := Option.some.inj hn
      exact ⟨Int.natCast_nonneg _, Int.ofNat_le.mpr hle⟩
    · cases hn
  · cases hn

/-! ### Reading a list -/

/-- A number in the list. -/
def readNumber? (summation : Summation) (id : Int) : Place → Option Step
  | .inRange first =>
    if id < first then some ⟨.fresh, summation, [.reversed first id]⟩
    else do
      let width ← difference? id first
      some <|
        if width ≥ rangeLimit then ⟨.fresh, summation, [.tooWide first id]⟩
        else ⟨.fresh, summation.addIds first (width + 1).toNat, []⟩
  | place => some (readNumber summation id place)

/-- Any token of the list but its closing parenthesis. -/
def readToken? (summation : Summation) (place : Place) (token : Token) : Option Step :=
  match token.kind with
  | .number =>
    match integer? token.text with
    | some id => readNumber? summation id place
    | none => some ⟨place, summation, [.notAnId token.text]⟩
  | _ => some (readToken summation place token)

/-- A list from index `j` on: the summation it completes, the index of its last token, and the
faults met. -/
def listAt? (tokens : List Token) (j : Nat) (place : Place) (summation : Summation) :
    Option (Summation × Nat × List SummationFault) :=
  if _hj : j < tokens.length then do
    let token ← tokens[j]?
    if token.kind = .stop then do
      let last ← sub? j 1
      some (summation, last, [.unterminated summation.counter])
    else if token.isOperator ')' then
      let (summation, faults) := close summation place
      some (summation, j, faults)
    else do
      let step ← readToken? summation place token
      let (summation, last, faults) ← listAt? tokens (j + 1) step.place step.summation
      some (summation, last, step.faults ++ faults)
  else none
termination_by tokens.length - j

/-- The id that is pending at `place` is one that can be read. -/
def Pending : Place → Prop
  | .fresh => True
  | .afterId id | .inRange id => 0 ≤ id ∧ id ≤ greatestId

variable {summation : Summation} {place : Place} {token : Token}

/-- **No range is too wide** for the difference of its bounds. -/
theorem readNumber?_eq (hplace : Pending place) {id : Int} (hid : 0 ≤ id ∧ id ≤ greatestId) :
    readNumber? summation id place = some (readNumber summation id place) := by
  cases place with
  | fresh | afterId _ => rfl
  | inRange first =>
      obtain ⟨hfirst, -⟩ := hplace
      rw [readNumber?, readNumber]
      by_cases hless : id < first
      · rw [if_pos hless, if_pos hless]
      · have hwidth : difference? id first = some (id - first) := if_pos (by omega)
        rw [if_neg hless, if_neg hless, hwidth]
        rfl

theorem pending_readNumber (hplace : Pending place) {id : Int}
    (hid : 0 ≤ id ∧ id ≤ greatestId) : Pending (readNumber summation id place).place := by
  cases place with
  | fresh => exact hid
  | afterId _ => exact hplace
  | inRange first =>
      rw [readNumber]
      split
      · exact trivial
      · split <;> exact trivial

theorem pending_readToken (hplace : Pending place) (summation : Summation) (token : Token) :
    Pending (readToken summation place token).place := by
  rw [readToken]
  split
  · split
    · rename_i hid
      exact pending_readNumber hplace (bounds_of_readId? hid)
    · exact hplace
  · split
    · cases place <;> exact hplace
    · split
      · cases place <;> first | exact hplace | exact trivial
      · exact hplace
  all_goals exact hplace

theorem readToken?_eq (hplace : Pending place) (hmade : Made token) :
    readToken? summation place token = some (readToken summation place token) := by
  rw [readToken?, readToken]
  cases hkind : token.kind with
  | number =>
      have hnumber : token.isNumber = true := by rw [Token.isNumber, hkind]; rfl
      dsimp only
      rw [integer?_of_number (hmade.number hnumber)]
      cases hid : readId? token.text with
      | none => rfl
      | some id => exact readNumber?_eq hplace (bounds_of_readId? hid)
  | _ => rfl

/-- `index` is where a list from index `j` on ends: its reader goes on to the first closing
parenthesis and ends there, or goes on to the mark and ends before it. -/
def EndsAt (stream : List Token) (j index : Nat) : Prop :=
  ∃ stop, j ≤ stop ∧ (∀ k, j ≤ k → k < stop → operatorAt stream k ')' = false) ∧
    (operatorAt stream stop ')' = true ∧ index = stop ∨
      (∃ mark, stream[stop]? = some mark ∧ mark.kind = .stop) ∧ index + 1 = stop)

theorem EndsAt.succ {stream : List Token} {j index : Nat} (h : EndsAt stream (j + 1) index)
    (hj : operatorAt stream j ')' = false) : EndsAt stream j index := by
  obtain ⟨stop, hle, hbefore, hstop⟩ := h
  refine ⟨stop, Nat.le_of_succ_le hle, fun k hk hlt => ?_, hstop⟩
  rcases Nat.eq_or_lt_of_le hk with rfl | hk
  · exact hj
  · exact hbefore k hk hlt

variable {stream rest : List Token} {last : Token} {extent j : Nat}

/-- **A list** is read by index, up to its first closing parenthesis or the mark. -/
theorem listAt?_eq (h : stream.drop j = rest ++ [.stop extent]) (hmade : ∀ token ∈ rest, Made token)
    (hplace : Pending place) (hj : 0 < j) (hlast : stream[j - 1]? = some last)
    (summation : Summation) :
    ∃ index,
      listAt? stream j place summation =
        some ((readList summation place last rest).1, index,
          (readList summation place last rest).2.2) ∧
      stream[index]? = some (readList summation place last rest).2.1 ∧ EndsAt stream j index := by
  induction rest generalizing j place summation last with
  | nil =>
      have hmark : stream[j]? = some (.stop extent) := getElem?_of_drop h
      refine ⟨j - 1, ?_, hlast, j, Nat.le_refl j, fun k hk hlt => ?_, .inr ⟨?_, ?_⟩⟩
      · rw [listAt?, dif_pos (lt_length_of_drop h), hmark]
        simp only [Option.bind_eq_bind, Option.bind_some, sub?_of_le hj]
        rfl
      · exact absurd hlt (Nat.not_lt.mpr hk)
      · exact ⟨_, hmark, rfl⟩
      · exact Nat.sub_add_cancel hj
  | cons token rest ih =>
      obtain ⟨hthis, hmade'⟩ := List.forall_mem_cons.mp hmade
      have htoken : stream[j]? = some token := getElem?_of_drop h
      have hoperator : operatorAt stream j ')' = token.isOperator ')' := by
        rw [operatorAt, htoken]
        rfl
      rw [listAt?, dif_pos (lt_length_of_drop h), htoken]
      simp only [Option.bind_eq_bind, Option.bind_some, if_neg hthis.not_stop]
      by_cases hclosing : token.isOperator ')' = true
      · rw [if_pos hclosing, readList, if_pos hclosing]
        refine ⟨j, rfl, htoken, j, Nat.le_refl j, fun k hk hlt => ?_, .inl ⟨?_, rfl⟩⟩
        · exact absurd hlt (Nat.not_lt.mpr hk)
        · rw [hoperator, hclosing]
      · rw [if_neg hclosing, readToken?_eq hplace hthis, readList, if_neg hclosing]
        obtain ⟨index, hread, hindex, hends⟩ := ih (drop_succ_of_drop h) hmade'
          (pending_readToken hplace summation token) (Nat.succ_pos j) htoken _
        refine ⟨index, ?_, hindex, hends.succ ?_⟩
        · simp only [Option.bind_some, hread]
        · rw [hoperator]
          exact Bool.eq_false_iff.mpr hclosing

/-! ### Expanding -/

/-- The summation whose sign is at index `i`, the index of its last token, and the faults met. -/
def summationAt? (tokens : List Token) (i : Nat) :
    Option (Summation × Nat × List SummationFault) := do
  let counter ← tokens[i + 1]?
  let opening ← tokens[i + 2]?
  if opening.isOperator '(' then listAt? tokens (i + 3) .fresh ⟨counter.text, [], []⟩
  else some (⟨counter.text, Summation.defaultIds, []⟩, i + 1, [])

/-- Whether a summation starts at index `i`. -/
def signAt? (tokens : List Token) (i : Nat) : Option Bool := do
  let sign ← tokens[i]?
  if sign.isOperator Lexer.summationSign then do
    let counter ← tokens[i + 1]?
    some counter.isSymbol
  else some false

/-- What becomes of a text, and of the faults met, at index `i`. -/
def expandAt? (config : Config) (screenings : Option ScreeningRegistry) (tokens : List Token)
    (i : Nat) (state : Text × List SummationFault) : Option (Text × List SummationFault) := do
  if ← signAt? tokens i then
    let (summation, index, readFaults) ← summationAt? tokens i
    let (new, expandFaults) := summation.expand config screenings
    let first ← tokens[i]?
    let last ← tokens[index]?
    some (Text.splice state.1 first.first last.last new, state.2 ++ readFaults ++ expandFaults)
  else some state

/-- `source` with the summations among `tokens` expanded. -/
def expandAll? (config : Config) (screenings : Option ScreeningRegistry) (source : Text)
    (tokens : List Token) : Option (Text × List SummationFault) :=
  walk? (expandAt? config screenings tokens) tokens (source, [])

/-- A summation starts where one can be read. -/
theorem signAt?_eq {i : Nat} (h : stream.drop i = token :: rest ++ [.stop extent]) :
    signAt? stream i = some (read? (token :: rest)).isSome := by
  rw [signAt?, getElem?_of_drop h, getElem?_add_of_drop h 1]
  simp only [Option.bind_eq_bind, Option.bind_some]
  cases rest with
  | nil =>
      rw [Summation.read?_singleton]
      split <;> rfl
  | cons counter more =>
      by_cases hsign : token.isOperator Lexer.summationSign = true
      · rw [if_pos hsign]
        by_cases hcounter : counter.isSymbol = true
        · rw [Summation.read?_of_counter hsign hcounter]
          exact congrArg some hcounter
        · rw [Bool.not_eq_true] at hcounter
          rw [Summation.read?_eq_none_of_not_counter hcounter]
          exact congrArg some hcounter
      · rw [if_neg hsign, Summation.read?_eq_none_of_not_sign (Bool.eq_false_iff.mpr hsign)]
        rfl

/-- **A summation** is read by index, and its last token is one of the tokens. -/
theorem summationAt?_eq {i : Nat} {faults : List SummationFault}
    (h : stream.drop i = token :: rest ++ [.stop extent]) (hmade : ∀ token ∈ rest, Made token)
    (hread : read? (token :: rest) = some (summation, last, faults)) :
    ∃ index, summationAt? stream i = some (summation, index, faults) ∧
      stream[index]? = some last ∧
      (operatorAt stream (i + 2) '(' = true → EndsAt stream (i + 3) index) := by
  have hopensAt : operatorAt stream (i + 2) '(' =
      operatorAt (token :: rest ++ [.stop extent]) 2 '(' := by
    rw [operatorAt, operatorAt, getElem?_add_of_drop h 2]
  obtain ⟨sign, counter, more, htokens, hsign, hcounter, -⟩ := Summation.read?_inv hread
  obtain ⟨rfl, rfl⟩ := List.cons.inj htokens
  have hat : stream[i + 1]? = some counter := getElem?_add_of_drop h 1
  rw [Summation.read?_of_counter hsign hcounter] at hread
  have hread := Option.some.inj hread
  rw [summationAt?, hat, getElem?_add_of_drop h 2]
  cases more with
  | nil =>
      cases hread
      exact ⟨i + 1, rfl, hat, fun hopens => by rw [hopensAt] at hopens; cases hopens⟩
  | cons opening list =>
      have hopening : stream[i + 2]? = some opening := getElem?_add_of_drop h 2
      have hlist : stream.drop (i + 3) = list ++ [.stop extent] :=
        drop_add_of_drop [token, counter, opening] h
      have hmade' : ∀ token ∈ list, Made token := fun token htoken =>
        hmade token (List.mem_cons_of_mem _ (List.mem_cons_of_mem _ htoken))
      dsimp only at hread
      by_cases hopens : opening.isOperator '(' = true
      · have hfresh : Pending .fresh := trivial
        obtain ⟨index, hfound, hindex, hends⟩ :=
          listAt?_eq hlist hmade' hfresh (Nat.succ_pos _) hopening ⟨counter.text, [], []⟩
        rw [if_pos hopens] at hread
        rw [hread] at hfound hindex
        exact ⟨index, (if_pos hopens).trans hfound, hindex, fun _ => hends⟩
      · rw [if_neg hopens] at hread
        cases hread
        exact ⟨i + 1, if_neg hopens, hat, fun hopens' => absurd (hopensAt.symm.trans hopens') hopens⟩

/-- **The reader of a list** ends at its first closing parenthesis or at the mark. -/
theorem endsAt_of_signAt? {body : List Token} (hmade : ∀ token ∈ body, Made token) {i : Nat}
    (hsign : signAt? (body ++ [.stop extent]) i = some true)
    (hopens : operatorAt (body ++ [.stop extent]) (i + 2) '(' = true) :
    ∃ summation index faults,
      summationAt? (body ++ [.stop extent]) i = some (summation, index, faults) ∧
        EndsAt (body ++ [.stop extent]) (i + 3) index := by
  cases hdrop : body.drop i with
  | nil =>
      -- no token is left to open a list
      have hle : (body ++ [Token.stop extent]).length ≤ i + 2 := by
        have hlength := List.drop_eq_nil_iff.mp hdrop
        rw [List.length_append, List.length_singleton]
        omega
      rw [operatorAt, List.getElem?_eq_none hle] at hopens
      cases hopens
  | cons token rest =>
      have hstream := drop_concat hdrop (Token.stop extent)
      rw [signAt?_eq hstream, Option.some.injEq, Option.isSome_iff_exists] at hsign
      obtain ⟨⟨summation, last, faults⟩, hread⟩ := hsign
      have hmade' : ∀ token ∈ rest, Made token := fun token' hmem =>
        hmade token' (List.mem_of_mem_drop (hdrop ▸ List.mem_cons_of_mem token hmem))
      obtain ⟨index, hat, -, hends⟩ := summationAt?_eq hstream hmade' hread
      exact ⟨summation, index, faults, hat, hends hopens⟩

/-- **Summations are expanded** without a failure. -/
theorem expandAll?_eq (config : Config) (screenings : Option ScreeningRegistry) (source : Text)
    {body : List Token} (hmade : ∀ token ∈ body, Made token) (extent : Nat) :
    expandAll? config screenings source (body ++ [.stop extent]) =
      some (Summation.expandAll config screenings source body) := by
  refine walk?_eq (Summation.expandAll config screenings source) body _ fun i token rest h => ?_
  have hdrop := drop_concat h (Token.stop extent)
  have htoken : (body ++ [Token.stop extent])[i]? = some token := getElem?_of_drop hdrop
  have hmade' : ∀ token ∈ rest, Made token := fun token' hmem =>
    hmade token' (List.mem_of_mem_drop (h ▸ List.mem_cons_of_mem token hmem))
  rw [expandAt?, Summation.expandAll]
  rw [signAt?_eq hdrop]
  cases hread : read? (token :: rest) with
  | none => rfl
  | some found =>
      obtain ⟨summation, last, faults⟩ := found
      obtain ⟨index, hat, hlast, -⟩ := summationAt?_eq hdrop hmade' hread
      simp only [Option.bind_eq_bind, Option.bind_some, Option.isSome_some, if_true, hat, htoken,
        hlast]

end Checked

end CounterFormula
