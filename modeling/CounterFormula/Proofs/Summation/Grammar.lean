import CounterFormula.Proofs.Index
import CounterFormula.Proofs.Summation.Faultless
import Mathlib.Data.Int.ConditionallyCompleteOrder
import Mathlib.Order.ConditionallyCompleteLattice.Basic

/-!
# Summation — Grammar

Which lists are read without a fault, said without a way to read them.  A list ends at its first
closing parenthesis.  Without its names, which may stand anywhere, it is a row of commas, ids with
a comma behind them, and ranges, and in the end perhaps one more id: a comma may be doubled, and
behind a range it may be missing.

`Lists` says so; `Remains` says what may still come at a `Place` in a list.

* `readToken_of_remains`, `remains_of_readToken`: one token is read without a fault just when it may
  come, and leads to the place where the rest may come.
* `readList_of_remains`, `remains_of_readList`: so it is with a whole list.
* `read?_accepts`: a summation is read without a fault just when its list is one, and asks for the
  ids and names that are listed.
-/

namespace CounterFormula.Summation

/-- The token is a number that spells `id`, by its digits only, and is small enough for an id. -/
structure Spells (token : Token) (id : Int) : Prop where
  number : token.isNumber = true
  nonempty : token.text ≠ []
  digits : ∀ c ∈ token.text, c.isDigit = true
  value : id = Nat.ofDigitChars 10 token.text 0
  bounded : id ≤ greatestId

/-- `Lists tokens ids`: the tokens are a list of just the ids in `ids`. -/
inductive Lists : List Token → Set Int → Prop where
  | nil : Lists [] ∅
  | last {number : Token} {id : Int} (hnumber : Spells number id) : Lists [number] {id}
  | comma {comma : Token} {rest : List Token} {ids : Set Int} (hcomma : comma.isOperator ',' = true)
      (h : Lists rest ids) : Lists (comma :: rest) ids
  | single {number comma : Token} {rest : List Token} {id : Int} {ids : Set Int}
      (hnumber : Spells number id) (hcomma : comma.isOperator ',' = true) (h : Lists rest ids) :
      Lists (number :: comma :: rest) ({id} ∪ ids)
  | range {lower hyphen upper : Token} {rest : List Token} {first last : Int} {ids : Set Int}
      (hlower : Spells lower first) (hhyphen : hyphen.isOperator '-' = true)
      (hupper : Spells upper last) (hle : first ≤ last) (hwidth : last - first + 1 ≤ rangeLimit)
      (h : Lists rest ids) : Lists (lower :: hyphen :: upper :: rest) (Set.Icc first last ∪ ids)

/-- The tokens of a list that are no names. -/
def unnamed (tokens : List Token) : List Token :=
  tokens.filter fun token => !token.isSymbol

/-- The names in a list, in the order written. -/
def written (tokens : List Token) : List Text :=
  (tokens.filter Token.isSymbol).map Token.text

/-- `Closed tokens inside closing`: `tokens` begin with a list of the tokens `inside` that `closing`
closes. -/
structure Closed (tokens inside : List Token) (closing : Token) : Prop where
  split : ∃ rest, tokens = inside ++ closing :: rest
  opened : ∀ token ∈ inside, token.isOperator ')' = false
  closes : closing.isOperator ')' = true

/-! ### Ids -/

theorem readId?_eq_some_iff {token : Token} (hnumber : token.isNumber = true) {id : Int} :
    readId? token.text = some id ↔ Spells token id := by
  have hvalue : token.text.foldl (fun value c => value * 10 + (c.toNat - '0'.toNat)) 0 =
      Nat.ofDigitChars 10 token.text 0 := by
    rw [Nat.ofDigitChars]
    congr 1
    funext value c
    rw [Nat.mul_comm]
  rw [readId?, hvalue]
  constructor
  · intro h
    split at h
    · rename_i hdigits
      simp only [Bool.and_eq_true, Bool.not_eq_true', List.isEmpty_eq_false_iff,
        List.all_eq_true] at hdigits
      dsimp only at h
      split at h
      · rename_i hbounded
        obtain rfl := Option.some.inj h
        exact ⟨hnumber, hdigits.1, hdigits.2, rfl, Int.ofNat_le.mpr hbounded⟩
      · cases h
    · cases h
  · rintro ⟨-, hne, hdigits, rfl, hbounded⟩
    rw [if_pos, if_pos (Int.ofNat_le.mp hbounded)]
    simp only [Bool.and_eq_true, Bool.not_eq_true', List.isEmpty_eq_false_iff, List.all_eq_true]
    exact ⟨hne, hdigits⟩

theorem mem_addId {summation : Summation} {id other : Int} :
    other ∈ (summation.addId id).ids ↔ other = id ∨ other ∈ summation.ids :=
  Ascending.mem_insert

theorem mem_addIds {summation : Summation} {first id : Int} {count : Nat} :
    id ∈ (summation.addIds first count).ids ↔
      first ≤ id ∧ id < first + count ∨ id ∈ summation.ids := by
  induction count generalizing summation first with
  | zero => exact (or_iff_right (by omega)).symm
  | succ count ih =>
      rw [addIds, ih, mem_addId, ← or_assoc]
      exact or_congr_left (by omega)

theorem ascending_addId {summation : Summation} (h : summation.ids.Pairwise (· < ·)) (id : Int) :
    (summation.addId id).ids.Pairwise (· < ·) :=
  Ascending.pairwise_insert h

/-! ### Names -/

/-- A name that is listed again is not added again. -/
theorem names_addName {summation : Summation} {seen : List Text}
    (h : summation.names = seen.eraseDups) (name : Text) :
    (summation.addName name).names = (seen ++ [name]).eraseDups := by
  have hmem : name ∈ summation.names ↔ name ∈ seen := by rw [h, List.mem_eraseDups]
  rw [addName, eraseDups_concat]
  by_cases hseen : name ∈ seen
  · rw [if_pos (hmem.mpr hseen), if_pos hseen, h]
  · rw [if_neg (fun h => hseen (hmem.mp h)), if_neg hseen, h]

theorem ids_addName (summation : Summation) (name : Text) :
    (summation.addName name).ids = summation.ids := by
  rw [addName]
  split <;> rfl

/-! ### One token -/

/-- `Remains place tokens ids`: at `place` in a list, `tokens` may come, and with what is pending
list just the ids in `ids`. -/
inductive Remains : Place → List Token → Set Int → Prop where
  | fresh {tokens : List Token} {ids : Set Int} (h : Lists tokens ids) : Remains .fresh tokens ids
  | last {id : Int} : Remains (.afterId id) [] {id}
  | single {comma : Token} {rest : List Token} {id : Int} {ids : Set Int}
      (hcomma : comma.isOperator ',' = true) (h : Lists rest ids) :
      Remains (.afterId id) (comma :: rest) ({id} ∪ ids)
  | hyphen {hyphen : Token} {rest : List Token} {first : Int} {ids : Set Int}
      (hhyphen : hyphen.isOperator '-' = true) (h : Remains (.inRange first) rest ids) :
      Remains (.afterId first) (hyphen :: rest) ids
  | upper {upper : Token} {rest : List Token} {first last : Int} {ids : Set Int}
      (hupper : Spells upper last) (hle : first ≤ last) (hwidth : last - first + 1 ≤ rangeLimit)
      (h : Lists rest ids) : Remains (.inRange first) (upper :: rest) (Set.Icc first last ∪ ids)

variable {summation : Summation} {place : Place} {token : Token} {rest : List Token}
  {ids : Set Int}

theorem readToken_number {id : Int} (h : Spells token id) (summation : Summation) (place : Place) :
    readToken summation place token = readNumber summation id place := by
  have hkind : token.kind = .number := by
    simpa only [Token.isNumber, beq_iff_eq] using h.number
  rw [readToken, hkind]
  dsimp only
  rw [(readId?_eq_some_iff h.number).mpr h]

theorem readToken_hyphen (h : token.isOperator '-' = true) (summation : Summation)
    (place : Place) : readToken summation place token = readHyphen summation place := by
  rw [readToken, (Token.kind_of_isOperator h).1]
  dsimp only
  rw [if_pos h]

theorem readToken_comma (h : token.isOperator ',' = true) (summation : Summation)
    (place : Place) : readToken summation place token = readComma summation place := by
  have hhyphen : token.isOperator '-' = false := Token.not_isOperator_of_ne h (by decide)
  rw [readToken, (Token.kind_of_isOperator h).1]
  dsimp only
  rw [hhyphen, if_neg (by decide), if_pos h]

theorem readToken_symbol (h : token.isSymbol = true) (summation : Summation) (place : Place) :
    readToken summation place token = ⟨place, summation.addName token.text, []⟩ := by
  rw [readToken, Token.kind_of_isSymbol h]

/-- A number within the bounds that a range has begun. -/
theorem readNumber_inRange {first last : Int} (hle : first ≤ last)
    (hwidth : last - first + 1 ≤ rangeLimit) (summation : Summation) :
    readNumber summation last (.inRange first) =
      ⟨.fresh, summation.addIds first (last - first + 1).toNat, []⟩ := by
  rw [readNumber, if_neg (by omega), if_neg (by omega)]

/-- The tokens that may be read without a fault. -/
theorem token_of_readToken (h : (readToken summation place token).faults = []) :
    token.isSymbol = true ∨ (∃ id, Spells token id) ∨ token.isOperator '-' = true ∨
      token.isOperator ',' = true := by
  rw [readToken] at h
  split at h
  · rename_i hkind
    have hnumber : token.isNumber = true := by rw [Token.isNumber, hkind]; rfl
    split at h
    · rename_i id hid
      exact .inr (.inl ⟨id, (readId?_eq_some_iff hnumber).mp hid⟩)
    · cases h
  · split at h
    · rename_i hhyphen
      exact .inr (.inr (.inl hhyphen))
    · split at h
      · rename_i hcomma
        exact .inr (.inr (.inr hcomma))
      · cases h
  · rename_i hkind
    left
    rw [Token.isSymbol, hkind]
    rfl
  all_goals cases h

/-- The numbers that may stand behind the hyphen of a range. -/
theorem bounds_of_readNumber {first last : Int}
    (h : (readNumber summation last (.inRange first)).faults = []) :
    first ≤ last ∧ last - first + 1 ≤ rangeLimit := by
  rw [readNumber] at h
  split at h
  · cases h
  · split at h
    · cases h
    · omega

/-- `step` reads a token at a place where just the ids in `ids` may still be listed, and leaves just
the ids in `ids'` to be listed. -/
structure Accepts (summation : Summation) (step : Step) (rest : List Token) (ids ids' : Set Int) :
    Prop where
  remains : Remains step.place rest ids'
  faults_eq : step.faults = []
  ids_iff : ∀ id, id ∈ step.summation.ids ∨ id ∈ ids' ↔ id ∈ summation.ids ∨ id ∈ ids
  names_eq : step.summation.names = summation.names

/-- **A token that may come** is read without a fault, and leads to where the rest may come. -/
theorem readToken_of_remains (h : Remains place (token :: rest) ids) (summation : Summation) :
    ∃ ids', Accepts summation (readToken summation place token) rest ids ids' := by
  cases h with
  | fresh h =>
      cases h with
      | last hnumber =>
          rw [readToken_number hnumber]
          exact ⟨_, .last, rfl, fun _ => .rfl, rfl⟩
      | comma hcomma h =>
          rw [readToken_comma hcomma]
          exact ⟨_, .fresh h, rfl, fun _ => .rfl, rfl⟩
      | single hnumber hcomma h =>
          rw [readToken_number hnumber]
          exact ⟨_, .single hcomma h, rfl, fun _ => .rfl, rfl⟩
      | range hlower hhyphen hupper hle hwidth h =>
          rw [readToken_number hlower]
          exact ⟨_, .hyphen hhyphen (.upper hupper hle hwidth h), rfl, fun _ => .rfl, rfl⟩
  | @single _ _ pending ids' hcomma h =>
      rw [readToken_comma hcomma]
      refine ⟨ids', .fresh h, rfl, fun id => ?_, rfl⟩
      rw [readComma, mem_addId, Set.mem_union, Set.mem_singleton_iff, or_assoc, or_left_comm]
  | hyphen hhyphen h =>
      rw [readToken_hyphen hhyphen]
      exact ⟨_, h, rfl, fun _ => .rfl, rfl⟩
  | @upper _ _ first last ids' hupper hle hwidth h =>
      rw [readToken_number hupper, readNumber_inRange hle hwidth]
      refine ⟨ids', .fresh h, rfl, fun id => ?_, ?_⟩
      · have hbounds : first ≤ id ∧ id < first + ((last - first + 1).toNat : Int) ↔
            id ∈ Set.Icc first last := by
          rw [Set.mem_Icc]
          omega
        dsimp only
        rw [mem_addIds, hbounds, Set.mem_union, or_assoc, or_left_comm]
      · exact addIds_keeps (P := fun read => read.names = summation.names) (fun _ _ h => h) rfl _ _

/-- **A token that is read without a fault** may come, if the rest may come behind it. -/
theorem remains_of_readToken (hfaults : (readToken summation place token).faults = [])
    (hname : token.isSymbol = false)
    (h : Remains (readToken summation place token).place rest ids) :
    ∃ ids', Remains place (token :: rest) ids' := by
  rcases token_of_readToken hfaults with hsymbol | ⟨id, hnumber⟩ | hhyphen | hcomma
  · rw [hname] at hsymbol
    cases hsymbol
  · rw [readToken_number hnumber] at hfaults h
    cases place with
    | fresh =>
        cases h with
        | last => exact ⟨_, .fresh (.last hnumber)⟩
        | single hcomma h => exact ⟨_, .fresh (.single hnumber hcomma h)⟩
        | hyphen hhyphen h =>
            cases h with
            | upper hupper hle hwidth h =>
                exact ⟨_, .fresh (.range hnumber hhyphen hupper hle hwidth h)⟩
    | afterId _ => cases hfaults
    | inRange first =>
        obtain ⟨hle, hwidth⟩ := bounds_of_readNumber hfaults
        rw [readNumber_inRange hle hwidth] at h
        cases h with
        | fresh h => exact ⟨_, .upper hnumber hle hwidth h⟩
  · rw [readToken_hyphen hhyphen] at hfaults h
    cases place with
    | fresh | inRange _ => cases hfaults
    | afterId first => exact ⟨_, .hyphen hhyphen h⟩
  · rw [readToken_comma hcomma] at hfaults h
    cases place with
    | fresh =>
        cases h with
        | fresh h => exact ⟨_, .fresh (.comma hcomma h)⟩
    | afterId id =>
        cases h with
        | fresh h => exact ⟨_, .single hcomma h⟩
    | inRange _ => cases hfaults

/-! ### Whole lists -/

theorem unnamed_cons_of_isSymbol (h : token.isSymbol = true) (rest : List Token) :
    unnamed (token :: rest) = unnamed rest :=
  List.filter_cons_of_neg (by simp [h])

theorem unnamed_cons (h : token.isSymbol = false) (rest : List Token) :
    unnamed (token :: rest) = token :: unnamed rest :=
  List.filter_cons_of_pos (by simp [h])

theorem written_cons_of_isSymbol (h : token.isSymbol = true) (rest : List Token) :
    written (token :: rest) = token.text :: written rest := by
  rw [written, List.filter_cons_of_pos h, List.map_cons, written]

theorem written_cons (h : token.isSymbol = false) (rest : List Token) :
    written (token :: rest) = written rest := by
  rw [written, List.filter_cons_of_neg (by simp [h]), written]

/-- A list may be closed where nothing has to come any more. -/
theorem close_of_remains (h : Remains place [] ids) (summation : Summation) :
    ∃ read, close summation place = (read, []) ∧
      (∀ id, id ∈ read.ids ↔ id ∈ summation.ids ∨ id ∈ ids) ∧
      read.names = summation.names := by
  cases h with
  | fresh h =>
      cases h with
      | nil => exact ⟨_, rfl, fun _ => (or_iff_left (Set.notMem_empty _)).symm, rfl⟩
  | last =>
      refine ⟨_, rfl, fun id => ?_, rfl⟩
      rw [mem_addId, Set.mem_singleton_iff, or_comm]

theorem readList_cons (h : token.isOperator ')' = false) (summation : Summation) (place : Place)
    (last : Token) (rest : List Token) :
    readList summation place last (token :: rest) =
      let step := readToken summation place token
      let found := readList step.summation step.place token rest
      (found.1, found.2.1, step.faults ++ found.2.2) := by
  rw [readList, h]
  rfl

theorem remains_of_close (h : (close summation place).2 = []) : ∃ ids, Remains place [] ids := by
  cases place with
  | fresh => exact ⟨_, .fresh .nil⟩
  | afterId id => exact ⟨_, .last⟩
  | inRange _ => cases h

/-- **A list** is read without a fault, with its ids and its names. -/
theorem readList_of_remains {inside : List Token} {closing : Token}
    (hopened : ∀ token ∈ inside, token.isOperator ')' = false)
    (hcloses : closing.isOperator ')' = true) (h : Remains place (unnamed inside) ids)
    {seen : List Text} (hseen : summation.names = seen.eraseDups) (last : Token)
    (rest : List Token) :
    ∃ read, readList summation place last (inside ++ closing :: rest) = (read, closing, []) ∧
      (∀ id, id ∈ read.ids ↔ id ∈ summation.ids ∨ id ∈ ids) ∧
      read.names = (seen ++ written inside).eraseDups := by
  induction inside generalizing summation place ids seen last with
  | nil =>
      obtain ⟨read, hread, hids, hnames⟩ := close_of_remains h summation
      refine ⟨read, ?_, hids, ?_⟩
      · rw [List.nil_append, readList, if_pos hcloses, hread]
      · rw [hnames, hseen]
        exact congrArg List.eraseDups (List.append_nil seen).symm
  | cons token inside ih =>
      obtain ⟨hopen, hopened'⟩ := List.forall_mem_cons.mp hopened
      rw [List.cons_append, readList_cons hopen]
      by_cases hsymbol : token.isSymbol = true
      · rw [unnamed_cons_of_isSymbol hsymbol] at h
        obtain ⟨read, hread, hids, hnames⟩ :=
          ih hopened' h (names_addName hseen token.text) token
        rw [readToken_symbol hsymbol]
        refine ⟨read, ?_, fun id => ?_, ?_⟩
        · simp only [hread, List.append_nil]
        · rw [hids, ids_addName]
        · rw [hnames, written_cons_of_isSymbol hsymbol, List.append_assoc, List.singleton_append]
      · rw [Bool.not_eq_true] at hsymbol
        rw [unnamed_cons hsymbol] at h
        obtain ⟨ids', hremains, hfaults, hids', hnames'⟩ := readToken_of_remains h summation
        obtain ⟨read, hread, hids, hnames⟩ := ih hopened' hremains (hnames'.trans hseen) token
        refine ⟨read, ?_, fun id => (hids id).trans (hids' id), ?_⟩
        · simp only [hread, hfaults, List.append_nil]
        · rw [hnames, written_cons hsymbol]

/-- **What is read without a fault** is a list, up to its closing parenthesis. -/
theorem remains_of_readList {last : Token} {tokens : List Token}
    (h : (readList summation place last tokens).2.2 = []) :
    ∃ inside closing ids, Closed tokens inside closing ∧ Remains place (unnamed inside) ids := by
  induction tokens generalizing summation place last with
  | nil => cases h
  | cons token rest ih =>
      rw [readList] at h
      by_cases hcloses : token.isOperator ')' = true
      · rw [if_pos hcloses] at h
        obtain ⟨ids, hremains⟩ := remains_of_close h
        exact ⟨[], token, ids, ⟨⟨rest, rfl⟩, List.forall_mem_nil _, hcloses⟩, hremains⟩
      · rw [if_neg hcloses] at h
        obtain ⟨hstep, hlist⟩ := List.append_eq_nil_iff.mp h
        obtain ⟨inside, closing, ids, ⟨⟨more, rfl⟩, hopened, hclosing⟩, hremains⟩ := ih hlist
        rw [Bool.not_eq_true] at hcloses
        have hclosed : Closed (token :: (inside ++ closing :: more)) (token :: inside) closing :=
          ⟨⟨more, rfl⟩, List.forall_mem_cons.mpr ⟨hcloses, hopened⟩, hclosing⟩
        by_cases hsymbol : token.isSymbol = true
        · rw [readToken_symbol hsymbol] at hremains
          refine ⟨token :: inside, closing, ids, hclosed, ?_⟩
          rwa [unnamed_cons_of_isSymbol hsymbol]
        · rw [Bool.not_eq_true] at hsymbol
          obtain ⟨ids', hremains'⟩ := remains_of_readToken hstep hsymbol hremains
          refine ⟨token :: inside, closing, ids', hclosed, ?_⟩
          rwa [unnamed_cons hsymbol]

theorem ascending_readList (summation : Summation) (h : summation.ids.Pairwise (· < ·))
    (place : Place) (last : Token) (tokens : List Token) :
    (readList summation place last tokens).1.ids.Pairwise (· < ·) :=
  readList_keeps (P := fun read => read.ids.Pairwise (· < ·)) (fun _ id h => ascending_addId h id)
    (fun read name h => by rwa [ids_addName]) h place last tokens

theorem Remains.lists {tokens : List Token} (h : Remains .fresh tokens ids) : Lists tokens ids := by
  cases h with
  | fresh h => exact h

/-- **What is accepted.**  A summation with a list is read without a fault just when the list is
closed and, without its names, is a list of ids.  It asks then for just the ids that are listed, in
ascending order, and for the names in the list, each once, in the order in which they are first
written; and it ends with the parenthesis that closes the list. -/
theorem read?_accepts {sign counter opening : Token}
    (hsign : sign.isOperator Lexer.summationSign = true) (hcounter : counter.isSymbol = true)
    (hopening : opening.isOperator '(' = true) (list : List Token) :
    ∃ summation last faults,
      read? (sign :: counter :: opening :: list) = some (summation, last, faults) ∧
        summation.counter = counter.text ∧
        (faults = [] ↔
          ∃ inside closing ids, Closed list inside closing ∧ Lists (unnamed inside) ids) ∧
        ∀ inside closing ids, Closed list inside closing → Lists (unnamed inside) ids →
          (∀ id, id ∈ summation.ids ↔ id ∈ ids) ∧ summation.ids.Pairwise (· < ·) ∧
            summation.names = (written inside).eraseDups ∧ last = closing := by
  have hread : read? (sign :: counter :: opening :: list) =
      some (readList ⟨counter.text, [], []⟩ .fresh opening list) := by
    rw [read?, hsign, hcounter, hopening]
    rfl
  have haccepted : ∀ inside closing ids, Closed list inside closing → Lists (unnamed inside) ids →
      ∃ read, readList ⟨counter.text, [], []⟩ .fresh opening list = (read, closing, []) ∧
        (∀ id, id ∈ read.ids ↔ id ∈ ([] : List Int) ∨ id ∈ ids) ∧
        read.names = ([] ++ written inside).eraseDups := by
    rintro inside closing ids ⟨⟨rest, rfl⟩, hopened, hcloses⟩ hlists
    have hseen : (⟨counter.text, [], []⟩ : Summation).names = List.eraseDups [] := rfl
    exact readList_of_remains hopened hcloses (.fresh hlists) hseen opening rest
  refine ⟨_, _, _, hread, counter_readList _ _ _ _, ⟨fun hfaults => ?_, ?_⟩, ?_⟩
  · obtain ⟨inside, closing, ids, hclosed, hremains⟩ := remains_of_readList hfaults
    exact ⟨inside, closing, ids, hclosed, hremains.lists⟩
  · rintro ⟨inside, closing, ids, hclosed, hlists⟩
    obtain ⟨read, hlist, -⟩ := haccepted inside closing ids hclosed hlists
    rw [hlist]
  · intro inside closing ids hclosed hlists
    have hascending := ascending_readList (⟨counter.text, [], []⟩ : Summation) .nil .fresh opening
      list
    obtain ⟨read, hlist, hids, hnames⟩ := haccepted inside closing ids hclosed hlists
    rw [hlist] at hascending ⊢
    exact ⟨fun id => (hids id).trans (or_iff_right List.not_mem_nil), hascending, hnames, rfl⟩

/-- The reserved word in a range, no comma behind it, a doubled comma, and a name that is listed
twice. -/
theorem read?_accepts_of_gaps :
    let sign : Token := ⟨.operator, ['~'], 0, 0⟩
    let counter : Token := ⟨.symbol, ['C'], 1, 1⟩
    let opening : Token := ⟨.operator, ['('], 2, 2⟩
    let list := (lex .strict "1 Att to 3 5, Succ ,,Att 9)+1".toList).body
    let closing : Token := ⟨.operator, [')'], 26, 26⟩
    sign.isOperator Lexer.summationSign = true ∧ counter.isSymbol = true ∧
      opening.isOperator '(' = true ∧
      read? (sign :: counter :: opening :: list) =
        some (⟨['C'], [1, 2, 3, 5, 9], ["Att".toList, "Succ".toList]⟩, closing, []) ∧
      ∃ inside ids, Closed list inside closing ∧ Lists (unnamed inside) ids ∧
        (∀ id, id ∈ [1, 2, 3, 5, 9] ↔ id ∈ ids) ∧
        ["Att".toList, "Succ".toList] = (written inside).eraseDups := by
  intro sign counter opening list closing
  have hsign : sign.isOperator Lexer.summationSign = true := rfl
  have hcounter : counter.isSymbol = true := rfl
  have hopening : opening.isOperator '(' = true := rfl
  have hread : read? (sign :: counter :: opening :: list) =
      some (⟨['C'], [1, 2, 3, 5, 9], ["Att".toList, "Succ".toList]⟩, closing, []) := by
    decide +kernel
  obtain ⟨summation, last, faults, hread', -, haccepted, hasked⟩ :=
    read?_accepts hsign hcounter hopening list
  obtain ⟨rfl, rfl, rfl⟩ : _ ∧ _ ∧ _ := by
    simpa only [Option.some.injEq, Prod.mk.injEq] using hread.symm.trans hread'
  obtain ⟨inside, closing, ids, hclosed, hlists⟩ := haccepted.mp rfl
  obtain ⟨hids, -, hnames, rfl⟩ := hasked inside closing ids hclosed hlists
  exact ⟨hsign, hcounter, hopening, hread, inside, ids, hclosed, hlists, hids, hnames⟩

end CounterFormula.Summation
