import CounterFormula.Proofs.Summation.Grammar
import CounterFormula.Proofs.Summation.Screenings
import Mathlib.Order.Interval.Set.Basic

/-!
# Summation — Vanishing

When a summation vanishes: when it is replaced by nothing.  That may come of its list, of the
registry, or of what it asks for, and each leaves a fault but one: a list that holds nothing but
commas is read without a fault and asks for nothing, so that nothing is missing when the release has
screenings of the counter.

A *reading* is a summation as `expandAll` comes upon it, with what is met in reading it.

* `expandAll_eq_readings`: `expandAll` replaces the readings, and reports what it meets in each.
* `expand_eq_nil_iff`: a summation expands to nothing without a fault when it asks for nothing and
  its counter has screenings.
* `emptyList_iff`: it is read without a fault and asks for nothing when its list is empty.
* `vanishes_silently_iff`: so just an empty list, of a counter that has screenings, vanishes without
  a fault.
-/

namespace CounterFormula.Summation

/-- A summation that is read off the tokens from its sign on. -/
structure Reading where
  sign : Token
  behind : List Token
  summation : Summation
  last : Token
  /-- The faults met in reading it. -/
  faults : List SummationFault
  read_eq : read? (sign :: behind) = some (summation, last, faults)

namespace Reading

def span (reading : Reading) : Span :=
  ⟨reading.sign.first, reading.last.last⟩

/-- What the summation is replaced with. -/
def text (config : Config) (screenings : Option ScreeningRegistry) (reading : Reading) : Text :=
  (reading.summation.expand config screenings).1

/-- The faults met in reading and in expanding the summation. -/
def met (config : Config) (screenings : Option ScreeningRegistry) (reading : Reading) :
    List SummationFault :=
  reading.faults ++ (reading.summation.expand config screenings).2

end Reading

/-- The summations among `tokens`. -/
def readings : List Token → List Reading
  | [] => []
  | token :: rest =>
    match h : read? (token :: rest) with
    | none => readings rest
    | some (summation, last, faults) =>
      ⟨token, rest, summation, last, faults, h⟩ :: readings rest

/-- The tokens begin with a summation whose list holds nothing but commas. -/
def EmptyList (tokens : List Token) : Prop :=
  ∃ sign counter opening list inside closing, tokens = sign :: counter :: opening :: list ∧
    opening.isOperator '(' = true ∧ Closed list inside closing ∧
    ∀ token ∈ inside, token.isOperator ',' = true

variable {config : Config} {screenings : Option ScreeningRegistry} {summation : Summation}
  {last : Token} {tokens : List Token}

theorem readings_of_read?_eq_none {token : Token} {rest : List Token}
    (h : read? (token :: rest) = none) : readings (token :: rest) = readings rest := by
  rw [readings]
  split
  · rfl
  · rename_i hread
    cases h.symm.trans hread

theorem readings_of_read? {token : Token} {rest : List Token} {faults : List SummationFault}
    (h : read? (token :: rest) = some (summation, last, faults)) :
    readings (token :: rest) = ⟨token, rest, summation, last, faults, h⟩ :: readings rest := by
  rw [readings]
  split
  · rename_i hread
    cases h.symm.trans hread
  · rename_i hread
    cases h.symm.trans hread
    rfl

/-- `expandAll` splices what the readings are replaced with, and reports what it meets in them, the
last one first. -/
theorem expandAll_eq_readings (config : Config) (screenings : Option ScreeningRegistry)
    (source : Text) (tokens : List Token) :
    expandAll config screenings source tokens =
      (Text.spliceAll source
          ((readings tokens).map fun reading => (reading.span, reading.text config screenings)),
        (readings tokens).reverse.flatMap (Reading.met config screenings)) := by
  induction tokens with
  | nil => rfl
  | cons token rest ih =>
      rw [expandAll]
      cases hread : read? (token :: rest) with
      | none =>
          rw [readings_of_read?_eq_none hread]
          exact ih
      | some found =>
          obtain ⟨summation, last, faults⟩ := found
          rw [readings_of_read? hread, ih, List.reverse_cons, List.flatMap_append,
            List.flatMap_singleton, Reading.met, List.map_cons]
          dsimp only
          rw [List.append_assoc]
          rfl

/-! ### Expanding to nothing -/

theorem sum_eq_nil {terms : List Text} (h : sum terms = []) : terms = [] := by
  cases terms with
  | nil => rfl
  | cons _ _ => cases h

theorem expand_of_not_asks {registry : ScreeningRegistry} (hasks : ¬ summation.Asks)
    (hfound : summation.found config registry ≠ []) :
    summation.expand config (some registry) = ([], []) := by
  obtain ⟨hids, hnames⟩ : summation.ids = [] ∧ summation.names = [] := by
    simpa only [Asks, not_or, ne_eq, not_not] using hasks
  rw [expand_found hfound]
  simp [unknownIds, unknownNames, selects, sum, hids, hnames]

/-- **Expanding to nothing without a fault**: so does just a summation that asks for nothing, of a
counter that has screenings. -/
theorem expand_eq_nil_iff :
    summation.expand config screenings = ([], []) ↔
      ¬ summation.Asks ∧
        ∃ registry, screenings = some registry ∧ summation.found config registry ≠ [] := by
  constructor
  · intro h
    refine ⟨fun hasks => ?_, ?_⟩
    · obtain ⟨registry, rows, -, hrows, -, htext⟩ :=
        expand_faultless (congrArg Prod.snd h) hasks
      rw [h] at htext
      exact hrows (List.map_eq_nil_iff.mp (sum_eq_nil htext.symm))
    · cases screenings with
      | none => cases h
      | some registry =>
          refine ⟨registry, rfl, fun hnone => ?_⟩
          have hunknown : summation.expand config (some registry) =
              ([], [.unknownCounter summation.counter config.release]) :=
            if_pos (List.isEmpty_iff.mpr hnone)
          cases h.symm.trans hunknown
  · rintro ⟨hasks, registry, rfl, hfound⟩
    exact expand_of_not_asks hasks hfound

/-! ### Asking for nothing -/

/-- A list of no ids is a row of commas. -/
theorem lists_empty_iff : Lists tokens ∅ ↔ ∀ token ∈ tokens, token.isOperator ',' = true := by
  constructor
  · intro h
    generalize hids : (∅ : Set Int) = ids at h
    induction h with
    | nil => exact List.forall_mem_nil _
    | last _ => exact absurd hids.symm (Set.singleton_ne_empty _)
    | comma hcomma _ ih => exact List.forall_mem_cons.mpr ⟨hcomma, ih hids⟩
    | @single _ _ _ id _ _ _ _ _ =>
        have hid : id ∈ (∅ : Set Int) := hids ▸ Set.mem_union_left _ (Set.mem_singleton id)
        cases hid
    | @range _ _ _ _ first _ _ _ _ _ hle _ _ _ =>
        have hfirst : first ∈ (∅ : Set Int) :=
          hids ▸ Set.mem_union_left _ (Set.left_mem_Icc.mpr hle)
        cases hfirst
  · intro h
    induction tokens with
    | nil => exact .nil
    | cons token rest ih =>
        obtain ⟨hcomma, hrest⟩ := List.forall_mem_cons.mp h
        exact .comma hcomma (ih hrest)

/-- Commas are no names. -/
theorem commas_iff {inside : List Token} :
    (∀ token ∈ inside, token.isOperator ',' = true) ↔
      Lists (unnamed inside) ∅ ∧ written inside = [] := by
  constructor
  · intro h
    have hname : ∀ token ∈ inside, token.isSymbol = false := by
      intro token htoken
      refine Bool.eq_false_iff.mpr fun hsymbol => ?_
      cases (h token htoken).symm.trans (Token.not_isOperator_of_isSymbol hsymbol ',')
    have hwritten : written inside = [] := by
      rw [written, List.filter_eq_nil_iff.mpr fun token htoken => by simp [hname token htoken],
        List.map_nil]
    have hunnamed : unnamed inside = inside :=
      List.filter_eq_self.mpr fun token htoken => by simp [hname token htoken]
    rw [hunnamed]
    exact ⟨lists_empty_iff.mpr h, hwritten⟩
  · rintro ⟨hlists, hwritten⟩ token htoken
    refine lists_empty_iff.mp hlists token (List.mem_filter.mpr ⟨htoken, ?_⟩)
    have hname := List.filter_eq_nil_iff.mp (List.map_eq_nil_iff.mp hwritten) token htoken
    simpa using hname

/-- A list that is accepted asks for something when an id or a name is listed. -/
theorem readList_of_closed {list inside : List Token} {closing : Token} {ids : Set Int}
    (hclosed : Closed list inside closing) (hlists : Lists (unnamed inside) ids) (counter : Text)
    (opening : Token) :
    ∃ read, readList ⟨counter, [], []⟩ .fresh opening list = (read, closing, []) ∧
      (¬ read.Asks ↔ ids = ∅ ∧ written inside = []) := by
  obtain ⟨⟨rest, rfl⟩, hopened, hcloses⟩ := hclosed
  have hseen : (⟨counter, [], []⟩ : Summation).names = List.eraseDups [] := rfl
  obtain ⟨read, hread, hids, hnames⟩ :=
    readList_of_remains hopened hcloses (.fresh hlists) hseen opening rest
  refine ⟨read, hread, ?_⟩
  have hnoId : read.ids = [] ↔ ids = ∅ := by
    simp only [List.eq_nil_iff_forall_not_mem, Set.eq_empty_iff_forall_notMem, hids,
      List.not_mem_nil, false_or]
  have hnoName : read.names = [] ↔ written inside = [] := by
    rw [hnames, List.nil_append]
    simp only [List.eq_nil_iff_forall_not_mem, List.mem_eraseDups]
  rw [Asks, not_or, not_not, not_not, hnoId, hnoName]

/-- **Asking for nothing without a fault**: so does just a summation whose list holds nothing but
commas. -/
theorem emptyList_iff {faults : List SummationFault}
    (h : read? tokens = some (summation, last, faults)) :
    faults = [] ∧ ¬ summation.Asks ↔ EmptyList tokens := by
  constructor
  · rintro ⟨rfl, hasks⟩
    obtain ⟨sign, counter, rest, rfl, -, -, hfound⟩ := read?_inv h
    rcases hfound with hfound | ⟨opening, list, rfl, hopening, hfound⟩
    · -- without a list the default ids are asked for
      obtain rfl : summation = ⟨counter.text, defaultIds, []⟩ := congrArg Prod.fst hfound
      exact absurd (.inl (List.cons_ne_nil _ _)) hasks
    · obtain ⟨inside, closing, ids, hclosed, hremains⟩ :=
        remains_of_readList (congrArg (·.2.2) hfound).symm
      have hlists : Lists (unnamed inside) ids := hremains.lists
      obtain ⟨read, hread, hnothing⟩ := readList_of_closed hclosed hlists counter.text opening
      obtain rfl : summation = read := congrArg Prod.fst (hfound.trans hread)
      obtain ⟨rfl, hwritten⟩ := hnothing.mp hasks
      exact ⟨sign, counter, opening, list, inside, closing, rfl, hopening, hclosed,
        commas_iff.mpr ⟨hlists, hwritten⟩⟩
  · rintro ⟨sign, counter, opening, list, inside, closing, rfl, hopening, hclosed, hcommas⟩
    obtain ⟨hlists, hwritten⟩ := commas_iff.mp hcommas
    obtain ⟨read, hread, hnothing⟩ := readList_of_closed hclosed hlists counter.text opening
    rw [read?, hopening, if_pos rfl, hread] at h
    split at h
    · cases h
      exact ⟨rfl, hnothing.mpr ⟨rfl, hwritten⟩⟩
    · cases h

/-! ### Vanishing -/

/-- **Vanishing without a fault.**  `expandAll` replaces each summation among the tokens, and
reports what it meets in reading and in expanding it, the last one first.  A summation is replaced
by nothing, and nothing is reported of it, just when its list holds nothing but commas and the
release has screenings of its counter. -/
theorem vanishes_silently_iff (config : Config) (screenings : Option ScreeningRegistry)
    (source : Text) (tokens : List Token) :
    expandAll config screenings source tokens =
        (Text.spliceAll source
            ((readings tokens).map fun reading => (reading.span, reading.text config screenings)),
          (readings tokens).reverse.flatMap (Reading.met config screenings)) ∧
      ∀ reading ∈ readings tokens,
        (reading.text config screenings = [] ∧ reading.met config screenings = [] ↔
          EmptyList (reading.sign :: reading.behind) ∧
            ∃ registry, screenings = some registry ∧
              reading.summation.found config registry ≠ []) := by
  refine ⟨expandAll_eq_readings config screenings source tokens, ?_⟩
  intro reading _
  rw [← emptyList_iff reading.read_eq, and_assoc, ← expand_eq_nil_iff, Reading.met,
    List.append_eq_nil_iff, Prod.ext_iff, Reading.text, and_left_comm]

/-- A reversed range is reported; the list of one comma behind it is not. -/
theorem vanishes_silently_iff_of_reversed :
    let config : Config := { Config.default with release := ['R', '1'] }
    let registry : ScreeningRegistry := ⟨[⟨['A'], ['R', '1'], none, 0, ['s']⟩]⟩
    let source : Text := "~A(5-3)+~A(,)".toList
    let made := readings (lex .strict source).body
    expandAll config (some registry) source (lex .strict source).body = (['+'], [.reversed 5 3]) ∧
      (∃ reading ∈ made, reading.text config (some registry) = [] ∧
        reading.met config (some registry) = [.reversed 5 3] ∧
        ¬ EmptyList (reading.sign :: reading.behind)) ∧
      ∃ reading ∈ made, reading.text config (some registry) = [] ∧
        reading.met config (some registry) = [] ∧ EmptyList (reading.sign :: reading.behind) := by
  intro config registry source made
  obtain ⟨hexpand, hvanish⟩ :=
    vanishes_silently_iff config (some registry) source (lex .strict source).body
  have hreversed : ∃ reading ∈ made, reading.text config (some registry) = [] ∧
      reading.met config (some registry) = [.reversed 5 3] ∧
      reading.summation.found config registry ≠ [] := by decide
  have hcomma : ∃ reading ∈ made, reading.text config (some registry) = [] ∧
      reading.met config (some registry) = [] := by decide
  refine ⟨hexpand.trans (by decide), ?_, ?_⟩
  · obtain ⟨reading, hmem, htext, hmet, hfound⟩ := hreversed
    refine ⟨reading, hmem, htext, hmet, fun hempty => ?_⟩
    obtain ⟨-, hnone⟩ := (hvanish reading hmem).mpr ⟨hempty, registry, rfl, hfound⟩
    cases hmet.symm.trans hnone
  · obtain ⟨reading, hmem, htext, hmet⟩ := hcomma
    exact ⟨reading, hmem, htext, hmet, ((hvanish reading hmem).mp ⟨htext, hmet⟩).1⟩

/-- The empty list is no fault, and asks for no screening: the sum vanishes unnoticed. -/
theorem vanishes_silently_of_empty_list :
    let config : Config := { Config.default with release := ['R', '1'] }
    let registry : ScreeningRegistry := ⟨[⟨['A'], ['R', '1'], none, 0, ['s']⟩]⟩
    let source : Text := "1 + ~A()".toList
    let tokens := (lex .strict source).body
    expandAll config (some registry) source tokens = ("1 + ".toList, []) ∧
      ∃ reading ∈ readings tokens, reading.span = ⟨4, 7⟩ ∧
        reading.text config (some registry) = [] ∧ reading.met config (some registry) = [] := by
  decide

end CounterFormula.Summation
