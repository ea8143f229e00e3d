import CounterFormula.Proofs.Summation.Rewriting
import CounterFormula.Proofs.Token.Surroundings

/-!
# Summation — Screenings

What a summation expands to when the release has screenings of its counter.  Nothing that is asked
for is lost and nothing is given twice: each screening that is asked for is one term of the sum, and
each id and each name that is asked for either is a screening's or is reported.

* `mem_unknownIds_iff`, `mem_unknownNames_iff`: just what no screening has is reported.
* `lex_sum`: a sum of terms reads back as its terms, in either mode.
* `expand_conserves`: so what a summation asks for is kept, and its text reads as the sum it stands
  for.
-/

namespace CounterFormula.Summation

open Lexer (continuesSymbol)

/-- The screenings that a summation finds: those of its counter, of the release and the version that
are set. -/
def found (config : Config) (registry : ScreeningRegistry) (summation : Summation) :
    List Screening :=
  registry.query summation.counter config.release
    (versionFor registry config.release config.version)

variable {summation : Summation} {rows : List Screening}

/-! ### What is reported -/

theorem mem_unknownIds_iff {id : Int} (hid : id ∈ summation.ids) :
    id ∈ summation.unknownIds rows ↔ ¬ ∃ row ∈ rows, row.id = id := by
  simp [unknownIds, hid]

theorem mem_unknownNames_iff {name : Text} (hname : name ∈ summation.names) :
    name ∈ summation.unknownNames rows ↔ ¬ ∃ row ∈ rows, row.suffix = name := by
  simp [unknownNames, hname]

theorem filter_selects (summation : Summation) (rows : List Screening) :
    rows.filter summation.selects =
      rows.filter fun row => row.id ∈ summation.ids ∨ row.suffix ∈ summation.names := by
  refine List.filter_congr fun row _ => ?_
  rw [selects, Bool.decide_or, List.contains_eq_mem, List.contains_eq_mem]

/-! ### Reading a sum back -/

/-- **A sum of terms** reads back as its terms, without a fault. -/
theorem lex_sum {terms : List Text} (hne : terms ≠ []) (hterms : ∀ text ∈ terms, IsTerm text)
    (mode : Mode) :
    (lex mode (sum terms)).faults = [] ∧
      (lex mode (sum terms)).body.map Token.spelling = sumSpellings terms := by
  have hdone : Lexer.Scans .boundary (0 + (sum terms).length) [] [] := .done
  obtain ⟨opening, new, -, hrest, hspelled, hread⟩ := scans_sum hne hterms .boundary 0 hdone
  rw [List.append_nil, List.append_nil] at hread
  have hstrict : (lex .strict (sum terms)).faults = [] :=
    Lexer.faults_of_no_error _ hread fun token htoken => (hrest token htoken).not_error
  have hbody : (lex .strict (sum terms)).body = opening :: new := (scans_iff.mp hread).symm
  cases mode with
  | strict => exact ⟨hstrict, by rw [hbody, hspelled]⟩
  | relaxed =>
      rw [lex_relaxed_of_faults hstrict]
      exact ⟨hstrict, by rw [hbody, hspelled]⟩

/-- In some formula a symbol has this text. -/
def IsSymbolText (text : Text) : Prop :=
  ∃ mode source, ∃ token ∈ (lex mode source).body, token.isSymbol = true ∧ token.text = text

/-- A symbol with suffixes put behind it makes terms. -/
theorem isTerm_of_isSymbolText (hcounter : IsSymbolText summation.counter)
    (hsuffix : ∀ row ∈ rows, ∀ c ∈ row.suffix, continuesSymbol c = true) :
    ∀ text ∈ rows.map summation.term, IsTerm text := by
  obtain ⟨mode, source, token, hmem, hsymbol, htext⟩ := hcounter
  have hscans : Lexer.Scans .boundary 0 source _ := scans_iff.mpr rfl
  have hspelled := hscans.text_of_isSymbol (mem_body_strict hmem) hsymbol
  rw [htext] at hspelled
  refine List.forall_mem_map.mpr fun row hrow => ?_
  exact isTerm_term hspelled (hsuffix row hrow)

/-! ### What a summation asks for -/

theorem expand_found {config : Config} {registry : ScreeningRegistry}
    (hfound : summation.found config registry ≠ []) :
    summation.expand config (some registry) =
      (sum (((summation.found config registry).filter summation.selects).map summation.term),
        let ids := summation.unknownIds (summation.found config registry)
        let names := summation.unknownNames (summation.found config registry)
        (if ids.isEmpty then [] else [.unknownIds ids]) ++
          (if names.isEmpty then [] else [.unknownNames names])) :=
  if_neg (by simpa [found] using hfound)

/-- The text is the sum of the terms asked for, also when nothing is found. -/
theorem fst_expand (config : Config) (registry : ScreeningRegistry) (summation : Summation) :
    (summation.expand config (some registry)).1 =
      sum (((summation.found config registry).filter fun row =>
        row.id ∈ summation.ids ∨ row.suffix ∈ summation.names).map summation.term) := by
  rw [← filter_selects]
  rcases eq_or_ne (summation.found config registry) [] with hnil | hne
  · rw [hnil]
    exact congrArg Prod.fst (if_pos (List.isEmpty_iff.mpr hnil))
  · exact congrArg Prod.fst (expand_found hne)

/-- **Conservation.**  When a summation finds screenings, its text is the sum of one term for each
of them that it asks for, by its id or by its name, in their order, or is empty when there is none.
The ids and the names that it asks for and that no screening has are reported, in their order, and
no others are.  When the counter is a symbol and the suffixes carry a symbol on, the sum reads back
as its terms. -/
theorem expand_conserves (config : Config) (registry : ScreeningRegistry) (summation : Summation)
    (hfound : summation.found config registry ≠ []) :
    let rows := summation.found config registry
    let terms := (rows.filter fun row =>
      row.id ∈ summation.ids ∨ row.suffix ∈ summation.names).map summation.term
    let text := (summation.expand config (some registry)).1
    text = (if terms = [] then [] else '(' :: Text.join ['+'] terms ++ [')']) ∧
      (∃ ids names,
        (summation.expand config (some registry)).2 =
            (if ids = [] then [] else [.unknownIds ids]) ++
              (if names = [] then [] else [.unknownNames names]) ∧
          ids.Sublist summation.ids ∧ names.Sublist summation.names ∧
          (summation.ids.Pairwise (· < ·) → ids.Pairwise (· < ·)) ∧
          (∀ id ∈ summation.ids, id ∈ ids ↔ ¬ ∃ row ∈ rows, row.id = id) ∧
          ∀ name ∈ summation.names, name ∈ names ↔ ¬ ∃ row ∈ rows, row.suffix = name) ∧
      (IsSymbolText summation.counter →
        (∀ row ∈ rows, ∀ c ∈ row.suffix, continuesSymbol c = true) → text ≠ [] →
        ∀ mode, (lex mode text).faults = [] ∧
          (lex mode text).body.map Token.spelling = sumSpellings terms) := by
  intro rows terms text
  have htext : text = sum terms := fst_expand config registry summation
  refine ⟨?_, ⟨summation.unknownIds rows, summation.unknownNames rows, ?_, ?_⟩, ?_⟩
  · rw [htext, sum]
    simp only [List.isEmpty_iff]
    rfl
  · rw [expand_found hfound]
    simp only [List.isEmpty_iff]
    rfl
  · have hids : (summation.unknownIds rows).Sublist summation.ids := List.filter_sublist
    exact ⟨hids, List.filter_sublist, fun hascending => hascending.sublist hids,
      fun _ => mem_unknownIds_iff, fun _ => mem_unknownNames_iff⟩
  · intro hcounter hsuffix hne mode
    have hterms : ∀ text ∈ terms, IsTerm text :=
      isTerm_of_isSymbolText hcounter fun row hrow => hsuffix row (List.mem_filter.mp hrow).1
    rw [htext] at hne ⊢
    refine lex_sum (fun hnil => hne ?_) hterms mode
    rw [hnil]
    rfl

/-- A screening that is asked for by its id and by its name, another one of the same id, and one
that is not asked for; an id and a name that no screening has. -/
theorem expand_conserves_of_both :
    let config : Config := { Config.default with release := ['R'], version := .unversioned }
    let row (id : Int) (suffix : String) : Screening := ⟨['C'], ['R'], none, id, suffix.toList⟩
    let registry : ScreeningRegistry := ⟨[row 7 "Att", row 2 "Succ", row 5 "Fail", row 2 "Att.2"]⟩
    let summation : Summation := ⟨['C'], [2, 4, 7], ["Att".toList, "No".toList]⟩
    let text := (summation.expand config (some registry)).1
    summation.found config registry ≠ [] ∧ text = "(C.Att+C.Succ+C.Att.2)".toList ∧
      (summation.expand config (some registry)).2 =
        [.unknownIds [4], .unknownNames ["No".toList]] ∧
      ∀ mode, (lex mode text).faults = [] ∧
        (lex mode text).body.map Token.spelling =
          sumSpellings ["C.Att".toList, "C.Succ".toList, "C.Att.2".toList] := by
  intro config row registry summation text
  have hfound : summation.found config registry ≠ [] := by decide
  obtain ⟨htext, -, hread⟩ := expand_conserves config registry summation hfound
  have hcounter : IsSymbolText summation.counter :=
    ⟨.strict, ['C'], ⟨.symbol, ['C'], 0, 0⟩, by decide, rfl, rfl⟩
  have hsuffixes : ((summation.found config registry).all fun row =>
      row.suffix.all continuesSymbol) = true := by decide
  refine ⟨hfound, htext.trans (by decide), by decide, ?_⟩
  refine hread hcounter (fun row hrow c hc => ?_) (by decide)
  exact List.all_eq_true.mp (List.all_eq_true.mp hsuffixes row hrow) c hc

end CounterFormula.Summation
