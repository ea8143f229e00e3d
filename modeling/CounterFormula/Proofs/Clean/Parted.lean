import CounterFormula.Proofs.Clean.Footnotes

/-!
# Clean — Parted

Where the rules do not read on.  A rule looks at a text from one place on, and reads as far as it
needs to.  None reads on at the sign of a summation, and but for the one that looks for footnotes
none reads on at a parenthesis.  What such a character parts is stripped in parts.

* `Parts.apply_append`: a text is stripped in parts, cut where the rule does not read on.
* `parts_footnote`, `parts_sigilSpace`, `parts_referenceSpace`, `parts_hashMarks`, `parts_dotSpace`:
  where each rule does not read on.
-/

namespace CounterFormula.Clean

open Lexer (continuesSymbol)

variable {text front rest : Text} {c : Char} {rule : Rule}

namespace Rule

/-- The rule does not read on at `c`: it makes of what stands before `c` the same whatever
follows. -/
def Parts (rule : Rule) (c : Char) : Prop :=
  ∀ front back, front ≠ [] → rule.outcome (front ++ c :: back) =
    (rule.outcome front).map fun outcome => (outcome.1, outcome.2 ++ c :: back)

/-- **A text is stripped in parts**, cut where a rule does not read on. -/
theorem Parts.apply_append (h : rule.Parts c) (front back : Text) :
    rule.apply (front ++ c :: back) = rule.apply front ++ rule.apply (c :: back) := by
  fun_induction rule.apply front with
  | case1 => rfl
  | case2 d rest erasure herasure ih =>
      have hfront : rule.outcome (d :: rest) = some (erasure.kept, erasure.rest) :=
        congrArg (Option.map _) herasure
      have hall := h (d :: rest) back (List.cons_ne_nil d rest)
      rw [hfront, Option.map_some] at hall
      rw [apply_of_outcome_eq_some hall, ih, List.append_assoc]
  | case3 d rest hnone ih =>
      have hfront : rule.outcome (d :: rest) = none := congrArg (Option.map _) hnone
      have hall := h (d :: rest) back (List.cons_ne_nil d rest)
      rw [hfront, Option.map_none] at hall
      exact (apply_of_outcome_eq_none hall).trans (congrArg (d :: ·) ih)

end Rule

/-! ### Marks -/

/-- The sign of a summation and the parentheses of its list. -/
def marks : List Char := ['~', '(', ')']

theorem isSpace_of_mem_marks (hc : c ∈ marks) : isSpace c = false := by
  revert c
  decide

theorem dropWhile_append_cons {p : Char → Bool} (hc : p c = false) (text back : Text) :
    (text ++ c :: back).dropWhile p = text.dropWhile p ++ c :: back := by
  rw [List.dropWhile_append, List.dropWhile_cons_of_neg (Bool.eq_false_iff.mp hc)]
  split
  · rename_i hempty
    rw [List.isEmpty_iff.mp hempty]
    rfl
  · rfl

theorem takeWhile_append_cons {p : Char → Bool} (hc : p c = false) (text back : Text) :
    (text ++ c :: back).takeWhile p = text.takeWhile p := by
  rw [List.takeWhile_append, List.takeWhile_cons_of_neg (Bool.eq_false_iff.mp hc)]
  split
  · rename_i hall
    rw [List.append_nil, (List.takeWhile_prefix p).eq_of_length hall]
  · rfl

theorem head?_append_cons_any {p : Char → Bool} (hc : p c = false) (text back : Text) :
    (text ++ c :: back).head?.any p = text.head?.any p := by
  cases text with
  | nil => exact hc
  | cons d text => rfl

/-! ### Spaces -/

/-- A rule that wants two characters at least, parted behind the first of them and behind more. -/
theorem parts_of_two (hone : ∀ d back, rule.outcome (d :: c :: back) = none)
    (hsingle : ∀ d, rule.outcome [d] = none)
    (htwo : ∀ d e more back, rule.outcome (d :: e :: (more ++ c :: back)) =
      (rule.outcome (d :: e :: more)).map fun outcome => (outcome.1, outcome.2 ++ c :: back)) :
    rule.Parts c := by
  intro front back hne
  match front with
  | [] => exact absurd rfl hne
  | [d] => exact (hone d back).trans (congrArg (Option.map _) (hsingle d)).symm
  | d :: e :: more => exact htwo d e more back

theorem outcome_dotSpace (d e : Char) (more : Text) :
    dotSpace.outcome (d :: e :: more) =
      if d = '.' ∧ e = ' ' then some (['.'], more.dropWhile isSpace) else none := by
  by_cases h : d = '.' ∧ e = ' '
  · rw [if_pos h]
    obtain ⟨rfl, rfl⟩ := h
    rfl
  · rw [if_neg h, Rule.outcome, dotSpace]
    · rfl
    · rintro more heq
      cases heq
      exact h ⟨rfl, rfl⟩

theorem outcome_dotSpace_singleton (d : Char) : dotSpace.outcome [d] = none := by
  rw [Rule.outcome, dotSpace]
  · rfl
  · intro more heq
    cases heq

theorem parts_dotSpace (hc : c ∈ marks) : dotSpace.Parts c := by
  have hspace := isSpace_of_mem_marks hc
  refine parts_of_two (fun d back => ?_) (fun d => ?_) fun d e more back => ?_
  · rw [outcome_dotSpace, if_neg]
    rintro ⟨-, rfl⟩
    cases hspace
  · exact outcome_dotSpace_singleton d
  · rw [outcome_dotSpace, outcome_dotSpace, dropWhile_append_cons hspace]
    split <;> rfl

theorem outcome_sigilSpace (d e : Char) (more : Text) :
    sigilSpace.outcome (d :: e :: more) =
      if d = '$' ∧ e = ' ' ∧ (more.dropWhile isSpace).head?.any Char.isAlphanum = true then
        some (['$'], more.dropWhile isSpace)
      else none := by
  by_cases h : d = '$' ∧ e = ' '
  · obtain ⟨rfl, rfl⟩ := h
    rw [Rule.outcome, sigilSpace]
    by_cases hhead : (more.dropWhile isSpace).head?.any Char.isAlphanum = true
    · rw [if_pos hhead, if_pos ⟨rfl, rfl, hhead⟩]
      rfl
    · rw [if_neg hhead, if_neg fun h => hhead h.2.2]
      rfl
  · rw [if_neg fun h' => h ⟨h'.1, h'.2.1⟩, Rule.outcome, sigilSpace]
    · rfl
    · rintro more heq
      cases heq
      exact h ⟨rfl, rfl⟩

theorem parts_sigilSpace (hc : c ∈ marks) : sigilSpace.Parts c := by
  have hspace := isSpace_of_mem_marks hc
  have halphanum : c.isAlphanum = false := by
    revert c
    decide
  refine parts_of_two (fun d back => ?_) (fun d => ?_) fun d e more back => ?_
  · rw [outcome_sigilSpace, if_neg]
    rintro ⟨-, rfl, -⟩
    cases hspace
  · rw [Rule.outcome, sigilSpace]
    · rfl
    · intro more heq
      cases heq
  · rw [outcome_sigilSpace, outcome_sigilSpace, dropWhile_append_cons hspace,
      head?_append_cons_any halphanum]
    split <;> rfl

/-! ### Hash marks -/

/-- What follows a hash mark and any blanks before it. -/
def afterHash (text : Text) : Option Text :=
  (afterHash? text).map Subtype.val

theorem afterHash_eq_some_iff :
    afterHash text = some rest ↔ text.dropWhile Text.isBlank = '#' :: rest := by
  rw [afterHash, afterHash?]
  split
  · rename_i found hdrop
    rw [Option.map_some, Option.some_inj]
    exact ⟨fun heq => heq ▸ hdrop, fun heq => (List.cons.inj (hdrop.symm.trans heq)).2⟩
  · rename_i hnot
    exact iff_of_false nofun (hnot rest)

theorem afterHash_append_cons (hblank : Text.isBlank c = false) (hhash : c ≠ '#')
    (text back : Text) : afterHash (text ++ c :: back) = (afterHash text).map (· ++ c :: back) := by
  ext rest
  rw [Option.map_eq_some_iff, afterHash_eq_some_iff, dropWhile_append_cons hblank]
  simp only [afterHash_eq_some_iff]
  cases text.dropWhile Text.isBlank with
  | nil => simp [hhash]
  | cons d rest => simp

theorem outcome_hashMarks (d : Char) (more : Text) :
    hashMarks.outcome (d :: more) =
      if d ∈ ['+', '-', '*', '('] then
        (afterHash more).bind fun once => (afterHash once).map fun twice =>
          ([], (twice.dropWhile Text.isBlank).dropWhile continuesSymbol)
      else none := by
  rw [Rule.outcome, hashMarks]
  split
  · rw [afterHash]
    cases afterHash? more with
    | none => rfl
    | some once =>
        simp only [Option.bind_some, Option.map_some, Option.map_map, afterHash]
        rfl
  · rfl

theorem parts_hashMarks (hc : c ∈ marks) : hashMarks.Parts c := by
  have hblank : Text.isBlank c = false := by
    revert c
    decide
  have hhash : c ≠ '#' := by
    rintro rfl
    exact absurd hc (by decide)
  have hsymbol : continuesSymbol c = false := by
    revert c
    decide
  intro front back hne
  cases front with
  | nil => exact absurd rfl hne
  | cons d more =>
      rw [List.cons_append, outcome_hashMarks, outcome_hashMarks]
      split
      · rw [afterHash_append_cons hblank hhash]
        cases afterHash more with
        | none => rfl
        | some once =>
            simp only [Option.map_some, Option.bind_some, afterHash_append_cons hblank hhash,
              Option.map_map]
            cases afterHash once with
            | none => rfl
            | some twice =>
                simp only [Option.map_some, Function.comp, dropWhile_append_cons hblank,
                  dropWhile_append_cons hsymbol]
      · rfl

/-! ### References -/

theorem outcome_referenceSpace_of_other (h : ¬ Reference.scheme <+: text) :
    referenceSpace.outcome text = none := by
  rw [Rule.outcome, referenceSpace,
    dif_neg fun hprefix => h (List.isPrefixOf_iff_prefix.mp hprefix)]
  rfl

theorem outcome_referenceSpace (body : Text) :
    referenceSpace.outcome (Reference.scheme ++ body) =
      if (body.dropWhile inPath).head? = some ' ' then
        some (Reference.scheme ++ body.takeWhile inPath ++
            ((body.dropWhile inPath).dropWhile isSpace).takeWhile inPath,
          ((body.dropWhile inPath).dropWhile isSpace).dropWhile inPath)
      else none := by
  rw [Rule.outcome, referenceSpace,
    dif_pos (List.isPrefixOf_iff_prefix.mpr (List.prefix_append _ _))]
  dsimp only
  split
  · rename_i rest hgap
    rw [List.drop_left] at hgap
    rw [hgap, List.head?_cons, if_pos rfl, List.dropWhile_cons_of_pos (by decide), Option.map_some]
    dsimp only
    rw [List.drop_left]
  · rename_i hnot
    rw [List.drop_left] at hnot
    rw [if_neg]
    · rfl
    · intro hhead
      obtain ⟨rest, hrest⟩ := List.head?_eq_some_iff.mp hhead
      exact hnot rest hrest

theorem parts_referenceSpace (hc : c ∈ marks) : referenceSpace.Parts c := by
  have hpath : inPath c = false := by
    revert c
    decide
  have hspace := isSpace_of_mem_marks hc
  have hscheme : c ∉ Reference.scheme := by
    revert c
    decide
  intro front back hne
  by_cases hprefix : Reference.scheme <+: front
  · obtain ⟨body, rfl⟩ := hprefix
    rw [List.append_assoc, outcome_referenceSpace, outcome_referenceSpace,
      dropWhile_append_cons hpath, dropWhile_append_cons hspace, dropWhile_append_cons hpath,
      takeWhile_append_cons hpath, takeWhile_append_cons hpath]
    cases body.dropWhile inPath with
    | nil =>
        have hne : c ≠ ' ' := by
          rintro rfl
          cases hspace
        simp [hne]
    | cons d rest =>
        rw [List.cons_append, List.head?_cons, List.head?_cons]
        split <;> rfl
  · have hall : ¬ Reference.scheme <+: front ++ c :: back := fun h =>
      hprefix (Text.isPrefix_of_append_cons hscheme h)
    rw [outcome_referenceSpace_of_other hprefix, outcome_referenceSpace_of_other hall]
    rfl

/-! ### Footnotes -/

/-- The rule for footnotes does not read on at a sign: that begins a call, and is in none. -/
theorem parts_footnote : footnote.Parts '~' := by
  intro front back hne
  cases hfront : footnote.outcome front with
  | some outcome =>
      obtain ⟨kept, rest⟩ := outcome
      rcases footnote_cases hfront with ⟨list, hlist, rfl, rfl⟩ |
        ⟨name, blanks, list, hname, hblanks, hlist, rfl, rfl⟩
      · rw [List.append_assoc, outcome_parenthesized hlist]
        rfl
      · rw [List.append_assoc, outcome_call hname hblanks hlist]
        rfl
  | none =>
      refine Option.eq_none_iff_forall_ne_some.mpr fun outcome houtcome => ?_
      rcases footnote_cases houtcome with ⟨list, hlist, htext, -⟩ |
        ⟨name, blanks, list, hname, hblanks, hlist, htext, -⟩
      · obtain ⟨rest, rfl⟩ := Text.isPrefix_of_append_cons (not_mem_parenthesized hlist.isRangeList)
          ⟨_, htext.symm⟩
        rw [outcome_parenthesized hlist] at hfront
        cases hfront
      · cases front with
        | nil => exact hne rfl
        | cons d front =>
            obtain ⟨rfl, hmore⟩ := List.cons.inj htext
            have htext' :
                name ++ blanks ++ parenthesized list ++ outcome.2 = front ++ '~' :: back :=
              hmore.symm
            obtain ⟨rest, rfl⟩ := Text.isPrefix_of_append_cons
              (sign_not_mem_call hname hblanks hlist.isRangeList) ⟨_, htext'⟩
            have hcall : '~' :: (name ++ blanks ++ parenthesized list ++ rest) =
              call name blanks list ++ rest := rfl
            rw [hcall, outcome_call hname hblanks hlist] at hfront
            cases hfront

end CounterFormula.Clean
