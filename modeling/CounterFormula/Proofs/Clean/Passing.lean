import CounterFormula.Proofs.Clean.Parted
import CounterFormula.Proofs.Clean.Rounds

/-!
# Clean — Passing

The rules pass over a summation whose list is written with digits and hyphens.  Each of them strips
what stands before it and what stands behind it as it would strip them on their own, and takes
nothing out of it but blanks behind a name that ends with a dot.

* `exists_strip_call`: so it is with the rules applied once, in order.
* `exists_settle_call`: so it is with the rules applied until nothing changes.
-/

namespace CounterFormula.Clean

open Lexer (continuesSymbol)

variable {text front back rest name blanks list : Text} {c d : Char} {rule : Rule}

/-! ### Texts without a character -/

theorem not_infix_of_mem {mark : Text} (hmark : c ∈ mark) (hc : c ∉ text) : ¬ mark <:+: text :=
  fun h => hc (h.subset hmark)

/-- A rule that looks for a character leaves a text without it as it is. -/
theorem Rule.apply_eq_self_of_not_mem {p : Text → Prop} (hshort : rule.Shortens)
    (hmatch : ∀ text, rule text ≠ none ↔ p text) (hp : ∀ text, p text → c ∈ text) (hc : c ∉ text) :
    rule.apply text = text :=
  (rule.apply_eq_self_iff hshort hmatch).mpr fun rest hrest h => hc (hrest.subset (hp rest h))

theorem apply_sigilSpace_of_not_mem (h : '$' ∉ text) : sigilSpace.apply text = text := by
  refine Rule.apply_eq_self_of_not_mem shortens_sigilSpace sigilSpace_ne_none_iff ?_ h
  rintro text ⟨spaces, c, rest, rfl, -⟩
  exact List.mem_cons_self

theorem apply_referenceSpace_of_not_mem (h : ':' ∉ text) : referenceSpace.apply text = text := by
  refine Rule.apply_eq_self_of_not_mem shortens_referenceSpace referenceSpace_ne_none_iff ?_ h
  rintro text ⟨path, rest, rfl, -⟩
  rw [List.append_assoc]
  exact List.mem_append_left _ (by decide)

theorem apply_hashMarks_of_not_mem (h : '#' ∉ text) : hashMarks.apply text = text := by
  refine Rule.apply_eq_self_of_not_mem shortens_hashMarks hashMarks_ne_none_iff ?_ h
  rintro text ⟨sign, blanks, blanks', rest, rfl, -⟩
  exact List.mem_append_right _ List.mem_cons_self

theorem apply_dotSpace_of_not_mem (h : '.' ∉ text) : dotSpace.apply text = text := by
  refine Rule.apply_eq_self_of_not_mem shortens_dotSpace dotSpace_ne_none_iff ?_ h
  rintro text ⟨rest, rfl⟩
  exact List.mem_cons_self

theorem IsIdentifier.space_not_mem (h : IsIdentifier name) : ' ' ∉ '~' :: name :=
  List.not_mem_cons_of_ne_of_not_mem (by decide) (h.not_mem (by decide))

/-- Behind the name of a counter and blanks there is no letter or digit that a sigil could be
joined to. -/
theorem nowhere_sigilSpace_callee (hname : IsIdentifier name) (hblanks : IsBlanks blanks) :
    Nowhere SigilSpace (callee name blanks) := by
  rintro rest ⟨front, hfront⟩ ⟨spaces, c, more, rfl, -, hc⟩
  have hspace := hname.space_not_mem
  have hletter : c ∉ blanks := by
    intro hmem
    have hcarries : Lexer.carriesOn .symbol c = true := by
      simp [Lexer.carriesOn, continuesSymbol, hc]
    have hword := Lexer.inWord_of_carriesOn hcarries
    rw [Lexer.inWord_of_isBlank (hblanks c hmem)] at hword
    cases hword
  have hsplit : '~' :: name ++ blanks = (front ++ ['$']) ++ ' ' :: (spaces ++ c :: more) := by
    rw [← callee, ← hfront]
    simp
  have hmem : c ∈ ' ' :: (spaces ++ c :: more) :=
    List.mem_cons_of_mem _ (List.mem_append_right spaces List.mem_cons_self)
  rcases List.append_eq_append_iff.mp hsplit with ⟨within, -, hblanks'⟩ | ⟨within, hname', hmore⟩
  · rw [hblanks'] at hletter
    exact hletter (List.mem_append_right within hmem)
  · cases within with
    | nil =>
        rw [List.nil_append] at hmore
        rw [← hmore] at hletter
        exact hletter hmem
    | cons d within =>
        obtain ⟨rfl, -⟩ := List.cons.inj hmore
        rw [hname'] at hspace
        exact hspace (List.mem_append_right _ List.mem_cons_self)

theorem IsBlanks.apply_dotSpace (h : IsBlanks blanks) : dotSpace.apply blanks = blanks :=
  apply_dotSpace_of_not_mem (h.not_mem (by decide))

theorem exists_dotSpace_cons (d : Char) (hblanks : IsBlanks blanks) :
    ∃ blanks', blanks'.Sublist blanks ∧ dotSpace.apply (d :: blanks) = d :: blanks' := by
  cases blanks with
  | nil => exact ⟨[], .slnil, by
      rw [Rule.apply_of_outcome_eq_none (outcome_dotSpace_singleton d), Rule.apply]⟩
  | cons e more =>
      have houtcome := outcome_dotSpace d e more
      split at houtcome
      · rename_i hdot
        have hsub : (more.dropWhile isSpace).Sublist (e :: more) :=
          (List.dropWhile_sublist isSpace).cons e
        have hless : IsBlanks (more.dropWhile isSpace) := fun c hc => hblanks c (hsub.subset hc)
        refine ⟨_, hsub, ?_⟩
        rw [Rule.apply_of_outcome_eq_some houtcome, hless.apply_dotSpace, hdot.1]
        rfl
      · refine ⟨e :: more, .refl _, ?_⟩
        rw [Rule.apply_of_outcome_eq_none houtcome, hblanks.apply_dotSpace]

/-- Behind a name that ends with a dot the rule takes out spaces. -/
theorem exists_dotSpace_append (hname : ' ' ∉ name) (hblanks : IsBlanks blanks) :
    ∃ blanks', blanks'.Sublist blanks ∧ dotSpace.apply (name ++ blanks) = name ++ blanks' := by
  induction name with
  | nil => exact ⟨blanks, .refl blanks, hblanks.apply_dotSpace⟩
  | cons d name ih =>
      cases name with
      | nil => exact exists_dotSpace_cons d hblanks
      | cons e name =>
          obtain ⟨-, hmore⟩ := List.ne_and_not_mem_of_not_mem_cons hname
          obtain ⟨blanks', hsub, happly⟩ := ih hmore
          have hnone : dotSpace.outcome (d :: e :: (name ++ blanks)) = none := by
            rw [outcome_dotSpace, if_neg]
            rintro ⟨-, rfl⟩
            exact hmore List.mem_cons_self
          exact ⟨blanks', hsub, (Rule.apply_of_outcome_eq_none hnone).trans
            (congrArg (d :: ·) happly)⟩

/-- A call in its parts. -/
theorem append_call_append (before name blanks list after : Text) :
    before ++ call name blanks list ++ after =
      before ++ '~' :: (name ++ blanks ++ '(' :: (list ++ ')' :: after)) := by
  simp [call, callee, parenthesized]

/-- **A rule that reads on at no mark** passes over a summation, but for what it takes out of the
name and its blanks. -/
theorem apply_call_of_parts {blanks' : Text} (hparts : ∀ c ∈ marks, rule.Parts c)
    (hcallee : rule.apply (callee name blanks) = callee name blanks')
    (hlist : rule.apply ('(' :: list) = '(' :: list)
    (hclosing : ∀ rest, rule.outcome (')' :: rest) = none) (before after : Text) :
    rule.apply (before ++ call name blanks list ++ after) =
      rule.apply before ++ call name blanks' list ++ rule.apply after := by
  have hsign := (hparts '~' (by decide)).apply_append before
    (name ++ blanks ++ '(' :: (list ++ ')' :: after))
  have hopening := (hparts '(' (by decide)).apply_append (callee name blanks) (list ++ ')' :: after)
  have hend := (hparts ')' (by decide)).apply_append ('(' :: list) after
  have hcall : '~' :: (name ++ blanks ++ '(' :: (list ++ ')' :: after)) =
      callee name blanks ++ '(' :: (list ++ ')' :: after) := rfl
  have hinside : '(' :: (list ++ ')' :: after) = '(' :: list ++ ')' :: after := rfl
  rw [append_call_append, hsign, hcall, hopening, hinside, hend, hcallee, hlist,
    Rule.apply_of_outcome_eq_none (hclosing after), append_call_append]
  simp [callee]

theorem Rule.apply_append_of_none
    (h : ∀ d rest, d :: rest <:+ front → rule.outcome (d :: rest ++ back) = none) :
    rule.apply (front ++ back) = front ++ rule.apply back := by
  induction front with
  | nil => rfl
  | cons d front ih =>
      have hnone := h d front (List.suffix_refl _)
      exact (apply_of_outcome_eq_none hnone).trans (congrArg (d :: ·)
        (ih fun e rest hrest => h e rest (hrest.trans (List.suffix_cons d front))))

/-- In a list that is no list of numbers the rule for footnotes has no place where it applies. -/
theorem outcome_footnote_of_suffix (hname : IsIdentifier name) (hblanks : IsBlanks blanks)
    (hlist : IsRangeList list) (hnumbers : ¬ IsNumberList list)
    (h : d :: rest <:+ call name blanks list) (after : Text) :
    footnote.outcome (d :: rest ++ after) = none := by
  obtain ⟨front, hcall⟩ := h
  have hclosing : ')' ∉ list := hlist.not_mem (by decide) (by decide) (by decide)
  refine Option.eq_none_iff_forall_ne_some.mpr fun outcome houtcome => ?_
  rcases footnote_cases houtcome with ⟨list', hlist', htext, -⟩ |
    ⟨name', blanks', list', hname', hblanks', hlist', htext, -⟩
  · have hclosing' : ')' ∉ list' := hlist'.isRangeList.not_mem (by decide) (by decide) (by decide)
    obtain ⟨rfl, hrest⟩ := List.cons.inj htext
    obtain ⟨-, rfl⟩ := eq_callee_of_call_eq hname hblanks hlist hcall.symm
    have hsame : list ++ ')' :: after = list' ++ ')' :: outcome.2 := by
      simpa using hrest
    obtain ⟨rfl, -⟩ := eq_of_append_cons hclosing hclosing' hsame
    exact hnumbers hlist'
  · have hclosing' : ')' ∉ list' := hlist'.isRangeList.not_mem (by decide) (by decide) (by decide)
    obtain ⟨rfl, hrest⟩ := List.cons.inj htext
    obtain ⟨-, rfl⟩ := eq_of_call_eq hname hblanks hlist hcall.symm
    have hsame : name ++ blanks ++ '(' :: (list ++ ')' :: after) =
        name' ++ blanks' ++ '(' :: (list' ++ ')' :: outcome.2) := by
      simpa [parenthesized] using hrest
    obtain ⟨-, hsame⟩ := eq_of_append_cons (not_mem_of_operator hname hblanks (by decide))
      (not_mem_of_operator hname' hblanks' (by decide)) hsame
    obtain ⟨rfl, -⟩ := eq_of_append_cons hclosing hclosing' hsame
    exact hnumbers hlist'

theorem apply_footnote_call (hname : IsIdentifier name) (hblanks : IsBlanks blanks)
    (hlist : IsRangeList list) (before after : Text) :
    footnote.apply (before ++ call name blanks list ++ after) =
      footnote.apply before ++ call name blanks list ++ footnote.apply after := by
  have hsign := parts_footnote.apply_append before
    (name ++ blanks ++ '(' :: (list ++ ')' :: after))
  rw [append_call_append, hsign, ← List.nil_append ('~' :: _), ← append_call_append,
    List.nil_append, List.append_assoc]
  refine congrArg (footnote.apply before ++ ·) ?_
  by_cases hnumbers : IsNumberList list
  · exact Rule.apply_of_outcome_eq_some (outcome_call hname hblanks hnumbers after)
  · exact Rule.apply_append_of_none fun d rest hrest =>
      outcome_footnote_of_suffix hname hblanks hlist hnumbers hrest after

/-! ### Noise -/

/-- A word that has a letter in it is passed by what has none. -/
theorem replace_call {word : Text} (hword : ∀ c ∈ word, Lexer.inWord c = true)
    (hletter : 'S' ∈ word) (hclean : ¬ word <:+: name) (hblanks : IsBlanks blanks)
    (hlist : IsRangeList list) (before after : Text) :
    Text.replace word [] (before ++ call name blanks list ++ after) =
      Text.replace word [] before ++ call name blanks list ++ Text.replace word [] after := by
  have hmarks {c : Char} (hc : Lexer.inWord c = false) : c ∉ word := by
    intro hmem
    rw [hword c hmem] at hc
    cases hc
  have hcallee : Text.replace word [] (name ++ blanks) = name ++ blanks := by
    cases blanks with
    | nil => exact Text.replace_eq_self (by rwa [List.append_nil])
    | cons b more =>
        obtain ⟨hb, hmore⟩ := List.forall_mem_cons.mp hblanks
        have hnone : ¬ word <:+: more := not_infix_of_mem hletter fun hmem =>
          absurd (hmore 'S' hmem) (by decide)
        rw [Text.replace_append_cons (hmarks (Lexer.inWord_of_isBlank hb)),
          Text.replace_eq_self hclean, Text.replace_eq_self hnone]
  have hinside : ¬ word <:+: list :=
    not_infix_of_mem hletter (hlist.not_mem (by decide) (by decide) (by decide))
  rw [append_call_append, Text.replace_append_cons (hmarks (by decide)),
    Text.replace_append_cons (hmarks (by decide)), Text.replace_append_cons (hmarks (by decide)),
    hcallee, Text.replace_eq_self hinside, ← append_call_append]

theorem eraseNoise_call (hclean : ∀ word ∈ noiseWords, ¬ word <:+: name) (hblanks : IsBlanks blanks)
    (hlist : IsRangeList list) (before after : Text) :
    eraseNoise (before ++ call name blanks list ++ after) =
      eraseNoise before ++ call name blanks list ++ eraseNoise after := by
  have hwords : ∀ word ∈ noiseWords, (∀ c ∈ word, Lexer.inWord c = true) ∧ 'S' ∈ word := by decide
  rw [eraseNoise, eraseNoise, eraseNoise]
  generalize noiseWords = words at hclean hwords
  induction words generalizing before after with
  | nil => rfl
  | cons word words ih =>
      obtain ⟨hword, hwords⟩ := List.forall_mem_cons.mp hwords
      obtain ⟨hclean, hcleans⟩ := List.forall_mem_cons.mp hclean
      rw [List.foldl_cons, List.foldl_cons, List.foldl_cons,
        replace_call hword.1 hword.2 hclean hblanks hlist, ih _ _ hcleans hwords]

/-! ### All rules -/

theorem not_mem_callee (hname : IsIdentifier name) (hblanks : IsBlanks blanks)
    (hc : Lexer.isOperator c = true) (hne : c ≠ '~') : c ∉ callee name blanks := fun hmem =>
  (List.mem_cons.mp hmem).elim hne (not_mem_of_operator hname hblanks hc)

theorem IsRangeList.not_mem_cons (h : IsRangeList list) (hopening : c ≠ '(')
    (hdigit : c.isDigit = false) (hhyphen : c ≠ '-') (hblank : Text.isBlank c = false) :
    c ∉ '(' :: list :=
  List.not_mem_cons_of_ne_of_not_mem hopening (h.not_mem hdigit hhyphen hblank)

theorem apply_sigilSpace_call (hname : IsIdentifier name) (hblanks : IsBlanks blanks)
    (hlist : IsRangeList list) (before after : Text) :
    sigilSpace.apply (before ++ call name blanks list ++ after) =
      sigilSpace.apply before ++ call name blanks list ++ sigilSpace.apply after := by
  refine apply_call_of_parts (fun c => parts_sigilSpace) ?_ ?_ (fun _ => rfl) before after
  · exact (Rule.apply_eq_self_iff shortens_sigilSpace sigilSpace_ne_none_iff).mpr
      (nowhere_sigilSpace_callee hname hblanks)
  · exact apply_sigilSpace_of_not_mem
      (hlist.not_mem_cons (by decide) (by decide) (by decide) (by decide))

theorem apply_referenceSpace_call (hname : IsIdentifier name) (hblanks : IsBlanks blanks)
    (hlist : IsRangeList list) (before after : Text) :
    referenceSpace.apply (before ++ call name blanks list ++ after) =
      referenceSpace.apply before ++ call name blanks list ++ referenceSpace.apply after := by
  refine apply_call_of_parts (fun c => parts_referenceSpace) ?_ ?_ (fun _ => rfl) before after
  · exact apply_referenceSpace_of_not_mem (not_mem_callee hname hblanks (by decide) (by decide))
  · exact apply_referenceSpace_of_not_mem
      (hlist.not_mem_cons (by decide) (by decide) (by decide) (by decide))

theorem apply_hashMarks_call (hname : IsIdentifier name) (hblanks : IsBlanks blanks)
    (hlist : IsRangeList list) (before after : Text) :
    hashMarks.apply (before ++ call name blanks list ++ after) =
      hashMarks.apply before ++ call name blanks list ++ hashMarks.apply after := by
  refine apply_call_of_parts (fun c => parts_hashMarks) ?_ ?_ (fun _ => rfl) before after
  · exact apply_hashMarks_of_not_mem (not_mem_callee hname hblanks (by decide) (by decide))
  · exact apply_hashMarks_of_not_mem
      (hlist.not_mem_cons (by decide) (by decide) (by decide) (by decide))

theorem exists_dotSpace_call (hname : IsIdentifier name) (hblanks : IsBlanks blanks)
    (hlist : IsRangeList list) (before after : Text) :
    ∃ blanks', blanks'.Sublist blanks ∧ dotSpace.apply (before ++ call name blanks list ++ after) =
      dotSpace.apply before ++ call name blanks' list ++ dotSpace.apply after := by
  obtain ⟨blanks', hsub, hcallee⟩ := exists_dotSpace_append hname.space_not_mem hblanks
  refine ⟨blanks', hsub, ?_⟩
  refine apply_call_of_parts (fun c => parts_dotSpace) hcallee ?_ (fun _ => rfl) before after
  exact apply_dotSpace_of_not_mem
    (hlist.not_mem_cons (by decide) (by decide) (by decide) (by decide))

/-- **The rules pass over a summation** whose list is written with digits and hyphens, and strip
what stands before it and behind it each on its own.  All they can take out of it are blanks behind
the name. -/
theorem exists_strip_call (hname : IsIdentifier name) (hblanks : IsBlanks blanks)
    (hlist : IsRangeList list) (hclean : ∀ word ∈ noiseWords, ¬ word <:+: name)
    (before after : Text) :
    ∃ blanks', blanks'.Sublist blanks ∧ strip (before ++ call name blanks list ++ after) =
      strip before ++ call name blanks' list ++ strip after := by
  rw [strip, apply_footnote_call hname hblanks hlist, eraseNoise_call hclean hblanks hlist,
    apply_sigilSpace_call hname hblanks hlist, apply_referenceSpace_call hname hblanks hlist,
    apply_hashMarks_call hname hblanks hlist]
  exact exists_dotSpace_call hname hblanks hlist _ _

theorem length_call (name blanks list : Text) :
    (call name blanks list).length = name.length + blanks.length + list.length + 3 := by
  simp only [call, callee, parenthesized, List.length_append, List.length_cons, List.length_nil]
  omega

/-- **So does stripping until nothing changes.** -/
theorem exists_settle_call (hname : IsIdentifier name) (hblanks : IsBlanks blanks)
    (hlist : IsRangeList list) (hclean : ∀ word ∈ noiseWords, ¬ word <:+: name)
    (before after : Text) :
    ∃ blanks', blanks'.Sublist blanks ∧ settle (before ++ call name blanks list ++ after) =
      settle before ++ call name blanks' list ++ settle after := by
  -- on the length of what is left, which every round shortens
  induction hlength : (before ++ call name blanks list ++ after).length using Nat.strongRecOn
    generalizing before blanks after with
  | ind length ih =>
      obtain ⟨blanks', hsub, hstrip⟩ := exists_strip_call hname hblanks hlist hclean before after
      have hbefore := (strip_sublist before).length_le
      have hafter := (strip_sublist after).length_le
      have hless := hsub.length_le
      by_cases hdone : strip (before ++ call name blanks list ++ after) =
        before ++ call name blanks list ++ after
      · -- nothing changes in the whole, so nothing changes in its parts
        have hparts := congrArg List.length (hstrip.symm.trans hdone)
        simp only [List.length_append, length_call] at hparts
        have hsame := (strip_sublist before).eq_of_length (by omega)
        have hsame' := (strip_sublist after).eq_of_length (by omega)
        refine ⟨blanks, .refl blanks, ?_⟩
        rw [settle_of_strip_eq hdone, settle_of_strip_eq hsame, settle_of_strip_eq hsame']
      · have hshorter :
            (strip before ++ call name blanks' list ++ strip after).length < length := by
          rw [← hstrip, ← hlength]
          exact Nat.lt_of_not_le fun hle => hdone ((strip_sublist _).eq_of_length_le hle)
        obtain ⟨blanks'', hsub', hsettle⟩ := ih _ hshorter
          (fun c hc => hblanks c (hsub.subset hc)) _ _ rfl
        refine ⟨blanks'', hsub'.trans hsub, ?_⟩
        rw [← settle_strip, hstrip, hsettle, settle_strip, settle_strip]

end CounterFormula.Clean
