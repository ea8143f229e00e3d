import CounterFormula.Clean
import CounterFormula.Proofs.Text.Replace
import CounterFormula.Proofs.Token.Pieces

/-!
# Clean — Matches

What each cleaning rule looks for, said of the text it stands at the beginning of.  A footnote is a
parenthesized list of numbers; a *call* is a summation sign with a counter and a parenthesized list.
Every other rule that applies takes something out.  So a text that a rule leaves as it is has no
place where the rule applies, and the other way round (`apply_eq_self_iff`).

* `footnote_cases`: the rule for footnotes takes a footnote out, or passes over a call.
* `sigilSpace_ne_none_iff`, `referenceSpace_ne_none_iff`, `hashMarks_ne_none_iff`,
  `dotSpace_ne_none_iff`: where the other rules apply.
* `strip_eq_self_iff`: the rules leave a text together just when each of them leaves it.
-/

namespace CounterFormula

open Lexer (Stops continuesSymbol inWord startsSymbol takeWhile_append_of_stops)

/-- A mark that is erased and does not occur any more, did not occur. -/
theorem Text.replace_nil_eq_self_iff {mark text : Text} (hne : mark ≠ []) :
    Text.replace mark [] text = text ↔ ¬ mark <:+: text := by
  refine ⟨fun h hoccurs => ?_, Text.replace_eq_self⟩
  have hless : (Text.replace mark [] text).length < text.length := by
    clear h
    fun_induction Text.replace mark [] text with
    | case1 => exact absurd (List.infix_nil.mp hoccurs) hne
    | case2 c rest _ _ =>
        have hrest := ((Text.replace_nil_sublist mark _).trans
          (List.drop_sublist (mark.length - 1) rest)).length_le
        exact Nat.lt_succ_of_le hrest
    | case3 c rest hmark ih =>
        have hnot : ¬ mark <+: c :: rest := fun hprefix =>
          hmark ⟨List.isEmpty_eq_false_iff.mpr hne, List.isPrefixOf_iff_prefix.mpr hprefix⟩
        exact Nat.succ_lt_succ (ih ((List.infix_cons_iff.mp hoccurs).resolve_left hnot))
  rw [h] at hless
  exact Nat.lt_irrefl _ hless

/-- What holds of every character of a text is decided on the text, not on all characters. -/
instance Text.decidableForallMem {p : Char → Prop} [DecidablePred p] (text : Text) :
    Decidable (∀ c ∈ text, p c) :=
  List.decidableBAll p text

namespace Clean

variable {text rest name blanks list : Text} {c : Char} {rule : Rule}

/-! ### Rules that apply nowhere -/

/-- `p` holds of no end of `text`. -/
def Nowhere (p : Text → Prop) (text : Text) : Prop :=
  ∀ rest, rest <:+ text → ¬ p rest

theorem nowhere_cons {p : Text → Prop} :
    Nowhere p (c :: rest) ↔ ¬ p (c :: rest) ∧ Nowhere p rest := by
  constructor
  · intro h
    exact ⟨h _ (List.suffix_refl _),
      fun tail htail => h tail (htail.trans (List.suffix_cons c rest))⟩
  · rintro ⟨hhead, htail⟩ tail hsuffix
    rcases List.suffix_cons_iff.mp hsuffix with rfl | hsuffix
    · exact hhead
    · exact htail tail hsuffix

namespace Rule

/-- What the rule keeps of the beginning of `text`, and what it has not read. -/
def outcome (rule : Rule) (text : Text) : Option (Text × Text) :=
  (rule text).map fun erasure => (erasure.kept, erasure.rest)

theorem apply_of_outcome_eq_none (h : rule.outcome (c :: rest) = none) :
    rule.apply (c :: rest) = c :: rule.apply rest := by
  rw [apply, Option.map_eq_none_iff.mp h]

theorem apply_of_outcome_eq_some {kept : Text} (h : rule.outcome text = some (kept, rest)) :
    rule.apply text = kept ++ rule.apply rest := by
  obtain ⟨erasure, herasure, heq⟩ := Option.map_eq_some_iff.mp h
  obtain ⟨rfl, rfl⟩ := Prod.mk.inj heq
  cases text with
  | nil => exact absurd erasure.shorter (Nat.not_lt_zero _)
  | cons c more => rw [apply, herasure]

/-- The rule takes something out wherever it applies. -/
def Shortens (rule : Rule) : Prop :=
  ∀ text (erasure : Erasure text), rule text = some erasure →
    erasure.kept.length + erasure.rest.length < text.length

/-- **A rule that takes something out** leaves a text just when it applies nowhere in it. -/
theorem apply_eq_self_iff {p : Text → Prop} (hshort : rule.Shortens)
    (hmatch : ∀ text, rule text ≠ none ↔ p text) :
    rule.apply text = text ↔ Nowhere p text := by
  fun_induction apply rule text with
  | case1 =>
      refine iff_of_true rfl fun rest hrest => ?_
      rw [List.suffix_nil.mp hrest, ← hmatch, not_not]
      refine Option.eq_none_iff_forall_ne_some.mpr fun erasure _ => ?_
      exact absurd erasure.shorter (Nat.not_lt_zero _)
  | case2 c rest erasure herasure _ =>
      refine iff_of_false (fun h => ?_) fun h => ?_
      · have hless := hshort _ erasure herasure
        have hrest := (rule.apply_sublist erasure.rest).length_le
        have hlength := congrArg List.length h
        rw [List.length_append] at hlength
        omega
      · refine h _ (List.suffix_refl _) ((hmatch _).mp ?_)
        rw [herasure]
        exact Option.some_ne_none erasure
  | case3 c rest hnone ih =>
      have hnot : ¬ p (c :: rest) := by
        rw [← hmatch, not_not]
        exact hnone
      rw [nowhere_cons, ← ih, List.cons_inj_right]
      exact (and_iff_right hnot).symm

end Rule

/-! ### Footnotes and calls -/

/-- A counter's name. -/
def IsIdentifier (name : Text) : Prop :=
  ∃ c more, name = c :: more ∧ startsSymbol c = true ∧ ∀ d ∈ more, continuesSymbol d = true

/-- The characters are digits, spaces and hyphens. -/
def IsNumberList (list : Text) : Prop :=
  ∀ c ∈ list, inNumberList c = true

/-- The characters are digits, hyphens and blanks. -/
def IsRangeList (list : Text) : Prop :=
  ∀ c ∈ list, c.isDigit = true ∨ c = '-' ∨ Text.isBlank c = true

/-- The characters are blanks. -/
def IsBlanks (blanks : Text) : Prop :=
  ∀ c ∈ blanks, Text.isBlank c = true

/-- A parenthesized list. -/
def parenthesized (list : Text) : Text :=
  '(' :: list ++ [')']

/-- The sign, a counter and blanks: what stands before the list of a summation. -/
def callee (name blanks : Text) : Text :=
  '~' :: name ++ blanks

/-- A summation with its list. -/
def call (name blanks list : Text) : Text :=
  callee name blanks ++ parenthesized list

theorem IsIdentifier.inRun (h : IsIdentifier name) : ∀ c ∈ name, Lexer.inRun c = true := by
  obtain ⟨c, more, rfl, hc, hmore⟩ := h
  refine List.forall_mem_cons.mpr ⟨Lexer.inRun_of_begins (.symbol hc), fun d hd => ?_⟩
  have hcarries : Lexer.carriesOn .symbol d = true := hmore d hd
  exact Lexer.inRun_of_carriesOn hcarries

theorem IsIdentifier.inWord (h : IsIdentifier name) : ∀ c ∈ name, inWord c = true :=
  fun c hc => Lexer.inWord_of_inRun (h.inRun c hc)

theorem IsIdentifier.not_mem (h : IsIdentifier name) (hc : Lexer.inWord c = false) :
    c ∉ name := by
  intro hmem
  rw [h.inWord c hmem] at hc
  cases hc

theorem IsBlanks.not_mem (h : IsBlanks blanks) (hc : Text.isBlank c = false) : c ∉ blanks := by
  intro hmem
  rw [h c hmem] at hc
  cases hc

theorem IsNumberList.isRangeList (h : IsNumberList list) : IsRangeList list := by
  intro c hc
  have hmem := h c hc
  simp only [inNumberList, Bool.or_eq_true, beq_iff_eq] at hmem
  rcases hmem with (hdigit | rfl) | hhyphen
  · exact .inl hdigit
  · exact .inr (.inr rfl)
  · exact .inr (.inl hhyphen)

theorem IsRangeList.not_mem (h : IsRangeList list) (hdigit : c.isDigit = false) (hhyphen : c ≠ '-')
    (hblank : Text.isBlank c = false) : c ∉ list := by
  intro hmem
  rcases h c hmem with hc | hc | hc
  · rw [hdigit] at hc
    cases hc
  · exact hhyphen hc
  · rw [hblank] at hc
    cases hc

theorem stops_append_parenthesis (hblanks : IsBlanks blanks) (rest : Text) :
    Stops inWord (blanks ++ '(' :: rest) := by
  cases blanks with
  | nil => exact Lexer.stops_cons.mpr (by decide)
  | cons c more =>
      exact Lexer.stops_cons.mpr (Lexer.inWord_of_isBlank (hblanks c List.mem_cons_self))

theorem list_of_takeNumberList? {split : Split text} (h : takeNumberList? text = some split) :
    ∃ list, IsNumberList list ∧ split.val.1 = list ++ [')'] ∧
      text = list ++ ')' :: split.val.2 := by
  unfold takeNumberList? at h
  split at h
  · rename_i rest hdrop
    obtain rfl := Option.some.inj h
    refine ⟨_, fun c hc => List.mem_takeWhile_imp hc, rfl, ?_⟩
    rw [← hdrop, List.takeWhile_append_dropWhile]
  · cases h

theorem takeNumberList?_append (hlist : IsNumberList list) (rest : Text) :
    ∃ split, takeNumberList? (list ++ ')' :: rest) = some split ∧
      split.val = (list ++ [')'], rest) := by
  have hstops : Stops inNumberList (')' :: rest) := Lexer.stops_cons.mpr (by decide)
  obtain ⟨htake, hdrop⟩ := takeWhile_append_of_stops hlist hstops
  unfold takeNumberList?
  split
  · rename_i rest' hdrop'
    obtain ⟨-, rfl⟩ := List.cons.inj (hdrop.symm.trans hdrop')
    exact ⟨_, rfl, congrArg (fun list => (list ++ [')'], rest)) htake⟩
  · rename_i hnot
    exact absurd hdrop (hnot rest)

theorem callee_of_takeCounterCall? {split : Split text} (h : takeCounterCall? text = some split) :
    ∃ name blanks, IsIdentifier name ∧ IsBlanks blanks ∧ split.val.1 = name ++ blanks ++ ['('] ∧
      text = name ++ blanks ++ '(' :: split.val.2 := by
  unfold takeCounterCall? at h
  split at h
  · rename_i c more
    split at h
    · rename_i hc
      split at h
      · rename_i rest hdrop
        obtain rfl := Option.some.inj h
        refine ⟨c :: more.takeWhile continuesSymbol, _,
          ⟨c, _, rfl, hc, fun d hd => List.mem_takeWhile_imp hd⟩,
          fun d hd => List.mem_takeWhile_imp hd, rfl, ?_⟩
        rw [← hdrop, List.append_assoc, List.takeWhile_append_dropWhile, List.cons_append,
          List.takeWhile_append_dropWhile]
      · cases h
    · cases h
  · cases h

theorem takeCounterCall?_append (hname : IsIdentifier name) (hblanks : IsBlanks blanks)
    (rest : Text) :
    ∃ split, takeCounterCall? (name ++ blanks ++ '(' :: rest) = some split ∧
      split.val = (name ++ blanks ++ ['('], rest) := by
  obtain ⟨c, more, rfl, hc, hmore⟩ := hname
  have hstops := (stops_append_parenthesis hblanks rest).carriesOn .symbol
  obtain ⟨htake, hdrop⟩ := takeWhile_append_of_stops hmore hstops
  have hparenthesis : Stops Text.isBlank ('(' :: rest) := Lexer.stops_cons.mpr (by decide)
  obtain ⟨htake', hdrop'⟩ := takeWhile_append_of_stops hblanks hparenthesis
  rw [List.cons_append, List.cons_append, List.append_assoc]
  unfold takeCounterCall?
  simp only [if_pos hc]
  split
  · rename_i rest' hdrop''
    rw [hdrop, hdrop'] at hdrop''
    obtain ⟨-, rfl⟩ := List.cons.inj hdrop''
    refine ⟨_, rfl, ?_⟩
    simp only [htake, hdrop, htake', List.cons_append]
  · rename_i hnot
    rw [hdrop, hdrop'] at hnot
    exact absurd rfl (hnot rest)

/-- **The rule for footnotes** takes a footnote out, or passes over a call. -/
theorem footnote_cases {kept : Text} (h : footnote.outcome text = some (kept, rest)) :
    (∃ list, IsNumberList list ∧ text = parenthesized list ++ rest ∧ kept = []) ∨
      ∃ name blanks list, IsIdentifier name ∧ IsBlanks blanks ∧ IsNumberList list ∧
        text = call name blanks list ++ rest ∧ kept = call name blanks list := by
  obtain ⟨erasure, herasure, heq⟩ := Option.map_eq_some_iff.mp h
  obtain ⟨rfl, rfl⟩ := Prod.mk.inj heq
  clear h heq
  unfold footnote at herasure
  split at herasure
  · rename_i more
    obtain ⟨split, hsplit, rfl⟩ := Option.map_eq_some_iff.mp herasure
    obtain ⟨list, hlist, -, htext⟩ := list_of_takeNumberList? hsplit
    refine .inl ⟨list, hlist, (congrArg ('(' :: ·) htext).trans ?_, rfl⟩
    simp [parenthesized]
  · rename_i more
    obtain ⟨split, hsplit, herasure⟩ := Option.bind_eq_some_iff.mp herasure
    obtain ⟨split', hsplit', rfl⟩ := Option.map_eq_some_iff.mp herasure
    obtain ⟨name, blanks, hname, hblanks, hcall, htext⟩ := callee_of_takeCounterCall? hsplit
    obtain ⟨list, hlist, hnumbers, htext'⟩ := list_of_takeNumberList? hsplit'
    rw [htext'] at htext
    refine .inr
      ⟨name, blanks, list, hname, hblanks, hlist, (congrArg ('~' :: ·) htext).trans ?_, ?_⟩
    · simp [call, callee, parenthesized]
    · simp [hcall, hnumbers, call, callee, parenthesized]
  · cases herasure

theorem outcome_parenthesized (hlist : IsNumberList list) (rest : Text) :
    footnote.outcome (parenthesized list ++ rest) = some ([], rest) := by
  obtain ⟨split, hsplit, hparts⟩ := takeNumberList?_append hlist rest
  have htext : parenthesized list ++ rest = '(' :: (list ++ ')' :: rest) := by
    simp [parenthesized]
  rw [htext, Rule.outcome, footnote, hsplit]
  exact congrArg (fun rest => some ([], rest)) (congrArg Prod.snd hparts)

theorem outcome_call (hname : IsIdentifier name) (hblanks : IsBlanks blanks)
    (hlist : IsNumberList list) (rest : Text) :
    footnote.outcome (call name blanks list ++ rest) = some (call name blanks list, rest) := by
  have htext : call name blanks list ++ rest =
      '~' :: (name ++ blanks ++ '(' :: (list ++ ')' :: rest)) := by
    simp [call, callee, parenthesized]
  obtain ⟨split, hsplit, hparts⟩ := takeCounterCall?_append hname hblanks (list ++ ')' :: rest)
  obtain ⟨⟨before, after⟩, hsplitted⟩ := split
  obtain ⟨rfl, rfl⟩ := Prod.mk.inj hparts
  obtain ⟨⟨⟨before', after'⟩, hsplitted'⟩, hsplit', hparts'⟩ := takeNumberList?_append hlist rest
  obtain ⟨rfl, rfl⟩ := Prod.mk.inj hparts'
  rw [htext, Rule.outcome, footnote, hsplit, Option.bind_some]
  dsimp only
  rw [hsplit', Option.map_some, Option.map_some]
  simp [call, callee, parenthesized]

/-! ### Spaces -/

theorem dropWhile_isSpace_append {spaces : Text} (hspaces : ∀ d ∈ spaces, d = ' ')
    (hc : isSpace c = false) (rest : Text) :
    (spaces ++ c :: rest).dropWhile isSpace = c :: rest :=
  (takeWhile_append_of_stops (fun d hd => by rw [hspaces d hd]; rfl)
    (Lexer.stops_cons.mpr hc)).2

/-- A sigil, spaces, and a letter or digit. -/
def SigilSpace (text : Text) : Prop :=
  ∃ spaces c rest, text = '$' :: ' ' :: spaces ++ c :: rest ∧ (∀ d ∈ spaces, d = ' ') ∧
    c.isAlphanum = true

theorem sigilSpace_ne_none_iff (text : Text) : sigilSpace text ≠ none ↔ SigilSpace text := by
  constructor
  · intro h
    unfold sigilSpace at h
    split at h
    · rename_i more
      split at h
      · rename_i hhead
        obtain ⟨c, hc, halphanum⟩ := Option.any_eq_true _ _ |>.mp hhead
        obtain ⟨rest, hrest⟩ := List.head?_eq_some_iff.mp hc
        refine ⟨more.takeWhile isSpace, c, rest, ?_, fun d hd => ?_, halphanum⟩
        · rw [List.cons_append, List.cons_append, ← hrest, List.takeWhile_append_dropWhile]
        · have hspace : isSpace d = true := List.mem_takeWhile_imp hd
          exact eq_of_beq hspace
      · exact absurd rfl h
    · exact absurd rfl h
  · rintro ⟨spaces, c, rest, rfl, hspaces, hc⟩
    have hspace : isSpace c = false := by
      refine Bool.eq_false_iff.mpr fun hspace => ?_
      rw [eq_of_beq hspace] at hc
      cases hc
    have hdrop := dropWhile_isSpace_append hspaces hspace rest
    have hhead : (((spaces ++ c :: rest).dropWhile isSpace).head?.any Char.isAlphanum) = true := by
      rw [hdrop]
      exact hc
    rw [List.cons_append, List.cons_append, sigilSpace, if_pos hhead]
    exact nofun

theorem shortens_sigilSpace : sigilSpace.Shortens := by
  intro text erasure h
  unfold sigilSpace at h
  split at h
  · rename_i more
    split at h
    · obtain rfl := Option.some.inj h
      have := (List.dropWhile_sublist isSpace (l := more)).length_le
      simp only [List.length_cons, List.length_nil]
      omega
    · cases h
  · cases h

/-- A dot and a space. -/
def DotSpace (text : Text) : Prop :=
  ['.', ' '] <+: text

theorem dotSpace_ne_none_iff (text : Text) : dotSpace text ≠ none ↔ DotSpace text := by
  constructor
  · intro h
    unfold dotSpace at h
    split at h
    · rename_i more
      exact ⟨more, rfl⟩
    · exact absurd rfl h
  · rintro ⟨rest, rfl⟩
    exact nofun

theorem shortens_dotSpace : dotSpace.Shortens := by
  intro text erasure h
  unfold dotSpace at h
  split at h
  · rename_i more
    obtain rfl := Option.some.inj h
    have := (List.dropWhile_sublist isSpace (l := more)).length_le
    simp only [List.length_cons, List.length_nil]
    omega
  · cases h

/-- The path of a reference, and a space. -/
def ReferenceSpace (text : Text) : Prop :=
  ∃ path rest, text = Reference.scheme ++ path ++ ' ' :: rest ∧ ∀ c ∈ path, inPath c = true

theorem referenceSpace_ne_none_iff (text : Text) :
    referenceSpace text ≠ none ↔ ReferenceSpace text := by
  constructor
  · intro h
    unfold referenceSpace at h
    split at h
    · rename_i hscheme
      obtain ⟨body, rfl⟩ := List.isPrefixOf_iff_prefix.mp hscheme
      dsimp only at h
      split at h
      · rename_i rest hgap
        rw [List.drop_left] at hgap
        refine ⟨body.takeWhile inPath, rest, ?_, fun c hc => List.mem_takeWhile_imp hc⟩
        rw [List.append_assoc, ← hgap, List.takeWhile_append_dropWhile]
      · exact absurd rfl h
    · exact absurd rfl h
  · rintro ⟨path, rest, rfl, hpath⟩
    have hstops : Stops inPath (' ' :: rest) := Lexer.stops_cons.mpr (by decide)
    obtain ⟨-, hdrop⟩ := takeWhile_append_of_stops hpath hstops
    rw [List.append_assoc]
    unfold referenceSpace
    rw [dif_pos (List.isPrefixOf_iff_prefix.mpr (List.prefix_append _ _))]
    dsimp only
    split
    · exact nofun
    · rename_i hnot
      rw [List.drop_left] at hnot
      exact absurd hdrop (hnot rest)

theorem shortens_referenceSpace : referenceSpace.Shortens := by
  intro text erasure h
  unfold referenceSpace at h
  split at h
  · rename_i hscheme
    obtain ⟨body, rfl⟩ := List.isPrefixOf_iff_prefix.mp hscheme
    dsimp only at h
    split at h
    · rename_i rest hgap
      obtain rfl := Option.some.inj h
      rw [List.drop_left] at hgap
      have hjoined := congrArg List.length
        (List.takeWhile_append_dropWhile (p := inPath) (l := rest.dropWhile isSpace))
      have hbody := congrArg List.length
        (List.takeWhile_append_dropWhile (p := inPath) (l := body))
      have hspaces := (List.dropWhile_sublist isSpace (l := rest)).length_le
      rw [hgap] at hbody
      simp only [List.length_append, List.length_cons, List.drop_left] at hjoined hbody ⊢
      omega
    · cases h
  · cases h

/-! ### Hash marks -/

/-- An opening operator and two hash marks, up to blanks. -/
def HashMarks (text : Text) : Prop :=
  ∃ sign blanks blanks' rest, text = sign :: blanks ++ '#' :: blanks' ++ '#' :: rest ∧
    sign ∈ ['+', '-', '*', '('] ∧ IsBlanks blanks ∧ IsBlanks blanks'

theorem blanks_of_afterHash? {found : { rest : Text // rest <:+ text }}
    (h : afterHash? text = some found) :
    ∃ blanks, IsBlanks blanks ∧ text = blanks ++ '#' :: found.val := by
  unfold afterHash? at h
  split at h
  · rename_i rest hdrop
    obtain rfl := Option.some.inj h
    refine ⟨text.takeWhile Text.isBlank, fun c hc => List.mem_takeWhile_imp hc, ?_⟩
    rw [← hdrop, List.takeWhile_append_dropWhile]
  · cases h

theorem afterHash?_append (hblanks : IsBlanks blanks) (rest : Text) :
    ∃ found, afterHash? (blanks ++ '#' :: rest) = some found ∧ found.val = rest := by
  have hstops : Stops Text.isBlank ('#' :: rest) := Lexer.stops_cons.mpr (by decide)
  obtain ⟨-, hdrop⟩ := takeWhile_append_of_stops hblanks hstops
  unfold afterHash?
  split
  · rename_i rest' hdrop'
    obtain ⟨-, rfl⟩ := List.cons.inj (hdrop.symm.trans hdrop')
    exact ⟨_, rfl, rfl⟩
  · rename_i hnot
    exact absurd hdrop (hnot rest)

theorem hashMarks_ne_none_iff (text : Text) : hashMarks text ≠ none ↔ HashMarks text := by
  constructor
  · intro h
    unfold hashMarks at h
    split at h
    · rename_i sign more
      split at h
      · rename_i hsign
        obtain ⟨erasure, h⟩ := Option.ne_none_iff_exists'.mp h
        obtain ⟨⟨once, honce⟩, honce', h⟩ := Option.bind_eq_some_iff.mp h
        obtain ⟨⟨twice, htwice⟩, htwice', -⟩ := Option.map_eq_some_iff.mp h
        obtain ⟨blanks, hblanks, hmore⟩ := blanks_of_afterHash? honce'
        obtain ⟨blanks', hblanks', hrest⟩ := blanks_of_afterHash? htwice'
        refine ⟨sign, blanks, blanks', twice, ?_, hsign, hblanks, hblanks'⟩
        dsimp only at hmore hrest
        simp only [hmore, hrest, List.append_assoc, List.cons_append]
      · exact absurd rfl h
    · exact absurd rfl h
  · rintro ⟨sign, blanks, blanks', rest, rfl, hsign, hblanks, hblanks'⟩
    obtain ⟨⟨once, honce⟩, honce', hrest⟩ := afterHash?_append hblanks (blanks' ++ '#' :: rest)
    obtain rfl : once = _ := hrest
    obtain ⟨⟨twice, htwice⟩, htwice', hrest⟩ := afterHash?_append hblanks' rest
    obtain rfl : twice = _ := hrest
    rw [List.append_assoc, List.cons_append, hashMarks, if_pos hsign, List.cons_append, honce',
      Option.bind_some]
    dsimp only
    rw [htwice']
    exact nofun

theorem shortens_hashMarks : hashMarks.Shortens := by
  intro text erasure h
  have hkept : erasure.kept = [] := by
    unfold hashMarks at h
    split at h
    · split at h
      · obtain ⟨_, -, h⟩ := Option.bind_eq_some_iff.mp h
        obtain ⟨_, -, rfl⟩ := Option.map_eq_some_iff.mp h
        rfl
      · cases h
    · cases h
  rw [hkept, List.length_nil, Nat.zero_add]
  exact erasure.shorter

/-! ### All rules -/

/-- Two steps that only take out leave a text together just when each leaves it. -/
theorem eq_self_of_comp {f g : Text → Text} (hf : ∀ text, (f text).Sublist text)
    (hg : ∀ text, (g text).Sublist text) (text : Text) :
    g (f text) = text ↔ f text = text ∧ g text = text := by
  constructor
  · intro h
    have hlength : text.length ≤ (f text).length := by
      have := (hg (f text)).length_le
      rwa [h] at this
    have hself := (hf text).eq_of_length_le hlength
    rw [hself] at h
    exact ⟨hself, h⟩
  · rintro ⟨hself, h⟩
    rw [hself, h]

theorem eraseNoise_eq_self_iff (text : Text) :
    eraseNoise text = text ↔ ∀ word ∈ noiseWords, ¬ word <:+: text := by
  have hcomp := eq_self_of_comp (Text.replace_nil_sublist "SumOverCellPLMN".toList)
    (Text.replace_nil_sublist "TIME_SHIFT".toList) text
  rw [Text.replace_nil_eq_self_iff (by decide), Text.replace_nil_eq_self_iff (by decide)] at hcomp
  rw [noiseWords, List.forall_mem_cons, List.forall_mem_singleton]
  exact hcomp

/-- **The rules together** leave a text just when each of them leaves it. -/
theorem strip_eq_self_iff (text : Text) :
    strip text = text ↔
      footnote.apply text = text ∧ (∀ word ∈ noiseWords, ¬ word <:+: text) ∧
        Nowhere SigilSpace text ∧ Nowhere ReferenceSpace text ∧ Nowhere HashMarks text ∧
        Nowhere DotSpace text := by
  rw [← eraseNoise_eq_self_iff, ← Rule.apply_eq_self_iff shortens_sigilSpace sigilSpace_ne_none_iff,
    ← Rule.apply_eq_self_iff shortens_referenceSpace referenceSpace_ne_none_iff,
    ← Rule.apply_eq_self_iff shortens_hashMarks hashMarks_ne_none_iff,
    ← Rule.apply_eq_self_iff shortens_dotSpace dotSpace_ne_none_iff]
  have hnoise (text : Text) : (eraseNoise (footnote.apply text)).Sublist text :=
    (eraseNoise_sublist _).trans (footnote.apply_sublist text)
  have hsigil (text : Text) : (sigilSpace.apply (eraseNoise (footnote.apply text))).Sublist text :=
    (sigilSpace.apply_sublist _).trans (hnoise text)
  have hreference (text : Text) : (referenceSpace.apply (sigilSpace.apply
      (eraseNoise (footnote.apply text)))).Sublist text :=
    (referenceSpace.apply_sublist _).trans (hsigil text)
  have hhash (text : Text) : (hashMarks.apply (referenceSpace.apply (sigilSpace.apply
      (eraseNoise (footnote.apply text))))).Sublist text :=
    (hashMarks.apply_sublist _).trans (hreference text)
  rw [strip, eq_self_of_comp hhash dotSpace.apply_sublist,
    eq_self_of_comp hreference hashMarks.apply_sublist,
    eq_self_of_comp hsigil referenceSpace.apply_sublist,
    eq_self_of_comp hnoise sigilSpace.apply_sublist,
    eq_self_of_comp footnote.apply_sublist eraseNoise_sublist]
  simp only [and_assoc]

end Clean

end CounterFormula
