import CounterFormula.Proofs.Clean.Folding

/-!
# Clean — Lists

Cleaning does not change which ids a summation asks for, as far as its list is written with digits
and hyphens and the counter stands directly behind the sign.  The tokens of such a summation are
those of a call, with blanks anywhere inside the parentheses (`exists_rawCall`); cleaning passes
over a call, and so its tokens are in the cleaned text as they were.

What is taken out of a text besides lists of numbers that are none of a summation, is taken out by
another rule.  Where none of the others ever has anything to do (`Plain`), nothing else is.

* `spellings_clean_of_listed`: the tokens of a summation in a cleaned text.
* `takesOut_settle`: what is taken out of a text that stays plain.
* `clean_keeps_lists`: both, for a raw text.
* `clean_loses_list_behind_gap`: with a blank between the sign and the counter the list is lost.
-/

namespace CounterFormula.Clean

open Lexer (summationGlyph summationSign Reblanks Written Scans Place Stops)

variable {encoding : Encoding} {mode : Mode}
  {raw source text front back gap name blanks list : Text} {c : Char}
  {sign counter opening closing : Token} {items tokens : List Token} {place : Place}
  {start : Nat}

instance (blanks : Text) : Decidable (IsBlanks blanks) :=
  inferInstanceAs (Decidable (∀ _ ∈ _, _))

instance (encoding : Encoding) (text : Text) : Decidable (KeepsBlanks encoding text) :=
  inferInstanceAs (Decidable (∀ _ ∈ _, _ → IsBlanks _))

/-! ### How a summation is written -/

/-- The tokens are a summation of `source` whose list is written with digits and hyphens, its
counter directly behind the sign. -/
structure IsListed (source : Text) (sign counter opening : Token) (items : List Token)
    (closing : Token) : Prop where
  summed : sign.isOperator '~' = true
  named : counter.isSymbol = true
  joined : counter.first = sign.last + 1
  opened : opening.isOperator '(' = true
  listed : ∀ item ∈ items, (item.isNumber = true ∨ item.isOperator '-' = true) ∧
    ∀ c ∈ item.slice source, c.isDigit = true ∨ c = '-'
  closed : closing.isOperator ')' = true

/-- The tokens of a list, up to the parenthesis that closes it. -/
theorem exists_rangeList (h : Scans place start (source.drop start) (items ++ closing :: tokens))
    (hitems : ∀ item ∈ items, (item.isNumber = true ∨ item.isOperator '-' = true) ∧
      ∀ c ∈ item.slice source, c.isDigit = true ∨ c = '-')
    (hclosing : closing.isOperator ')' = true) :
    ∃ list, source.drop start = list ++ ')' :: source.drop (closing.last + 1) ∧
      IsRangeList list := by
  induction items generalizing place start with
  | nil =>
      obtain ⟨blanks, run, place', htext, hblanks, hrun, -⟩ :=
        h.exists_run (Token.kind_ne_error_of_isOperator hclosing)
      obtain rfl := hrun.eq_of_isOperator hclosing (by decide) (by decide)
      exact ⟨blanks, htext, IsBlanks.isRangeList hblanks⟩
  | cons item items ih =>
      obtain ⟨⟨hkind, hslice⟩, hitems⟩ := List.forall_mem_cons.mp hitems
      have herror : item.kind ≠ .error := by
        rcases hkind with hkind | hkind
        · rw [eq_of_beq hkind]
          exact nofun
        · exact Token.kind_ne_error_of_isOperator hkind
      obtain ⟨blanks, run, place', htext, hblanks, -, hfirst, hlast, hrest⟩ := h.exists_run herror
      have hdrop : source.drop item.first = run ++ source.drop (item.last + 1) := by
        rw [hfirst]
        exact Text.drop_of_drop_eq htext
      have hrun : item.slice source = run := Token.slice_eq_of_drop hdrop rfl hlast
      obtain ⟨list, htext', hlist⟩ := ih hrest hitems
      refine ⟨blanks ++ (run ++ list), ?_, ?_⟩
      · rw [htext, htext']
        simp only [List.append_assoc]
      · rw [hrun] at hslice
        exact List.forall_mem_append.mpr ⟨fun c hc => .inr (.inr (hblanks c hc)),
          List.forall_mem_append.mpr ⟨fun c hc => (hslice c hc).imp_right .inl, hlist⟩⟩

/-- **How a summation is written.** -/
theorem exists_rawCall (hscans : Scans place sign.first (source.drop sign.first)
      (sign :: counter :: opening :: (items ++ closing :: tokens)))
    (h : IsListed source sign counter opening items closing) :
    ∃ c blanks list, (c = summationSign ∨ c = summationGlyph) ∧
      IsIdentifier counter.text ∧ IsBlanks blanks ∧ IsRangeList list ∧
      source.drop sign.first =
        rawCall c counter.text blanks list ++ source.drop (closing.last + 1) := by
  obtain ⟨blanks, run, place, hsign, -, hrun, hfirst, -, hscans⟩ :=
    hscans.exists_run (Token.kind_ne_error_of_isOperator h.summed)
  obtain rfl : blanks = [] := List.length_eq_zero_iff.mp (by omega)
  obtain ⟨c, rfl, -, hc⟩ := hrun.exists_sign h.summed (by decide)
  have hkind : counter.kind ≠ .error := by
    rw [Token.kind_of_isSymbol h.named]
    exact nofun
  obtain ⟨blanks, name, place, hcounter, -, hrun, hfirst, -, hscans⟩ := hscans.exists_run hkind
  have hjoined := h.joined
  obtain rfl : blanks = [] := List.length_eq_zero_iff.mp (by omega)
  obtain ⟨rfl, hname⟩ := hrun.of_isSymbol h.named
  obtain ⟨blanks, run, place, hopening, hblanks, hrun, -, -, hscans⟩ :=
    hscans.exists_run (Token.kind_ne_error_of_isOperator h.opened)
  obtain rfl := hrun.eq_of_isOperator h.opened (by decide) (by decide)
  obtain ⟨list, hclosing, hlist⟩ := exists_rangeList hscans h.listed h.closed
  refine ⟨c, blanks, list, ?_, hname, hblanks, hlist, ?_⟩
  · split at hc
    · rename_i hglyph
      exact .inr (eq_of_beq hglyph)
    · exact .inl hc
  · rw [hsign, hcounter, hopening, hclosing, rawCall, parenthesized]
    simp

/-! ### How it reads -/

theorem spellings_rawCall (mode : Mode) (hc : c = summationSign ∨ c = summationGlyph)
    (hblanks : IsBlanks blanks) (name list : Text) :
    spellings mode (rawCall c name blanks list) =
      (.operator, ['~']) :: (spellings mode name ++
        (.operator, ['(']) :: (spellings mode list ++ [(.operator, [')'])])) := by
  have hcall : rawCall c name blanks list =
      c :: (name ++ (blanks ++ '(' :: (list ++ [')']))) := by
    simp [rawCall, parenthesized]
  have hname : Lexer.Parted name (blanks ++ '(' :: (list ++ [')'])) :=
    .inr (stops_append_parenthesis hblanks _)
  have hlist : Lexer.Parted list [')'] := .inr (Lexer.stops_cons.mpr (by decide))
  have hsign : Lexer.isOperator c = true ∧
      (Lexer.operatorToken 0 c).spelling = (.operator, ['~']) := by
    rcases hc with rfl | rfl <;> exact ⟨by decide, rfl⟩
  rw [hcall, spellings_sign mode hsign.1, hsign.2, spelling_append mode hname,
    spellings_blanks mode hblanks, spellings_sign mode (by decide), spelling_append mode hlist,
    spellings_sign mode (by decide)]
  rfl

/-- A summation is read on its own. -/
theorem spellings_append_call (mode : Mode) (front name blanks list back : Text) :
    spellings mode (front ++ call name blanks list ++ back) =
      spellings mode front ++ spellings mode (call name blanks list) ++ spellings mode back := by
  have hfront : Lexer.Parted front (call name blanks list) :=
    .inr (Lexer.stops_cons.mpr (by decide))
  have hback : Lexer.Parted (front ++ call name blanks list) back := by
    have hcall : front ++ call name blanks list =
        front ++ (callee name blanks ++ '(' :: list) ++ [')'] := by
      simp [call, parenthesized]
    rw [hcall]
    exact .inl (Lexer.endsOutside_concat.mpr (by decide))
  rw [spelling_append mode hback, spelling_append mode hfront]

/-- **A summation in a cleaned text.** -/
theorem spellings_clean_of_listed {before after : List Token} (mode : Mode)
    (hfaults : (lex .strict raw).faults = [])
    (hbody : (lex .strict raw).body =
      before ++ (sign :: counter :: opening :: items ++ [closing]) ++ after)
    (h : IsListed raw sign counter opening items closing)
    (hnoise : ∀ word ∈ noiseWords, ¬ word <:+: counter.text)
    (hkeeps : KeepsBlanks encoding (Text.slice raw sign.first closing.last)) :
    spellings mode (clean encoding raw) =
      spellings mode (clean encoding (raw.take sign.first)) ++
        (sign :: counter :: opening :: items ++ [closing]).map Token.spelling ++
        spellings mode (clean encoding (raw.drop (closing.last + 1))) := by
  have hclean := no_error_of_faults hfaults
  have hmem {token : Token} (htoken : token ∈ sign :: counter :: opening :: items ++ [closing]) :
      token ∈ (lex .strict raw).body := by
    rw [hbody]
    exact List.mem_append_left after (List.mem_append_right before htoken)
  have hscans : Scans .boundary 0 raw (lex .strict raw).body := scans_iff.mpr rfl
  rw [hbody, List.append_assoc] at hscans
  obtain ⟨place, start, hread⟩ := hscans.exists_of_append rfl
  obtain ⟨place, -, hread⟩ := hread.skip rfl
  obtain ⟨c, blanks, list, hc, hname, hblanks, hlist, hdrop⟩ :=
    exists_rawCall (by simpa using hread) h
  -- the stretch of the summation, as it is written and as it reads
  have hslice : Text.slice raw sign.first closing.last = rawCall c counter.text blanks list := by
    have hbound := (bounds_of_mem_body (hmem (List.mem_append_right _ List.mem_cons_self))).2
    have hlength := congrArg List.length hdrop
    have hpos : 0 < (rawCall c counter.text blanks list).length := Nat.succ_pos _
    rw [List.length_drop, List.length_append, List.length_drop] at hlength
    have hextent : closing.last + 1 - sign.first =
        (rawCall c counter.text blanks list).length := by omega
    rw [Text.slice, hdrop, hextent, List.take_left]
  have hstrict : spellings .strict (rawCall c counter.text blanks list) =
      (sign :: counter :: opening :: items ++ [closing]).map Token.spelling := by
    rw [← hslice]
    exact spelling_slice hclean hbody rfl List.getLast?_concat
  have hread : spellings mode (rawCall c counter.text blanks list) =
      (sign :: counter :: opening :: items ++ [closing]).map Token.spelling := by
    rw [spellings_of_no_error mode, hstrict]
    rw [hstrict]
    exact List.forall_mem_map.mpr fun token htoken => hclean token (hmem htoken)
  have hsplit : raw = raw.take sign.first ++ rawCall c counter.text blanks list ++
      raw.drop (closing.last + 1) := by
    rw [List.append_assoc, ← hdrop, List.take_append_drop]
  rw [hslice] at hkeeps
  have hsub : (blanks ++ list).Sublist (rawCall c counter.text blanks list) :=
    (List.sublist_append_right _ blanks).append
      ((List.sublist_cons_self '(' list).trans (List.sublist_append_left _ [')']))
  obtain ⟨blanks', hblanks', hcleaned⟩ := exists_clean_call hc hname hblanks hlist hnoise
    (hkeeps.sublist hsub) (raw.take sign.first) (raw.drop (closing.last + 1))
  rw [← hsplit] at hcleaned
  have hlisted : spellings mode (call counter.text blanks' (list.map (blankOf encoding))) =
      spellings mode (rawCall c counter.text blanks list) := by
    have hlists : spellings mode (list.map (blankOf encoding)) = spellings mode list := by
      rw [spellings, body_map mode (reblanks_of_keepsBlanks hlist
        (hkeeps.sublist ((List.sublist_append_right blanks list).trans hsub)))]
      rfl
    have hcall : call counter.text blanks' (list.map (blankOf encoding)) =
      rawCall summationSign counter.text blanks' (list.map (blankOf encoding)) := rfl
    rw [hcall, spellings_rawCall mode (.inl rfl) hblanks', spellings_rawCall mode hc hblanks,
      hlists]
  rw [hcleaned, spellings_append_call, hlisted, hread]

/-! ### What is taken out -/

/-- No noise word, no hash mark, no space behind a dot or a sigil, and no reference. -/
structure Plain (text : Text) : Prop where
  noise : ∀ word ∈ noiseWords, ¬ word <:+: text
  hash : '#' ∉ text
  dot : ¬ ['.', ' '] <:+: text
  sigil : ¬ ['$', ' '] <:+: text
  reference : ¬ Reference.scheme <:+: text

theorem nowhere_of_absent {p : Text → Prop} {mark : Text} (hp : ∀ rest, p rest → mark <+: rest)
    (h : ¬ mark <:+: text) : Nowhere p text :=
  fun rest hrest hmatch => h ((hp rest hmatch).isInfix.trans hrest.isInfix)

/-- Where nothing else is left to do, the rules together are the one for footnotes. -/
theorem Plain.strip_eq (h : Plain (footnote.apply text)) : strip text = footnote.apply text := by
  have hsigil : sigilSpace.apply (footnote.apply text) = footnote.apply text := by
    refine (Rule.apply_eq_self_iff shortens_sigilSpace sigilSpace_ne_none_iff).mpr
      (nowhere_of_absent ?_ h.sigil)
    rintro _ ⟨spaces, c, rest, rfl, -⟩
    exact ⟨spaces ++ c :: rest, rfl⟩
  have hreference : referenceSpace.apply (footnote.apply text) = footnote.apply text := by
    refine (Rule.apply_eq_self_iff shortens_referenceSpace referenceSpace_ne_none_iff).mpr
      (nowhere_of_absent ?_ h.reference)
    rintro _ ⟨path, rest, rfl, -⟩
    exact ⟨path ++ ' ' :: rest, by simp⟩
  have hdot : dotSpace.apply (footnote.apply text) = footnote.apply text :=
    (Rule.apply_eq_self_iff shortens_dotSpace dotSpace_ne_none_iff).mpr
      (nowhere_of_absent (fun _ => id) h.dot)
  rw [strip, (eraseNoise_eq_self_iff _).mpr h.noise, hsigil, hreference,
    apply_hashMarks_of_not_mem h.hash, hdot]

/-- **What is taken out** of a text that stays plain while footnotes are taken out of it. -/
theorem takesOut_settle (h : ∀ count, Plain (footnote.apply^[count] text)) :
    TakesOut text (settle text) := by
  fun_induction settle text with
  | case1 => exact .refl
  | case2 text _ ih =>
      have hstrip : strip text = footnote.apply text := (h 1).strip_eq
      have hfirst : TakesOut text (strip text) := by
        rw [hstrip]
        exact takesOut_of_reads (reads_apply text) (settled_nil text)
      refine hfirst.trans (ih fun count => ?_)
      rw [hstrip, ← Function.iterate_succ_apply]
      exact h (count + 1)

/-- **Cleaning keeps the lists of summations.**  The tokens of a summation whose list is written
with digits and hyphens, its counter directly behind the sign, are in the cleaned text as they were,
where the encoding has blanks for the blanks between them and no noise word is in the counter's
name.  Before them and behind them stand the tokens of what stood there, cleaned on its own.  What
is taken out of the folded text are lists of numbers, and none of them behind a sign and a counter,
unless one of the other rules finds something to do. -/
theorem clean_keeps_lists (mode : Mode) (encoding : Encoding) (raw : Text) :
    (∀ before sign counter opening items closing after, (lex .strict raw).faults = [] →
      (lex .strict raw).body =
        before ++ (sign :: counter :: opening :: items ++ [closing]) ++ after →
      IsListed raw sign counter opening items closing →
      (∀ word ∈ noiseWords, ¬ word <:+: counter.text) →
      KeepsBlanks encoding (Text.slice raw sign.first closing.last) →
      spellings mode (clean encoding raw) =
        spellings mode (clean encoding (raw.take sign.first)) ++
          (sign :: counter :: opening :: items ++ [closing]).map Token.spelling ++
          spellings mode (clean encoding (raw.drop (closing.last + 1)))) ∧
    ((∀ count, Plain (footnote.apply^[count] (fold encoding raw))) →
      TakesOut (fold encoding raw) (clean encoding raw)) :=
  ⟨fun _ _ _ _ _ _ _ hfaults hbody h hnoise hkeeps =>
    spellings_clean_of_listed mode hfaults hbody h hnoise hkeeps, takesOut_settle⟩

/-- In `A(3)+∑B (1-2)` the list behind `A` is taken out, and the one behind `B` stays. -/
theorem clean_keeps_lists_behind_footnote :
    let raw := "A(3)+∑B (1-2)".toList
    let tokens : List Token := [⟨.operator, ['~'], 5, 5⟩, ⟨.symbol, ['B'], 6, 6⟩,
      ⟨.operator, ['('], 8, 8⟩, ⟨.number, ['1'], 9, 9⟩, ⟨.operator, ['-'], 10, 10⟩,
      ⟨.number, ['2'], 11, 11⟩, ⟨.operator, [')'], 12, 12⟩]
    (lex .strict raw).faults = [] ∧ (lex .strict raw).body.drop 5 = tokens ∧
      spellings .relaxed (clean .ascii raw) =
        spellings .relaxed (clean .ascii (raw.take 5)) ++ tokens.map Token.spelling ++
          spellings .relaxed (clean .ascii (raw.drop 13)) ∧
      TakesOut (fold .ascii raw) (clean .ascii raw) := by
  intro raw tokens
  obtain ⟨hlists, hremoved⟩ := clean_keeps_lists .relaxed .ascii raw
  have hfaults : (lex .strict raw).faults = [] := by decide +kernel
  have hbody : (lex .strict raw).body = (lex .strict raw).body.take 5 ++ tokens ++ [] := by
    decide +kernel
  have hlisted : IsListed raw ⟨.operator, ['~'], 5, 5⟩ ⟨.symbol, ['B'], 6, 6⟩
      ⟨.operator, ['('], 8, 8⟩ [⟨.number, ['1'], 9, 9⟩, ⟨.operator, ['-'], 10, 10⟩,
        ⟨.number, ['2'], 11, 11⟩] ⟨.operator, [')'], 12, 12⟩ := by
    constructor <;> decide
  have hplain : Plain (fold .ascii raw) := by
    constructor <;> decide +kernel
  have hplain' : Plain (footnote.apply (fold .ascii raw)) := by
    constructor <;> decide +kernel
  have hfixed : footnote.apply (footnote.apply (fold .ascii raw)) =
      footnote.apply (fold .ascii raw) := by
    decide +kernel
  refine ⟨hfaults, by decide +kernel,
    hlists _ _ _ _ _ _ _ hfaults hbody hlisted (by decide) (by decide), hremoved ?_⟩
  rintro (- | count)
  · exact hplain
  · rw [Function.iterate_succ_apply, Function.iterate_fixed hfixed]
    exact hplain'

/-- No encoding has a blank for the one in `~C(0-\u30002)`: what stands for it is read with the
number behind it, as an error.  In `A.(1) B` the list is the only one, and when it is taken out, a
space stands behind the dot and is taken out too. -/
theorem clean_loses_list :
    let raw := "~C(0-\u30002)".toList
    let other := "A.(1) B".toList
    ((lex .strict raw).faults = [] ∧ Plain raw ∧
      IsListed raw ⟨.operator, ['~'], 0, 0⟩ ⟨.symbol, ['C'], 1, 1⟩ ⟨.operator, ['('], 2, 2⟩
        [⟨.number, ['0'], 3, 3⟩, ⟨.operator, ['-'], 4, 4⟩, ⟨.number, ['2'], 6, 6⟩]
        ⟨.operator, [')'], 7, 7⟩ ∧
      (lex .strict raw).body.length = 7 ∧
      ∀ mode ∈ [Mode.strict, .relaxed], ∀ encoding ∈ [Encoding.latin1, .ascii],
        ¬ spellings mode raw <:+: spellings mode (clean encoding raw)) ∧
    (lex .strict other).faults = [] ∧ Plain other ∧ clean .latin1 other = "A.B".toList := by
  intro raw other
  have hplain : Plain raw := by
    constructor <;> decide +kernel
  have hplain' : Plain other := by
    constructor <;> decide +kernel
  have hlisted : IsListed raw ⟨.operator, ['~'], 0, 0⟩ ⟨.symbol, ['C'], 1, 1⟩
      ⟨.operator, ['('], 2, 2⟩ [⟨.number, ['0'], 3, 3⟩, ⟨.operator, ['-'], 4, 4⟩,
        ⟨.number, ['2'], 6, 6⟩] ⟨.operator, [')'], 7, 7⟩ := by
    constructor <;> decide +kernel
  have hlost : ∀ mode ∈ [Mode.strict, .relaxed], ∀ encoding ∈ [Encoding.latin1, .ascii],
      ¬ spellings mode raw <:+: spellings mode (clean encoding raw) := by
    decide +kernel
  exact ⟨⟨by decide +kernel, hplain, hlisted, by decide +kernel, hlost⟩, by decide +kernel, hplain',
    by decide +kernel⟩

/-! ### A blank behind the sign -/

theorem isInfix_of_append {mark : Text} (hc : c ∉ front) (h : c :: mark <:+: front ++ back) :
    c :: mark <:+: back := by
  induction front with
  | nil => exact h
  | cons d front ih =>
      obtain ⟨hne, hc⟩ := List.ne_and_not_mem_of_not_mem_cons hc
      rcases List.infix_cons_iff.mp h with hprefix | hinfix
      · exact absurd (List.cons_prefix_cons.mp hprefix).1 hne
      · exact ih hc hinfix

/-- Neither a sign nor a parenthesis is among blanks and a name. -/
theorem IsBlanks.operator_not_mem (hgap : IsBlanks gap) (hname : IsIdentifier name)
    (hblanks : IsBlanks blanks) (hc : Lexer.isOperator c = true) :
    c ∉ gap ++ (name ++ blanks) :=
  List.not_mem_append (hgap.not_mem (Lexer.isBlank_of_isOperator hc))
    (not_mem_of_operator hname hblanks hc)

/-- A text that begins with a blank begins with no name. -/
theorem IsIdentifier.append_ne_of_blank (hname : IsIdentifier name)
    (hblank : Text.isBlank c = true) : name ++ back ≠ c :: front := by
  rintro heq
  obtain ⟨d, more, rfl, hd, -⟩ := hname
  obtain ⟨rfl, -⟩ := List.cons.inj heq
  have hword := Lexer.inWord_of_inRun (Lexer.inRun_of_begins (.symbol hd))
  rw [Lexer.inWord_of_isBlank hblank] at hword
  cases hword

/-- Up to the list the rule for footnotes has no place where it applies. -/
theorem outcome_footnote_gap (hgap : IsBlanks gap) (hne : gap ≠ []) (hname : IsIdentifier name)
    (hblanks : IsBlanks blanks) (after : Text)
    (hrest : c :: text <:+ '~' :: (gap ++ (name ++ blanks))) :
    footnote.outcome (c :: text ++ after) = none := by
  refine Option.eq_none_iff_forall_ne_some.mpr fun outcome houtcome => ?_
  rcases footnote_cases houtcome with ⟨list', -, hcall, -⟩ |
    ⟨name', blanks', list', hname', -, -, hcall, -⟩
  · obtain ⟨rfl, -⟩ := List.cons.inj hcall
    rcases List.mem_cons.mp (hrest.subset List.mem_cons_self) with hsign | hmem
    · cases hsign
    · exact hgap.operator_not_mem hname hblanks (by decide) hmem
  · obtain ⟨rfl, hbehind⟩ := List.cons.inj hcall
    rcases List.suffix_cons_iff.mp hrest with hall | hrest
    · -- behind the sign stands a blank, and that begins no name
      obtain ⟨-, rfl⟩ := List.cons.inj hall
      obtain ⟨b, gap, rfl⟩ := List.exists_cons_of_ne_nil hne
      have hsame : name' ++ (blanks' ++ parenthesized list' ++ outcome.2) =
          b :: (gap ++ (name ++ blanks) ++ after) := by
        simpa using hbehind.symm
      exact hname'.append_ne_of_blank (hgap b List.mem_cons_self) hsame
    · exact hgap.operator_not_mem hname hblanks (by decide) (hrest.subset List.mem_cons_self)

/-- **A blank behind the sign** hides the counter from the rule for footnotes.  It takes the list
out, wherever the summation stands. -/
theorem apply_footnote_gap (hgap : IsBlanks gap) (hne : gap ≠ [])
    (hname : IsIdentifier name) (hblanks : IsBlanks blanks) (hlist : IsNumberList list)
    (before after : Text) :
    footnote.apply (before ++ '~' :: (gap ++ (name ++ blanks)) ++ parenthesized list ++ after) =
      footnote.apply before ++ '~' :: (gap ++ (name ++ blanks)) ++ footnote.apply after := by
  have hbehind := Rule.apply_append_of_none fun _ _ =>
    outcome_footnote_gap hgap hne hname hblanks (parenthesized list ++ after)
  rw [Rule.apply_of_outcome_eq_some (outcome_parenthesized hlist after), List.nil_append] at hbehind
  rw [List.append_assoc, List.append_assoc, List.cons_append, parts_footnote.apply_append,
    ← List.cons_append, hbehind, List.append_assoc]

/-- A sign, blanks and a name are a plain text. -/
theorem plain_gap (hgap : IsBlanks gap) (hname : IsIdentifier name)
    (hnoise : ∀ word ∈ noiseWords, ¬ word <:+: name) : Plain ('~' :: gap ++ name) := by
  have hfront {c : Char} (hsign : c ≠ '~') (hblank : Text.isBlank c = false) : c ∉ '~' :: gap :=
    List.not_mem_cons_of_ne_of_not_mem hsign (hgap.not_mem hblank)
  have habsent {c d : Char} {mark : Text} (hc : c ∉ '~' :: gap) (hd : d ∈ c :: mark)
      (hword : Lexer.inWord d = false) : ¬ c :: mark <:+: '~' :: gap ++ name :=
    fun h => not_infix_of_mem hd (hname.not_mem hword) (isInfix_of_append hc h)
  have hwords : ∀ word ∈ noiseWords, ∃ c mark, word = c :: mark ∧ c ≠ '~' ∧
      Text.isBlank c = false := by
    simp [noiseWords, Text.isBlank]
  constructor
  case noise =>
    intro word hword hinfix
    obtain ⟨c, mark, rfl, hsign, hblank⟩ := hwords word hword
    exact hnoise _ hword (isInfix_of_append (hfront hsign hblank) hinfix)
  case hash =>
    exact List.not_mem_append (hfront (by decide) (by decide)) (hname.not_mem (by decide))
  case dot =>
    exact habsent (d := ' ') (hfront (by decide) (by decide)) (by decide) (by decide)
  case sigil =>
    exact habsent (d := ' ') (hfront (by decide) (by decide)) (by decide) (by decide)
  case reference =>
    exact habsent (d := ':') (hfront (by decide) (by decide)) (by decide) (by decide)

theorem apply_footnote_of_not_mem (h : '(' ∉ text) : footnote.apply text = text := by
  refine (apply_footnote_eq_self_iff text).mpr ?_
  rintro before _ rfl ⟨list, after, rfl, -⟩
  exact absurd (List.mem_append_right before List.mem_cons_self) h

/-- Where only footnotes are found, taking them out once is enough. -/
theorem settle_eq_of_plain (hplain : Plain text) (hnone : '(' ∉ text)
    (h : footnote.apply source = text) : settle source = text := by
  have hfixed := apply_footnote_of_not_mem hnone
  have hstrip : strip source = text := by
    have hleft : Plain (footnote.apply source) := by rwa [h]
    rw [hleft.strip_eq, h]
  have hagain : strip text = text := by
    have hleft : Plain (footnote.apply text) := by rwa [hfixed]
    rw [hleft.strip_eq, hfixed]
  rw [← settle_strip, hstrip, settle_of_strip_eq hagain]

/-- A sign reads the same with blanks behind it. -/
theorem spellings_gap (mode : Mode) (hc : Lexer.isOperator c = true) (hgap : IsBlanks gap)
    (text : Text) : spellings mode (c :: gap ++ text) = spellings mode (c :: text) := by
  rw [List.cons_append, spellings_sign mode hc, spellings_sign mode hc, spellings_blanks mode hgap]

/-- Cleaning takes the list out, and leaves the sign and the counter. -/
theorem clean_gap (hc : c = summationSign ∨ c = summationGlyph) (hgap : IsBlanks gap)
    (hne : gap ≠ []) (hname : IsIdentifier name) (hlist : IsNumberList list)
    (hnoise : ∀ word ∈ noiseWords, ¬ word <:+: name) (hkeeps : KeepsBlanks encoding gap) :
    clean encoding (c :: gap ++ (name ++ parenthesized list)) =
      '~' :: gap.map (blankOf encoding) ++ name := by
  have hgap' := hgap.map hkeeps
  have hempty : IsBlanks [] := nofun
  have hfold : fold encoding (c :: gap ++ (name ++ parenthesized list)) =
      '~' :: (gap.map (blankOf encoding) ++ name) ++ parenthesized list := by
    have hsplit : c :: gap ++ (name ++ parenthesized list) =
      [c] ++ (gap ++ (name ++ parenthesized list)) := rfl
    rw [hsplit, fold_append, fold_append, fold_append, fold_sign encoding hc,
      fold_rangeList encoding hgap.isRangeList, hname.fold_eq, hlist.fold_parenthesized]
    simp
  have hparenthesis : '(' ∉ gap.map (blankOf encoding) ++ (name ++ []) :=
    hgap'.operator_not_mem hname hempty (by decide)
  have hfootnote :=
    apply_footnote_gap hgap' (mt List.map_eq_nil_iff.mp hne) hname hempty hlist [] []
  rw [List.append_nil] at hparenthesis
  rw [List.append_nil, List.append_nil, apply_footnote_of_not_mem List.not_mem_nil,
    List.nil_append, List.append_nil] at hfootnote
  rw [clean_eq_settle_fold, hfold]
  exact settle_eq_of_plain (plain_gap hgap' hname hnoise)
    (List.not_mem_cons_of_ne_of_not_mem (by decide) hparenthesis) hfootnote

/-- **The list of a summation is lost** where a blank stands between its sign and its counter.  Its
tokens are those of the summation without the blank, and cleaning leaves the sign and the counter
only. -/
theorem clean_loses_list_behind_gap (mode : Mode) (hc : c = summationSign ∨ c = summationGlyph)
    (hgap : IsBlanks gap) (hne : gap ≠ []) (hname : IsIdentifier name) (hlist : IsNumberList list)
    (hnoise : ∀ word ∈ noiseWords, ¬ word <:+: name) (hkeeps : KeepsBlanks encoding gap) :
    spellings mode (c :: gap ++ (name ++ parenthesized list)) =
        spellings mode (rawCall c name [] list) ∧
      clean encoding (c :: gap ++ (name ++ parenthesized list)) =
        '~' :: gap.map (blankOf encoding) ++ name := by
  refine ⟨?_, clean_gap hc hgap hne hname hlist hnoise hkeeps⟩
  have hoperator : Lexer.isOperator c = true := by
    rcases hc with rfl | rfl <;> decide
  rw [spellings_gap mode hoperator hgap, rawCall, List.append_nil]
  rfl

/-- So does cleaning with the list of `~ C(0-2)`. -/
example : clean .latin1 "~ C(0-2)".toList = "~ C".toList := by
  decide +kernel

end CounterFormula.Clean
