import CounterFormula.Proofs.Reference.Substitution
import CounterFormula.Proofs.Token.Written
import CounterFormula.Run

/-!
# Reference — Mention

Pass 1 works on a text that mentions a reference, and looks for references among the tokens.  The
text is asked for the scheme in any case; a head among the tokens is the symbol as it is spelled,
and the three operators with whatever the lexer leaves out between them.

`Mention source before said`: behind `before`, the scheme stands in `source` in the case of `said`.
`HeadFrom tokens first last`: a head among `tokens` extends from `first` to `last`.

* `mentionedIn_iff`: the text test finds the mentions.
* `headFrom_iff`: a head without a gap between its tokens is a mention in the case of the scheme
  that no character of a word stands before.
* `mem_map_first_occurrences`: the heads are the occurrences, each of which is resolved or reported.
* `inline_heads`: what pass 1 looks at, then, and what it passes over.
-/

namespace CounterFormula

namespace Text

variable {mark text : Text}

theorem mentions_iff : mentions text mark = true ↔ mark <:+: text := by
  rw [mentions]
  constructor
  · intro h
    obtain ⟨⟨before, after⟩, hcut⟩ := Option.isSome_iff_exists.mp h
    exact ⟨before, after, (cut_eq_append hcut).symm⟩
  · intro h
    induction text with
    | nil =>
        rw [cut?, List.infix_nil.mp h]
        rfl
    | cons c rest ih =>
        rw [cut?]
        split
        · rfl
        · rename_i hnot
          have hprefix : ¬ mark <+: c :: rest := fun hprefix =>
            hnot (List.isPrefixOf_iff_prefix.mpr hprefix)
          rw [Option.isSome_map]
          exact ih ((List.infix_cons_iff.mp h).resolve_left hprefix)

end Text

namespace Reference

open Lexer (EndsOutside inWord)

variable {mode : Mode} {source before said : Text} {first last offset : Nat}
  {tokens rest : List Token} {token name colon slash slash' : Token}

/-! ### Mentions -/

/-- Behind `before`, the scheme stands in `source` in the case of `said`. -/
def Mention (source before said : Text) : Prop :=
  before ++ said <+: source ∧ Text.lowerAscii said = Text.lowerAscii scheme

theorem mentionedIn_iff :
    mentionedIn source = true ↔ ∃ before said, Mention source before said := by
  rw [mentionedIn, Text.mentions_iff]
  constructor
  · rintro ⟨before, after, h⟩
    obtain ⟨front, after, rfl, hfront, -⟩ := List.map_eq_append_iff.mp h.symm
    obtain ⟨before, said, rfl, -, hsaid⟩ := List.map_eq_append_iff.mp hfront
    exact ⟨before, said, ⟨after, rfl⟩, hsaid⟩
  · rintro ⟨before, said, ⟨after, rfl⟩, hsaid⟩
    refine ⟨Text.lowerAscii before, Text.lowerAscii after, ?_⟩
    rw [← hsaid, Text.lowerAscii, Text.lowerAscii, Text.lowerAscii, Text.lowerAscii,
      List.map_append, List.map_append]

theorem Mention.length_said (h : Mention source before said) : said.length = scheme.length := by
  have hlength := congrArg List.length h.2
  rwa [Text.lowerAscii, Text.lowerAscii, List.length_map, List.length_map] at hlength

theorem Mention.take_eq (h : Mention source before said) : source.take before.length = before := by
  obtain ⟨⟨after, rfl⟩, -⟩ := h
  rw [List.append_assoc, List.take_left]

/-- A mention is in the case of the scheme where the scheme stands there. -/
theorem Mention.scheme_isPrefix_drop_iff (h : Mention source before said) :
    scheme <+: source.drop before.length ↔ said = scheme := by
  have hlength := h.length_said
  obtain ⟨⟨after, rfl⟩, -⟩ := h
  rw [List.append_assoc, List.drop_left]
  have hsaid : said <+: said ++ after := List.prefix_append said after
  refine ⟨fun hscheme => ?_, fun heq => heq ▸ hsaid⟩
  exact (List.prefix_of_prefix_length_le hsaid hscheme hlength.le).eq_of_length hlength

/-! ### Heads -/

/-- A head among `tokens` extends from offset `first` to offset `last`. -/
def HeadFrom (tokens : List Token) (first last : Nat) : Prop :=
  ∃ name slash path, Headed tokens name slash path ∧ name.first = first ∧ slash.last = last

/-- The heads are where something occurs. -/
theorem mem_map_first_occurrences (tokens : List Token) (first : Nat) :
    first ∈ (occurrences tokens).map (·.span.first) ↔ ∃ last, HeadFrom tokens first last := by
  rw [List.mem_map]
  constructor
  · rintro ⟨occurrence, hmem, rfl⟩
    obtain ⟨name, slash, path, hhead, rfl⟩ := mem_occurrences.mp hmem
    exact ⟨slash.last, name, slash, path, hhead, (first_ofPath name slash path).symm, rfl⟩
  · rintro ⟨_, name, slash, path, hhead, rfl, -⟩
    exact ⟨.ofPath name slash path, mem_occurrences.mpr ⟨name, slash, path, hhead, rfl⟩,
      first_ofPath name slash path⟩

/-- No two occurrences begin at one offset. -/
theorem pairwise_first_occurrences (mode : Mode) (source : Text) :
    ((occurrences (lex mode source).body).map (·.span.first)).Pairwise (· < ·) := by
  have hlaid := laid_span_occurrences (laid_span_body mode source)
  have hspans : (((occurrences (lex mode source).body).map Occurrence.span).map
      Span.first).Pairwise (· < ·) := by
    rw [List.pairwise_map]
    refine hlaid.apart.imp_of_mem fun hspan _ hapart => ?_
    exact Nat.lt_of_le_of_lt (hlaid.first_le_last _ hspan) hapart
  rwa [List.map_map] at hspans

/-! ### Heads in a text -/

/-- An operator stands where it is found. -/
theorem drop_of_isOperator {c : Char} (hmem : token ∈ (lex mode source).body)
    (hc : token.isOperator c = true) (hminus : c ≠ '-') (hsum : c ≠ Lexer.summationSign) :
    source.drop token.first = c :: source.drop (token.first + 1) ∧ token.last = token.first := by
  obtain ⟨run, hrun, hdrop, hlast⟩ := exists_written hmem (Token.kind_ne_error_of_isOperator hc)
  obtain rfl := hrun.eq_of_isOperator hc hminus hsum
  rw [hlast] at hdrop
  exact ⟨hdrop, Nat.succ.inj hlast⟩

/-- The tokens of a head stand one after the other. -/
theorem order_of_head {before after : List Token}
    (h : (lex mode source).body = before ++ name :: colon :: slash :: slash' :: after) :
    name.last < colon.first ∧ colon.last < slash.first ∧ slash.last < slash'.first := by
  have hapart := (laid_span_body mode source).apart
  rw [h, List.map_append, List.pairwise_append] at hapart
  obtain ⟨-, hhead, -⟩ := hapart
  simp only [List.map_cons, List.pairwise_cons, List.mem_cons, forall_eq_or_imp] at hhead
  exact ⟨hhead.1.1, hhead.2.1.1, hhead.2.2.1.1⟩

/-- What stands in a text where it has a head. -/
structure HeadIn (source : Text) (first colon slash last : Nat) : Prop where
  before : EndsOutside inWord (source.take first)
  drop_first : source.drop first = head ++ source.drop (first + 7)
  drop_colon : source.drop colon = ':' :: source.drop (colon + 1)
  drop_slash : source.drop slash = '/' :: source.drop (slash + 1)
  drop_last : source.drop last = '/' :: source.drop (last + 1)
  name_le_colon : first + 7 ≤ colon
  colon_lt_slash : colon < slash
  slash_lt_last : slash < last

theorem HeadFrom.exists_headIn (h : HeadFrom (lex mode source).body first last) :
    ∃ colon slash, HeadIn source first colon slash last := by
  obtain ⟨name, slash', after, ⟨before, colon, slash, hbody, hname, hcolon, hslash, hslash'⟩, rfl,
    rfl⟩ := h
  have hmem {token : Token} (htoken : token ∈ [name, colon, slash, slash']) :
      token ∈ (lex mode source).body := by
    rw [hbody]
    exact List.mem_append_right before (List.mem_append_left after htoken)
  have hnameMem : name ∈ (lex mode source).body := hmem (by simp)
  have hsymbol : name.isSymbol = true := (Bool.and_eq_true_iff.mp hname).1
  have hkind := Token.kind_of_isSymbol hsymbol
  obtain ⟨run, hrun, hatName, hextent⟩ := exists_written hnameMem (by rw [hkind]; exact nofun)
  obtain ⟨rfl, -⟩ := hrun.of_isSymbol hsymbol
  rw [Token.text_of_isNamed hname] at hatName hextent
  have hlength : head.length = 7 := rfl
  obtain ⟨hatColon, hone⟩ :=
    drop_of_isOperator (hmem (by simp) : colon ∈ _) hcolon (by decide) (by decide)
  obtain ⟨hatSlash, hone'⟩ :=
    drop_of_isOperator (hmem (by simp) : slash ∈ _) hslash (by decide) (by decide)
  obtain ⟨hatSlash', hone''⟩ :=
    drop_of_isOperator (hmem (by simp) : slash' ∈ _) hslash' (by decide) (by decide)
  obtain ⟨horder, horder', horder''⟩ := order_of_head hbody
  have hend : name.last + 1 = name.first + 7 := by omega
  exact ⟨colon.first, slash.first,
    { before := (stands_of_mem_body hnameMem (.inl hkind)).before
      drop_first := hend ▸ hatName
      drop_colon := hatColon
      drop_slash := hatSlash
      drop_last := hone'' ▸ hatSlash'
      name_le_colon := by omega
      colon_lt_slash := by omega
      slash_lt_last := by omega }⟩

theorem HeadFrom.add_le (h : HeadFrom (lex mode source).body first last) : first + 9 ≤ last := by
  obtain ⟨colon, slash, hin⟩ := h.exists_headIn
  have hcolon := hin.name_le_colon
  have hslash := hin.colon_lt_slash
  have hlast := hin.slash_lt_last
  omega

theorem body_scheme (mode : Mode) : (lex mode scheme).body =
    [⟨.symbol, head, 0, 6⟩, ⟨.operator, [':'], 7, 7⟩, ⟨.operator, ['/'], 8, 8⟩,
      ⟨.operator, ['/'], 9, 9⟩] := by
  cases mode <;> decide

/-- **A head without a gap** is the scheme behind a boundary. -/
theorem headFrom_iff : HeadFrom (lex mode source).body offset (offset + 9) ↔
    scheme <+: source.drop offset ∧ EndsOutside inWord (source.take offset) := by
  constructor
  · intro h
    obtain ⟨colon, slash, hin⟩ := h.exists_headIn
    -- nothing fits between the tokens
    have hcolon := hin.name_le_colon
    have hslash := hin.colon_lt_slash
    have hlast := hin.slash_lt_last
    obtain rfl : colon = offset + 7 := by omega
    obtain rfl : slash = offset + 8 := by omega
    refine ⟨⟨source.drop (offset + 10), ?_⟩, hin.before⟩
    rw [hin.drop_first, hin.drop_colon, hin.drop_slash, hin.drop_last]
    rfl
  · rintro ⟨⟨rest, hdrop⟩, hbefore⟩
    have hsplit : source.take offset ++ (scheme ++ rest) = source := by
      rw [hdrop, List.take_append_drop]
    have hlength : (source.take offset).length = offset := by
      have hpos := congrArg List.length hdrop
      have hscheme : scheme.length = 10 := rfl
      rw [List.length_append, List.length_drop] at hpos
      rw [List.length_take]
      omega
    have hfront : Lexer.Parted (source.take offset) (scheme ++ rest) := .inl hbefore
    have hscheme : Lexer.Parted scheme rest :=
      .inl fun c hc => Option.some.inj (hc.symm.trans (by decide : _ = some '/')) ▸ by decide
    have hbody := body_append mode hfront
    rw [hsplit, body_append mode hscheme, body_scheme, hlength] at hbody
    rw [hbody]
    exact ⟨_, _, _, ⟨(lex mode (source.take offset)).body, _, _, rfl, rfl, rfl, rfl, rfl⟩, rfl, rfl⟩

/-- A mention is a head, without a gap, just in the case of the scheme and behind a boundary. -/
theorem Mention.headFrom_iff (h : Mention source before said) :
    HeadFrom (lex mode source).body before.length (before.length + 9) ↔
      said = scheme ∧ EndsOutside inWord before := by
  rw [Reference.headFrom_iff, h.scheme_isPrefix_drop_iff, h.take_eq]

/-- A head has a gap, or it is a mention. -/
theorem HeadFrom.gap_or_mention (h : HeadFrom (lex mode source).body first last) :
    first + 9 < last ∨
      last = first + 9 ∧ ∃ before, Mention source before scheme ∧ before.length = first := by
  rcases Nat.lt_or_eq_of_le h.add_le with hgap | rfl
  · exact .inl hgap
  obtain ⟨after, hscheme⟩ := (headFrom_iff.mp h).1
  have hfirst : first ≤ source.length := by
    refine Nat.le_of_not_lt fun hlt => ?_
    rw [List.drop_eq_nil_of_le hlt.le] at hscheme
    cases hscheme
  refine .inr ⟨rfl, source.take first, ⟨⟨after, ?_⟩, rfl⟩, List.length_take_of_le hfirst⟩
  rw [List.append_assoc, hscheme, List.take_append_drop]

/-- A text that mentions no reference has a gap in every head. -/
theorem HeadFrom.add_lt (h : HeadFrom (lex mode source).body first last)
    (hmentioned : mentionedIn source = false) : first + 9 < last := by
  refine h.gap_or_mention.resolve_right ?_
  rintro ⟨-, before, hmention, -⟩
  rw [mentionedIn_iff.mpr ⟨before, scheme, hmention⟩] at hmentioned
  cases hmentioned

/-! ### Pass 1 -/

/-- What `resolver` is called for by a formula, in the order of the calls. -/
theorem calls_substitute {σ : Type} (resolver : Resolver σ) (source : Text) (tokens : List Token)
    (state : σ) :
    substitute resolver.recorded source tokens (state, []) =
      ((substitute resolver source tokens state).1, (substitute resolver source tokens state).2,
        (occurrences tokens).reverse.map Occurrence.call) := by
  rw [substitute_eq_spliceAll, answers_recorded, List.nil_append, substitute_eq_spliceAll]

/-- **The text test and the scan.**  The test finds the scheme in any case, anywhere in the text;
the scan finds the tokens of a head, in the case of the scheme, and whatever the lexer leaves out
between them.  At a mention there is a head without a gap just if it is in the case of the scheme
and no character of a word stands before, and every head without a gap is at such a mention.

If the test fails, then, pass 1 passes over no head but those with a gap.  If it succeeds, every
head in the text is resolved or reported, once: the resolver is called for the occurrences, which
begin where the heads do, each at an offset of its own. -/
theorem inline_heads (config : Config) (resolver : Resolver Log) (source : Text)
    (faults : List Fault) :
    let stage := Stage.reach config.mode 0 source faults
    let recorded := substitute resolver.recorded source stage.tokens (.empty, [])
    let starts := (occurrences stage.tokens).map (·.span.first)
    (mentionedIn source = true ↔ ∃ before said, Mention source before said) ∧
      (∀ before said, Mention source before said →
        (HeadFrom stage.tokens before.length (before.length + 9) ↔
          said = scheme ∧ EndsOutside inWord before)) ∧
      (∀ first last, HeadFrom stage.tokens first last → first + 9 < last ∨
        last = first + 9 ∧ ∃ before, Mention source before scheme ∧ before.length = first) ∧
      (mentionedIn source = false → stage.inline config resolver = stage.unchanged ∧
        ∀ first last, HeadFrom stage.tokens first last → first + 9 < last) ∧
      (mentionedIn source = true →
        stage.inline config resolver = .reachInlined config recorded.1 recorded.2.1 ∧
          recorded.2.2 = (occurrences stage.tokens).reverse.map Occurrence.call) ∧
      (∀ first, first ∈ starts ↔ ∃ last, HeadFrom stage.tokens first last) ∧
      starts.Pairwise (· < ·) := by
  intro stage recorded starts
  have hrecorded : recorded = _ := calls_substitute resolver source stage.tokens .empty
  rw [hrecorded]
  refine ⟨mentionedIn_iff, fun before said hmention => hmention.headFrom_iff,
    fun first last hhead => HeadFrom.gap_or_mention hhead, fun hmentioned => ?_,
    fun hmentioned => ?_, mem_map_first_occurrences stage.tokens,
    pairwise_first_occurrences config.mode source⟩
  · have hskip : stage.inline config resolver = stage.unchanged :=
      if_neg (ne_true_of_eq_false hmentioned)
    exact ⟨hskip, fun first last hhead => HeadFrom.add_lt hhead hmentioned⟩
  · exact ⟨if_pos hmentioned, rfl⟩

/-- The test fails where the only head has a gap; it succeeds for a head that is resolved, where a
mention in lower case is none and a head with a gap is reported. -/
theorem inline_heads_of_spaced :
    let resolver : Resolver Log := ⟨fun _ log => (['x'], log), Log.report⟩
    let spaced := Stage.reach .strict 0 "(Formula : //EnbCounterMethod/K)".toList []
    let mixed :=
      Stage.reach .strict 0 "(Formula://EnbCounterMethod/K)*(formula://A)+Formula ://B".toList []
    let inlined := "(x)*(formula://A)+Formula ://B".toList
    (mentionedIn spaced.source = false ∧ HeadFrom spaced.tokens 1 12 ∧
        spaced.inline .default resolver = spaced.unchanged ∧ 1 + 9 < 12) ∧
      (Mention mixed.source ['('] scheme ∧ HeadFrom mixed.tokens 1 10) ∧
      (Mention mixed.source "(Formula://EnbCounterMethod/K)*(".toList "formula://".toList ∧
        ¬ HeadFrom mixed.tokens 32 41) ∧
      mentionedIn mixed.source = true ∧
        mixed.inline .default resolver =
          .reachInlined .default inlined (Log.empty.report (.unknownKind ['B'])) ∧
        (occurrences mixed.tokens).reverse.map Occurrence.call =
          [.report (.unknownKind ['B']), .resolve ⟨['K'], none⟩] := by
  intro resolver spaced mixed inlined
  have hspaced := inline_heads .default resolver spaced.source []
  have hmixed := inline_heads .default resolver mixed.source []
  have hfails : mentionedIn spaced.source = false := by decide +kernel
  have hsucceeds : mentionedIn mixed.source = true := by decide +kernel
  have hupper : Mention mixed.source ['('] scheme := ⟨by decide +kernel, rfl⟩
  have hlower : Mention mixed.source "(Formula://EnbCounterMethod/K)*(".toList
      "formula://".toList := ⟨by decide +kernel, by decide +kernel⟩
  have hspacedTokens : spaced.tokens = (spaced.tokens.take 1) ++
      ⟨.symbol, head, 1, 7⟩ :: ⟨.operator, [':'], 9, 9⟩ :: ⟨.operator, ['/'], 11, 11⟩ ::
        ⟨.operator, ['/'], 12, 12⟩ :: spaced.tokens.drop 5 := by decide +kernel
  have hhead : HeadFrom spaced.tokens 1 12 :=
    ⟨_, _, _, ⟨_, _, _, hspacedTokens, rfl, rfl, rfl, rfl⟩, rfl, rfl⟩
  have hanswer : substitute resolver.recorded mixed.source mixed.tokens (.empty, []) =
      (inlined, Log.empty.report (.unknownKind ['B']),
        [.report (.unknownKind ['B']), .resolve ⟨['K'], none⟩]) := by decide +kernel
  obtain ⟨-, -, -, hskip, -⟩ := hspaced
  obtain ⟨-, hmention, -, -, hpass, -⟩ := hmixed
  obtain ⟨hunchanged, hgap⟩ := hskip hfails
  obtain ⟨hinline, hcalls⟩ := hpass hsucceeds
  refine ⟨⟨hfails, hhead, hunchanged, hgap 1 12 hhead⟩, ⟨hupper, ?_⟩, ⟨hlower, ?_⟩, hsucceeds,
    ?_, ?_⟩
  · have hboundary : EndsOutside inWord ([] ++ ['(']) :=
      Lexer.endsOutside_concat.mpr (by decide)
    exact (hmention _ _ hupper).mpr ⟨rfl, hboundary⟩
  · exact fun h => absurd ((hmention _ _ hlower).mp h).1 (by decide +kernel)
  · exact hinline.trans (congrArg₂ (Stage.reachInlined .default) (congrArg Prod.fst hanswer)
      (congrArg (fun answer => answer.2.1) hanswer))
  · exact hcalls.symm.trans (congrArg (fun answer => answer.2.2) hanswer)

/-- With a blank behind the symbol there is a head, a well-formed reference even, that the test
does not see and pass 1 passes over; in lower case there is a mention that is no head. -/
theorem mentionedIn_ne_heads :
    let spaced := "(Formula : //EnbCounterMethod/K)".toList
    let lower := "(formula://EnbCounterMethod/K)".toList
    (mentionedIn spaced = false ∧ (∃ last, HeadFrom (lex .strict spaced).body 1 last) ∧
        sites (lex .strict spaced).body = [(⟨['K'], none⟩, ⟨1, 30⟩)]) ∧
      mentionedIn lower = true ∧ ¬ ∃ first last, HeadFrom (lex .strict lower).body first last := by
  intro spaced lower
  refine ⟨⟨by decide +kernel, ?_, by decide +kernel⟩, by decide +kernel, ?_⟩
  · exact (mem_map_first_occurrences _ 1).mp (by decide +kernel)
  · rintro ⟨first, hhead⟩
    have hnone : occurrences (lex .strict lower).body = [] := by decide +kernel
    have hfirst := (mem_map_first_occurrences _ first).mpr hhead
    rw [hnone] at hfirst
    exact List.not_mem_nil hfirst

end Reference

end CounterFormula
