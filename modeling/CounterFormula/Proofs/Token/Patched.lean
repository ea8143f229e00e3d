import CounterFormula.Proofs.Token.Parts

/-!
# Token — Patched

What a text reads as when stretches of it are replaced.  A stretch is *framed* when it begins with a
run behind a boundary, and a boundary or the end of the text follows it.  Then whatever is put in
for it reads as it does on its own, and the tokens around it stay as they are.

* `spellings_patch`: the tokens of a patched text, from those of the text as it was.
-/

namespace CounterFormula

/-- `span` begins with a run behind a boundary, and a boundary or the end of `source` follows it. -/
structure Framed (source : Text) (span : Span) : Prop where
  before : Lexer.EndsOutside Lexer.inWord (source.take span.first)
  begins : ∃ c kind, source[span.first]? = some c ∧ Lexer.Begins c kind
  behind : Lexer.Stops Lexer.inWord (source.drop (span.last + 1))

/-- What `token` gives way to when `patches` are made.  The first token of a stretch gives way to
the tokens of the text that is put in, the others to nothing; a token outside of them stays. -/
def replacement (mode : Mode) : List (Span × Text) → Token → List (TokenClass × Text)
  | [], token => [token.spelling]
  | (span, new) :: rest, token =>
    if token.first < span.first ∨ span.last < token.first then replacement mode rest token
    else if token.first = span.first then spellings mode new
    else []

variable {mode : Mode} {source new front : Text} {span : Span}
  {patches rest : List (Span × Text)} {token : Token} {tokens : List Token} {start : Nat}

/-! ### Single tokens -/

theorem replacement_of_lt (h : ∀ patch ∈ patches, token.first < patch.1.first) :
    replacement mode patches token = [token.spelling] := by
  induction patches with
  | nil => rfl
  | cons patch rest ih =>
      obtain ⟨hpatch, hrest⟩ := List.forall_mem_cons.mp h
      rw [replacement, if_pos (.inl hpatch), ih hrest]

theorem flatMap_replacement_of_lt
    (h : ∀ token ∈ tokens, ∀ patch ∈ patches, token.first < patch.1.first) :
    tokens.flatMap (replacement mode patches) = tokens.map Token.spelling := by
  rw [List.map_eq_flatMap]
  exact List.flatMap_congr fun token htoken => replacement_of_lt (h token htoken)

theorem replacement_cons_of_lt (h : span.last < token.first) :
    replacement mode ((span, new) :: rest) token = replacement mode rest token := by
  rw [replacement, if_pos (.inr h)]

theorem replacement_cons_of_le (hfirst : span.first ≤ token.first)
    (hlast : token.first ≤ span.last) :
    replacement mode ((span, new) :: rest) token =
      if token.first = span.first then spellings mode new else [] := by
  rw [replacement, if_neg (by omega)]

/-! ### Stretches -/

namespace Lexer

/-- A text that begins with a run begins with its token. -/
theorem exists_body_of_begins {c : Char} {kind : TokenClass} (mode : Mode) (hc : Begins c kind)
    (more : Text) : ∃ token tokens, (lex mode (c :: more)).body = token :: tokens ∧
      token.first = 0 := by
  have hsplit : c :: more = c :: more.takeWhile (carriesOn kind) ++
      more.dropWhile (carriesOn kind) := by
    rw [List.cons_append, List.takeWhile_append_dropWhile]
  have hmore : ∀ d ∈ more.takeWhile (carriesOn kind), carriesOn kind d = true :=
    fun d hd => List.mem_takeWhile_imp hd
  have hread := readingFrom_run mode (c :: more) 0 hc hmore (stops_dropWhile (carriesOn kind) more)
  rw [← hsplit] at hread
  exact ⟨_, _, congrArg Reading.tokens hread, first_runToken _ _ _⟩

theorem Stops.append {p : Char → Bool} (h : Stops p front) (hne : front ≠ []) (back : Text) :
    Stops p (front ++ back) := by
  cases front with
  | nil => exact absurd rfl hne
  | cons c more => exact stops_cons.mpr (stops_cons.mp h)

theorem EndsOutside.drop {p : Char → Bool} (h : EndsOutside p front) (count : Nat) :
    EndsOutside p (front.drop count) := by
  intro c hc
  rw [List.getLast?_drop] at hc
  split at hc
  · cases hc
  · exact h c hc

end Lexer

/-- A stretch that begins with a run gives way to what is put in. -/
theorem flatMap_replacement_stretch {c : Char} {kind : TokenClass} {more : Text}
    (hc : Lexer.Begins c kind) (hlength : span.first + (c :: more).length = span.last + 1) :
    ((lex mode (c :: more)).body.map (Token.shift span.first)).flatMap
      (replacement mode ((span, new) :: rest)) = spellings mode new := by
  have hlies : ∀ found ∈ (lex mode (c :: more)).body.map (Token.shift span.first),
      span.first ≤ found.first ∧ found.first ≤ span.last := by
    intro found hfound
    obtain ⟨hstart, hstop⟩ := first_of_mem_shift hfound
    exact ⟨hstart, by omega⟩
  have hlaid := laid_span_body mode (c :: more)
  obtain ⟨token, tokens, hbody, hzero⟩ := Lexer.exists_body_of_begins mode hc more
  rw [hbody, List.map_cons] at hlies hlaid
  obtain ⟨⟨hfirst, hlast⟩, hothers⟩ := List.forall_mem_cons.mp hlies
  have hnone : (tokens.map (Token.shift span.first)).flatMap
      (replacement mode ((span, new) :: rest)) = [] := by
    refine List.flatMap_eq_nil_iff.mpr fun found hfound => ?_
    obtain ⟨hfirst, hlast⟩ := hothers found hfound
    rw [replacement_cons_of_le hfirst hlast, if_neg]
    -- only the first token stands where the stretch begins
    obtain ⟨token', htoken', rfl⟩ := List.mem_map.mp hfound
    have hbehind : token.last < token'.first :=
      hlaid.tail.start_le _ (List.mem_map_of_mem htoken')
    intro heq
    have : span.first + token'.first = span.first := heq
    omega
  have hhead : (Token.shift span.first token).first = span.first := by
    rw [Token.shift, hzero, Nat.add_zero]
  rw [hbody, List.map_cons, List.flatMap_cons, hnone, replacement_cons_of_le hfirst hlast,
    if_pos hhead, List.append_nil]

/-! ### Patches -/

/-- What follows a framed stretch begins with no word, whatever is put in further on. -/
theorem stops_patchFrom (hstart : Lexer.Stops Lexer.inWord (source.drop start))
    (hlaid : Span.Laid start source.length (patches.map Prod.fst))
    (hframed : ∀ patch ∈ patches, Framed source patch.1) :
    Lexer.Stops Lexer.inWord (Text.patchFrom source start patches) := by
  cases patches with
  | nil => exact hstart
  | cons patch rest =>
      obtain ⟨span, new⟩ := patch
      have hle : start ≤ span.first := hlaid.start_le span List.mem_cons_self
      obtain ⟨c, kind, hc, hbegins⟩ : ∃ c kind, source[span.first]? = some c ∧
        Lexer.Begins c kind := (hframed _ List.mem_cons_self).begins
      -- the next stretch begins with a word, so it begins further on
      have hlt : start < span.first := by
        refine Nat.lt_of_le_of_ne hle fun heq => ?_
        subst heq
        have hword := hstart c (by rw [List.head?_drop]; exact hc)
        rw [Lexer.inWord_of_begins hbegins] at hword
        cases hword
      obtain ⟨hlength, -⟩ := List.getElem?_eq_some_iff.mp hc
      rw [Text.patchFrom, List.append_assoc]
      refine (hstart.take _).append ?_ _
      rw [← List.length_pos_iff, List.length_take, List.length_drop]
      show 0 < min (span.first - start) (source.length - start)
      omega

/-- A framed stretch, what stands before it from `start` on, and what follows it. -/
theorem Framed.exists_split (h : Framed source span) (hstart : start ≤ span.first)
    (hlast : span.first ≤ span.last) (hlength : span.last < source.length) :
    ∃ front c kind more, source.drop start = front ++ (c :: more ++ source.drop (span.last + 1)) ∧
      (source.drop start).take (span.first - start) = front ∧
      Lexer.EndsOutside Lexer.inWord front ∧ Lexer.Begins c kind ∧
      start + front.length = span.first ∧ span.first + (c :: more).length = span.last + 1 := by
  obtain ⟨c, kind, hc, hbegins⟩ := h.begins
  obtain ⟨hfirst, rfl⟩ := List.getElem?_eq_some_iff.mp hc
  have hdrop := List.drop_eq_getElem_cons hfirst
  refine ⟨(source.drop start).take (span.first - start), _, kind,
    (source.drop (span.first + 1)).take (span.last - span.first), ?_, rfl, ?_, hbegins, ?_, ?_⟩
  · have hbehind : source.drop (span.last + 1) =
        (source.drop (span.first + 1)).drop (span.last - span.first) := by
      rw [List.drop_drop]
      congr 1
      omega
    rw [hbehind, List.cons_append, List.take_append_drop, ← hdrop]
    have hfirst' : source.drop span.first = (source.drop start).drop (span.first - start) := by
      rw [List.drop_drop, Nat.add_sub_cancel' hstart]
    rw [hfirst', List.take_append_drop]
  · rw [← List.drop_take]
    exact h.before.drop start
  · rw [List.length_take, List.length_drop]
    omega
  · rw [List.length_cons, List.length_take, List.length_drop]
    omega

/-- The tokens from `start` on, and what they give way to. -/
theorem spellings_patchFrom (hlaid : Span.Laid start source.length (patches.map Prod.fst))
    (hframed : ∀ patch ∈ patches, Framed source patch.1) :
    spellings mode (Text.patchFrom source start patches) =
      ((lex mode (source.drop start)).body.map (Token.shift start)).flatMap
        (replacement mode patches) := by
  induction patches generalizing start with
  | nil =>
      rw [flatMap_replacement_of_lt fun _ _ => List.forall_mem_nil _, map_spelling_shift]
      rfl
  | cons patch rest ih =>
      obtain ⟨span, new⟩ := patch
      obtain ⟨hspan, hrest⟩ : Framed source span ∧ ∀ patch ∈ rest, Framed source patch.1 :=
        List.forall_mem_cons.mp hframed
      have hlaid' : Span.Laid (span.last + 1) source.length (rest.map Prod.fst) := hlaid.tail
      obtain ⟨front, c, kind, more, hsplit, htake, hfront, hc, hfirst, hlast⟩ :=
        Framed.exists_split hspan (hlaid.start_le span List.mem_cons_self)
          (hlaid.first_le_last span List.mem_cons_self) (hlaid.lt_stop span List.mem_cons_self)
      have hback := stops_patchFrom hspan.behind hlaid' hrest
      -- the tokens before the stretch, in it, and behind it
      have hbefore : ((lex mode front).body.map (Token.shift start)).flatMap
          (replacement mode ((span, new) :: rest)) = spellings mode front := by
        rw [flatMap_replacement_of_lt, map_spelling_shift]
        · rfl
        · intro token htoken patch hpatch
          obtain ⟨-, hlt⟩ := first_of_mem_shift htoken
          rw [hfirst] at hlt
          rcases List.mem_cons.mp hpatch with rfl | hpatch
          · exact hlt
          · have hbehind := hlaid'.start_le _ (List.mem_map_of_mem hpatch)
            have hspan' := hlaid.first_le_last span List.mem_cons_self
            omega
      have hwithin : ((lex mode (c :: more)).body.map (Token.shift span.first)).flatMap
          (replacement mode ((span, new) :: rest)) = spellings mode new :=
        flatMap_replacement_stretch hc hlast
      have hbehind : ((lex mode (source.drop (span.last + 1))).body.map
            (Token.shift (span.last + 1))).flatMap (replacement mode ((span, new) :: rest)) =
          spellings mode (Text.patchFrom source (span.last + 1) rest) := by
        rw [ih hlaid' hrest]
        exact List.flatMap_congr fun token htoken =>
          replacement_cons_of_lt (first_of_mem_shift htoken).1
      rw [Text.patchFrom, htake, List.append_assoc, spelling_append mode (.inl hfront),
        spelling_append mode (.inr hback), hsplit, body_append mode (.inl hfront),
        body_append mode (.inr hspan.behind), List.map_append, List.map_append, List.map_append,
        Token.shift_shift, Token.shift_shift, Token.shift_shift, hfirst, hlast,
        List.flatMap_append, List.flatMap_append, hbefore, hwithin, hbehind]

/-- **The tokens of a patched text.**  When every stretch is framed, the text that is put in for it
reads as it does on its own, and the tokens outside stay as they are. -/
theorem spellings_patch (mode : Mode)
    (hlaid : Span.Laid 0 source.length (patches.map Prod.fst))
    (hframed : ∀ patch ∈ patches, Framed source patch.1) :
    spellings mode (source.patch patches) =
      (lex mode source).body.flatMap (replacement mode patches) := by
  have h : spellings mode (Text.patchFrom source 0 patches) = _ :=
    spellings_patchFrom hlaid hframed
  rwa [Token.shift_zero, List.map_id] at h

end CounterFormula
