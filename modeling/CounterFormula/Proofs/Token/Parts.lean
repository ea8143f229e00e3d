import CounterFormula.Proofs.Index
import CounterFormula.Proofs.Token.Surroundings
import Mathlib.Data.List.DropRight

/-!
# Token — Parts

A text read in parts.  Where one part ends with a boundary, or the next begins with one, no word
goes on from part to part (`Parted`), and the tokens are those of the parts, moved to where they
stand. Conversely the stretch of a text that some of its tokens extend over reads as just these
tokens.

* `body_append`: the tokens of a text in two parts.
* `spelling_append`: their classes and texts.
* `body_slice`: the tokens of the stretch from one token to another.
-/

namespace CounterFormula

/-- `token`, found `offset` characters further on. -/
def Token.shift (offset : Nat) (token : Token) : Token :=
  { token with first := offset + token.first, last := offset + token.last }

theorem Token.shift_zero : Token.shift 0 = id := by
  funext token
  simp [Token.shift]

theorem Token.shift_shift (offset offset' : Nat) (tokens : List Token) :
    (tokens.map (Token.shift offset')).map (Token.shift offset) =
      tokens.map (Token.shift (offset + offset')) := by
  rw [List.map_map]
  exact List.map_congr_left fun token _ => by simp [Token.shift, Nat.add_assoc]

/-- The class and the text of each token of `text`. -/
def spellings (mode : Mode) (text : Text) : List (TokenClass × Text) :=
  (lex mode text).body.map Token.spelling

theorem map_spelling_shift (offset : Nat) (tokens : List Token) :
    (tokens.map (Token.shift offset)).map Token.spelling = tokens.map Token.spelling := by
  rw [List.map_map]
  rfl

namespace Lexer

variable {place : Place} {front back source text : Text} {start : Nat} {c : Char}
  {token last : Token} {tokens rest : List Token}

/-! ### Parts -/

/-- No word goes on from `front` to `back`. -/
def Parted (front back : Text) : Prop :=
  EndsOutside inWord front ∨ Stops inWord back

theorem Parted.tail (h : Parted (c :: front) back) : Parted front back := by
  refine h.imp_left fun hfront d hd => hfront d ?_
  rw [List.getLast?_cons, hd]
  rfl

theorem pieces_cons_of_inWord (hc : inWord c = true) (text : Text) :
    pieces (c :: text) =
      match pieces text with
      | .word word :: more => .word (c :: word) :: more
      | more => .word [c] :: more := by
  have hblank : ¬ Text.isBlank c = true := Bool.eq_false_iff.mp (isBlank_of_inWord hc)
  have hsign : ¬ isOperator c = true := Bool.eq_false_iff.mp (isOperator_of_inWord hc)
  rw [pieces]
  exact (if_neg hblank).trans (if_neg hsign)

theorem pieces_append (h : Parted front back) :
    pieces (front ++ back) = pieces front ++ pieces back := by
  induction front with
  | nil => rfl
  | cons c front ih =>
      have ih := ih h.tail
      rw [List.cons_append]
      by_cases hblank : Text.isBlank c = true
      · rw [pieces_blank hblank, pieces_blank hblank, ih, List.cons_append]
      by_cases hsign : isOperator c = true
      · rw [pieces_sign hsign, pieces_sign hsign, ih, List.cons_append]
      have hc : inWord c = true := by simp [inWord, hblank, hsign]
      rw [pieces_cons_of_inWord hc, pieces_cons_of_inWord hc, ih]
      cases front with
      | nil =>
          -- a word that is not ended by its own part is ended by the next one
          have hback : Stops inWord back := by
            refine h.resolve_left fun hfront => ?_
            rw [hfront c rfl] at hc
            cases hc
          cases hpieces : pieces back with
          | nil => rfl
          | cons piece more =>
              cases piece with
              | word word => exact absurd hpieces (pieces_ne_word hback word more)
              | gap d => rfl
              | sign d => rfl
      | cons d front =>
          cases hpieces : pieces (d :: front) with
          | nil =>
              have hlost := flatMap_text_pieces (d :: front)
              rw [hpieces] at hlost
              cases hlost
          | cons piece more => cases piece <;> rfl

theorem readPieces_append (mode : Mode) (source : Text) (start : Nat) (before after : List Piece) :
    readPieces mode source start (before ++ after) =
      (readPieces mode source start before).append
        (readPieces mode source (start + (before.flatMap Piece.text).length) after) := by
  induction before generalizing start with
  | nil => rfl
  | cons piece before ih =>
      rw [List.cons_append, readPieces, readPieces, ih, Reading.append_assoc, List.flatMap_cons,
        List.length_append, Nat.add_assoc]

/-! ### Offsets -/

theorem ofRun_shift {run : Text} (h : run ≠ []) (kind : TokenClass) (offset start : Nat) :
    Token.ofRun kind (offset + start) run = (Token.ofRun kind start run).shift offset := by
  have hpos : 0 < run.length := List.length_pos_iff.mpr h
  have hlast : offset + start + run.length - 1 = offset + (start + run.length - 1) := by omega
  rw [Token.ofRun, hlast]
  rfl

theorem runToken_shift {run : Text} (h : run ≠ []) (kind : TokenClass) (offset start : Nat) :
    runToken kind (offset + start) run = (runToken kind start run).shift offset := by
  rw [runToken, runToken, ofRun_shift h]
  split <;> rfl

theorem tokens_readRest_shift (mode : Mode) (source source' : Text) (offset start : Nat)
    (rest : Text) :
    (readRest mode source (offset + start) rest).tokens =
      (readRest mode source' start rest).tokens.map (Token.shift offset) := by
  cases rest with
  | nil => cases mode <;> rfl
  | cons c more =>
      cases mode with
      | relaxed => rfl
      | strict => rw [readRest, readRest, ofRun_shift (List.cons_ne_nil c more)]; rfl

theorem tokens_readPiece_shift (mode : Mode) (source source' : Text) (offset start : Nat)
    (piece : Piece) :
    (readPiece mode source (offset + start) piece).tokens =
      (readPiece mode source' start piece).tokens.map (Token.shift offset) := by
  cases piece with
  | gap c => rfl
  | sign c => rw [readPiece, readPiece, operatorToken, ofRun_shift (List.cons_ne_nil _ [])]; rfl
  | word text =>
      cases text with
      | nil => rfl
      | cons c more =>
          rw [readPiece, readPiece, readWord, readWord]
          cases runOf? c with
          | none => exact tokens_readRest_shift mode source source' offset start (c :: more)
          | some found =>
              simp only [Reading.append, List.map_append, List.map_cons, List.map_nil,
                runToken_shift (List.cons_ne_nil c _), Nat.add_assoc,
                tokens_readRest_shift mode source source']

/-- Where a text stands only moves its tokens. -/
theorem tokens_readPieces_shift (mode : Mode) (source source' : Text) (offset start : Nat)
    (pieces : List Piece) :
    (readPieces mode source (offset + start) pieces).tokens =
      (readPieces mode source' start pieces).tokens.map (Token.shift offset) := by
  induction pieces generalizing start with
  | nil => rfl
  | cons piece more ih =>
      simp only [readPieces, Reading.append, List.map_append, Nat.add_assoc, ih,
        tokens_readPiece_shift mode source source']

/-! ### Stretches -/

theorem Stops.take {p : Char → Bool} (h : Stops p text) (count : Nat) :
    Stops p (text.take count) := by
  intro c hc
  cases count with
  | zero => cases hc
  | succ count => exact h c (by rwa [List.head?_take, if_neg (Nat.succ_ne_zero count)] at hc)

/-- The blanks before a token are passed over; a boundary stays one. -/
theorem Scans.skip (h : Scans place start text (token :: rest)) (htext : source.drop start = text) :
    ∃ place', (place' = place ∨ place' = .boundary) ∧
      Scans place' token.first (source.drop token.first) (token :: rest) := by
  generalize hall : token :: rest = all at h
  induction h with
  | done => cases hall
  | blank _ _ ih =>
      obtain ⟨place', hplace, hread⟩ :=
        ih (Text.drop_of_drop_eq (show source.drop _ = [_] ++ _ from htext)) hall
      exact ⟨place', .inr (or_self_iff.mp hplace), hread⟩
  | @sign place start c more _ hc h _ =>
      obtain ⟨rfl, rfl⟩ := List.cons.inj hall
      have hfirst : (operatorToken start c).first = start := rfl
      rw [hfirst, htext]
      exact ⟨place, .inl rfl, .sign hc h⟩
  | run hc hmore hlongest h _ =>
      obtain ⟨rfl, rfl⟩ := List.cons.inj hall
      rw [first_runToken, htext]
      exact ⟨.boundary, .inl rfl, .run hc hmore hlongest h⟩
  | @error place start c more _ _ hc hbad hlongest h _ =>
      obtain ⟨rfl, rfl⟩ := List.cons.inj hall
      have hfirst : (Token.ofRun .error start (c :: more)).first = start := rfl
      rw [hfirst, htext]
      exact ⟨place, .inl rfl, .error hc hbad hlongest h⟩

theorem Scans.skip_boundary (h : Scans .boundary start text (token :: rest))
    (htext : source.drop start = text) :
    Scans .boundary token.first (source.drop token.first) (token :: rest) := by
  obtain ⟨place, hplace, hread⟩ := h.skip htext
  rwa [or_self_iff.mp hplace] at hread

/-- Behind an operator that is not written with a word stands a boundary. -/
theorem Scans.boundary_behind {sign : Char} (h : Scans place start text (token :: tokens))
    (htext : source.drop start = text) (hsign : token.isOperator sign = true)
    (hminus : sign ≠ '-') :
    Scans .boundary (token.last + 1) (source.drop (token.last + 1)) tokens := by
  generalize hall : token :: tokens = all at h
  induction h with
  | done => cases hall
  | blank _ _ ih =>
      exact ih (Text.drop_of_drop_eq (show source.drop _ = [_] ++ _ from htext)) hall
  | @sign _ start c rest _ _ h _ =>
      obtain ⟨rfl, rfl⟩ := List.cons.inj hall
      have hrest : source.drop start = [c] ++ rest := htext
      rw [← Text.drop_of_drop_eq hrest] at h
      exact h
  | run hc _ _ _ _ =>
      obtain ⟨rfl, rfl⟩ := List.cons.inj hall
      rw [not_isOperator_runToken hc hminus] at hsign
      cases hsign
  | error =>
      obtain ⟨rfl, rfl⟩ := List.cons.inj hall
      cases hsign

/-- The last tokens of a reading are read from some place on. -/
theorem Scans.exists_of_append {before : List Token} (h : Scans place start text (before ++ tokens))
    (htext : source.drop start = text) :
    ∃ place' start', Scans place' start' (source.drop start') tokens := by
  rcases List.eq_nil_or_concat' before with rfl | ⟨before, token, rfl⟩
  · exact ⟨place, start, htext ▸ h⟩
  · rw [List.append_assoc, List.singleton_append] at h
    obtain ⟨-, place', hbehind⟩ := h.behind htext
    exact ⟨place', token.last + 1, hbehind⟩

theorem take_append_of_le {run rest : Text} {start stop : Nat} (h : start + run.length ≤ stop) :
    (run ++ rest).take (stop - start) = run ++ rest.take (stop - (start + run.length)) := by
  rw [List.take_append, List.take_of_length_le (by omega), Nat.sub_sub]

theorem take_cons_of_le {rest : Text} {start stop : Nat} (h : start + 1 ≤ stop) :
    (c :: rest).take (stop - start) = c :: rest.take (stop - (start + 1)) := by
  have hrun : start + [c].length ≤ stop := h
  exact take_append_of_le hrun

theorem Scans.take_self (place : Place) (start : Nat) (text : Text) :
    Scans place start (text.take (start - start)) [] := by
  rw [Nat.sub_self, List.take_zero]
  exact .done

/-- **Up to the end of a token** a text reads as the tokens up to there. -/
theorem Scans.take (h : Scans place start text (tokens ++ last :: rest))
    (htext : source.drop start = text) :
    Scans place start (text.take (last.last + 1 - start)) (tokens ++ [last]) := by
  generalize hall : tokens ++ last :: rest = all at h
  induction h generalizing tokens with
  | done => simp at hall
  | @blank place start c more all hc h ih =>
      subst hall
      have hmore : source.drop (start + 1) = more := drop_succ_of_drop htext
      rw [take_cons_of_le (Nat.le_succ_of_le (h.behind hmore).1)]
      exact .blank hc (ih hmore rfl)
  | @sign place start c more all hc h ih =>
      have hmore : source.drop (start + 1) = more := drop_succ_of_drop htext
      cases tokens with
      | nil =>
          obtain ⟨rfl, -⟩ := List.cons.inj hall
          have hlast : (operatorToken start c).last + 1 = start + 1 := rfl
          rw [hlast, take_cons_of_le (Nat.le_refl _)]
          exact .sign hc (.take_self _ _ _)
      | cons token tokens =>
          obtain ⟨rfl, rfl⟩ := List.cons.inj hall
          rw [take_cons_of_le (Nat.le_succ_of_le (h.behind hmore).1)]
          exact .sign hc (ih hmore rfl)
  | @run start c kind more behind all hc hmore hlongest h ih =>
      have hbehind := Text.drop_of_drop_eq htext
      cases tokens with
      | nil =>
          obtain ⟨rfl, -⟩ := List.cons.inj hall
          have hlast : (runToken kind start (c :: more)).last + 1 = start + (c :: more).length := by
            rw [last_runToken]
            rfl
          rw [hlast, take_append_of_le (Nat.le_refl _)]
          exact .run hc hmore (hlongest.take _) (.take_self _ _ _)
      | cons token tokens =>
          obtain ⟨rfl, rfl⟩ := List.cons.inj hall
          rw [take_append_of_le (Nat.le_succ_of_le (h.behind hbehind).1)]
          exact .run hc hmore (hlongest.take _) (ih hbehind rfl)
  | @error place start c more behind all hc hbad hlongest h ih =>
      have hbehind := Text.drop_of_drop_eq htext
      cases tokens with
      | nil =>
          obtain ⟨rfl, -⟩ := List.cons.inj hall
          have hlast : (Token.ofRun .error start (c :: more)).last + 1 =
              start + (c :: more).length := rfl
          rw [hlast, take_append_of_le (Nat.le_refl _)]
          exact .error hc hbad (hlongest.take _) (.take_self _ _ _)
      | cons token tokens =>
          obtain ⟨rfl, rfl⟩ := List.cons.inj hall
          rw [take_append_of_le (Nat.le_succ_of_le (h.behind hbehind).1)]
          exact .error hc hbad (hlongest.take _) (ih hbehind rfl)

/-- **From a token at a boundary to another** a text reads as the tokens from the one to the
other. -/
theorem Scans.body_slice {first : Token}
    (h : Scans .boundary first.first (source.drop first.first) (tokens ++ rest))
    (hlast : tokens.getLast? = some last) :
    (lex .strict (Text.slice source first.first last.last)).body.map (Token.shift first.first) =
      tokens := by
  obtain ⟨front, rfl⟩ := List.getLast?_eq_some_iff.mp hlast
  rw [List.append_assoc, List.singleton_append] at h
  have hstretch := h.take rfl
  rw [← tokens_readingFrom source hstretch]
  exact (tokens_readPieces_shift .strict source _ first.first 0 _).symm

end Lexer

open Lexer (Parted)

variable {mode : Mode} {front back source text : Text} {start : Nat}

/-- **The tokens of a text in two parts** are those of the parts. -/
theorem body_append (mode : Mode) (h : Parted front back) :
    (lex mode (front ++ back)).body =
      (lex mode front).body ++ (lex mode back).body.map (Token.shift front.length) := by
  have hfront := Lexer.tokens_readPieces_shift mode (front ++ back) front 0 0 (Lexer.pieces front)
  have hback := Lexer.tokens_readPieces_shift mode (front ++ back) back front.length 0
    (Lexer.pieces back)
  rw [Token.shift_zero, List.map_id] at hfront
  simp only [lex, Lexer.pieces_append h, Lexer.readPieces_append, Lexer.Reading.append,
    Lexer.flatMap_text_pieces, Nat.zero_add]
  exact congrArg₂ (· ++ ·) hfront hback

theorem spelling_append (mode : Mode) (h : Parted front back) :
    spellings mode (front ++ back) = spellings mode front ++ spellings mode back := by
  rw [spellings, body_append mode h, List.map_append, map_spelling_shift]
  rfl

/-- The tokens of `text`, found where it stands, lie there. -/
theorem first_of_mem_shift {text : Text} {found : Token}
    (h : found ∈ (lex mode text).body.map (Token.shift start)) :
    start ≤ found.first ∧ found.first < start + text.length := by
  obtain ⟨token, htoken, rfl⟩ := List.mem_map.mp h
  obtain ⟨hle, hlt⟩ := bounds_of_mem_body htoken
  exact ⟨Nat.le_add_right start token.first,
    Nat.add_lt_add_left (Nat.lt_of_le_of_lt hle hlt) start⟩

/-- Blanks read as nothing. -/
theorem body_of_isBlank (mode : Mode) {blanks : Text} (h : ∀ c ∈ blanks, Text.isBlank c = true) :
    (lex mode blanks).body = [] := by
  have hscans (start : Nat) : Lexer.Scans .boundary start blanks [] := by
    induction blanks generalizing start with
    | nil => exact .done
    | cons c more ih =>
        obtain ⟨hc, hmore⟩ := List.forall_mem_cons.mp h
        exact .blank hc (ih hmore _)
  have hstrict := scans_iff.mp (hscans 0)
  cases mode with
  | strict => exact hstrict.symm
  | relaxed => rw [body_relaxed, ← hstrict, List.filter_nil]

/-- The blanks at the end of a text are in no token. -/
theorem body_trimEnd (mode : Mode) (text : Text) :
    (lex mode (Text.trimEnd text)).body = (lex mode text).body := by
  have hsplit : Text.trimEnd text ++ text.rtakeWhile Text.isBlank = text :=
    List.rdropWhile_append_rtakeWhile
  have hblanks : ∀ c ∈ text.rtakeWhile Text.isBlank, Text.isBlank c = true := fun c hc =>
    List.mem_rtakeWhile_imp hc
  have hparted : Parted (Text.trimEnd text) (text.rtakeWhile Text.isBlank) :=
    .inr fun c hc => Lexer.inWord_of_isBlank (hblanks c (List.mem_of_mem_head? hc))
  have hbody := body_append mode hparted
  rw [hsplit, body_of_isBlank mode hblanks, List.map_nil, List.append_nil] at hbody
  exact hbody.symm

/-! ### Stretches of tokens -/

variable {first last : Token} {before tokens after : List Token}

/-- **The stretch from one token to another** reads as the tokens from the one to the other, in a
text without an error. -/
theorem body_slice (hclean : ∀ token ∈ (lex .strict source).body, token.kind ≠ .error)
    (hbody : (lex .strict source).body = before ++ tokens ++ after)
    (hfirst : tokens.head? = some first) (hlast : tokens.getLast? = some last) :
    (lex .strict (Text.slice source first.first last.last)).body.map (Token.shift first.first) =
      tokens := by
  have hscans : Lexer.Scans .boundary 0 source (lex .strict source).body := scans_iff.mpr rfl
  rw [hbody, List.append_assoc] at hscans hclean
  obtain ⟨place, start, hread⟩ := hscans.exists_of_append rfl
  obtain ⟨more, rfl⟩ := List.head?_eq_some_iff.mp hfirst
  obtain ⟨place, -, hskipped⟩ := hread.skip rfl
  have hkind : first.kind ≠ .error :=
    hclean first (List.mem_append_right before List.mem_cons_self)
  exact (hskipped.boundary_of_ne_error hkind).body_slice hlast

theorem spelling_slice (hclean : ∀ token ∈ (lex .strict source).body, token.kind ≠ .error)
    (hbody : (lex .strict source).body = before ++ tokens ++ after)
    (hfirst : tokens.head? = some first) (hlast : tokens.getLast? = some last) :
    spellings .strict (Text.slice source first.first last.last) = tokens.map Token.spelling := by
  rw [← body_slice hclean hbody hfirst hlast, map_spelling_shift]
  rfl

end CounterFormula
