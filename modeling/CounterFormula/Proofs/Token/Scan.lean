import CounterFormula.Proofs.Token.Pieces

/-!
# Token — Scan

What the tokens of a text are, said without a way to find them.  `Scans` reads a text from the
left: blanks are skipped, an operator is a token, a run of one class is the longest one that its
first character allows, and the characters up to the next boundary are an error when they begin no
run or stand behind a run that they do not carry on.

* `tokens_readingFrom`, `exists_scans`: a text is read in exactly one way.
* `scans_iff`: that way is the one of `lex` in strict mode.
-/

namespace CounterFormula

namespace Lexer

/-- What stands before the place where a reader is. -/
inductive Place where
  /-- A boundary, or nothing at all. -/
  | boundary
  /-- A run that has just ended. -/
  | run
  deriving DecidableEq, Repr

/-- `Scans place start text tokens`: behind `place`, the text that follows from offset `start` on
reads as `tokens`. -/
inductive Scans : Place → Nat → Text → List Token → Prop where
  | done {place : Place} {start : Nat} : Scans place start [] []
  | blank {place : Place} {start : Nat} {c : Char} {rest : Text} {tokens : List Token}
      (hc : Text.isBlank c = true) (h : Scans .boundary (start + 1) rest tokens) :
      Scans place start (c :: rest) tokens
  | sign {place : Place} {start : Nat} {c : Char} {rest : Text} {tokens : List Token}
      (hc : isOperator c = true) (h : Scans .boundary (start + 1) rest tokens) :
      Scans place start (c :: rest) (operatorToken start c :: tokens)
  | run {start : Nat} {c : Char} {kind : TokenClass} {more rest : Text} {tokens : List Token}
      (hc : Begins c kind) (hmore : ∀ d ∈ more, carriesOn kind d = true)
      (hlongest : Stops (carriesOn kind) rest)
      (h : Scans .run (start + (c :: more).length) rest tokens) :
      Scans .boundary start (c :: more ++ rest) (runToken kind start (c :: more) :: tokens)
  | error {place : Place} {start : Nat} {c : Char} {more rest : Text} {tokens : List Token}
      (hc : place = .boundary → ∀ kind, ¬ Begins c kind)
      (hbad : ∀ d ∈ c :: more, inWord d = true) (hlongest : Stops inWord rest)
      (h : Scans .boundary (start + (c :: more).length) rest tokens) :
      Scans place start (c :: more ++ rest) (.ofRun .error start (c :: more) :: tokens)

variable {mode : Mode} {source : Text} {place : Place} {start : Nat} {text : Text}
  {tokens : List Token}

/-! ### What `lex` reads -/

/-- What `lex` finds in `text`, which follows behind `place` from offset `start` on. -/
def readingFrom (mode : Mode) (source : Text) (start : Nat) (text : Text) : Place → Reading
  | .boundary => readPieces mode source start (pieces text)
  | .run =>
    (readRest mode source start (text.takeWhile inWord)).append
      (readPieces mode source (start + (text.takeWhile inWord).length)
        (pieces (text.dropWhile inWord)))

theorem readingFrom_nil : readingFrom mode source start [] place = .empty := by
  cases place with
  | boundary => rfl
  | run => cases mode <;> rfl

/-- Behind a run the rest of the word is an error. -/
theorem readingFrom_behind_run {word rest : Text} (mode : Mode) (source : Text) (start : Nat)
    (hbad : ∀ d ∈ word, inWord d = true) (hlongest : Stops inWord rest) :
    readingFrom mode source start (word ++ rest) .run =
      (readRest mode source start word).append
        (readingFrom mode source (start + word.length) rest .boundary) := by
  obtain ⟨htake, hdrop⟩ := takeWhile_append_of_stops hbad hlongest
  simp only [readingFrom, htake, hdrop]

/-- A boundary ends the word that is being read. -/
theorem readingFrom_of_stops (h : Stops inWord text) :
    readingFrom mode source start text place = readingFrom mode source start text .boundary := by
  cases place with
  | boundary => rfl
  | run =>
      have hnone : ∀ c ∈ ([] : Text), inWord c = true := List.forall_mem_nil _
      have hread := readingFrom_behind_run mode source start hnone h
      cases mode <;> exact hread

theorem readingFrom_blank (mode : Mode) (source : Text) (place : Place) (start : Nat) {c : Char}
    (hc : Text.isBlank c = true) (rest : Text) :
    readingFrom mode source start (c :: rest) place =
      readingFrom mode source (start + 1) rest .boundary := by
  rw [readingFrom_of_stops (stops_cons.mpr (inWord_of_isBlank hc)), readingFrom, pieces_blank hc]
  rfl

theorem readingFrom_sign (mode : Mode) (source : Text) (place : Place) (start : Nat) {c : Char}
    (hc : isOperator c = true) (rest : Text) :
    readingFrom mode source start (c :: rest) place =
      Reading.append ⟨[operatorToken start c], []⟩
        (readingFrom mode source (start + 1) rest .boundary) := by
  rw [readingFrom_of_stops (stops_cons.mpr (inWord_of_isOperator hc)), readingFrom, pieces_sign hc]
  rfl

theorem readingFrom_run {c : Char} {kind : TokenClass} {more rest : Text} (mode : Mode)
    (source : Text) (start : Nat) (hc : Begins c kind)
    (hmore : ∀ d ∈ more, carriesOn kind d = true) (hlongest : Stops (carriesOn kind) rest) :
    readingFrom mode source start (c :: more ++ rest) .boundary =
      Reading.append ⟨[runToken kind start (c :: more)], []⟩
        (readingFrom mode source (start + (c :: more).length) rest .run) := by
  -- the word goes on behind the run, with characters that do not carry it on
  have hword : ∀ d ∈ c :: more ++ rest.takeWhile inWord, inWord d = true := by
    intro d hd
    rcases List.mem_append.mp hd with hd | hd
    · rcases List.mem_cons.mp hd with rfl | hd
      · exact inWord_of_begins hc
      · exact inWord_of_carriesOn (hmore d hd)
    · exact List.mem_takeWhile_imp hd
  have hne : c :: more ++ rest.takeWhile inWord ≠ [] := List.cons_ne_nil _ _
  have hpieces := pieces_word hne hword (stops_dropWhile inWord rest)
  have hsplit : (c :: more ++ rest.takeWhile inWord) ++ rest.dropWhile inWord =
      c :: more ++ rest := by
    rw [List.append_assoc, List.takeWhile_append_dropWhile]
  rw [hsplit] at hpieces
  rw [readingFrom, hpieces, readPieces, readPiece,
    readWord_run mode source start hc hmore (hlongest.takeWhile inWord), Reading.append_assoc,
    readingFrom, Piece.text, List.length_append, Nat.add_assoc]

theorem readingFrom_error {c : Char} {more rest : Text} (mode : Mode) (source : Text) (start : Nat)
    (hc : place = .boundary → ∀ kind, ¬ Begins c kind) (hbad : ∀ d ∈ c :: more, inWord d = true)
    (hlongest : Stops inWord rest) :
    readingFrom mode source start (c :: more ++ rest) place =
      (readRest mode source start (c :: more)).append
        (readingFrom mode source (start + (c :: more).length) rest .boundary) := by
  cases place with
  | boundary =>
      rw [readingFrom, pieces_word (List.cons_ne_nil c more) hbad hlongest, readPieces, readPiece,
        readWord_rest mode source start (hc rfl)]
      rfl
  | run => exact readingFrom_behind_run mode source start hbad hlongest

/-- A word that begins no run reads as what stands behind a run does. -/
theorem readingFrom_eq_run {c : Char} (mode : Mode) (source : Text) (start : Nat) (rest : Text)
    (hword : inWord c = true)
    (hc : ∀ kind, ¬ Begins c kind) :
    readingFrom mode source start (c :: rest) .boundary =
      readingFrom mode source start (c :: rest) .run := by
  have hbad : ∀ d ∈ c :: rest.takeWhile inWord, inWord d = true :=
    List.forall_mem_cons.mpr ⟨hword, fun d hd => List.mem_takeWhile_imp hd⟩
  have hread (place : Place) :
      readingFrom mode source start (c :: rest.takeWhile inWord ++ rest.dropWhile inWord) place =
        _ := readingFrom_error mode source start (fun _ => hc) hbad (stops_dropWhile inWord rest)
  have hsplit : c :: rest = c :: rest.takeWhile inWord ++ rest.dropWhile inWord := by
    rw [List.cons_append, List.takeWhile_append_dropWhile]
  rw [hsplit, hread .boundary, hread .run]

/-- **Reading is what `lex` does**, one rule at a time. -/
theorem tokens_readingFrom (source : Text) (h : Scans place start text tokens) :
    (readingFrom .strict source start text place).tokens = tokens := by
  induction h with
  | done => rw [readingFrom_nil]; rfl
  | @blank place start _ _ _ hc _ ih => rw [readingFrom_blank .strict source place start hc, ih]
  | @sign place start c _ _ hc _ ih =>
      rw [readingFrom_sign .strict source place start hc, Reading.append, ih]
      rfl
  | @run start _ _ _ _ _ hc hmore hlongest _ ih =>
      rw [readingFrom_run .strict source start hc hmore hlongest, Reading.append, ih]
      rfl
  | @error _ start _ _ _ _ hc hbad hlongest _ ih =>
      rw [readingFrom_error .strict source start hc hbad hlongest, Reading.append, ih]
      rfl

/-! ### One way to read -/

/-- Every text can be read. -/
theorem exists_scans (place : Place) (start : Nat) (text : Text) :
    ∃ tokens, Scans place start text tokens := by
  -- on the length of what is left
  induction hlength : text.length using Nat.strongRecOn generalizing place start text with
  | ind length ih =>
      subst hlength
      cases text with
      | nil => exact ⟨[], .done⟩
      | cons c more =>
          by_cases hblank : Text.isBlank c = true
          · obtain ⟨tokens, h⟩ := ih _ (Nat.lt_succ_self _) .boundary (start + 1) more rfl
            exact ⟨tokens, .blank hblank h⟩
          by_cases hsign : isOperator c = true
          · obtain ⟨tokens, h⟩ := ih _ (Nat.lt_succ_self _) .boundary (start + 1) more rfl
            exact ⟨_, .sign hsign h⟩
          have hc : inWord c = true := by simp [inWord, hblank, hsign]
          -- the longest stretch of `p` behind `c`, and what follows it
          have hsplit (p : Char → Bool) :
              c :: more = c :: more.takeWhile p ++ more.dropWhile p := by
            rw [List.cons_append, List.takeWhile_append_dropWhile]
          have hless (p : Char → Bool) : (more.dropWhile p).length < (c :: more).length :=
            Nat.lt_succ_of_le (List.dropWhile_sublist p).length_le
          by_cases hbegins : place = .boundary ∧ ∃ kind, Begins c kind
          · obtain ⟨rfl, kind, hkind⟩ := hbegins
            obtain ⟨tokens, h⟩ := ih _ (hless (carriesOn kind)) .run
              (start + (c :: more.takeWhile (carriesOn kind)).length) _ rfl
            rw [hsplit (carriesOn kind)]
            exact ⟨_, .run hkind (fun d hd => List.mem_takeWhile_imp hd)
              (stops_dropWhile _ _) h⟩
          · obtain ⟨tokens, h⟩ := ih _ (hless inWord) .boundary
              (start + (c :: more.takeWhile inWord).length) _ rfl
            rw [hsplit inWord]
            refine ⟨_, .error ?_ ?_ (stops_dropWhile _ _) h⟩
            · intro hplace kind hkind
              exact hbegins ⟨hplace, kind, hkind⟩
            · exact List.forall_mem_cons.mpr ⟨hc, fun d hd => List.mem_takeWhile_imp hd⟩

theorem scans_readingFrom (source : Text) (place : Place) (start : Nat) (text : Text) :
    Scans place start text (readingFrom .strict source start text place).tokens := by
  obtain ⟨tokens, h⟩ := exists_scans place start text
  rwa [tokens_readingFrom source h]

end Lexer

/-- **The tokens of a text** are read from it, and nothing else can be. -/
theorem scans_iff {source : Text} {tokens : List Token} :
    Lexer.Scans .boundary 0 source tokens ↔ tokens = (lex .strict source).body := by
  constructor
  · intro h
    exact (Lexer.tokens_readingFrom source h).symm
  · rintro rfl
    exact Lexer.scans_readingFrom source .boundary 0 source

end CounterFormula
