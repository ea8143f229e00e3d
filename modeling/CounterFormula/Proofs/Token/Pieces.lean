import CounterFormula.Token.Lexer
import Mathlib.Data.List.TakeWhile

/-!
# Token — Pieces

The pieces of a text from its beginning on.  A text begins with a blank, with an operator, or with
a *word*, the longest run of characters that are neither; a word begins with a run of one class or
with no run at all (`Begins`), and a run is the longest one when a text that it does not carry on
over (`Stops`) follows.

* `inWord_of_begins`, `inWord_of_carriesOn`: the characters of a run are word characters, so a run
  does not reach beyond its word.
* `pieces_word`, `readWord_run`: a word is a piece, and reads as its first run and the rest.
-/

namespace CounterFormula.Lexer

variable {c : Char} {kind : TokenClass}

/-- Neither a blank nor an operator. -/
def inWord (c : Char) : Bool :=
  !(Text.isBlank c || isOperator c)

/-- `Begins c kind`: `c` begins a run of class `kind`. -/
inductive Begins : Char → TokenClass → Prop where
  | symbol {c : Char} (h : startsSymbol c = true) : Begins c .symbol
  | var : Begins '$' .var
  | number {c : Char} (h : continuesNumber c = true) : Begins c .number

/-- The characters that carry a run on. -/
def carriesOn : TokenClass → Char → Bool
  | .symbol => continuesSymbol
  | .var => continuesVariable
  | .number => continuesNumber
  | .operator | .stop | .error => fun _ => false

/-- `text` does not begin with a character of the class `p`. -/
def Stops (p : Char → Bool) (text : Text) : Prop :=
  ∀ c, text.head? = some c → p c = false

/-! ### Classes of characters -/

theorem inWord_of_isBlank (h : Text.isBlank c = true) : inWord c = false := by
  simp [inWord, h]

theorem inWord_of_isOperator (h : isOperator c = true) : inWord c = false := by
  simp [inWord, h]

theorem isBlank_of_inWord (h : inWord c = true) : Text.isBlank c = false := by
  simp_all [inWord]

theorem isOperator_of_inWord (h : inWord c = true) : isOperator c = false := by
  simp_all [inWord]

theorem not_inWord_iff : inWord c = false ↔ Text.isBlank c = true ∨ isOperator c = true := by
  rw [inWord, Bool.not_eq_false', Bool.or_eq_true]

theorem isBlank_of_isOperator (h : isOperator c = true) : Text.isBlank c = false := by
  have hall : (operators.all fun c => Text.isBlank c == false) = true := by decide
  exact beq_iff_eq.mp (List.all_eq_true.mp hall c (List.contains_iff_mem.mp h))

/-- The characters that runs are made of. -/
def inRun (c : Char) : Bool :=
  c.isAlphanum || c == '_' || c == '.' || c == '$' || c == '@'

theorem toNat_lt_of_inRun (h : inRun c = true) : c.toNat < 128 := by
  simp only [inRun, Bool.or_eq_true, beq_iff_eq] at h
  rcases h with (((h | rfl) | rfl) | rfl) | rfl
  · -- the letters and the digits, as the three ranges that the test is made of
    have hranges : ((decide ('A'.val ≤ c.val ∧ c.val ≤ 'Z'.val) ||
        (decide ('a'.val ≤ c.val) && decide (c.val ≤ 'z'.val))) ||
        (decide ('0'.val ≤ c.val) && decide (c.val ≤ '9'.val))) = true := h
    simp only [Bool.or_eq_true, Bool.and_eq_true, decide_eq_true_eq,
      UInt32.le_iff_toNat_le] at hranges
    have : c.toNat = c.val.toNat := rfl
    have : 'Z'.val.toNat = 90 := rfl
    have : 'z'.val.toNat = 122 := rfl
    have : '9'.val.toNat = 57 := rfl
    omega
  all_goals decide

/-- What holds of the characters of ASCII. -/
theorem ascii_forall {P : Char → Prop} (h : ∀ n < 128, P (Char.ofNat n)) (hc : c.toNat < 128) :
    P c := by
  have := h c.toNat hc
  rwa [Char.ofNat_toNat] at this

theorem inWord_of_inRun (h : inRun c = true) : inWord c = true :=
  ascii_forall (P := fun c => inRun c = true → inWord c = true) (by decide)
    (toNat_lt_of_inRun h) h

theorem inRun_of_carriesOn (h : carriesOn kind c = true) : inRun c = true := by
  cases kind with
  | symbol =>
      have h : continuesSymbol c = true := h
      grind [continuesSymbol, inRun]
  | var =>
      have h : continuesVariable c = true := h
      grind [continuesVariable, inRun]
  | number =>
      have h : continuesNumber c = true := h
      grind [continuesNumber, inRun, Char.isAlphanum]
  | operator | stop | error => cases h

theorem inRun_of_continuesNumber (h : continuesNumber c = true) : inRun c = true := by
  have h' : carriesOn .number c = true := h
  exact inRun_of_carriesOn h'

theorem inRun_of_begins (h : Begins c kind) : inRun c = true := by
  cases h with
  | symbol h => grind [startsSymbol, inRun, Char.isAlphanum]
  | var => decide
  | number h => exact inRun_of_continuesNumber h

theorem inWord_of_carriesOn (h : carriesOn kind c = true) : inWord c = true :=
  inWord_of_inRun (inRun_of_carriesOn h)

theorem inWord_of_begins (h : Begins c kind) : inWord c = true :=
  inWord_of_inRun (inRun_of_begins h)

theorem not_startsSymbol_of_continuesNumber (h : continuesNumber c = true) :
    startsSymbol c = false ∧ (c == '$') = false :=
  ascii_forall (P := fun c => continuesNumber c = true →
      startsSymbol c = false ∧ (c == '$') = false) (by decide)
    (toNat_lt_of_inRun (inRun_of_continuesNumber h)) h

theorem Begins.ne_operator (h : Begins c kind) : kind ≠ .operator := by
  cases h <;> decide

/-- A character begins a run of one class at most. -/
theorem runOf?_of_begins (h : Begins c kind) : runOf? c = some (kind, carriesOn kind) := by
  cases h with
  | symbol h => rw [runOf?, if_pos h]; rfl
  | var => rfl
  | number h =>
      obtain ⟨hsymbol, hsigil⟩ := not_startsSymbol_of_continuesNumber h
      simp only [runOf?, hsymbol, hsigil, h, if_true, Bool.false_eq_true, if_false]
      rfl

theorem begins_of_runOf? {continues : Char → Bool} (h : runOf? c = some (kind, continues)) :
    Begins c kind ∧ continues = carriesOn kind := by
  rw [runOf?] at h
  split at h
  · rename_i hsymbol
    obtain ⟨rfl, rfl⟩ := Prod.mk.inj (Option.some.inj h)
    exact ⟨.symbol hsymbol, rfl⟩
  · split at h
    · rename_i hsigil
      obtain ⟨rfl, rfl⟩ := Prod.mk.inj (Option.some.inj h)
      rw [eq_of_beq hsigil]
      exact ⟨.var, rfl⟩
    · split at h
      · rename_i hnumber
        obtain ⟨rfl, rfl⟩ := Prod.mk.inj (Option.some.inj h)
        exact ⟨.number hnumber, rfl⟩
      · cases h

theorem runOf?_eq_none (h : ∀ kind, ¬ Begins c kind) : runOf? c = none := by
  refine Option.eq_none_iff_forall_ne_some.mpr fun found hfound => ?_
  exact h found.1 (begins_of_runOf? hfound).1

/-! ### Longest runs -/

theorem stops_nil (p : Char → Bool) : Stops p [] := nofun

theorem stops_cons {p : Char → Bool} {rest : Text} : Stops p (c :: rest) ↔ p c = false := by
  constructor
  · intro h
    exact h c rfl
  · intro h d hd
    rwa [← Option.some.inj hd]

theorem stops_dropWhile (p : Char → Bool) (text : Text) : Stops p (text.dropWhile p) := by
  intro c hc
  have := List.head?_dropWhile_not p text
  rw [hc] at this
  simpa using this

/-- A run ends where its word ends, or before. -/
theorem Stops.carriesOn {rest : Text} (h : Stops inWord rest) (kind : TokenClass) :
    Stops (carriesOn kind) rest := by
  intro c hc
  refine Bool.eq_false_iff.mpr fun hcarries => ?_
  have hword := inWord_of_carriesOn hcarries
  rw [h c hc] at hword
  cases hword

theorem Stops.takeWhile {p : Char → Bool} {rest : Text} (h : Stops p rest) (q : Char → Bool) :
    Stops p (rest.takeWhile q) := by
  intro c hc
  rw [List.head?_takeWhile, Option.filter_eq_some_iff] at hc
  exact h c hc.1

theorem takeWhile_append_of_stops {p : Char → Bool} {run rest : Text}
    (hrun : ∀ c ∈ run, p c = true) (hrest : Stops p rest) :
    (run ++ rest).takeWhile p = run ∧ (run ++ rest).dropWhile p = rest := by
  rw [List.takeWhile_append_of_pos hrun, List.dropWhile_append_of_pos hrun]
  cases rest with
  | nil => exact ⟨List.append_nil run, rfl⟩
  | cons c more =>
      have hc : ¬ p c = true := Bool.eq_false_iff.mp (stops_cons.mp hrest)
      rw [List.takeWhile_cons_of_neg hc, List.dropWhile_cons_of_neg hc, List.append_nil]
      exact ⟨rfl, rfl⟩

/-! ### Readings one after the other -/

theorem Reading.append_assoc (a b c : Reading) :
    (a.append b).append c = a.append (b.append c) := by
  simp only [Reading.append, List.append_assoc]

theorem Reading.append_empty (a : Reading) : a.append .empty = a := by
  simp only [Reading.append, Reading.empty, List.append_nil]

/-! ### Pieces -/

theorem pieces_blank (hc : Text.isBlank c = true) (rest : Text) :
    pieces (c :: rest) = .gap c :: pieces rest := by
  rw [pieces, if_pos hc]

theorem pieces_sign (hc : isOperator c = true) (rest : Text) :
    pieces (c :: rest) = .sign c :: pieces rest := by
  rw [pieces, if_neg (Bool.eq_false_iff.mp (isBlank_of_isOperator hc)), if_pos hc]

/-- A text at a boundary does not begin with a word. -/
theorem pieces_ne_word {rest : Text} (h : Stops inWord rest) (word : Text) (more : List Piece) :
    pieces rest ≠ .word word :: more := by
  cases rest with
  | nil => exact nofun
  | cons c rest =>
      rcases not_inWord_iff.mp (stops_cons.mp h) with hc | hc
      · rw [pieces_blank hc]
        exact nofun
      · rw [pieces_sign hc]
        exact nofun

/-- **A word** up to the next boundary is one piece. -/
theorem pieces_word {word rest : Text} (hne : word ≠ []) (hword : ∀ c ∈ word, inWord c = true)
    (hrest : Stops inWord rest) : pieces (word ++ rest) = .word word :: pieces rest := by
  induction word with
  | nil => exact absurd rfl hne
  | cons c more ih =>
      have hc := hword c List.mem_cons_self
      rw [List.cons_append, pieces, if_neg (Bool.eq_false_iff.mp (isBlank_of_inWord hc)),
        if_neg (Bool.eq_false_iff.mp (isOperator_of_inWord hc))]
      cases more with
      | nil =>
          split
          · rename_i text rest' hpieces
            exact absurd hpieces (pieces_ne_word hrest text rest')
          · rfl
      | cons d more =>
          rw [ih (List.cons_ne_nil d more) fun e he => hword e (List.mem_cons_of_mem c he)]

/-- **A word reads** as its first run, as far as the class carries it on, and the rest. -/
theorem readWord_run {more rest : Text} (mode : Mode) (source : Text) (start : Nat)
    (hc : Begins c kind) (hmore : ∀ d ∈ more, carriesOn kind d = true)
    (hrest : Stops (carriesOn kind) rest) :
    readWord mode source start (c :: more ++ rest) =
      Reading.append ⟨[runToken kind start (c :: more)], []⟩
        (readRest mode source (start + (c :: more).length) rest) := by
  obtain ⟨htake, hdrop⟩ := takeWhile_append_of_stops hmore hrest
  rw [List.cons_append, readWord, runOf?_of_begins hc]
  simp only [htake, hdrop]

theorem readWord_rest {more : Text} (mode : Mode) (source : Text) (start : Nat)
    (hc : ∀ kind, ¬ Begins c kind) :
    readWord mode source start (c :: more) = readRest mode source start (c :: more) := by
  rw [readWord, runOf?_eq_none hc]

end CounterFormula.Lexer
