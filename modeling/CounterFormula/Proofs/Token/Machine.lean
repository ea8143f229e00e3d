import CounterFormula.Proofs.Token.Scan

/-!
# Token — Machine

The tokenizer as a machine that sees one character at a time.  A character has a class, and the
state and the class give the next state.  The characters seen are kept until the state changes or
an operator comes, and leave as the token of the state they were seen in.  Behind the text the
machine sees two blanks and the end, so that nothing is kept in the end.

* `Machine.owed_emit`, `Machine.owed_keep`: what one character does, in terms of what is still to
  be read.
* `Machine.lex_eq`: the machine finds the tokens and the faults of `lex`, in either mode.
-/

namespace CounterFormula.Machine

open Lexer (Begins Reading Stops carriesOn inWord isOperator operatorToken readRest readingFrom
  runToken runOf?)

/-! ### The machine -/

inductive CharClass where
  | blank
  | letter
  | underscore
  | at
  | digit
  | dot
  | dollar
  | operator
  /-- The end of the text. -/
  | sentinel
  | other
  deriving DecidableEq, Repr

/-- The class of a character, or of the end. -/
def classify : Option Char → CharClass
  | none => .sentinel
  | some c =>
    if Text.isBlank c then .blank
    else if c.isAlpha then .letter
    else if c == '_' then .underscore
    else if c == '@' then .at
    else if c.isDigit then .digit
    else if c == '.' then .dot
    else if c == '$' then .dollar
    else if isOperator c then .operator
    else .other

/-- Between two tokens, or within one. -/
inductive State where
  | blank
  | within (kind : TokenClass)
  deriving DecidableEq, Repr

/-- The state that a character of class `seen` leads to. -/
def next (state : State) (seen : CharClass) : State :=
  if seen = .sentinel then .within .stop
  else
    match state with
    | .blank | .within .operator =>
      match seen with
      | .blank => .blank
      | .letter | .underscore | .at => .within .symbol
      | .digit | .dot => .within .number
      | .operator => .within .operator
      | .dollar => .within .var
      | .other | .sentinel => .within .error
    | .within .error =>
      match seen with
      | .blank => .blank
      | .operator => .within .operator
      | _ => .within .error
    | .within .symbol =>
      match seen with
      | .blank => .blank
      | .letter | .underscore | .digit | .dot | .dollar => .within .symbol
      | .operator => .within .operator
      | .at | .other | .sentinel => .within .error
    | .within .var =>
      match seen with
      | .blank => .blank
      | .letter | .underscore | .digit | .dot => .within .var
      | .operator => .within .operator
      | .dollar | .at | .other | .sentinel => .within .error
    | .within .number =>
      match seen with
      | .blank => .blank
      | .digit | .dot => .within .number
      | .operator => .within .operator
      | .letter | .underscore | .at | .dollar | .other | .sentinel => .within .error
    | .within .stop => .within .stop

/-- Whether the characters kept in `state` leave when the machine goes on to `state'`. -/
def emits (state state' : State) : Bool :=
  state' != state || state' == .within .operator

/-- The token that `text` makes in a state of class `kind`, seen from offset `start` up to
`pos`. -/
def token (kind : TokenClass) (text : Text) (start pos : Nat) : Token :=
  if kind = .symbol ∧ Text.lowerAscii text = Lexer.reservedMinus then
    ⟨.operator, ['-'], start, pos - 1⟩
  else if kind = .operator ∧ text = [Lexer.summationGlyph] then
    ⟨.operator, [Lexer.summationSign], start, pos - 1⟩
  else
    ⟨kind, text, start, pos - 1⟩

/-- What leaves with `text`. -/
def finish (mode : Mode) (state : State) (text : Text) (start pos : Nat) : Reading :=
  match state with
  | .blank | .within .stop => .empty
  | .within .error => if mode = .relaxed then .empty else ⟨[token .error text start pos], []⟩
  | .within kind => ⟨[token kind text start pos], []⟩

/-- What is reported when the machine comes to `state` at offset `pos`. -/
def announce (mode : Mode) (source : Text) (state : State) (pos : Nat) : Reading :=
  if state = .within .error ∧ mode = .strict then
    ⟨[], [⟨pos, Lexer.snippet source pos⟩]⟩
  else
    .empty

/-- What the machine finds from offset `pos` on, where it is in `state` and has kept `text` since
offset `start`. -/
def scan (mode : Mode) (source : Text) (state : State) (text : Text) (start pos : Nat) :
    List (Option Char) → Reading
  | [] => .empty
  | input :: more =>
    let state' := next state (classify input)
    if emits state state' then
      (finish mode state text start pos).append <|
        (announce mode source state' pos).append <|
          scan mode source state' input.toList pos (pos + 1) more
    else
      scan mode source state (text ++ input.toList) start (pos + 1) more

/-- What the machine sees behind the text. -/
def trailer : List (Option Char) := [some ' ', some ' ', none]

/-- `source` cut into tokens by the machine. -/
def lex (mode : Mode) (source : Text) : Lexed :=
  let reading := scan mode source .blank [] 0 0 (source.map some ++ trailer)
  ⟨reading.tokens, source.length, reading.faults⟩

/-! ### Classes and transitions -/

variable {mode : Mode} {source : Text} {state : State} {text : Text} {start pos : Nat}
  {c d : Char} {kind : TokenClass}

theorem classify_of_isBlank (h : Text.isBlank c = true) : classify (some c) = .blank := by
  rw [classify, if_pos h]

theorem classify_of_isOperator (h : isOperator c = true) : classify (some c) = .operator := by
  have hall : (Lexer.operators.all fun c => classify (some c) == .operator) = true := by
    decide +kernel
  exact beq_iff_eq.mp (List.all_eq_true.mp hall c (List.contains_iff_mem.mp h))

/-- A character that runs are not made of is of no class of its own. -/
theorem classify_of_inWord (h : inWord c = true) (hrun : Lexer.inRun c = false) :
    classify (some c) = .other := by
  have hblank := Lexer.isBlank_of_inWord h
  have hoperator := Lexer.isOperator_of_inWord h
  simp only [Lexer.inRun, Char.isAlphanum, Bool.or_eq_false_iff] at hrun
  obtain ⟨⟨⟨⟨⟨halpha, hdigit⟩, hunderscore⟩, hdot⟩, hdollar⟩, hat⟩ := hrun
  simp [classify, hblank, hoperator, halpha, hdigit, hunderscore, hdot, hdollar, hat]

theorem next_of_isBlank (hstate : state ≠ .within .stop) (h : Text.isBlank c = true) :
    next state (classify (some c)) = .blank := by
  rw [classify_of_isBlank h]
  cases state with
  | blank => rfl
  | within kind =>
      cases kind with
      | stop => exact absurd rfl hstate
      | _ => rfl

theorem next_of_isOperator (hstate : state ≠ .within .stop) (h : isOperator c = true) :
    next state (classify (some c)) = .within .operator := by
  rw [classify_of_isOperator h]
  cases state with
  | blank => rfl
  | within kind =>
      cases kind with
      | stop => exact absurd rfl hstate
      | _ => rfl

/-- The state that a character of a word leads to, by the runs it begins and carries on. -/
def within (state : State) (c : Char) : State :=
  match state with
  | .blank | .within .operator => .within (((runOf? c).map Prod.fst).getD .error)
  | .within kind => if carriesOn kind c then .within kind else .within .error

/-- The states that a character of the text can be seen in. -/
def states : List State :=
  [.blank, .within .operator, .within .symbol, .within .var, .within .number, .within .error]

theorem mem_states (h : state ≠ .within .stop) : state ∈ states := by
  cases state with
  | blank => decide
  | within kind =>
      cases kind with
      | stop => exact absurd rfl h
      | _ => decide

theorem next_of_inWord (hstate : state ≠ .within .stop) (h : inWord c = true) :
    next state (classify (some c)) = within state c := by
  by_cases hc : c.toNat < 128
  · exact Lexer.ascii_forall (P := fun c => inWord c = true →
        ∀ state ∈ states, next state (classify (some c)) = within state c)
      (by decide +kernel) hc h state (mem_states hstate)
  · have hrun : Lexer.inRun c = false :=
      Bool.eq_false_iff.mpr fun h => hc (Lexer.toNat_lt_of_inRun h)
    have hbegins : runOf? c = none := Lexer.runOf?_eq_none fun kind hkind => by
      rw [Lexer.inRun_of_begins hkind] at hrun
      cases hrun
    have hcarries (kind : TokenClass) : carriesOn kind c = false := by
      refine Bool.eq_false_iff.mpr fun hkind => ?_
      rw [Lexer.inRun_of_carriesOn hkind] at hrun
      cases hrun
    rw [classify_of_inWord h hrun]
    cases state with
    | blank => simp [within, next, hbegins]
    | within kind =>
        cases kind with
        | stop => exact absurd rfl hstate
        | operator => simp [within, next, hbegins]
        | _ => simp [within, next, hcarries]

/-! ### What is kept -/

/-- `Keeps state text`: the machine may have kept `text` in `state`. -/
inductive Keeps : State → Text → Prop where
  | blank {text : Text} : Keeps .blank text
  | sign {c : Char} (hc : isOperator c = true) : Keeps (.within .operator) [c]
  | run {c : Char} {kind : TokenClass} {more : Text} (hc : Begins c kind)
      (hmore : ∀ d ∈ more, carriesOn kind d = true) : Keeps (.within kind) (c :: more)
  | error {c : Char} {more : Text} (hbad : ∀ d ∈ c :: more, inWord d = true) :
      Keeps (.within .error) (c :: more)

/-- What is to be read where the machine is in `state`, has kept `text` since offset `start`, and
`rest` follows. -/
def owed (mode : Mode) (source : Text) (state : State) (text : Text) (start : Nat) (rest : Text) :
    Reading :=
  match state with
  | .blank => readingFrom mode source (start + text.length) rest .boundary
  | .within .error => readingFrom mode source start (text ++ rest) .run
  | .within _ => readingFrom mode source start (text ++ rest) .boundary

theorem ne_stop_of_begins (hc : Begins c kind) : State.within kind ≠ .within .stop := by
  cases hc <;> decide

theorem within_of_begins (hc : Begins c kind) (d : Char) :
    within (.within kind) d = if carriesOn kind d then .within kind else .within .error := by
  cases hc <;> rfl

theorem Keeps.ne_stop (h : Keeps state text) : state ≠ .within .stop := by
  cases h with
  | run hc _ => exact ne_stop_of_begins hc
  | _ => decide

/-- `Takes place state d`: behind `place`, the machine keeps `d` in `state`. -/
structure Takes (place : Lexer.Place) (state : State) (d : Char) : Prop where
  keeps : Keeps state [d]
  reading_eq : ∀ mode source pos rest,
    readingFrom mode source pos (d :: rest) place = owed mode source state [d] pos rest

theorem Takes.boundary {place : Lexer.Place} (hstate : state ≠ .within .stop)
    (hd : inWord d = false) : Takes place (next state (classify (some d))) d := by
  rcases Lexer.not_inWord_iff.mp hd with hd | hd
  · rw [next_of_isBlank hstate hd]
    refine ⟨.blank, fun mode source pos rest => ?_⟩
    exact Lexer.readingFrom_blank mode source place pos hd rest
  · rw [next_of_isOperator hstate hd]
    refine ⟨.sign hd, fun mode source pos rest => ?_⟩
    exact Lexer.readingFrom_of_stops (Lexer.stops_cons.mpr (Lexer.inWord_of_isOperator hd))

theorem Takes.run (hd : Begins d kind) : Takes .boundary (.within kind) d := by
  refine ⟨.run hd nofun, fun mode source pos rest => ?_⟩
  cases hd <;> rfl

theorem Takes.error {place : Lexer.Place} (hword : inWord d = true)
    (hd : place = .boundary → ∀ kind, ¬ Begins d kind) : Takes place (.within .error) d := by
  refine ⟨.error (List.forall_mem_cons.mpr ⟨hword, nofun⟩), fun mode source pos rest => ?_⟩
  cases place with
  | run => rfl
  | boundary => exact Lexer.readingFrom_eq_run mode source pos rest hword (hd rfl)

/-- Between two words the machine takes what comes as the beginning of the next one. -/
theorem Takes.next_boundary (hstate : state = .blank ∨ state = .within .operator) (d : Char) :
    Takes .boundary (next state (classify (some d))) d := by
  have hstop : state ≠ .within .stop := by rcases hstate with rfl | rfl <;> decide
  have hwithin : within state d = .within (((runOf? d).map Prod.fst).getD .error) := by
    rcases hstate with rfl | rfl <;> rfl
  by_cases hword : inWord d = true
  · rw [next_of_inWord hstop hword, hwithin]
    by_cases hd : ∃ kind, Begins d kind
    · obtain ⟨kind, hkind⟩ := hd
      rw [Lexer.runOf?_of_begins hkind]
      exact .run hkind
    · rw [not_exists] at hd
      rw [Lexer.runOf?_eq_none hd]
      exact .error hword fun _ => hd
  · exact .boundary hstop (Bool.eq_false_iff.mpr hword)

/-- Behind a run the machine takes what does not carry it on as an error. -/
theorem Takes.next_run (hc : Begins c kind) (hd : carriesOn kind d = false) :
    Takes .run (next (.within kind) (classify (some d))) d := by
  by_cases hword : inWord d = true
  · rw [next_of_inWord (ne_stop_of_begins hc) hword, within_of_begins hc, hd]
    exact .error hword fun h => nomatch h
  · exact .boundary (ne_stop_of_begins hc) (Bool.eq_false_iff.mpr hword)

/-! ### One character -/

theorem span_token (kind : TokenClass) (text : Text) (start pos : Nat) :
    (token kind text start pos).first = start ∧ (token kind text start pos).last = pos - 1 := by
  unfold token
  split
  · exact ⟨rfl, rfl⟩
  · split <;> exact ⟨rfl, rfl⟩

theorem token_run (hc : Begins c kind) (text : Text) :
    token kind text start (start + text.length) = runToken kind start text := by
  by_cases hminus : kind = .symbol ∧ Text.lowerAscii text = Lexer.reservedMinus
  · obtain ⟨rfl, htext⟩ := hminus
    simp [token, runToken, Token.ofRun, htext]
  · rw [token, if_neg hminus, if_neg fun h => hc.ne_operator h.1, runToken, if_neg]
    · rfl
    · simpa using hminus

theorem token_sign (start : Nat) (c : Char) :
    token .operator [c] start (start + 1) = operatorToken start c := by
  by_cases hc : c = Lexer.summationGlyph <;> simp [token, operatorToken, Token.ofRun, hc]

theorem token_error (start : Nat) (text : Text) :
    token .error text start (start + text.length) = .ofRun .error start text := by
  simp [token, Token.ofRun]

theorem owed_run (hc : Begins c kind) (text rest : Text) :
    owed mode source (.within kind) text start rest =
      readingFrom mode source start (text ++ rest) .boundary := by
  cases hc <;> rfl

theorem announce_run (hc : Begins c kind) : announce mode source (.within kind) start = .empty := by
  cases hc <;> rfl

theorem finish_sign (mode : Mode) (start : Nat) (c : Char) :
    finish mode (.within .operator) [c] start (start + 1) = ⟨[operatorToken start c], []⟩ := by
  rw [← token_sign]
  rfl

theorem finish_run (hc : Begins c kind) (text : Text) :
    finish mode (.within kind) text start (start + text.length) =
      ⟨[runToken kind start text], []⟩ := by
  rw [← token_run hc]
  cases hc <;> rfl

/-- A character that carries a run on is kept. -/
theorem carriesOn_of_emits (hc : Begins c kind)
    (hd : emits (.within kind) (next (.within kind) (classify (some d))) = true) :
    carriesOn kind d = false := by
  refine Bool.eq_false_iff.mpr fun hcarries => ?_
  rw [next_of_inWord (ne_stop_of_begins hc) (Lexer.inWord_of_carriesOn hcarries),
    within_of_begins hc, if_pos hcarries] at hd
  cases hc <;> cases hd

/-- So is a character of a word that is an error. -/
theorem not_inWord_of_emits
    (hd : emits (.within .error) (next (.within .error) (classify (some d))) = true) :
    inWord d = false := by
  refine Bool.eq_false_iff.mpr fun hword => ?_
  rw [next_of_inWord (by decide) hword] at hd
  simp [within, carriesOn, emits] at hd

/-- A word that is an error is announced when it begins, and leaves when it ends. -/
theorem announce_finish_error (mode : Mode) (source : Text) (start : Nat) (c : Char)
    (more : Text) :
    (announce mode source (.within .error) start).append
        (finish mode (.within .error) (c :: more) start (start + (c :: more).length)) =
      readRest mode source start (c :: more) := by
  cases mode with
  | relaxed => rfl
  | strict =>
      rw [finish, token_error]
      rfl

/-- **What leaves** is read, and what stays to be read is what the new state owes. -/
theorem owed_emit (mode : Mode) (source : Text) (h : Keeps state text) (start : Nat) (d : Char)
    (rest : Text) (hd : emits state (next state (classify (some d))) = true) :
    Keeps (next state (classify (some d))) [d] ∧
      owed mode source state text start (d :: rest) =
        (announce mode source state start).append
          ((finish mode state text start (start + text.length)).append
            (owed mode source (next state (classify (some d))) [d] (start + text.length)
              rest)) := by
  cases h with
  | blank =>
      have htakes := Takes.next_boundary (.inl rfl) d
      exact ⟨htakes.keeps, htakes.reading_eq mode source _ rest⟩
  | @sign c hc =>
      have htakes := Takes.next_boundary (.inr rfl) d
      refine ⟨htakes.keeps, ?_⟩
      rw [← htakes.reading_eq, List.length_singleton, finish_sign]
      exact Lexer.readingFrom_sign mode source .boundary start hc (d :: rest)
  | @run c kind more hc hmore =>
      have hends := carriesOn_of_emits hc hd
      have htakes := Takes.next_run hc hends
      refine ⟨htakes.keeps, ?_⟩
      have hread := Lexer.readingFrom_run mode source start hc hmore
        (Lexer.stops_cons.mpr hends : Stops (carriesOn kind) (d :: rest))
      rw [← htakes.reading_eq, finish_run hc, owed_run hc, announce_run hc, hread]
      rfl
  | @error c more hbad =>
      have hword : inWord d = false := not_inWord_of_emits hd
      have htakes : Takes .boundary (next (.within .error) (classify (some d))) d :=
        .boundary (by decide) hword
      refine ⟨htakes.keeps, ?_⟩
      rw [← htakes.reading_eq, ← Reading.append_assoc, announce_finish_error]
      exact Lexer.readingFrom_behind_run mode source start hbad (Lexer.stops_cons.mpr hword)

/-- Only a character of a word keeps the machine within a token. -/
theorem inWord_of_next_eq (hkind : kind ≠ .operator) (hstop : State.within kind ≠ .within .stop)
    (hnext : next (.within kind) (classify (some d)) = .within kind) : inWord d = true := by
  by_contra hword
  rcases Lexer.not_inWord_iff.mp (Bool.eq_false_iff.mpr hword) with hd | hd
  · rw [next_of_isBlank hstop hd] at hnext
    cases hnext
  · rw [next_of_isOperator hstop hd] at hnext
    exact hkind (State.within.inj hnext).symm

theorem isBlank_of_next_eq (hnext : next .blank (classify (some d)) = .blank) :
    Text.isBlank d = true := by
  by_cases hword : inWord d = true
  · rw [next_of_inWord (by decide) hword] at hnext
    cases hnext
  rcases Lexer.not_inWord_iff.mp (Bool.eq_false_iff.mpr hword) with hd | hd
  · exact hd
  · rw [next_of_isOperator (by decide) hd] at hnext
    cases hnext

/-- **What stays** is still owed. -/
theorem owed_keep (mode : Mode) (source : Text) (h : Keeps state text) (start : Nat) (d : Char)
    (rest : Text) (hd : emits state (next state (classify (some d))) = false) :
    Keeps state (text ++ [d]) ∧
      owed mode source state text start (d :: rest) =
        owed mode source state (text ++ [d]) start rest := by
  have hnext : next state (classify (some d)) = state := by
    simp only [emits, Bool.or_eq_false_iff, bne_eq_false_iff_eq] at hd
    exact hd.1
  have hstop := h.ne_stop
  cases h with
  | blank =>
      refine ⟨.blank, ?_⟩
      rw [owed, Lexer.readingFrom_blank mode source .boundary _ (isBlank_of_next_eq hnext) rest,
        owed, List.length_append, List.length_singleton, Nat.add_assoc]
  | sign hc =>
      rw [hnext] at hd
      cases hd
  | @run c kind more hc hmore =>
      have hword := inWord_of_next_eq hc.ne_operator hstop hnext
      have hcarries : carriesOn kind d = true := by
        by_contra hends
        rw [next_of_inWord hstop hword, within_of_begins hc, if_neg hends] at hnext
        cases hnext
        cases hc
      have hmore' : ∀ e ∈ more ++ [d], carriesOn kind e = true :=
        List.forall_mem_append.mpr ⟨hmore, List.forall_mem_singleton.mpr hcarries⟩
      refine ⟨.run hc hmore', ?_⟩
      rw [owed_run hc, owed_run hc, List.append_assoc, List.singleton_append]
  | @error c more hbad =>
      have hword := inWord_of_next_eq (by decide) hstop hnext
      have hbad' : ∀ e ∈ (c :: more) ++ [d], inWord e = true :=
        List.forall_mem_append.mpr ⟨hbad, List.forall_mem_singleton.mpr hword⟩
      refine ⟨.error hbad', ?_⟩
      rw [owed, owed, List.append_assoc, List.singleton_append]

/-! ### The whole text -/

theorem scan_trailer_within (mode : Mode) (source text : Text) (start pos : Nat)
    (hstop : State.within kind ≠ .within .stop) :
    scan mode source (.within kind) text start pos trailer =
      finish mode (.within kind) text start pos := by
  have hnext : next (.within kind) (classify (some ' ')) = .blank :=
    next_of_isBlank hstop (by decide)
  rw [trailer, scan, hnext]
  exact Reading.append_empty _

/-- The trailer lets out what is kept. -/
theorem scan_trailer (mode : Mode) (source : Text) (h : Keeps state text) (start : Nat) :
    (announce mode source state start).append
        (scan mode source state text start (start + text.length) trailer) =
      owed mode source state text start [] := by
  have hstop := h.ne_stop
  cases h with
  | blank =>
      rw [owed, Lexer.readingFrom_nil]
      rfl
  | @sign c hc =>
      have hread := Lexer.readingFrom_sign mode source .boundary start hc []
      rw [Lexer.readingFrom_nil] at hread
      rw [List.length_singleton, scan_trailer_within mode source [c] start (start + 1) hstop,
        finish_sign]
      exact hread.symm
  | @run c kind more hc hmore =>
      have hread := Lexer.readingFrom_run mode source start hc hmore (Lexer.stops_nil _)
      rw [Lexer.readingFrom_nil] at hread
      rw [scan_trailer_within mode source (c :: more) start _ hstop, finish_run hc,
        announce_run hc, owed_run hc, hread]
      rfl
  | @error c more hbad =>
      have hread := Lexer.readingFrom_behind_run mode source start hbad (Lexer.stops_nil _)
      rw [Lexer.readingFrom_nil, Reading.append_empty] at hread
      rw [scan_trailer_within mode source (c :: more) start _ hstop, announce_finish_error]
      exact hread.symm

/-- **A machine finds what it owes**, one character after the other. -/
theorem scan_eq_owed (mode : Mode) (source : Text) (h : Keeps state text) (start : Nat)
    (rest : Text) :
    (announce mode source state start).append
        (scan mode source state text start (start + text.length) (rest.map some ++ trailer)) =
      owed mode source state text start rest := by
  induction rest generalizing state text start with
  | nil => exact scan_trailer mode source h start
  | cons d rest ih =>
      rw [List.map_cons, List.cons_append, scan]
      by_cases hd : emits state (next state (classify (some d))) = true
      · obtain ⟨hkeeps, howed⟩ := owed_emit mode source h start d rest hd
        rw [if_pos hd, howed, ← ih hkeeps (start + text.length)]
        rfl
      · obtain ⟨hkeeps, howed⟩ := owed_keep mode source h start d rest (Bool.eq_false_iff.mpr hd)
        rw [if_neg hd, howed, ← ih hkeeps start, List.length_append]
        rfl

/-- **The machine is the tokenizer**: it finds the same tokens and the same faults. -/
theorem lex_eq (mode : Mode) (source : Text) :
    lex mode source = CounterFormula.lex mode source := by
  have h : scan mode source .blank [] 0 0 (source.map some ++ trailer) =
      readingFrom mode source 0 source .boundary :=
    scan_eq_owed mode source .blank 0 source
  rw [lex, h]
  rfl

end CounterFormula.Machine
