import CounterFormula.Proofs.Index
import CounterFormula.Proofs.Token.Machine

/-!
# Checked — Lexer

The program with its failures in the open.  Some of its steps are not made for every value: a
difference may be less than nothing, an index may lie outside of a list, a text may be cut within a
character.  The checked program makes the same steps in the same order, and is `none` as soon as one
of them cannot be made.

Here are the steps on indices, and the tokenizer.  A token ends before the offset at which it
leaves, and the tokens of a text are followed by a mark, which a reader of the tokens drops.

* `scan?_eq`: no token leaves at offset 0, so that every token has an end.
* `lex?_eq`: a text is always cut into tokens, and into those of `lex`.
* `walk?_eq`: a walk through the tokens from the right, when each of its steps is made.
-/

namespace CounterFormula.Checked

open Lexer (Reading)
open Machine (State classify emits next trailer)

/-! ### Steps that can fail -/

/-- The difference of two offsets; it fails below zero. -/
def sub? (a b : Nat) : Option Nat :=
  if b ≤ a then some (a - b) else none

theorem sub?_of_le {a b : Nat} (h : b ≤ a) : sub? a b = some (a - b) :=
  if_pos h

/-- The elements from index `first` on, up to the one before index `last`; it fails outside of the
list. -/
def slice? {α : Type} (list : List α) (first last : Nat) : Option (List α) := do
  let count ← sub? last first
  if last ≤ list.length then some ((list.drop first).take count) else none

theorem slice?_of_le {α : Type} {list : List α} {first last : Nat} (hfirst : first ≤ last)
    (hlast : last ≤ list.length) :
    slice? list first last = some ((list.drop first).take (last - first)) := by
  rw [slice?, sub?_of_le hfirst]
  exact if_pos hlast

/-! ### The tokenizer -/

/-- The last characters of `source` up to and including `offset`. -/
def snippet? (source : Text) (offset : Nat) : Option Text :=
  let last := min (offset + 1) source.length
  slice? source (last - Lexer.snippetLimit) last

theorem snippet?_eq (source : Text) (offset : Nat) :
    snippet? source offset = some (Lexer.snippet source offset) := by
  have htake : source.take (offset + 1) = source.take (min (offset + 1) source.length) := by
    rw [← List.take_take, List.take_length]
  rw [snippet?, slice?_of_le (Nat.sub_le _ _) (Nat.min_le_right _ _), Lexer.snippet,
    List.length_take, htake, List.drop_take]

/-- The token that leaves at offset `pos`. -/
def token? (kind : TokenClass) (text : Text) (start pos : Nat) : Option Token := do
  let last ← sub? pos 1
  some { Machine.token kind text start pos with last := last }

theorem token?_eq {pos : Nat} (h : 0 < pos) (kind : TokenClass) (text : Text) (start : Nat) :
    token? kind text start pos = some (Machine.token kind text start pos) := by
  rw [token?, sub?_of_le h, ← (Machine.span_token kind text start pos).2]
  rfl

/-- What leaves with `text`. -/
def finish? (mode : Mode) (state : State) (text : Text) (start pos : Nat) : Option Reading :=
  match state with
  | .blank | .within .stop => some .empty
  | .within .error =>
    if mode = .relaxed then some .empty
    else do
      let token ← token? .error text start pos
      some ⟨[token], []⟩
  | .within kind => do
    let token ← token? kind text start pos
    some ⟨[token], []⟩

theorem finish?_eq (mode : Mode) {state : State} (text : Text) (start : Nat) {pos : Nat}
    (h : state = .blank ∨ 0 < pos) :
    finish? mode state text start pos = some (Machine.finish mode state text start pos) := by
  cases state with
  | blank => rfl
  | within kind =>
      have hpos : 0 < pos := h.resolve_left nofun
      cases kind with
      | stop => rfl
      | error =>
          rw [finish?, Machine.finish, token?_eq hpos, apply_ite some]
          rfl
      | _ => simp only [finish?, Machine.finish, token?_eq hpos, Option.bind_eq_bind,
          Option.bind_some]

/-- What is reported when the machine comes to `state` at offset `pos`. -/
def announce? (mode : Mode) (source : Text) (state : State) (pos : Nat) : Option Reading :=
  if state = .within .error ∧ mode = .strict then do
    let snippet ← snippet? source pos
    some ⟨[], [⟨pos, snippet⟩]⟩
  else
    some .empty

theorem announce?_eq (mode : Mode) (source : Text) (state : State) (pos : Nat) :
    announce? mode source state pos = some (Machine.announce mode source state pos) := by
  rw [announce?, Machine.announce, snippet?_eq, apply_ite some]
  rfl

/-- What the machine finds from offset `pos` on. -/
def scan? (mode : Mode) (source : Text) (state : State) (text : Text) (start pos : Nat) :
    List (Option Char) → Option Reading
  | [] => some .empty
  | input :: more =>
    let state' := next state (classify input)
    if emits state state' then do
      let left ← finish? mode state text start pos
      let told ← announce? mode source state' pos
      let found ← scan? mode source state' input.toList pos (pos + 1) more
      some (left.append (told.append found))
    else
      scan? mode source state (text ++ input.toList) start (pos + 1) more

/-- **No token leaves at offset 0**, where the machine has kept nothing. -/
theorem scan?_eq (mode : Mode) (source : Text) {state : State} (text : Text) (start : Nat)
    {pos : Nat} (h : state = .blank ∨ 0 < pos) (inputs : List (Option Char)) :
    scan? mode source state text start pos inputs =
      some (Machine.scan mode source state text start pos inputs) := by
  induction inputs generalizing state text start pos with
  | nil => rfl
  | cons input more ih =>
      have hnext {state : State} : state = .blank ∨ 0 < pos + 1 := .inr (Nat.succ_pos pos)
      rw [scan?, Machine.scan, finish?_eq mode text start h, announce?_eq, ih _ _ hnext,
        ih _ _ hnext, apply_ite some]
      rfl

/-- The tokens of `source` with the mark behind them, and the faults. -/
def lex? (mode : Mode) (source : Text) : Option (List Token × List LexicalFault) := do
  let reading ← scan? mode source .blank [] 0 0 (source.map some ++ trailer)
  some (reading.tokens ++ [.stop source.length], reading.faults)

/-- **A text is always cut into tokens.** -/
theorem lex?_eq (mode : Mode) (source : Text) :
    lex? mode source = some ((lex mode source).tokens, (lex mode source).faults) := by
  rw [lex?, scan?_eq mode source [] 0 (.inl rfl), ← Machine.lex_eq]
  rfl

/-- The tokens before the mark. -/
def body? (stream : List Token) : Option (List Token) := do
  let count ← sub? stream.length 1
  slice? stream 0 count

theorem body?_concat (body : List Token) (mark : Token) : body? (body ++ [mark]) = some body := by
  have hlength : (body ++ [mark]).length - 1 = body.length := by simp
  rw [body?, sub?_of_le (by simp), hlength]
  refine (slice?_of_le (Nat.zero_le _) (by simp)).trans ?_
  simp

/-! ### Walks -/

/-- `step` at each index below the given one, the greatest first. -/
def downFrom? {σ : Type} (step : Nat → σ → Option σ) : Nat → σ → Option σ
  | 0, state => some state
  | i + 1, state => do
    let state ← step i state
    downFrom? step i state

/-- `step` at each token before the mark, from the right. -/
def walk? {σ : Type} (step : Nat → σ → Option σ) (stream : List Token) (state : σ) :
    Option σ := do
  let body ← body? stream
  downFrom? step body.length state

theorem downFrom?_eq {α σ : Type} {step : Nat → σ → Option σ} (give : List α → σ) (list : List α)
    (hstep : ∀ i a rest, list.drop i = a :: rest → step i (give rest) = some (give (a :: rest)))
    (n : Nat) (hn : n ≤ list.length) :
    downFrom? step n (give (list.drop n)) = some (give list) := by
  induction n with
  | zero => rfl
  | succ n ih =>
      have hdrop := List.drop_eq_getElem_cons hn
      rw [downFrom?, hstep n _ _ hdrop, ← hdrop]
      exact ih (Nat.le_of_succ_le hn)

/-- **A walk** never fails, when each step is made: from what the tokens behind an index give to
what the tokens from it on give. -/
theorem walk?_eq {σ : Type} {step : Nat → σ → Option σ} (give : List Token → σ)
    (body : List Token) (mark : Token)
    (hstep : ∀ i token rest, body.drop i = token :: rest →
      step i (give rest) = some (give (token :: rest))) :
    walk? step (body ++ [mark]) (give []) = some (give body) := by
  have hall := downFrom?_eq give body hstep body.length (Nat.le_refl _)
  rw [List.drop_length] at hall
  rw [walk?, body?_concat]
  exact hall

end CounterFormula.Checked
