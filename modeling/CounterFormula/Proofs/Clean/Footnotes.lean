import CounterFormula.Proofs.Clean.Matches
import Mathlib.Logic.Relation

/-!
# Clean — Footnotes

Which footnotes the rule takes out of a text: those that do not stand behind the sign and the name
of a counter.  The rule reads from the left (`Reads`), and passes over a call as a whole.  It meets
every footnote that is to go, since no call begins before the place it has come to and has its list
beyond it (`Settled`).

* `apply_footnote_eq_self_iff`: a text is left as it is just when each of its footnotes stands
  behind a sign and a counter.
* `takesOut_of_reads`: what the rule takes out are footnotes that do not, one by one, and nothing
  else.
-/

namespace CounterFormula.Clean

variable {text left front before after run rest name blanks list : Text} {c : Char}

/-- `text` begins with a parenthesized list of numbers. -/
def BeginsFootnote (text : Text) : Prop :=
  ∃ list rest, text = parenthesized list ++ rest ∧ IsNumberList list

/-- `text` ends with a summation sign, the name of a counter, and blanks. -/
def EndsWithCallee (text : Text) : Prop :=
  ∃ before name blanks, text = before ++ callee name blanks ∧ IsIdentifier name ∧ IsBlanks blanks

/-- A call that begins in `front`, when `text` follows, has its parenthesis in `front` too. -/
def Settled (front text : Text) : Prop :=
  ∀ before after name blanks rest, front = before ++ '~' :: after → IsIdentifier name →
    IsBlanks blanks → BeginsFootnote rest → after ++ text = name ++ blanks ++ rest →
      (name ++ blanks).length < after.length

theorem settled_nil (text : Text) : Settled [] text := by
  intro before after name blanks rest hfront
  exact absurd (congrArg List.length hfront) (by simp)

theorem Settled.append (h : Settled front (run ++ text)) (hrun : Settled run text) :
    Settled (front ++ run) text := by
  intro before after name blanks rest hfront hname hblanks hrest hcall
  rcases List.append_eq_append_iff.mp hfront with ⟨before', rfl, hrun'⟩ | ⟨front', rfl, hafter⟩
  · exact hrun before' after name blanks rest hrun' hname hblanks hrest hcall
  · cases front' with
    | nil => exact hrun [] after name blanks rest hafter.symm hname hblanks hrest hcall
    | cons sign front' =>
        obtain ⟨rfl, rfl⟩ := List.cons.inj hafter
        have hcall' : front' ++ (run ++ text) = name ++ blanks ++ rest :=
          (List.append_assoc front' run text).symm.trans hcall
        have hlt := h before front' name blanks rest rfl hname hblanks hrest hcall'
        exact Nat.lt_of_lt_of_le hlt (List.sublist_append_left front' run).length_le

theorem settled_of_no_sign (h : '~' ∉ front) (text : Text) : Settled front text := by
  rintro before after name blanks rest rfl
  exact absurd (List.mem_append_right before List.mem_cons_self) h

theorem settled_singleton (h : footnote.outcome (c :: rest) = none) : Settled [c] rest := by
  intro before after name blanks rest' hfront hname hblanks hrest hcall
  cases before with
  | nil =>
      obtain ⟨rfl, rfl⟩ := List.cons.inj hfront
      obtain ⟨list, rest', rfl, hlist⟩ := hrest
      have htext : '~' :: rest = call name blanks list ++ rest' := by
        rw [List.nil_append] at hcall
        rw [hcall, call, callee]
        simp
      rw [htext, outcome_call hname hblanks hlist] at h
      cases h
  | cons d before => exact absurd (congrArg List.length hfront) (by simp)

/-! ### Parentheses of a call -/

/-- Neither a sign nor a parenthesis is in a name or among blanks. -/
theorem not_mem_of_operator (hname : IsIdentifier name) (hblanks : IsBlanks blanks)
    (hc : Lexer.isOperator c = true) : c ∉ name ++ blanks :=
  List.not_mem_append (hname.not_mem (Lexer.inWord_of_isOperator hc))
    (hblanks.not_mem (Lexer.isBlank_of_isOperator hc))

theorem not_mem_parenthesized (hlist : IsRangeList list) : '~' ∉ parenthesized list := by
  intro hmem
  rcases List.mem_append.mp hmem with hmem | hmem
  · rcases List.mem_cons.mp hmem with hsign | hmem
    · cases hsign
    · exact hlist.not_mem (by decide) (by decide) (by decide) hmem
  · cases List.mem_singleton.mp hmem

theorem parenthesis_not_mem_list (hlist : IsRangeList list) : '(' ∉ list ++ [')'] := by
  intro hmem
  rcases List.mem_append.mp hmem with hmem | hmem
  · exact hlist.not_mem (by decide) (by decide) (by decide) hmem
  · cases List.mem_singleton.mp hmem

theorem parenthesis_not_mem_callee (hname : IsIdentifier name) (hblanks : IsBlanks blanks) :
    '(' ∉ callee name blanks := fun hmem =>
  (List.mem_cons.mp hmem).elim nofun (not_mem_of_operator hname hblanks (by decide))

/-- The sign of a call is its first character only. -/
theorem sign_not_mem_call (hname : IsIdentifier name) (hblanks : IsBlanks blanks)
    (hlist : IsRangeList list) : '~' ∉ name ++ blanks ++ parenthesized list := fun hmem =>
  (List.mem_append.mp hmem).elim (not_mem_of_operator hname hblanks (by decide))
    (not_mem_parenthesized hlist)

theorem eq_of_call_eq (hname : IsIdentifier name) (hblanks : IsBlanks blanks)
    (hlist : IsRangeList list) (h : call name blanks list = before ++ '~' :: after) :
    before = [] ∧ after = name ++ blanks ++ parenthesized list := by
  have hcall : [] ++ '~' :: (name ++ blanks ++ parenthesized list) = before ++ '~' :: after := by
    rw [← h, call, callee]
    simp
  obtain ⟨hbefore, -, hafter⟩ := (List.append_cons_inj_of_notMem List.not_mem_nil
    (sign_not_mem_call hname hblanks hlist)).mp hcall
  exact ⟨hbefore.symm, hafter.symm⟩

/-- The parenthesis of a call is its only one. -/
theorem eq_callee_of_call_eq (hname : IsIdentifier name) (hblanks : IsBlanks blanks)
    (hlist : IsRangeList list) (h : call name blanks list = before ++ '(' :: after) :
    before = callee name blanks ∧ after = list ++ [')'] := by
  have hcall : callee name blanks ++ '(' :: (list ++ [')']) = before ++ '(' :: after := h
  obtain ⟨hbefore, -, hafter⟩ := (List.append_cons_inj_of_notMem
    (parenthesis_not_mem_callee hname hblanks) (parenthesis_not_mem_list hlist)).mp hcall
  exact ⟨hbefore.symm, hafter.symm⟩

/-- Up to the first `c` there is one way to read. -/
theorem eq_of_append_cons {front' back back' : Text} (h : c ∉ front) (h' : c ∉ front')
    (heq : front ++ c :: back = front' ++ c :: back') : front = front' ∧ back = back' := by
  rcases List.append_eq_append_iff.mp heq with ⟨middle, rfl, hback⟩ | ⟨middle, rfl, hback⟩
  · cases middle with
    | nil => exact ⟨(List.append_nil front).symm, (List.cons.inj hback).2⟩
    | cons d middle =>
        obtain ⟨rfl, -⟩ := List.cons.inj hback
        exact absurd (List.mem_append_right front List.mem_cons_self) h'
  · cases middle with
    | nil => exact ⟨List.append_nil front', (List.cons.inj hback).2.symm⟩
    | cons d middle =>
        obtain ⟨rfl, -⟩ := List.cons.inj hback
        exact absurd (List.mem_append_right front' List.mem_cons_self) h

theorem settled_call (hname : IsIdentifier name) (hblanks : IsBlanks blanks)
    (hlist : IsRangeList list) (text : Text) : Settled (call name blanks list) text := by
  intro before after name' blanks' rest hfront hname' hblanks' hrest hcall
  obtain ⟨list', rest', rfl, -⟩ := hrest
  obtain ⟨-, rfl⟩ := eq_of_call_eq hname hblanks hlist hfront
  have hcall' : name ++ blanks ++ '(' :: (list ++ ')' :: text) =
      name' ++ blanks' ++ '(' :: (list' ++ ')' :: rest') := by
    simpa [parenthesized] using hcall
  obtain ⟨hsame, -⟩ := eq_of_append_cons (not_mem_of_operator hname hblanks (by decide))
    (not_mem_of_operator hname' hblanks' (by decide)) hcall'
  have hlength : (name ++ blanks ++ parenthesized list).length =
      (name ++ blanks).length + (parenthesized list).length := List.length_append
  rw [← hsame, hlength]
  exact Nat.lt_add_of_pos_right (Nat.succ_pos _)

theorem Settled.not_endsWithCallee (h : Settled front text) (htext : BeginsFootnote text) :
    ¬ EndsWithCallee front := by
  rintro ⟨before, name, blanks, rfl, hname, hblanks⟩
  exact Nat.lt_irrefl _
    (h before (name ++ blanks) name blanks text rfl hname hblanks htext rfl)

theorem EndsWithCallee.append_left (h : EndsWithCallee text) (front : Text) :
    EndsWithCallee (front ++ text) := by
  obtain ⟨before, name, blanks, rfl, hname, hblanks⟩ := h
  exact ⟨front ++ before, name, blanks, (List.append_assoc _ _ _).symm, hname, hblanks⟩

/-! ### Reading from the left -/

/-- `Reads text left`: the rule reads `text` and leaves `left` of it. -/
inductive Reads : Text → Text → Prop where
  | done : Reads [] []
  | footnote {list rest left : Text} (hlist : IsNumberList list) (h : Reads rest left) :
      Reads (parenthesized list ++ rest) left
  | call {name blanks list rest left : Text} (hname : IsIdentifier name) (hblanks : IsBlanks blanks)
      (hlist : IsNumberList list) (h : Reads rest left) :
      Reads (call name blanks list ++ rest) (call name blanks list ++ left)
  | other {c : Char} {rest left : Text} (hnone : Clean.footnote.outcome (c :: rest) = none)
      (h : Reads rest left) : Reads (c :: rest) (c :: left)

theorem reads_apply (text : Text) : Reads text (footnote.apply text) := by
  fun_induction Rule.apply footnote text with
  | case1 => exact .done
  | case2 c rest erasure herasure ih =>
      have houtcome : footnote.outcome (c :: rest) = some (erasure.kept, erasure.rest) :=
        congrArg (Option.map _) herasure
      rcases footnote_cases houtcome with ⟨list, hlist, htext, hkept⟩ |
        ⟨name, blanks, list, hname, hblanks, hlist, htext, hkept⟩
      · have hreads := Reads.footnote hlist ih
        rwa [← htext, ← List.nil_append (footnote.apply _), ← hkept] at hreads
      · have hreads := Reads.call hname hblanks hlist ih
        rwa [← htext, ← hkept] at hreads
  | case3 c rest hnone ih => exact .other (congrArg (Option.map _) hnone) ih

/-! ### Texts that are left as they are -/

/-- A footnote in a call, or begun in one, is the list of the call. -/
theorem endsWithCallee_of_call (hname : IsIdentifier name) (hblanks : IsBlanks blanks)
    (hlist : IsNumberList list) (hrest : BeginsFootnote rest)
    (h : call name blanks list ++ text = before ++ rest)
    (htext : ∀ before rest, text = before ++ rest → BeginsFootnote rest → EndsWithCallee before) :
    EndsWithCallee before := by
  rcases List.append_eq_append_iff.mp h with ⟨before', rfl, htext'⟩ | ⟨within, hcall, hrest'⟩
  · exact (htext before' rest htext' hrest).append_left _
  obtain ⟨list', rest', rfl, hlist'⟩ := hrest
  cases within with
  | nil =>
      rw [List.append_nil] at hcall
      rw [← hcall, ← List.append_nil (call name blanks list)]
      exact (htext [] _ hrest'.symm ⟨list', rest', rfl, hlist'⟩).append_left _
  | cons d within =>
      obtain ⟨rfl, -⟩ := List.cons.inj hrest'
      obtain ⟨rfl, -⟩ := eq_callee_of_call_eq hname hblanks hlist.isRangeList hcall
      exact ⟨[], name, blanks, rfl, hname, hblanks⟩

theorem Reads.length_le (h : Reads text left) : left.length ≤ text.length := by
  induction h with
  | done => exact Nat.le_refl _
  | footnote _ _ ih => exact Nat.le_trans ih (List.sublist_append_right _ _).length_le
  | call _ _ _ _ ih =>
      rw [List.length_append, List.length_append]
      exact Nat.add_le_add_left ih _
  | other _ _ ih => exact Nat.succ_le_succ ih

theorem endsWithCallee_of_reads (h : Reads text left) (hsame : left = text) :
    ∀ before rest, text = before ++ rest → BeginsFootnote rest → EndsWithCallee before := by
  induction h with
  | done =>
      rintro before rest htext ⟨list, after, rfl, -⟩
      exact absurd (congrArg List.length htext) (by simp [parenthesized])
  | @footnote list rest left hlist h _ =>
      -- what is taken out is missing afterwards
      have hless := h.length_le
      rw [hsame, parenthesized, List.length_append, List.length_append, List.length_cons] at hless
      omega
  | call hname hblanks hlist _ ih =>
      intro before rest hsplit hrest
      exact endsWithCallee_of_call hname hblanks hlist hrest hsplit
        (ih (List.append_cancel_left hsame))
  | @other c more left hnone _ ih =>
      intro before rest hsplit hrest
      cases before with
      | nil =>
          obtain ⟨list, after, rfl, hlist⟩ := hrest
          rw [hsplit, List.nil_append, outcome_parenthesized hlist] at hnone
          cases hnone
      | cons d before =>
          obtain ⟨rfl, hmore⟩ := List.cons.inj hsplit
          exact (ih (List.cons.inj hsame).2 before rest hmore hrest).append_left [c]

theorem eq_of_endsWithCallee (h : Reads text left) (hsettled : Settled front text)
    (hcallee : ∀ before rest, text = before ++ rest → BeginsFootnote rest →
      EndsWithCallee (front ++ before)) : left = text := by
  induction h generalizing front with
  | done => rfl
  | @footnote list rest left hlist _ _ =>
      have hbegins : BeginsFootnote (parenthesized list ++ rest) := ⟨list, rest, rfl, hlist⟩
      have hfront := hcallee [] _ rfl hbegins
      rw [List.append_nil] at hfront
      exact absurd hfront (hsettled.not_endsWithCallee hbegins)
  | @call name blanks list more left hname hblanks hlist _ ih =>
      rw [ih (hsettled.append (settled_call hname hblanks hlist.isRangeList more))]
      intro before rest hrest hbegins
      rw [List.append_assoc]
      exact hcallee _ rest (by rw [hrest, List.append_assoc]) hbegins
  | @other c more left hnone _ ih =>
      have hsettled' : Settled (front ++ [c]) more := hsettled.append (settled_singleton hnone)
      rw [ih hsettled']
      intro before rest hrest hbegins
      rw [List.append_assoc]
      exact hcallee (c :: before) rest (congrArg (c :: ·) hrest) hbegins

/-- **The rule leaves a text as it is** just when each of its footnotes stands behind a sign and a
counter. -/
theorem apply_footnote_eq_self_iff (text : Text) :
    footnote.apply text = text ↔
      ∀ before rest, text = before ++ rest → BeginsFootnote rest → EndsWithCallee before :=
  ⟨endsWithCallee_of_reads (reads_apply text),
    eq_of_endsWithCallee (reads_apply text) (settled_nil text)⟩

/-! ### What is taken out -/

/-- A footnote that does not stand behind a sign and a counter is taken out. -/
inductive TakesOne : Text → Text → Prop where
  | footnote {before list after : Text} (hlist : IsNumberList list)
      (hcallee : ¬ EndsWithCallee before) :
      TakesOne (before ++ parenthesized list ++ after) (before ++ after)

/-- Such footnotes are taken out, one by one. -/
def TakesOut : Text → Text → Prop :=
  Relation.ReflTransGen TakesOne

/-- **The rule takes out footnotes only**, and none behind a sign and a counter. -/
theorem takesOut_of_reads (h : Reads text left) (hsettled : Settled front text) :
    TakesOut (front ++ text) (front ++ left) := by
  induction h generalizing front with
  | done => exact .refl
  | @footnote list rest left hlist _ ih =>
      -- from the right: the footnotes behind this one are taken out before it
      have hcallee := hsettled.not_endsWithCallee ⟨list, rest, rfl, hlist⟩
      have hbehind := ih (hsettled.append
        (settled_of_no_sign (not_mem_parenthesized hlist.isRangeList) rest))
      have hone : TakesOne (front ++ parenthesized list ++ left) (front ++ left) :=
        .footnote hlist hcallee
      rw [← List.append_assoc]
      exact hbehind.tail hone
  | @call name blanks list rest left hname hblanks hlist _ ih =>
      have hbehind := ih (hsettled.append (settled_call hname hblanks hlist.isRangeList rest))
      simpa only [List.append_assoc] using hbehind
  | @other c rest left hnone _ ih =>
      have hsettled' : Settled (front ++ [c]) rest := hsettled.append (settled_singleton hnone)
      have hbehind := ih hsettled'
      simpa only [List.append_assoc, List.singleton_append] using hbehind

end CounterFormula.Clean
