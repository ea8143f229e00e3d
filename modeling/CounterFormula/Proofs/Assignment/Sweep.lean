import CounterFormula.Assignment
import CounterFormula.Proofs.Text.Replace
import CounterFormula.Proofs.Token.Surroundings

/-!
# Assignment — Sweep

What putting the values in does to the parts of a formula.  A sweep replaces one name after the
other, wherever it occurs, also in what an earlier value has brought in.  A character that is in no
name parts a text, before the sweep and after each of its steps.

* `sweep_append_of_getLast?`, `sweep_append_of_head?`: a text parted by such a character is swept
  in parts.
* `sweep_eq_self`: a text in which no name occurs stays as it is.
* `name_of_mem_extract`: the names that are assigned are variables of the formula.
* `exists_substitute_eq`: what stands between boundaries, before the first assignment, is swept on
  its own.
-/

namespace CounterFormula.Assignment

variable {values : List (Text × Text)} {front back text : Text} {c : Char}

/-- `c` is in no name. -/
def NotNamed (values : List (Text × Text)) (c : Char) : Prop :=
  ∀ value ∈ values, c ∉ value.1

/-! ### Parts -/

theorem sweep_nil (values : List (Text × Text)) : sweep values [] = [] := by
  induction values with
  | nil => rfl
  | cons value rest ih =>
      have hreplace : Text.replace value.1 value.2 [] = [] := by rw [Text.replace]
      exact (congrArg (sweep rest) hreplace).trans ih

/-- **A character that is in no name** parts a text. -/
theorem sweep_append_cons (hc : NotNamed values c) (front back : Text) :
    sweep values (front ++ c :: back) = sweep values front ++ c :: sweep values back := by
  induction values generalizing front back with
  | nil => rfl
  | cons value rest ih =>
      obtain ⟨hvalue, hrest⟩ := List.forall_mem_cons.mp hc
      have hreplace := @Text.replace_append_cons c value.1 value.2 front back hvalue
      exact (congrArg (sweep rest) hreplace).trans (ih hrest _ _)

theorem sweep_append_of_getLast? (h : ∀ c, front.getLast? = some c → NotNamed values c)
    (back : Text) : sweep values (front ++ back) = sweep values front ++ sweep values back := by
  rcases List.eq_nil_or_concat' front with rfl | ⟨start, c, rfl⟩
  · rw [sweep_nil, List.nil_append, List.nil_append]
  · have hc : NotNamed values c := h c List.getLast?_concat
    rw [List.append_assoc, List.singleton_append, sweep_append_cons hc, sweep_append_cons hc,
      sweep_nil, List.append_assoc, List.singleton_append]

theorem sweep_append_of_head? (h : ∀ c, back.head? = some c → NotNamed values c) (front : Text) :
    sweep values (front ++ back) = sweep values front ++ sweep values back := by
  cases back with
  | nil => rw [sweep_nil, List.append_nil, List.append_nil]
  | cons c rest =>
      have hc : NotNamed values c := h c rfl
      have hback : sweep values (c :: rest) = c :: sweep values rest := by
        rw [← List.nil_append (c :: rest), sweep_append_cons hc, sweep_nil, List.nil_append]
      rw [sweep_append_cons hc, hback]

theorem sweep_eq_self (h : ∀ value ∈ values, ¬ value.1 <:+: text) : sweep values text = text := by
  induction values with
  | nil => rfl
  | cons value rest ih =>
      obtain ⟨hvalue, hrest⟩ := List.forall_mem_cons.mp h
      have hreplace := @Text.replace_eq_self value.1 value.2 text hvalue
      exact (congrArg (sweep rest) hreplace).trans (ih hrest)

/-! ### Names -/

variable {table : List Assignment} {assignment : Assignment}

theorem isVariable_of_definedName {previous : Option Token} {name : Token}
    (h : definedName table previous = .ok name) :
    previous = some name ∧ name.isVariable = true := by
  cases previous with
  | none => cases h
  | some token =>
      rw [definedName] at h
      split at h
      · cases h
      · rename_i hvariable
        split at h
        · cases h
        · split at h
          · cases h
          · obtain rfl := Except.ok.inj h
            exact ⟨rfl, by simpa using hvariable⟩

/-- What is added to a table is named by a variable among the tokens. -/
theorem name_of_mem_extractFrom {previous : Option Token} {tokens : List Token}
    (h : assignment ∈ (extractFrom table previous tokens).1) :
    assignment ∈ table ∨
      (previous = some assignment.name ∨ assignment.name ∈ tokens) ∧
        assignment.name.isVariable = true := by
  -- the token before what is left is one of the tokens
  have hstep {token name : Token} {rest : List Token}
      (h : some token = some name ∨ name ∈ rest) : name ∈ token :: rest := by
    rcases h with h | h
    · rw [Option.some.inj h]
      exact List.mem_cons_self
    · exact List.mem_cons_of_mem token h
  fun_induction extractFrom table previous tokens with
  | case1 => exact .inl h
  | case2 table previous token rest _ _ _ _ _ hrest ih =>
      rw [hrest] at ih
      exact (ih h).imp_right fun h => ⟨.inr (hstep h.1), h.2⟩
  | case3 table previous token rest _ name hdefined ih =>
      rcases ih h with hmem | ⟨hname, hvariable⟩
      · rcases List.mem_append.mp hmem with hmem | hmem
        · exact .inl hmem
        · obtain ⟨hprevious, hvariable⟩ := isVariable_of_definedName hdefined
          rw [List.mem_singleton.mp hmem]
          exact .inr ⟨.inl hprevious, hvariable⟩
      · refine .inr ⟨.inr (hstep (hname.imp_right fun hname => ?_)), hvariable⟩
        rw [← takeValue_append rest]
        exact List.mem_append_right _ hname
  | case4 table previous token rest _ ih =>
      exact (ih h).imp_right fun h => ⟨.inr (hstep h.1), h.2⟩

/-- **The names that are assigned** are variables among the tokens. -/
theorem name_of_mem_extract {tokens : List Token} (h : assignment ∈ (extract tokens).1) :
    assignment.name ∈ tokens ∧ assignment.name.isVariable = true := by
  rcases name_of_mem_extractFrom h with hmem | ⟨hname, hvariable⟩
  · cases hmem
  · exact ⟨hname.resolve_left nofun, hvariable⟩

/-! ### The formula proper -/

/-- Where the first assignment begins in `source`; its end without one. -/
def cut (source : Text) : List Assignment → Nat
  | [] => source.length
  | first :: _ => first.name.first

/-- What stands before the first assignment is kept up to its last character that is not blank. -/
theorem exists_formulaPart_eq (hc : Text.isBlank c = false)
    (hcut : front.length < cut (front ++ c :: back) table) :
    ∃ rest, formulaPart (front ++ c :: back) table = front ++ c :: rest := by
  cases table with
  | nil => exact ⟨back, rfl⟩
  | cons first more =>
      obtain ⟨count, hcount⟩ : ∃ count, first.name.first = front.length + (count + 1) :=
        ⟨first.name.first - front.length - 1, by rw [cut] at hcut; omega⟩
      refine ⟨Text.trimEnd (back.take count), ?_⟩
      rw [formulaPart, hcount, List.take_length_add_append, List.take_succ_cons,
        Text.trimEnd_append_cons hc]

/-! ### A text between boundaries -/

variable {mode : Mode} {source blanks rest : Text}

/-- The names that are assigned stand in the text, spelled as variables are. -/
theorem stands_of_mem_extract (h : assignment ∈ (extract (lex mode source).body).1) :
    Lexer.Stands source assignment.name ∧ ∃ more, assignment.name.text = '$' :: more ∧
      ∀ d ∈ more, Lexer.continuesVariable d = true := by
  obtain ⟨hname, hvariable⟩ := name_of_mem_extract h
  have hkind := Token.kind_of_isVariable hvariable
  have hstands := stands_of_mem_body hname (.inr hkind)
  obtain ⟨c, more, htext, hbegins, hmore⟩ := hstands.run
  rw [hkind] at hbegins hmore
  cases hbegins
  exact ⟨hstands, more, htext, hmore⟩

/-- `name` is spelled as a variable is. -/
def IsName (name : Text) : Prop :=
  ∃ more, name = '$' :: more ∧ ∀ d ∈ more, Lexer.continuesVariable d = true

theorem isName_of_mem_values {value : Text × Text}
    (h : value ∈ Assignment.values text (extract (lex mode source).body).1) : IsName value.1 := by
  obtain ⟨assignment, hassignment, rfl⟩ := List.mem_map.mp h
  exact (stands_of_mem_extract hassignment).2

/-- Every name has a sigil. -/
theorem IsName.sigil_mem {name : Text} (h : IsName name) : '$' ∈ name := by
  obtain ⟨more, rfl, -⟩ := h
  exact List.mem_cons_self

theorem sigil_mem_of_mem_values {value : Text × Text}
    (h : value ∈ Assignment.values text (extract (lex mode source).body).1) : '$' ∈ value.1 :=
  (isName_of_mem_values h).sigil_mem

/-- A character that neither is a sigil nor carries a name on is in no name. -/
theorem notNamed_of_isName (hnames : ∀ value ∈ values, IsName value.1)
    (hc : Lexer.continuesVariable c = false) (hsigil : c ≠ '$') : NotNamed values c := by
  intro value hvalue hmem
  obtain ⟨more, hname, hmore⟩ := hnames value hvalue
  rw [hname] at hmem
  rcases List.mem_cons.mp hmem with rfl | hmem
  · exact hsigil rfl
  · rw [hmore c hmem] at hc
    cases hc

theorem notNamed_values (mode : Mode) (source text : Text)
    (hc : Lexer.continuesVariable c = false) (hsigil : c ≠ '$') :
    NotNamed (Assignment.values text (extract (lex mode source).body).1) c :=
  notNamed_of_isName (fun _ hvalue => isName_of_mem_values hvalue) hc hsigil

/-- A boundary is in no name. -/
theorem notNamed_of_not_inWord (hnames : ∀ value ∈ values, IsName value.1) (c : Char)
    (hc : Lexer.inWord c = false) : NotNamed values c := by
  refine notNamed_of_isName hnames (Lexer.not_continuesVariable_of_not_inWord hc) ?_
  rintro rfl
  exact absurd hc (by decide)

/-- The first assignment does not begin before the text behind `front` breaks off, when it does not
begin in `front`. -/
theorem lt_cut_of_breaks (hbreaks : Lexer.Breaks back blanks c rest) (hc : c ≠ '$')
    (hcut : front.length ≤ cut (front ++ back) (extract (lex mode (front ++ back)).body).1) :
    (front ++ blanks).length < cut (front ++ back) (extract (lex mode (front ++ back)).body).1 := by
  rw [List.length_append]
  cases htable : (extract (lex mode (front ++ back)).body).1 with
  | nil =>
      rw [cut, hbreaks.eq_append, List.length_append, List.length_append, List.length_cons]
      omega
  | cons first more =>
      have hmem : first ∈ (extract (lex mode (front ++ back)).body).1 :=
        htable ▸ List.mem_cons_self
      obtain ⟨hstands, text, htext, -⟩ := stands_of_mem_extract hmem
      rw [htable] at hcut
      have hsigil : (front ++ back)[first.name.first]? = some '$' := by
        rw [← List.head?_drop, hstands.drop_eq, htext]
        rfl
      have hbreaks' : Lexer.Breaks ((front ++ back).drop front.length) blanks c rest := by
        rwa [List.drop_left]
      exact hbreaks'.length_le hcut hsigil (by decide) hc.symm

/-- **A text between boundaries** is swept on its own: when it stands before the first assignment,
what pass 2 makes of it does not depend on the text around it. -/
theorem exists_substitute_eq (hfront : Lexer.EndsOutside Lexer.inWord front)
    (hbreaks : Lexer.Breaks back blanks c rest) (hc : c ≠ '$')
    (hsource : source = front ++ text ++ back)
    (hcut : (front ++ text).length ≤ cut source (extract (lex mode source).body).1) :
    let table := (extract (lex mode source).body).1
    let values := Assignment.values source table
    ∃ behind, substitute source table = sweep values front ++ sweep values text ++ behind := by
  subst hsource
  intro table values
  have hproper : (front ++ text ++ blanks).length < cut (front ++ text ++ back) table :=
    lt_cut_of_breaks hbreaks hc hcut
  have hback : front ++ text ++ back = front ++ text ++ blanks ++ c :: rest := by
    rw [hbreaks.eq_append, List.append_assoc _ blanks]
  rw [hback] at hproper
  obtain ⟨behind, hpart⟩ := exists_formulaPart_eq hbreaks.not_isBlank hproper
  rw [← hback] at hpart
  have hbehind : Lexer.Breaks (blanks ++ c :: behind) blanks c behind :=
    ⟨rfl, hbreaks.isBlank, hbreaks.not_isBlank, hbreaks.stops⟩
  have hlast : ∀ d, front.getLast? = some d → NotNamed values d := by
    intro d hd
    have hword := hfront d hd
    refine notNamed_values mode _ _ (Lexer.not_continuesVariable_of_not_inWord hword) ?_
    rintro rfl
    exact absurd hword (by decide)
  have hhead : ∀ d, (blanks ++ c :: behind).head? = some d → NotNamed values d := by
    intro d hd
    obtain ⟨hstops, hsigil⟩ := hbehind.head hc hd
    exact notNamed_values mode _ _ hstops hsigil
  have hassoc : front ++ text ++ blanks ++ c :: behind =
      front ++ (text ++ (blanks ++ c :: behind)) := by
    rw [List.append_assoc, List.append_assoc]
  refine ⟨sweep values (blanks ++ c :: behind), ?_⟩
  calc substitute (front ++ text ++ back) table
      = sweep values (front ++ (text ++ (blanks ++ c :: behind))) :=
        congrArg (sweep values) (hpart.trans hassoc)
    _ = sweep values front ++ sweep values text ++ sweep values (blanks ++ c :: behind) := by
        rw [sweep_append_of_getLast? hlast, sweep_append_of_head? hhead, List.append_assoc]

end CounterFormula.Assignment
