import CounterFormula.Proofs.Assignment.Resolved

/-!
# Assignment — Value

The value text of an assignment.  It is cut out of the source, from the first token of the value to
the last one, and read elsewhere.  The first token is read as at a boundary: in strict mode the
equals sign stands before it, if nothing but blanks does, and a token that follows a stretch passed
over in relaxed mode begins a word of its own.  So the text reads as the tokens of the value,
whatever fits no token at its ends or inside it.

* `body_slice_behind`, `body_slice_relaxed`: the stretch that some tokens extend over, in either
  mode.
* `lex_value`: the value text of an assignment reads as its value.
-/

namespace CounterFormula

variable {mode : Mode} {source : Text} {first last opening : Token}
  {before tokens after : List Token}

/-! ### Stretches with errors -/

/-- In strict mode the tokens behind an operator that is not written with a word are read on their
own, errors among them. -/
theorem body_slice_behind {sign : Char} (hsign : opening.isOperator sign = true)
    (hminus : sign ≠ '-')
    (hbody : (lex .strict source).body = before ++ opening :: (tokens ++ after))
    (hfirst : tokens.head? = some first) (hlast : tokens.getLast? = some last) :
    (lex .strict (Text.slice source first.first last.last)).body.map (Token.shift first.first) =
      tokens := by
  have hscans : Lexer.Scans .boundary 0 source (lex .strict source).body := scans_iff.mpr rfl
  rw [hbody] at hscans
  obtain ⟨place, start, hread⟩ := hscans.exists_of_append rfl
  have hbehind := hread.boundary_behind rfl hsign hminus
  obtain ⟨more, rfl⟩ := List.head?_eq_some_iff.mp hfirst
  exact (hbehind.skip_boundary rfl).body_slice hlast

/-- In relaxed mode any tokens that stand side by side are, and what is passed over between them is
passed over again. -/
theorem body_slice_relaxed (hbody : (lex .relaxed source).body = before ++ tokens ++ after)
    (hfirst : tokens.head? = some first) (hlast : tokens.getLast? = some last) :
    (lex .relaxed (Text.slice source first.first last.last)).body.map (Token.shift first.first) =
      tokens := by
  have hscans : Lexer.Scans .boundary 0 source (lex .strict source).body := scans_iff.mpr rfl
  rw [body_relaxed] at hbody
  obtain ⟨front, stretch, back, hstrict, hkept, hhead, hend⟩ :=
    exists_stretch_of_filter hbody hfirst hlast
  -- the first token is kept, so it is no error
  have hkind : first.kind ≠ .error := by
    have hmem : first ∈ stretch.filter (·.kind != .error) := by
      rw [hkept]
      exact List.mem_of_mem_head? hfirst
    exact bne_iff_ne.mp (List.mem_filter.mp hmem).2
  rw [hstrict, List.append_assoc] at hscans
  obtain ⟨place, start, hread⟩ := hscans.exists_of_append rfl
  obtain ⟨more, rfl⟩ := List.head?_eq_some_iff.mp hhead
  obtain ⟨place, -, hread⟩ := hread.skip rfl
  have hslice := (hread.boundary_of_ne_error hkind).body_slice hend
  calc (lex .relaxed (Text.slice source first.first last.last)).body.map (Token.shift first.first)
      = ((lex .strict (Text.slice source first.first last.last)).body.map
          (Token.shift first.first)).filter (·.kind != .error) := by
        rw [body_relaxed, List.filter_map]
        rfl
    _ = tokens := by rw [hslice, hkept]

namespace Assignment

variable {assignment : Assignment}

/-- The value text of an assignment is found under its name. -/
theorem lookup_values (h : assignment ∈ (extract tokens).1) (source : Text) :
    (values source (extract tokens).1).lookup assignment.name.text =
      some ((valueText? source assignment).getD []) := by
  have hmem : (assignment.name.text, (valueText? source assignment).getD []) ∈
      values source (extract tokens).1 := List.mem_map_of_mem h
  obtain ⟨front, behind, hvalues⟩ := List.append_of_mem hmem
  have hnames := ne_of_nodup_names (nodup_names_values source tokens) hvalues
  rw [hvalues]
  exact lookup_of_forall_ne hnames

/-- **The value text of an assignment** that has a value is what the source has from the first token
of the value to the last one, and it is recorded under the name.  Read on its own, in the same mode,
it has exactly the tokens of the value, which begin where the value does. -/
theorem lex_value (h : assignment ∈ (extract (lex mode source).body).1)
    (hvalue : assignment.value ≠ []) :
    ∃ first last, assignment.value.head? = some first ∧ assignment.value.getLast? = some last ∧
      (values source (extract (lex mode source).body).1).lookup assignment.name.text =
        some (Text.slice source first.first last.last) ∧
      (lex mode (Text.slice source first.first last.last)).body.map (Token.shift first.first) =
        assignment.value := by
  obtain ⟨first, hfirst⟩ : ∃ first, assignment.value.head? = some first :=
    ⟨_, List.head?_eq_some_head hvalue⟩
  obtain ⟨last, hlast⟩ : ∃ last, assignment.value.getLast? = some last :=
    ⟨_, List.getLast?_eq_some_getLast hvalue⟩
  refine ⟨first, last, hfirst, hlast, ?_, ?_⟩
  · rw [lookup_values h, valueText?, hfirst, hlast]
    rfl
  · obtain ⟨before, equals, after, hequals, hbody⟩ := exists_equals_of_mem_extract h
    cases mode with
    | strict =>
        have hcut : (lex .strict source).body =
            (before ++ [assignment.name]) ++ equals :: (assignment.value ++ after) := by
          rw [hbody]
          simp
        exact body_slice_behind hequals (by decide) hcut hfirst hlast
    | relaxed =>
        have hcut : (lex .relaxed source).body =
            (before ++ [assignment.name, equals]) ++ assignment.value ++ after := by
          rw [hbody]
          simp
        exact body_slice_relaxed hcut hfirst hlast

/-- The value begins and ends with what fits no token.  In strict mode that is part of it; relaxed
mode leaves it out at the ends, and passes over what is inside. -/
theorem lex_value_of_errors :
    let source : Text := "$x $x=é 1é2 +3é $y=4".toList
    let name : Token := ⟨.var, "$x".toList, 3, 4⟩
    let strict : Assignment :=
      ⟨name, [⟨.error, ['é'], 6, 6⟩, ⟨.number, ['1'], 8, 8⟩, ⟨.error, "é2".toList, 9, 10⟩,
        ⟨.operator, ['+'], 12, 12⟩, ⟨.number, ['3'], 13, 13⟩, ⟨.error, ['é'], 14, 14⟩]⟩
    let relaxed : Assignment :=
      ⟨name, [⟨.number, ['1'], 8, 8⟩, ⟨.operator, ['+'], 12, 12⟩, ⟨.number, ['3'], 13, 13⟩]⟩
    (strict ∈ (extract (lex .strict source).body).1 ∧ strict.value ≠ [] ∧
      (values source (extract (lex .strict source).body).1).lookup name.text =
        some "é 1é2 +3é".toList ∧
      (lex .strict "é 1é2 +3é".toList).body.map (Token.shift 6) = strict.value) ∧
    relaxed ∈ (extract (lex .relaxed source).body).1 ∧ relaxed.value ≠ [] ∧
      (values source (extract (lex .relaxed source).body).1).lookup name.text =
        some "1é2 +3".toList ∧
      (lex .relaxed "1é2 +3".toList).body.map (Token.shift 8) = relaxed.value := by
  intro source name strict relaxed
  have hstrict : strict ∈ (extract (lex .strict source).body).1 := by decide +kernel
  have hrelaxed : relaxed ∈ (extract (lex .relaxed source).body).1 := by decide +kernel
  have hwhole : Text.slice source 6 14 = "é 1é2 +3é".toList := by decide +kernel
  have hinside : Text.slice source 8 13 = "1é2 +3".toList := by decide +kernel
  refine ⟨⟨hstrict, List.cons_ne_nil _ _, ?_⟩, hrelaxed, List.cons_ne_nil _ _, ?_⟩
  · obtain ⟨first, last, hfirst, hlast, hread⟩ := lex_value hstrict (List.cons_ne_nil _ _)
    obtain rfl : first = ⟨.error, ['é'], 6, 6⟩ := (Option.some.inj hfirst).symm
    obtain rfl : last = ⟨.error, ['é'], 14, 14⟩ := (Option.some.inj hlast).symm
    rwa [hwhole] at hread
  · obtain ⟨first, last, hfirst, hlast, hread⟩ := lex_value hrelaxed (List.cons_ne_nil _ _)
    obtain rfl : first = ⟨.number, ['1'], 8, 8⟩ := (Option.some.inj hfirst).symm
    obtain rfl : last = ⟨.number, ['3'], 13, 13⟩ := (Option.some.inj hlast).symm
    rwa [hinside] at hread

end Assignment

end CounterFormula
