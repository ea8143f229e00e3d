import CounterFormula.Proofs.Assignment.Pairs
import CounterFormula.Proofs.Assignment.Tokenwise

/-!
# Assignment — Resolved

The two ways to expand a variable: pass 2 puts the values into the whole formula, name by name, and
a reference to a single variable puts them into its value alone.

A text is *whole* for the names when a name occurs in it as a variable only: there is no error in
it, no symbol has a sigil, and no name is a proper prefix of a variable.  Values are *forward* when
they are whole for all the names, and each has neither its own nor an earlier name as a
variable.  Then both ways agree, and no assigned name is left.

The induction is on the names in their order.  A step replaces a name, which is a run between
boundaries wherever it occurs, by its value; so the tokens of what it makes are tokens that were
there before or tokens of the value (`mem_spellings_replace`), and none of them is a name that is
done with.

* `sweep_slice_eq_resolved`: what the sweep makes of a token.
* `spellings_sweep`: what it leaves in a text.
* `substitute_eq_patch_resolved`: both for the formula proper.
-/

namespace CounterFormula.Assignment

variable {values : List (Text × Text)} {value : Text × Text} {name text : Text} {token : Token}

/-! ### Whole texts and forward values -/

/-- In a token of this class and text the names of `values` occur as whole variables only. -/
structure Whole (values : List (Text × Text)) (spelling : TokenClass × Text) : Prop where
  ne_error : spelling.1 ≠ .error
  symbol : spelling.1 = .symbol → '$' ∉ spelling.2
  eq_of_isPrefix : spelling.1 = .var → ∀ value ∈ values,
    value.1 <+: spelling.2 → value.1 = spelling.2

/-- The names of `values` occur in `text` as whole variables only. -/
def WholeText (values : List (Text × Text)) (text : Text) : Prop :=
  ∀ spelling ∈ spellings .strict text, Whole values spelling

/-- A token of this class and text is no variable with a name of `values`. -/
def Unassigned (values : List (Text × Text)) (spelling : TokenClass × Text) : Prop :=
  spelling.1 = .var → ∀ value ∈ values, value.1 ≠ spelling.2

/-- Values that are whole for all the names, each without its own and the earlier ones. -/
structure Forward (values : List (Text × Text)) : Prop where
  isName : ∀ value ∈ values, IsName value.1
  nodup : (values.map Prod.fst).Nodup
  whole : ∀ value ∈ values, WholeText values value.2
  unassigned : ∀ before value after, values = before ++ value :: after →
    ∀ spelling ∈ spellings .strict value.2, Unassigned (before ++ [value]) spelling

theorem Whole.mono {part : List (Text × Text)} {spelling : TokenClass × Text}
    (h : Whole values spelling) (hpart : part ⊆ values) : Whole part spelling :=
  ⟨h.ne_error, h.symbol, fun hkind value hvalue => h.eq_of_isPrefix hkind value (hpart hvalue)⟩

theorem WholeText.mono {part : List (Text × Text)} (h : WholeText values text)
    (hpart : part ⊆ values) : WholeText part text :=
  fun spelling hspelling => (h spelling hspelling).mono hpart

theorem WholeText.ne_error (h : WholeText values text) :
    ∀ token ∈ (lex .strict text).body, token.kind ≠ .error :=
  fun _ htoken => (h _ (List.mem_map_of_mem htoken)).ne_error

/-- **In a whole text** a token in which a name occurs is the variable of that name. -/
theorem variable_of_isInfix (hwhole : WholeText values text)
    (htoken : token ∈ (lex .strict text).body) (hvalue : value ∈ values) (hname : IsName value.1)
    (h : value.1 <:+: token.slice text) : token.isVariable = true ∧ token.text = value.1 := by
  have hspelled : Whole values token.spelling := hwhole _ (List.mem_map_of_mem htoken)
  have hsigil : '$' ∈ token.slice text := h.subset hname.sigil_mem
  cases hvariable : token.isVariable with
  | false =>
      cases hsymbol : token.isSymbol with
      | false =>
          exact absurd hsigil (sigil_not_mem_slice hwhole.ne_error htoken hsymbol hvariable)
      | true =>
          have hkind := Token.kind_of_isSymbol hsymbol
          rw [slice_eq_text htoken (.inl hkind)] at hsigil
          exact absurd hsigil (hspelled.symbol hkind)
  | true =>
      have hkind := Token.kind_of_isVariable hvariable
      rw [slice_eq_text htoken (.inr hkind)] at h
      have hstarts := hname.isPrefix_of_isInfix htoken hvariable h
      exact ⟨rfl, (hspelled.eq_of_isPrefix hkind value hvalue hstarts).symm⟩

/-! ### Tokens -/

/-- A token that is no assigned variable stays. -/
theorem sweep_slice_of_unassigned (hnames : ∀ value ∈ values, IsName value.1)
    (hwhole : WholeText values text)
    (htoken : token ∈ (lex .strict text).body) (hnone : Unassigned values token.spelling) :
    sweep values (token.slice text) = token.slice text := by
  refine sweep_eq_self fun value hvalue hoccurs => ?_
  obtain ⟨hvariable, hname⟩ :=
    variable_of_isInfix hwhole htoken hvalue (hnames value hvalue) hoccurs
  exact hnone (Token.kind_of_isVariable hvariable) value hvalue hname.symm

/-- A text without an assigned variable stays. -/
theorem sweep_of_unassigned (hnames : ∀ value ∈ values, IsName value.1)
    (hwhole : WholeText values text)
    (hnone : ∀ spelling ∈ spellings .strict text, Unassigned values spelling) :
    sweep values text = text := by
  have hscans : Lexer.Scans .boundary 0 text (lex .strict text).body := scans_iff.mpr rfl
  have hstay : sweep values text =
      text.patchFrom 0 (patches (fun _ => none) (lex .strict text).body) :=
    sweep_eq_patchFrom (notNamed_of_not_inWord hnames) hscans rfl hwhole.ne_error
      fun token htoken => sweep_slice_of_unassigned hnames hwhole htoken
        (hnone _ (List.mem_map_of_mem htoken))
  have hnothing : patches (fun _ => none) (lex .strict text).body = [] :=
    List.filterMap_eq_nil_iff.mpr fun _ _ => rfl
  rw [hstay, hnothing]
  rfl

/-! ### Values -/

theorem lookup_of_forall_ne {before after : List (Text × Text)}
    (h : ∀ earlier ∈ before, earlier.1 ≠ value.1) :
    (before ++ value :: after).lookup value.1 = some value.2 :=
  List.lookup_eq_some_iff.mpr ⟨before, after, rfl, fun earlier hearlier =>
    bne_iff_ne.mpr (h earlier hearlier).symm⟩

/-- **The resolved value of a name** is its value, in which the later names are replaced: neither
its own nor an earlier name is in it. -/
theorem Forward.resolved?_eq {before after : List (Text × Text)} (h : Forward values)
    (hvalues : values = before ++ value :: after) :
    resolved? values value.1 = some (sweep after value.2) := by
  have hmem : value ∈ values := hvalues ▸ List.mem_append_right _ List.mem_cons_self
  have hsplit : values = before ++ [value] ++ after := hvalues.trans (List.append_cons ..)
  have hpart : before ++ [value] ⊆ values := by
    rw [hsplit]
    exact List.subset_append_left _ _
  have hbefore : sweep (before ++ [value]) value.2 = value.2 :=
    sweep_of_unassigned (fun earlier hearlier => h.isName earlier (hpart hearlier))
      ((h.whole value hmem).mono hpart)
      (h.unassigned before value after hvalues)
  have hlookup : values.lookup value.1 = some value.2 := by
    rw [hvalues]
    exact lookup_of_forall_ne (ne_of_nodup_names h.nodup hvalues)
  rw [resolved?, hlookup, Option.map_some]
  nth_rewrite 1 [hsplit]
  rw [sweep_append, hbefore]

/-- What a token gives way to: the resolved value of its name, when it is an assigned variable. -/
def resolvedFor? (values : List (Text × Text)) (token : Token) : Option Text :=
  if token.isVariable then resolved? values token.text else none

theorem kind_of_resolvedFor? (token : Token) (new : Text)
    (h : resolvedFor? values token = some new) : token.kind = .symbol ∨ token.kind = .var := by
  rw [resolvedFor?] at h
  split at h
  · rename_i hvariable
    exact .inr (Token.kind_of_isVariable hvariable)
  · cases h

theorem exists_of_assigned (h : ¬ Unassigned values token.spelling) :
    token.kind = .var ∧ ∃ value ∈ values, value.1 = token.text := by
  simpa [Unassigned, Token.spelling] using h

theorem resolvedFor?_eq_none_iff :
    resolvedFor? values token = none ↔ Unassigned values token.spelling := by
  rw [resolvedFor?, Unassigned]
  split
  · rename_i hvariable
    have hkind : token.spelling.1 = .var := Token.kind_of_isVariable hvariable
    rw [resolved?, Option.map_eq_none_iff, List.lookup_eq_none_iff]
    constructor
    · intro h _ value hvalue heq
      exact bne_iff_ne.mp (h value hvalue) heq.symm
    · intro h value hvalue
      exact bne_iff_ne.mpr (h hkind value hvalue).symm
  · rename_i hvariable
    exact iff_of_true rfl fun hkind => absurd (beq_iff_eq.mpr hkind) hvariable

/-- **The sweep of a token** resolves it. -/
theorem sweep_slice_eq_resolved (h : Forward values)
    (hwhole : WholeText values text)
    (htoken : token ∈ (lex .strict text).body) :
    sweep values (token.slice text) = (resolvedFor? values token).getD (token.slice text) := by
  by_cases hnone : Unassigned values token.spelling
  · rw [resolvedFor?_eq_none_iff.mpr hnone]
    exact sweep_slice_of_unassigned h.isName hwhole htoken hnone
  · obtain ⟨hkind, value, hvalue, hname⟩ := exists_of_assigned hnone
    obtain ⟨before, after, hvalues⟩ := List.append_of_mem hvalue
    have hvariable : token.isVariable = true := beq_iff_eq.mpr hkind
    have hslice : token.slice text = value.1 := (slice_eq_text htoken (.inr hkind)).trans hname.symm
    have hunnamed : ∀ earlier ∈ before, ¬ earlier.1 <:+: value.1 := by
      intro earlier hearlier hoccurs
      have hmem : earlier ∈ values := hvalues ▸ List.mem_append_left _ hearlier
      rw [← hslice] at hoccurs
      obtain ⟨-, htext⟩ := variable_of_isInfix hwhole htoken hmem (h.isName earlier hmem) hoccurs
      exact ne_of_nodup_names h.nodup hvalues earlier hearlier (htext.symm.trans hname.symm)
    have hne : value.1 ≠ [] := List.ne_nil_of_mem (h.isName value hvalue).sigil_mem
    rw [resolvedFor?, if_pos hvariable, ← hname, h.resolved?_eq hvalues, hslice, Option.getD_some]
    nth_rewrite 1 [hvalues]
    exact sweep_name hunnamed hne value.2

/-! ### What is left -/

variable {spelling : TokenClass × Text}

theorem unassigned_append {before after : List (Text × Text)} :
    Unassigned (before ++ after) spelling ↔
      Unassigned before spelling ∧ Unassigned after spelling := by
  simp only [Unassigned, List.forall_mem_append, forall_and]

/-- One of the values alone. -/
theorem Forward.single (h : Forward values) (hvalue : value ∈ values) : Forward [value] := by
  have hpart : [value] ⊆ values := fun _ hfound => List.mem_singleton.mp hfound ▸ hvalue
  refine ⟨fun found hfound => h.isName found (hpart hfound), List.nodup_singleton _,
    fun found hfound => (h.whole found (hpart hfound)).mono hpart, ?_⟩
  intro before found after hfound
  obtain ⟨front, behind, hvalues⟩ := List.append_of_mem hvalue
  rcases List.singleton_eq_append_iff.mp hfound with ⟨rfl, hfound⟩ | ⟨-, hfound⟩
  · obtain ⟨rfl, -⟩ := List.cons.inj hfound
    exact fun spelling hspelling =>
      (unassigned_append.mp (h.unassigned front value behind hvalues spelling hspelling)).2
  · cases hfound

theorem Forward.eq_of_resolvedFor?_single {new : Text} (h : Forward [value])
    (hanswer : resolvedFor? [value] token = some new) : new = value.2 := by
  have hassigned : ¬ Unassigned [value] token.spelling := by
    rw [← resolvedFor?_eq_none_iff, hanswer]
    exact Option.some_ne_none new
  obtain ⟨hkind, found, hfound, hname⟩ := exists_of_assigned hassigned
  have hvariable : token.isVariable = true := beq_iff_eq.mpr hkind
  rw [List.mem_singleton.mp hfound] at hname
  rw [resolvedFor?, if_pos hvariable, ← hname,
    h.resolved?_eq (List.nil_append [value]).symm] at hanswer
  exact (Option.some.inj hanswer).symm

/-- **One step of the sweep.**  The tokens of a whole text in which a name is replaced are tokens
that it had before, without the variables of that name, and tokens of the value. -/
theorem mem_spellings_replace (h : Forward values) (hvalue : value ∈ values)
    (hwhole : WholeText values text)
    (hspelling : spelling ∈ spellings .strict (Text.replace value.1 value.2 text)) :
    spelling ∈ spellings .strict text ∧ Unassigned [value] spelling ∨
      spelling ∈ spellings .strict value.2 := by
  have hone := h.single hvalue
  have hwhole' : WholeText [value] text :=
    hwhole.mono fun _ hfound => List.mem_singleton.mp hfound ▸ hvalue
  have hscans : Lexer.Scans .boundary 0 text (lex .strict text).body := scans_iff.mpr rfl
  have hreplace : Text.replace value.1 value.2 text =
      text.patch (patches (resolvedFor? [value]) (lex .strict text).body) :=
    sweep_eq_patchFrom (notNamed_of_not_inWord hone.isName) hscans rfl hwhole'.ne_error
      fun token htoken => sweep_slice_eq_resolved hone hwhole' htoken
  rw [hreplace, spellings_patch_patches hwhole'.ne_error kind_of_resolvedFor?,
    List.mem_flatMap] at hspelling
  obtain ⟨token, htoken, hmem⟩ := hspelling
  cases hanswer : resolvedFor? [value] token with
  | none =>
      rw [hanswer] at hmem
      obtain rfl := List.mem_singleton.mp hmem
      exact .inl ⟨List.mem_map_of_mem htoken, resolvedFor?_eq_none_iff.mp hanswer⟩
  | some new =>
      rw [hanswer] at hmem
      refine .inr ?_
      rwa [← hone.eq_of_resolvedFor?_single hanswer]

/-- **The whole sweep.**  After the names of `done` the others are replaced in a text that is whole
and has no variable of the names in `done`; then it has none of any name. -/
theorem spellings_sweep (h : Forward values) {done rest : List (Text × Text)}
    (hvalues : values = done ++ rest)
    (hwhole : WholeText values text)
    (hdone : ∀ spelling ∈ spellings .strict text, Unassigned done spelling) :
    ∀ spelling ∈ spellings .strict (sweep rest text),
      Whole values spelling ∧ Unassigned values spelling := by
  induction rest generalizing done text with
  | nil =>
      rw [List.append_nil] at hvalues
      rw [← hvalues] at hdone
      exact fun spelling hspelling => ⟨hwhole spelling hspelling, hdone spelling hspelling⟩
  | cons value rest ih =>
      have hvalue : value ∈ values := hvalues ▸ List.mem_append_right _ List.mem_cons_self
      have hstep : ∀ spelling ∈ spellings .strict (Text.replace value.1 value.2 text),
          Whole values spelling ∧ Unassigned (done ++ [value]) spelling := by
        intro spelling hspelling
        rcases mem_spellings_replace h hvalue hwhole hspelling with ⟨hbefore, hnone⟩ | hnew
        · exact ⟨hwhole spelling hbefore, unassigned_append.mpr ⟨hdone spelling hbefore, hnone⟩⟩
        · exact ⟨h.whole value hvalue spelling hnew,
            h.unassigned done value rest hvalues spelling hnew⟩
      exact ih (hvalues.trans (List.append_cons ..)) (fun spelling hspelling => (hstep spelling
        hspelling).1) fun spelling hspelling => (hstep spelling hspelling).2

/-! ### The formula proper -/

/-- Whether the value of `assignment` has a variable with `name`. -/
def mentions (assignment : Assignment) (name : Text) : Bool :=
  assignment.value.any fun token => token.isVariable && token.text == name

variable {mode : Mode} {source : Text} {table : List Assignment} {assignment : Assignment}

theorem ne_of_not_mentions (h : assignment.mentions name = false)
    (htoken : token ∈ assignment.value) (hvariable : token.isVariable = true) :
    name ≠ token.text := by
  rintro rfl
  have hnot := List.any_eq_false.mp h token htoken
  simp [hvariable] at hnot

/-- The value text of an assignment reads as the tokens of its value. -/
theorem spellings_valueText (hfaults : (lex .strict source).faults = [])
    (h : assignment ∈ (extract (lex .strict source).body).1) :
    spellings .strict ((valueText? source assignment).getD []) =
      assignment.value.map Token.spelling := by
  obtain ⟨before, after, hbody⟩ := exists_append_of_mem_extract h
  rw [valueText?]
  cases hfirst : assignment.value.head? with
  | none =>
      rw [List.head?_eq_none_iff.mp hfirst]
      rfl
  | some first =>
      cases hlast : assignment.value.getLast? with
      | none =>
          rw [List.getLast?_eq_none_iff.mp hlast] at hfirst
          cases hfirst
      | some last => exact spelling_slice (no_error_of_faults hfaults) hbody hfirst hlast

theorem whole_spelling (hfaults : (lex .strict source).faults = [])
    (hsymbols : ∀ token ∈ (lex .strict source).body, token.isSymbol = true → '$' ∉ token.text)
    (hbegins : ∀ assignment ∈ table, ∀ token ∈ (lex .strict source).body,
      token.isVariable = true → assignment.name.text <+: token.text →
        assignment.name.text = token.text)
    (htoken : token ∈ (lex .strict source).body) :
    Whole (Assignment.values source table) token.spelling := by
  refine ⟨no_error_of_faults hfaults token htoken,
    fun hkind => hsymbols token htoken (beq_iff_eq.mpr hkind), fun hkind value hvalue => ?_⟩
  obtain ⟨assignment, hassignment, rfl⟩ := List.mem_map.mp hvalue
  exact hbegins assignment hassignment token htoken (beq_iff_eq.mpr hkind)

/-- **The values of a formula** are forward, when its tokens are whole for the names and no value
has its own or an earlier name. -/
theorem forward_values (hfaults : (lex .strict source).faults = [])
    (htable : (extract (lex .strict source).body).1 = table)
    (hwhole : ∀ token ∈ (lex .strict source).body,
      Whole (Assignment.values source table) token.spelling)
    (hown : ∀ assignment ∈ table, assignment.mentions assignment.name.text = false)
    (hlater : table.Pairwise fun earlier later => later.mentions earlier.name.text = false) :
    Forward (Assignment.values source table) := by
  subst htable
  have hvalue {assignment : Assignment}
      (h : assignment ∈ (extract (lex .strict source).body).1) :=
    spellings_valueText hfaults h
  refine ⟨fun value hvalue => isName_of_mem_values hvalue, nodup_names_values source _, ?_, ?_⟩
  · intro value hmem spelling hspelling
    obtain ⟨assignment, hassignment, rfl⟩ := List.mem_map.mp hmem
    rw [hvalue hassignment] at hspelling
    obtain ⟨token, htoken, rfl⟩ := List.mem_map.mp hspelling
    obtain ⟨before, after, hbody⟩ := exists_append_of_mem_extract hassignment
    refine hwhole token ?_
    rw [hbody]
    exact List.mem_append_left _ (List.mem_append_right _ htoken)
  · intro before value after hvalues
    obtain ⟨front, behind, hsplit, rfl, hbehind⟩ := List.map_eq_append_iff.mp hvalues
    obtain ⟨assignment, more, rfl, rfl, rfl⟩ := List.map_eq_cons_iff.mp hbehind
    have hassignment : assignment ∈ (extract (lex .strict source).body).1 :=
      hsplit ▸ List.mem_append_right _ List.mem_cons_self
    intro spelling hspelling hkind value' hvalue'
    rw [hvalue hassignment] at hspelling
    obtain ⟨token, htoken, rfl⟩ := List.mem_map.mp hspelling
    have hnames : value' ∈ (front ++ [assignment]).map fun assignment =>
        (assignment.name.text, (valueText? source assignment).getD []) := by
      rw [List.map_append]
      exact hvalue'
    obtain ⟨earlier, hearlier, rfl⟩ := List.mem_map.mp hnames
    refine ne_of_not_mentions ?_ htoken (beq_iff_eq.mpr hkind)
    rcases List.mem_append.mp hearlier with hearlier | hearlier
    · rw [hsplit, List.pairwise_append] at hlater
      exact hlater.2.2 earlier hearlier assignment List.mem_cons_self
    · rw [List.mem_singleton.mp hearlier]
      exact hown assignment hassignment

/-- **Both ways of expanding a variable agree.**  Suppose a formula has no lexical fault and no
symbol with a sigil, no assigned name is a proper prefix of a variable, and every value mentions
only names that are not assigned or are assigned later.  Then pass 2 makes of the formula proper,
whose tokens are those before the first assignment, the same text with each assigned variable
replaced by its resolved value, the text that stands in for a reference to the variable alone; and
what it makes has, in either mode, no variable of an assigned name. -/
theorem substitute_eq_patch_resolved (mode : Mode) (source : Text)
    (hfaults : (lex .strict source).faults = [])
    (hsymbols : ∀ token ∈ (lex mode source).body, token.isSymbol = true → '$' ∉ token.text)
    (hbegins : ∀ assignment ∈ (extract (lex mode source).body).1, ∀ token ∈ (lex mode source).body,
      token.isVariable = true → assignment.name.text <+: token.text →
        assignment.name.text = token.text)
    (hown : ∀ assignment ∈ (extract (lex mode source).body).1,
      assignment.mentions assignment.name.text = false)
    (hlater : (extract (lex mode source).body).1.Pairwise fun earlier later =>
      later.mentions earlier.name.text = false) :
    let tokens := (lex mode source).body
    let table := (extract tokens).1
    let values := Assignment.values source table
    let proper := tokens.filter (·.first < cut source table)
    (lex mode (formulaPart source table)).body = proper ∧
      substitute source table =
        (formulaPart source table).patch (patches (resolvedFor? values) proper) ∧
      (∀ assignment ∈ table, resolved? values assignment.name.text =
        some (sourceOf values assignment.name.text)) ∧
      ∀ mode', ∀ token ∈ (lex mode' (substitute source table)).body, token.isVariable = true →
        ∀ assignment ∈ table, assignment.name.text ≠ token.text := by
  have hproper := body_formulaPart mode source
  rw [lex_of_faults mode hfaults] at hsymbols hbegins hown hlater hproper ⊢
  intro tokens table values proper
  have hwhole : ∀ token ∈ tokens, Whole values token.spelling :=
    fun token htoken => whole_spelling hfaults hsymbols hbegins htoken
  have hforward : Forward values := forward_values hfaults rfl hwhole hown hlater
  have hsource : WholeText values source := List.forall_mem_map.mpr hwhole
  refine ⟨hproper, ?_, fun assignment hassignment => ?_, ?_⟩
  · exact substitute_eq_patch_patches hfaults fun token htoken =>
      sweep_slice_eq_resolved hforward hsource (List.mem_of_mem_filter htoken)
  · obtain ⟨before, after, hvalues⟩ := List.append_of_mem
      (List.mem_map_of_mem hassignment : _ ∈ Assignment.values source table)
    rw [sourceOf, hforward.resolved?_eq hvalues, Option.getD_some]
  · intro mode' token htoken hvariable assignment hassignment
    have hformula : WholeText values (formulaPart source table) := by
      rw [WholeText, spellings, body_formulaPart .strict source]
      exact List.forall_mem_map.mpr fun token htoken => hwhole token (List.mem_of_mem_filter htoken)
    have hnothing : ∀ spelling ∈ spellings .strict (formulaPart source table),
        Unassigned [] spelling := fun _ _ _ => List.forall_mem_nil _
    have hswept := spellings_sweep hforward (List.nil_append values).symm hformula hnothing
      token.spelling (List.mem_map_of_mem (mem_body_strict htoken))
    exact hswept.2 (Token.kind_of_isVariable hvariable) _ (List.mem_map_of_mem hassignment)

/-- A value with two later names, and a variable that is not assigned. -/
theorem substitute_eq_patch_resolved_of_later :
    let source := "($r+$u)*2 $r=$n/$d $n=A $d=B".toList
    let tokens := (lex .strict source).body
    let table := (extract tokens).1
    let values := Assignment.values source table
    let proper := tokens.filter (·.first < cut source table)
    (lex .strict source).faults = [] ∧
      (∀ token ∈ tokens, token.isSymbol = true → '$' ∉ token.text) ∧
      (∀ assignment ∈ table, ∀ token ∈ tokens, token.isVariable = true →
        assignment.name.text <+: token.text → assignment.name.text = token.text) ∧
      (∀ assignment ∈ table, assignment.mentions assignment.name.text = false) ∧
      (table.Pairwise fun earlier later => later.mentions earlier.name.text = false) ∧
      patches (resolvedFor? values) proper = [(⟨1, 2⟩, "A/B".toList)] ∧
      substitute source table = "(A/B+$u)*2".toList ∧
      resolved? values "$r".toList = some (sourceOf values "$r".toList) ∧
      ∀ token ∈ (lex .strict (substitute source table)).body, token.isVariable = true →
        ∀ assignment ∈ table, assignment.name.text ≠ token.text := by
  intro source tokens table values proper
  obtain ⟨hfaults, hsymbols, hbegins, hown, hlater, hpatches, hpatch, first, hfirst, hname⟩ :
      (lex .strict source).faults = [] ∧
        (∀ token ∈ tokens, token.isSymbol = true → '$' ∉ token.text) ∧
        (∀ assignment ∈ table, ∀ token ∈ tokens, token.isVariable = true →
          assignment.name.text <+: token.text → assignment.name.text = token.text) ∧
        (∀ assignment ∈ table, assignment.mentions assignment.name.text = false) ∧
        (table.Pairwise fun earlier later => later.mentions earlier.name.text = false) ∧
        patches (resolvedFor? values) proper = [(⟨1, 2⟩, "A/B".toList)] ∧
        (formulaPart source table).patch (patches (resolvedFor? values) proper) =
          "(A/B+$u)*2".toList ∧
        ∃ first ∈ table, first.name.text = "$r".toList := by
    decide +kernel
  obtain ⟨-, hsubstitute, hresolved, hnone⟩ :=
    substitute_eq_patch_resolved .strict source hfaults hsymbols hbegins hown hlater
  have hfirst := hresolved first hfirst
  rw [hname] at hfirst
  exact ⟨hfaults, hsymbols, hbegins, hown, hlater, hpatches, hsubstitute.trans hpatch, hfirst,
    hnone .strict⟩

end CounterFormula.Assignment
