import CounterFormula.Assignment
import CounterFormula.Proofs.Index
import CounterFormula.Proofs.Token.Class
import Mathlib.Data.List.Forall2

/-!
# Assignment — Pairs

The pairs of a formula, by the indexes of its tokens.  A *pair* begins where a variable stands with
an equals sign directly behind it.  The search for assignments takes the tokens of every value along
at once, but a value ends before the next pair, of whatever kind that is.  So every pair is met,
each once and in order, and the first of its name makes the assignment.

* `definedName_of_pair`: what a pair makes depends on its name and on the pairs before it.
* `extract_eq_pairs`: the assignments are those of the pairs that are the first of their name, and
  the other pairs are reported.
-/

namespace CounterFormula

/-- Whether the fault is one of a pair, not of an equals sign that is in none. -/
def AssignmentFault.ofPair : AssignmentFault → Bool
  | shortName _ | redefined _ => true
  | leading | afterOther | noValue _ => false

namespace Assignment

/-! ### Pairs by index -/

/-- Whether a pair begins at index `i`: a variable, and an equals sign directly behind it. -/
def pairAt (tokens : List Token) (i : Nat) : Bool :=
  tokens[i]?.any Token.isVariable && tokens[i + 1]?.any (·.isOperator '=')

/-- The indexes at which pairs begin, in ascending order. -/
def pairs (tokens : List Token) : List Nat :=
  (List.range tokens.length).filter (pairAt tokens)

/-- The text of the token at index `i`. -/
def nameAt (tokens : List Token) (i : Nat) : Text :=
  (tokens[i]?.map Token.text).getD []

/-- The name at index `i` is long enough, and no pair before has it. -/
def FirstOfName (tokens : List Token) (i : Nat) : Prop :=
  leastName ≤ (nameAt tokens i).length ∧
    ∀ j < i, pairAt tokens j = true → nameAt tokens j ≠ nameAt tokens i

instance (tokens : List Token) : DecidablePred (FirstOfName tokens) :=
  fun _ => inferInstanceAs (Decidable (_ ∧ _))

/-- Behind index `i` no pair begins before index `next`, where one begins or the tokens end. -/
structure UpToNext (tokens : List Token) (i next : Nat) : Prop where
  lt : i < next
  none_between : ∀ j, i < j → j < next → pairAt tokens j = false
  stops : pairAt tokens next = true ∨ next = tokens.length

/-- `assignment` is what the pair at index `i` makes: the tokens from there up to the next pair are
its name, an equals sign and its value. -/
def MadeAt (tokens : List Token) (i : Nat) (assignment : Assignment) : Prop :=
  ∃ next equals, UpToNext tokens i next ∧ equals.isOperator '=' = true ∧
    (tokens.take next).drop i = assignment.name :: equals :: assignment.value

/-- What is wrong with the pair at index `i`, if it makes no assignment. -/
def pairFault? (tokens : List Token) (i : Nat) : Option AssignmentFault :=
  if (nameAt tokens i).length < leastName then some (.shortName (nameAt tokens i))
  else if FirstOfName tokens i then none
  else some (.redefined (nameAt tokens i))

variable {tokens rest more : List Token} {token name equals : Token} {i k : Nat}
  {table : List Assignment} {previous : Option Token}

theorem startsPair_drop (tokens : List Token) (i : Nat) :
    startsPair (tokens.drop i) = pairAt tokens i := by
  have hget (n : Nat) : tokens[i + n]? = (tokens.drop i)[n]? := List.getElem?_drop.symm
  have hfirst : tokens[i]? = (tokens.drop i)[0]? := hget 0
  rw [pairAt, hfirst, hget 1]
  match tokens.drop i with
  | [] => rfl
  | [_] => exact (Bool.and_false _).symm
  | _ :: _ :: _ => rfl

theorem pairAt_iff : pairAt tokens i = true ↔ ∃ name equals, tokens[i]? = some name ∧
    tokens[i + 1]? = some equals ∧ name.isVariable = true ∧ equals.isOperator '=' = true := by
  rw [pairAt, Bool.and_eq_true, Option.any_eq_true, Option.any_eq_true]
  constructor
  · rintro ⟨⟨name, hname, hvariable⟩, equals, hequals, hsign⟩
    exact ⟨name, equals, hname, hequals, hvariable, hsign⟩
  · rintro ⟨name, equals, hname, hequals, hvariable, hsign⟩
    exact ⟨⟨name, hname, hvariable⟩, equals, hequals, hsign⟩

/-- No pair begins at a token that is no variable, or before one that is no equals sign. -/
theorem pairAt_eq_false (h : tokens[i + 1]? = some equals)
    (hequals : equals.isOperator '=' = false) :
    pairAt tokens i = false := by
  rw [pairAt, h, Option.any_some, hequals, Bool.and_false]

theorem pairAt_eq_false_of_isOperator {sign : Char} (h : tokens[i]? = some token)
    (hoperator : token.isOperator sign = true) : pairAt tokens i = false := by
  rw [pairAt, h, Option.any_some, Token.isVariable, (Token.kind_of_isOperator hoperator).1]
  rfl

theorem nameAt_eq (h : tokens[i]? = some name) : nameAt tokens i = name.text := by
  rw [nameAt, h]
  rfl

/-- Of the pairs of one name, one is the first. -/
theorem exists_firstOfName (hpair : pairAt tokens i = true)
    (hlength : leastName ≤ (nameAt tokens i).length) :
    ∃ j ≤ i, pairAt tokens j = true ∧ FirstOfName tokens j ∧ nameAt tokens j = nameAt tokens i := by
  induction i using Nat.strongRecOn with
  | ind i ih =>
      by_cases hfirst : FirstOfName tokens i
      · exact ⟨i, Nat.le_refl i, hpair, hfirst, rfl⟩
      · obtain ⟨j, hj, hpair', hname⟩ : ∃ j < i, pairAt tokens j = true ∧
            nameAt tokens j = nameAt tokens i := by
          by_contra hnone
          exact hfirst ⟨hlength, fun j hj hpair hname => hnone ⟨j, hj, hpair, hname⟩⟩
        obtain ⟨first, hle, hrest⟩ := ih j hj hpair' (hname ▸ hlength)
        exact ⟨first, by omega, hrest.1, hrest.2.1, hrest.2.2.trans hname⟩

/-! ### Values -/

/-- Behind a value a pair begins, if anything. -/
theorem startsPair_of_takeValue (h : (takeValue rest).2 = token :: more) :
    startsPair (token :: more) = true := by
  induction rest with
  | nil => cases h
  | cons first rest ih =>
      rw [takeValue] at h
      split at h
      · rename_i hpair
        obtain ⟨rfl, rfl⟩ := List.cons.inj h
        exact hpair
      · exact ih h

theorem not_equals_of_startsPair (h : startsPair (token :: more) = true) :
    token.isOperator '=' = false := by
  cases more with
  | nil => cases h
  | cons =>
      rw [startsPair, Bool.and_eq_true] at h
      rw [Token.isOperator, Token.kind_of_isVariable h.1]
      rfl

/-- No pair begins within a value. -/
theorem pairAt_of_takeValue (h : tokens.drop k = rest) :
    ∀ n < (takeValue rest).1.length, pairAt tokens (k + n) = false := by
  induction rest generalizing k with
  | nil => exact fun n hn => absurd hn (Nat.not_lt_zero n)
  | cons token rest ih =>
      rw [takeValue]
      split
      · exact fun n hn => absurd hn (Nat.not_lt_zero n)
      · rename_i hpair
        intro n hn
        cases n with
        | zero =>
            rw [Nat.add_zero, ← startsPair_drop, h]
            exact Bool.eq_false_iff.mpr hpair
        | succ n =>
            rw [Nat.add_comm n, ← Nat.add_assoc]
            exact ih (drop_succ_of_drop h) n (Nat.lt_of_succ_lt_succ hn)

theorem drop_takeValue (h : tokens.drop k = rest) :
    tokens.drop (k + (takeValue rest).1.length) = (takeValue rest).2 := by
  have hsplit : tokens.drop k = (takeValue rest).1 ++ (takeValue rest).2 := by
    rw [h, takeValue_append]
  rw [← List.drop_drop, hsplit, List.drop_left]

/-- **What a pair makes** when `rest` stands behind its equals sign. -/
theorem madeAt_of_drop (h : tokens.drop i = name :: equals :: rest)
    (hequals : equals.isOperator '=' = true) : MadeAt tokens i ⟨name, (takeValue rest).1⟩ := by
  have hsign : tokens.drop (i + 1) = equals :: rest := drop_succ_of_drop h
  have hrest : tokens.drop (i + 2) = rest := drop_succ_of_drop hsign
  refine ⟨i + 2 + (takeValue rest).1.length, equals, ⟨by omega, fun j hlt hnext => ?_, ?_⟩,
    hequals, ?_⟩
  · rcases Nat.eq_or_lt_of_le (Nat.succ_le_of_lt hlt) with rfl | hlt
    · exact pairAt_eq_false_of_isOperator (getElem?_of_drop hsign) hequals
    · have hj : j = i + 2 + (j - (i + 2)) := by omega
      rw [hj]
      exact pairAt_of_takeValue hrest _ (by omega)
  · cases hafter : (takeValue rest).2 with
    | nil =>
        have hlength := congrArg List.length h
        have hvalue := length_takeValue rest
        rw [hafter, List.length_nil] at hvalue
        rw [List.length_drop, List.length_cons, List.length_cons] at hlength
        exact .inr (by omega)
    | cons token more =>
        refine .inl ?_
        rw [← startsPair_drop, drop_takeValue hrest, hafter]
        exact startsPair_of_takeValue hafter
  · rw [List.drop_take, h]
    have hcount : i + 2 + (takeValue rest).1.length - i = (takeValue rest).1.length + 2 := by omega
    rw [hcount, List.take_succ_cons, List.take_succ_cons]
    nth_rewrite 2 [← takeValue_append rest]
    rw [List.take_left]

/-! ### Extraction -/

/-- The pairs whose equals signs stand before index `k`. -/
def pairsBefore (tokens : List Token) (k : Nat) : List Nat :=
  (List.range (k - 1)).filter (pairAt tokens)

theorem pairsBefore_succ (h : ∀ i, k = i + 1 → pairAt tokens i = false) :
    pairsBefore tokens (k + 1) = pairsBefore tokens k := by
  cases k with
  | zero => rfl
  | succ i => simp [pairsBefore, List.range_succ, h i rfl]

theorem pairsBefore_of_pairAt (h : pairAt tokens i = true) :
    pairsBefore tokens (i + 2) = pairsBefore tokens (i + 1) ++ [i] := by
  simp [pairsBefore, List.range_succ, h]

theorem pairsBefore_add (n : Nat) (h : ∀ m < n, pairAt tokens (k + m) = false) :
    pairsBefore tokens (k + 1 + n) = pairsBefore tokens (k + 1) := by
  induction n with
  | zero => rfl
  | succ n ih =>
      rw [← Nat.add_assoc, pairsBefore_succ, ih fun m hm => h m (Nat.lt_succ_of_lt hm)]
      intro i hi
      obtain rfl : i = k + n := by omega
      exact h n (Nat.lt_succ_self n)

theorem pairsBefore_of_length_le (h : tokens.length ≤ k) : pairsBefore tokens k = pairs tokens := by
  -- the last token has none behind it
  have hnone (i : Nat) (hi : tokens.length ≤ i + 1) : pairAt tokens i = false := by
    rw [pairAt, List.getElem?_eq_none hi, Option.any_none, Bool.and_false]
  obtain ⟨n, rfl⟩ := Nat.exists_eq_add_of_le h
  have hlength : pairsBefore tokens (tokens.length + 1 + n) = pairs tokens :=
    pairsBefore_add n fun m _ => hnone _ (by omega)
  rw [← hlength, Nat.add_right_comm, pairsBefore_succ fun i hi => hnone i (by omega)]

theorem mem_pairsBefore {j : Nat} :
    j ∈ pairsBefore tokens (i + 1) ↔ j < i ∧ pairAt tokens j = true := by
  rw [pairsBefore, List.mem_filter, List.mem_range, Nat.add_sub_cancel]

/-- `table` has the assignments of the pairs whose equals signs stand before index `k`. -/
def MadeBefore (tokens : List Token) (k : Nat) (table : List Assignment) : Prop :=
  List.Forall₂ (MadeAt tokens) ((pairsBefore tokens k).filter (FirstOfName tokens ·)) table

theorem MadeAt.getElem? {assignment : Assignment} (h : MadeAt tokens i assignment) :
    tokens[i]? = some assignment.name := by
  obtain ⟨next, equals, hnext, -, htokens⟩ := h
  have hhead : (tokens.take next)[i]? = some assignment.name := getElem?_of_drop htokens
  rwa [List.getElem?_take_of_lt hnext.lt] at hhead

theorem any_of_madeAt {indexes : List Nat} (h : List.Forall₂ (MadeAt tokens) indexes table)
    (name : Text) : (table.any fun assignment => assignment.name.text == name) =
      indexes.any fun i => nameAt tokens i == name := by
  induction h with
  | nil => rfl
  | cons hhead _ ih => rw [List.any_cons, List.any_cons, ih, nameAt_eq hhead.getElem?]

theorem exists_madeAt {indexes : List Nat} {assignment : Assignment}
    (h : List.Forall₂ (MadeAt tokens) indexes table) (hmem : assignment ∈ table) :
    ∃ i, MadeAt tokens i assignment := by
  induction h with
  | nil => cases hmem
  | cons hhead _ ih =>
      rcases List.mem_cons.mp hmem with rfl | hmem
      · exact ⟨_, hhead⟩
      · exact ih hmem

/-- A name that is long enough is in the table when a pair before has it. -/
theorem any_of_madeBefore (htable : MadeBefore tokens (i + 1) table)
    (hlength : leastName ≤ (nameAt tokens i).length) :
    (table.any fun assignment => assignment.name.text == nameAt tokens i) = true ↔
      ¬ FirstOfName tokens i := by
  rw [any_of_madeAt htable, List.any_eq_true]
  constructor
  · rintro ⟨j, hj, hname⟩ hfirst
    obtain ⟨hlt, hpair⟩ := mem_pairsBefore.mp (List.mem_filter.mp hj).1
    exact hfirst.2 j hlt hpair (eq_of_beq hname)
  · intro hfirst
    obtain ⟨j, hlt, hpair, hname⟩ : ∃ j < i, pairAt tokens j = true ∧
        nameAt tokens j = nameAt tokens i := by
      by_contra hnone
      exact hfirst ⟨hlength, fun j hj hpair hname => hnone ⟨j, hj, hpair, hname⟩⟩
    obtain ⟨first, hle, hpair', hfirst', hname'⟩ := exists_firstOfName hpair (hname ▸ hlength)
    refine ⟨first, List.mem_filter.mpr ⟨mem_pairsBefore.mpr ⟨by omega, hpair'⟩, ?_⟩, ?_⟩
    · exact decide_eq_true hfirst'
    · exact beq_iff_eq.mpr (hname'.trans hname)

/-- **What a pair makes** depends on its name and on the pairs before it. -/
theorem definedName_of_pair (htable : MadeBefore tokens (i + 1) table)
    (hpair : pairAt tokens i = true)
    (hname : tokens[i]? = some name) :
    definedName table (some name) =
      match pairFault? tokens i with
      | some fault => .error fault
      | none => .ok name := by
  have hvariable : name.isVariable = true := by
    rw [pairAt, hname, Bool.and_eq_true] at hpair
    exact hpair.1
  have hany := any_of_madeBefore htable
  rw [definedName, hvariable, pairFault?]
  rw [nameAt_eq hname] at hany ⊢
  by_cases hshort : name.text.length < leastName
  · simp only [Bool.not_true, Bool.false_eq_true, if_false, if_pos hshort]
  · have hany := hany (Nat.not_lt.mp hshort)
    by_cases hfirst : FirstOfName tokens i
    · simp only [Bool.not_true, Bool.false_eq_true, if_false, if_neg hshort, if_pos hfirst,
        if_neg (mt hany.mp (not_not_intro hfirst))]
    · simp only [Bool.not_true, Bool.false_eq_true, if_false, if_neg hshort, if_neg hfirst,
        if_pos (hany.mpr hfirst)]

/-- An equals sign that is in no pair. -/
theorem definedName_of_stray (table : List Assignment)
    (h : ∀ name, previous = some name → name.isVariable = false) :
    ∃ fault, definedName table previous = .error fault ∧ fault.ofPair = false := by
  cases previous with
  | none => exact ⟨_, rfl, rfl⟩
  | some name =>
      refine ⟨.afterOther, ?_, rfl⟩
      rw [definedName, h name rfl]
      rfl

theorem ofPair_of_pairFault? {fault : AssignmentFault} (h : pairFault? tokens i = some fault) :
    fault.ofPair = true := by
  rw [pairFault?] at h
  split at h
  · rw [← Option.some.inj h]
    rfl
  · split at h
    · cases h
    · rw [← Option.some.inj h]
      rfl

theorem firstOfName_iff (tokens : List Token) (i : Nat) :
    FirstOfName tokens i ↔ pairFault? tokens i = none := by
  rw [pairFault?]
  split
  · rename_i hshort
    exact iff_of_false (fun h => absurd h.1 (Nat.not_le.mpr hshort)) nofun
  · split
    · rename_i hfirst
      exact iff_of_true hfirst rfl
    · rename_i hfirst
      exact iff_of_false hfirst nofun

/-- The faults of the pairs whose equals signs stand before index `k`. -/
def faultsBefore (tokens : List Token) (k : Nat) : List AssignmentFault :=
  (pairsBefore tokens k).filterMap (pairFault? tokens)

theorem faultsBefore_of_pairAt (hpair : pairAt tokens i = true) :
    faultsBefore tokens (i + 2) = faultsBefore tokens (i + 1) ++ (pairFault? tokens i).toList := by
  rw [faultsBefore, faultsBefore, pairsBefore_of_pairAt hpair, List.filterMap_append]
  cases hfault : pairFault? tokens i <;> simp [hfault]

theorem MadeBefore.congr {l : Nat} (h : MadeBefore tokens k table)
    (hpairs : pairsBefore tokens l = pairsBefore tokens k) : MadeBefore tokens l table := by
  rw [MadeBefore, hpairs]
  exact h

theorem MadeBefore.of_fault (h : MadeBefore tokens (i + 1) table) (hpair : pairAt tokens i = true)
    {fault : AssignmentFault} (hfault : pairFault? tokens i = some fault) :
    MadeBefore tokens (i + 2) table := by
  have hfirst : ¬ FirstOfName tokens i := by
    rw [firstOfName_iff, hfault]
    exact nofun
  rw [MadeBefore, pairsBefore_of_pairAt hpair, List.filter_append, List.filter_cons,
    if_neg (by simpa using hfirst), List.filter_nil, List.append_nil]
  exact h

theorem MadeBefore.add (h : MadeBefore tokens (i + 1) table) (hpair : pairAt tokens i = true)
    (hfault : pairFault? tokens i = none) {assignment : Assignment}
    (hmade : MadeAt tokens i assignment) :
    MadeBefore tokens (i + 2) (table ++ [assignment]) := by
  have hfirst : FirstOfName tokens i := (firstOfName_iff tokens i).mpr hfault
  rw [MadeBefore, pairsBefore_of_pairAt hpair, List.filter_append, List.filter_cons,
    if_pos (decide_eq_true hfirst), List.filter_nil]
  exact List.rel_append h (.cons hmade .nil)

/-- `previous` stands before index `k`. -/
def Precedes (tokens : List Token) (k : Nat) (previous : Option Token) : Prop :=
  previous = if k = 0 then none else tokens[k - 1]?

theorem precedes_succ (h : tokens.drop k = token :: rest) :
    Precedes tokens (k + 1) (some token) :=
  (getElem?_of_drop h).symm

/-- **An equals sign** is in no pair, or its pair is reported, or makes an assignment. -/
theorem definedName_cases (htable : MadeBefore tokens k table)
    (h : tokens.drop k = equals :: rest) (hequals : equals.isOperator '=' = true)
    (hprevious : Precedes tokens k previous) :
    (∃ fault, definedName table previous = .error fault ∧ MadeBefore tokens (k + 1) table ∧
        faultsBefore tokens (k + 1) =
          faultsBefore tokens k ++ [fault].filter AssignmentFault.ofPair) ∨
      ∃ name, definedName table previous = .ok name ∧
        MadeBefore tokens (k + 1) (table ++ [⟨name, (takeValue rest).1⟩]) ∧
        faultsBefore tokens (k + 1) = faultsBefore tokens k := by
  by_cases hpair : ∃ i, k = i + 1 ∧ pairAt tokens i = true
  · obtain ⟨i, rfl, hpair⟩ := hpair
    obtain ⟨name, -, hname, -⟩ := pairAt_iff.mp hpair
    have hprevious : previous = some name := hprevious.trans hname
    have hdefined := definedName_of_pair htable hpair hname
    rw [faultsBefore_of_pairAt hpair, hprevious, hdefined]
    cases hfault : pairFault? tokens i with
    | none =>
        have hdrop : tokens.drop i = name :: equals :: rest := by
          obtain ⟨hlt, rfl⟩ := List.getElem?_eq_some_iff.mp hname
          rw [List.drop_eq_getElem_cons hlt, h]
        exact .inr ⟨name, rfl, htable.add hpair hfault (madeAt_of_drop hdrop hequals),
          List.append_nil _⟩
    | some fault =>
        refine .inl ⟨fault, rfl, htable.of_fault hpair hfault, ?_⟩
        rw [List.filter_cons, if_pos (ofPair_of_pairFault? hfault)]
        rfl
  · have hnone : ∀ i, k = i + 1 → pairAt tokens i = false := fun i hi =>
      Bool.eq_false_iff.mpr fun hpair' => hpair ⟨i, hi, hpair'⟩
    obtain ⟨fault, hfault, hstray⟩ : ∃ fault, definedName table previous = .error fault ∧
        fault.ofPair = false := by
      refine definedName_of_stray table fun name hname => Bool.eq_false_iff.mpr fun hvariable => ?_
      -- a variable before the equals sign makes a pair of them
      cases k with
      | zero => cases hprevious.symm.trans hname
      | succ i =>
          exact hpair ⟨i, rfl, pairAt_iff.mpr ⟨name, equals, hprevious.symm.trans hname,
            getElem?_of_drop h, hvariable, hequals⟩⟩
    refine .inl ⟨fault, hfault, htable.congr (pairsBefore_succ hnone), ?_⟩
    rw [faultsBefore, pairsBefore_succ hnone, List.filter_cons, hstray]
    exact (List.append_nil _).symm

/-- The search from index `k` on, with what it has found before. -/
theorem extractFrom_pairs (htable : MadeBefore tokens k table) (hrest : tokens.drop k = rest)
    (hprevious : ∀ token more, rest = token :: more → token.isOperator '=' = true →
      Precedes tokens k previous) :
    List.Forall₂ (MadeAt tokens) ((pairs tokens).filter (FirstOfName tokens ·))
        (extractFrom table previous rest).1 ∧
      faultsBefore tokens k ++ (extractFrom table previous rest).2.filter AssignmentFault.ofPair =
        (pairs tokens).filterMap (pairFault? tokens) := by
  fun_induction extractFrom table previous rest generalizing k with
  | case1 table previous =>
      have hall := pairsBefore_of_length_le (List.drop_eq_nil_iff.mp hrest)
      rw [MadeBefore, hall] at htable
      rw [faultsBefore, hall]
      exact ⟨htable, List.append_nil _⟩
  | case2 table previous token rest hequals fault hname _ faults hmore ih =>
      obtain ⟨fault', hfault, hmade, hfaults⟩ | ⟨name, hname', -⟩ :=
        definedName_cases htable hrest hequals (hprevious token rest rfl hequals)
      · obtain rfl := Except.error.inj (hname.symm.trans hfault)
        obtain ⟨hassignments, hreported⟩ := ih hmade (drop_succ_of_drop hrest)
          fun _ _ _ _ => precedes_succ hrest
        rw [hmore] at hassignments hreported
        refine ⟨hassignments, ?_⟩
        rw [hfaults, List.append_assoc, ← List.filter_append] at hreported
        exact hreported
      · cases hname.symm.trans hname'
  | case3 table previous token rest hequals name hname ih =>
      obtain ⟨fault, hfault, -⟩ | ⟨name', hname', hmade, hfaults⟩ :=
        definedName_cases htable hrest hequals (hprevious token rest rfl hequals)
      · cases hname.symm.trans hfault
      · obtain rfl := Except.ok.inj (hname.symm.trans hname')
        have hmore : tokens.drop (k + 1) = rest := drop_succ_of_drop hrest
        have hpairs : pairsBefore tokens (k + 1 + (takeValue rest).1.length) =
            pairsBefore tokens (k + 1) := by
          -- neither at the equals sign nor within the value a pair begins
          refine pairsBefore_add _ fun m hm => ?_
          cases m with
          | zero => exact pairAt_eq_false_of_isOperator (getElem?_of_drop hrest) hequals
          | succ m =>
              rw [Nat.add_comm m, ← Nat.add_assoc]
              exact pairAt_of_takeValue hmore m (Nat.lt_of_succ_lt hm)
        rw [← hfaults, faultsBefore, ← hpairs]
        refine ih (hmade.congr hpairs) (drop_takeValue hmore) fun token' more hbehind hequals' => ?_
        -- no equals sign stands where the value ends
        rw [not_equals_of_startsPair (startsPair_of_takeValue hbehind)] at hequals'
        cases hequals'
  | case4 table previous token rest hequals ih =>
      have hnone : ∀ i, k = i + 1 → pairAt tokens i = false := by
        rintro i rfl
        exact pairAt_eq_false (getElem?_of_drop hrest) (Bool.eq_false_iff.mpr hequals)
      have hpairs := pairsBefore_succ hnone
      rw [faultsBefore, ← hpairs]
      exact ih (htable.congr hpairs) (drop_succ_of_drop hrest) fun _ _ _ _ =>
        precedes_succ hrest

/-- The tokens of an assignment are a stretch of the formula: its name, an equals sign and its
value. -/
theorem exists_equals_of_mem_extract {assignment : Assignment}
    (h : assignment ∈ (extract tokens).1) :
    ∃ before equals after, equals.isOperator '=' = true ∧
      tokens = before ++ (assignment.name :: equals :: assignment.value) ++ after := by
  have hnone : MadeBefore tokens 0 [] := .nil
  obtain ⟨hmade, -⟩ : List.Forall₂ (MadeAt tokens) _ (extract tokens).1 ∧ _ :=
    extractFrom_pairs hnone rfl fun _ _ _ _ => rfl
  obtain ⟨i, next, equals, -, hequals, htokens⟩ := exists_madeAt hmade h
  refine ⟨(tokens.take next).take i, equals, tokens.drop next, hequals, ?_⟩
  rw [← htokens, List.take_append_drop, List.take_append_drop]

/-- So are the tokens of its value. -/
theorem exists_append_of_mem_extract {assignment : Assignment}
    (h : assignment ∈ (extract tokens).1) :
    ∃ before after, tokens = before ++ assignment.value ++ after := by
  obtain ⟨before, equals, after, -, htokens⟩ := exists_equals_of_mem_extract h
  exact ⟨before ++ [assignment.name, equals], after, by rw [htokens]; simp⟩

/-- **The assignments of a formula** are those of the pairs that are the first of their name, when
the name is long enough: in order, each with the tokens from its name up to the next pair, of
whatever kind that is, or the end.  Each of the other pairs is reported once, in order: one with a
short name as such, and one whose name an earlier pair has as a further definition. -/
theorem extract_eq_pairs (tokens : List Token) :
    List.Forall₂ (MadeAt tokens) ((pairs tokens).filter (FirstOfName tokens ·))
        (extract tokens).1 ∧
      (extract tokens).2.filter AssignmentFault.ofPair =
        (pairs tokens).filterMap (pairFault? tokens) := by
  have hnone : MadeBefore tokens 0 [] := .nil
  exact extractFrom_pairs hnone rfl fun _ _ _ _ => rfl

end Assignment

end CounterFormula
