import CounterFormula.Proofs.Assignment.Pairs
import CounterFormula.Token.Lexer
import Mathlib.Data.List.Range

/-!
# Assignment — Signs

What becomes of each equals sign of a formula.  One that stands directly behind a variable is in a
pair, which makes an assignment or is reported.  Of the others each is reported, unless the search
has passed over it with the tokens of a value: then it is *absorbed* (`Absorbed`), and nothing is
said of it.

* `extractFrom_fates`: the search reports what `fate` says, one equals sign after the other.
* `extract_eq_fates`: the assignments and the reports account for every equals sign that is not
  absorbed, and for all of them just when none is.
-/

namespace CounterFormula.Assignment

/-- What becomes of an equals sign. -/
inductive Fate where
  /-- It makes an assignment. -/
  | defines
  | reported (fault : AssignmentFault)
  /-- It is left in a value. -/
  | absorbed
  deriving DecidableEq, Repr

def Fate.fault? : Fate → Option AssignmentFault
  | reported fault => some fault
  | defines | absorbed => none

/-- Whether an equals sign stands at index `k`. -/
def equalsAt (tokens : List Token) (k : Nat) : Bool :=
  tokens[k]?.any (·.isOperator '=')

/-- The indexes of the equals signs, in ascending order. -/
def equalsSigns (tokens : List Token) : List Nat :=
  (List.range tokens.length).filter (equalsAt tokens)

/-- The last pair whose equals sign stands before index `k` makes an assignment, and no pair begins
behind it, not even directly before `k`. -/
def Absorbed (tokens : List Token) (k : Nat) : Prop :=
  ∃ i < k - 1, pairAt tokens i = true ∧ FirstOfName tokens i ∧
    ∀ j < k, i < j → pairAt tokens j = false

instance (tokens : List Token) : DecidablePred (Absorbed tokens) :=
  fun _ => inferInstanceAs (Decidable (∃ _, _ ∧ _))

/-- What becomes of the equals sign at an index. -/
def fate (tokens : List Token) : Nat → Fate
  | 0 => .reported .leading
  | i + 1 =>
    if pairAt tokens i then
      match pairFault? tokens i with
      | some fault => .reported fault
      | none => .defines
    else if Absorbed tokens (i + 1) then .absorbed
    else .reported .afterOther

variable {tokens rest : List Token} {token name equals : Token} {i k : Nat}
  {table : List Assignment} {previous : Option Token}

/-! ### The fate of one sign -/

theorem equalsAt_of_drop (h : tokens.drop k = token :: rest) :
    equalsAt tokens k = token.isOperator '=' := by
  rw [equalsAt, getElem?_of_drop h, Option.any_some]

theorem pairAt_of_equalsAt (h : equalsAt tokens k = true) : pairAt tokens k = false := by
  obtain ⟨token, htoken, hequals⟩ := Option.any_eq_true _ _ |>.mp h
  exact pairAt_eq_false_of_isOperator htoken hequals

theorem equalsAt_of_pairAt (h : pairAt tokens i = true) : equalsAt tokens (i + 1) = true :=
  (Bool.and_eq_true_iff.mp h).2

theorem fate_eq_defines_iff :
    fate tokens (i + 1) = .defines ↔ pairAt tokens i = true ∧ FirstOfName tokens i := by
  rw [fate, firstOfName_iff]
  split
  · rename_i hpair
    cases hfault : pairFault? tokens i with
    | none => exact iff_of_true rfl ⟨hpair, rfl⟩
    | some fault => exact iff_of_false nofun nofun
  · rename_i hpair
    refine iff_of_false ?_ fun h => hpair h.1
    split <;> exact nofun

/-- An absorbed sign is in no pair. -/
theorem Absorbed.pairAt_eq_false (h : Absorbed tokens (i + 1)) : pairAt tokens i = false := by
  obtain ⟨j, hj, -, -, hnone⟩ := h
  exact hnone i (Nat.lt_succ_self i) hj

theorem fate_eq_absorbed_iff : fate tokens k = .absorbed ↔ Absorbed tokens k := by
  cases k with
  | zero =>
      refine iff_of_false nofun ?_
      rintro ⟨i, hi, -⟩
      exact absurd hi (Nat.not_lt_zero i)
  | succ i =>
      rw [fate]
      split
      · rename_i hpair
        have hnot : ¬ Absorbed tokens (i + 1) := fun h => by
          rw [h.pairAt_eq_false] at hpair
          cases hpair
        refine iff_of_false ?_ hnot
        split <;> exact nofun
      · split
        · rename_i habsorbed
          exact iff_of_true rfl habsorbed
        · rename_i habsorbed
          exact iff_of_false nofun habsorbed

/-- **What the search makes of an equals sign** that it has not passed over. -/
theorem definedName_eq_fate (htable : MadeBefore tokens k table)
    (h : tokens.drop k = equals :: rest) (hequals : equals.isOperator '=' = true)
    (hprevious : Precedes tokens k previous) (hopen : ¬ Absorbed tokens k) :
    (∃ fault, definedName table previous = .error fault ∧ fate tokens k = .reported fault) ∨
      ∃ name, definedName table previous = .ok name ∧ fate tokens k = .defines := by
  cases k with
  | zero =>
      have hnone : previous = none := hprevious
      rw [hnone]
      exact .inl ⟨.leading, rfl, rfl⟩
  | succ i =>
      have hlt : i < tokens.length := Nat.lt_of_succ_lt (lt_length_of_drop h)
      have hname : tokens[i]? = some tokens[i] := List.getElem?_eq_getElem hlt
      have hprevious : previous = some tokens[i] := hprevious.trans hname
      rw [hprevious, fate]
      by_cases hpair : pairAt tokens i = true
      · rw [definedName_of_pair htable hpair hname, if_pos hpair]
        cases hfault : pairFault? tokens i with
        | none => exact .inr ⟨_, rfl, rfl⟩
        | some fault => exact .inl ⟨fault, rfl, rfl⟩
      · have hvariable : tokens[i].isVariable = false := by
          refine Bool.eq_false_iff.mpr fun hvariable => hpair ?_
          exact pairAt_iff.mpr ⟨_, equals, hname, getElem?_of_drop h, hvariable, hequals⟩
        rw [definedName, hvariable, if_neg hpair, if_neg hopen]
        exact .inl ⟨.afterOther, rfl, rfl⟩

/-! ### The signs up to an index -/

/-- The equals signs before index `k`. -/
def signsBefore (tokens : List Token) (k : Nat) : List Nat :=
  (List.range k).filter (equalsAt tokens)

/-- The faults reported for the equals signs before index `k`. -/
def reportedBefore (tokens : List Token) (k : Nat) : List AssignmentFault :=
  (signsBefore tokens k).filterMap fun k => (fate tokens k).fault?

theorem signsBefore_of_length_le (h : tokens.length ≤ k) :
    signsBefore tokens k = equalsSigns tokens := by
  obtain ⟨n, rfl⟩ := Nat.exists_eq_add_of_le h
  have hnone : ((List.range n).map (tokens.length + ·)).filter (equalsAt tokens) = [] := by
    refine List.filter_eq_nil_iff.mpr fun m hm => ?_
    obtain ⟨d, -, rfl⟩ := List.mem_map.mp hm
    rw [equalsAt, List.getElem?_eq_none (Nat.le_add_right _ d)]
    exact Bool.false_ne_true
  rw [signsBefore, List.range_add, List.filter_append, hnone, List.append_nil, equalsSigns]

theorem reportedBefore_succ (h : equalsAt tokens k = true) :
    reportedBefore tokens (k + 1) =
      reportedBefore tokens k ++ (fate tokens k).fault?.toList := by
  rw [reportedBefore, signsBefore, List.range_succ, List.filter_append, List.filter_cons, if_pos h,
    List.filterMap_append]
  cases hfault : (fate tokens k).fault? <;> simp [reportedBefore, signsBefore, hfault]

/-- Where no equals sign stands, or one of which nothing is said, nothing is reported. -/
theorem reportedBefore_succ_of_silent
    (h : equalsAt tokens k = true → (fate tokens k).fault? = none) :
    reportedBefore tokens (k + 1) = reportedBefore tokens k := by
  by_cases hequals : equalsAt tokens k = true
  · rw [reportedBefore_succ hequals, h hequals]
    exact List.append_nil _
  · rw [reportedBefore, signsBefore, List.range_succ, List.filter_append, List.filter_cons,
      if_neg hequals]
    exact congrArg _ (List.append_nil _)

theorem reportedBefore_add (n : Nat)
    (h : ∀ m < n, equalsAt tokens (k + m) = true → (fate tokens (k + m)).fault? = none) :
    reportedBefore tokens (k + n) = reportedBefore tokens k := by
  induction n with
  | zero => rfl
  | succ n ih =>
      rw [← Nat.add_assoc, reportedBefore_succ_of_silent (h n (Nat.lt_succ_self n)),
        ih fun m hm => h m (Nat.lt_succ_of_lt hm)]

/-! ### The search -/

/-- Behind an equals sign that makes no assignment the search is in no value. -/
theorem not_absorbed_succ (hopen : ¬ Absorbed tokens k) (h : fate tokens k ≠ .defines) :
    ¬ Absorbed tokens (k + 1) := by
  rintro ⟨i, hi, hpair, hfirst, hnone⟩
  rcases Nat.lt_or_eq_of_le (Nat.succ_le_of_lt hi) with hlt | rfl
  · exact hopen ⟨i, Nat.lt_sub_of_add_lt hlt, hpair, hfirst,
      fun j hj => hnone j (Nat.lt_succ_of_lt hj)⟩
  · exact h (fate_eq_defines_iff.mpr ⟨hpair, hfirst⟩)

/-- So it is behind a token that is no equals sign, in front of a pair too. -/
theorem not_absorbed_succ_of_drop (hopen : ¬ Absorbed tokens k ∨ pairAt tokens k = true)
    (hequals : equalsAt tokens k = false) : ¬ Absorbed tokens (k + 1) := by
  rcases hopen with hopen | hpair
  · refine not_absorbed_succ hopen ?_
    cases k with
    | zero => exact nofun
    | succ i =>
        intro hdefines
        rw [equalsAt_of_pairAt (fate_eq_defines_iff.mp hdefines).1] at hequals
        cases hequals
  · intro habsorbed
    rw [habsorbed.pairAt_eq_false] at hpair
    cases hpair

/-- **The equals signs in a value** are absorbed. -/
theorem fate_of_takeValue (hrest : tokens.drop (k + 1) = rest) (hequals : equalsAt tokens k = true)
    (hdefines : fate tokens k = .defines) {m : Nat} (hm : m < (takeValue rest).1.length) :
    fate tokens (k + 1 + m) = .absorbed := by
  rw [fate_eq_absorbed_iff]
  cases k with
  | zero => cases hdefines
  | succ i =>
      obtain ⟨hpair, hfirst⟩ := fate_eq_defines_iff.mp hdefines
      refine ⟨i, by omega, hpair, hfirst, fun j hj hlt => ?_⟩
      -- at the equals sign of the pair, or within the value
      rcases Nat.eq_or_lt_of_le (Nat.succ_le_of_lt hlt) with rfl | hlt
      · exact pairAt_of_equalsAt hequals
      · obtain ⟨n, rfl⟩ := Nat.exists_eq_add_of_le (Nat.succ_le_of_lt hlt)
        exact pairAt_of_takeValue hrest n (by omega)

/-- The search from index `k` on, with what it has found before, reports what `fate` says. -/
theorem extractFrom_fates (htable : MadeBefore tokens k table) (hrest : tokens.drop k = rest)
    (hprevious : ∀ token more, rest = token :: more → token.isOperator '=' = true →
      Precedes tokens k previous)
    (hopen : ∀ token more, rest = token :: more →
      ¬ Absorbed tokens k ∨ pairAt tokens k = true) :
    reportedBefore tokens k ++ (extractFrom table previous rest).2 =
      (equalsSigns tokens).filterMap fun k => (fate tokens k).fault? := by
  fun_induction extractFrom table previous rest generalizing k with
  | case1 table previous =>
      rw [reportedBefore, signsBefore_of_length_le (List.drop_eq_nil_iff.mp hrest),
        List.append_nil]
  | case2 table previous token rest hequals fault hname _ faults hmore ih =>
      have hsign : equalsAt tokens k = true := (equalsAt_of_drop hrest).trans hequals
      have hopen : ¬ Absorbed tokens k := (hopen token rest rfl).resolve_right
        (Bool.eq_false_iff.mp (pairAt_of_equalsAt hsign))
      have hprevious := hprevious token rest rfl hequals
      obtain ⟨fault', hfault, hfate⟩ | ⟨name, hname', -⟩ :=
        definedName_eq_fate htable hrest hequals hprevious hopen
      · obtain rfl := Except.error.inj (hname.symm.trans hfault)
        obtain ⟨_, -, hmade, -⟩ | ⟨name, hname', -⟩ :=
          definedName_cases htable hrest hequals hprevious
        · have hreported : fate tokens k ≠ .defines := by
            rw [hfate]
            exact Fate.noConfusion
          have hlater := ih hmade (drop_succ_of_drop hrest) (fun _ _ _ _ => precedes_succ hrest)
            fun _ _ _ => .inl (not_absorbed_succ hopen hreported)
          rw [hmore, reportedBefore_succ hsign, hfate, List.append_assoc] at hlater
          exact hlater
        · cases hname.symm.trans hname'
      · cases hname.symm.trans hname'
  | case3 table previous token rest hequals name hname ih =>
      have hsign : equalsAt tokens k = true := (equalsAt_of_drop hrest).trans hequals
      have hopen : ¬ Absorbed tokens k := (hopen token rest rfl).resolve_right
        (Bool.eq_false_iff.mp (pairAt_of_equalsAt hsign))
      have hprevious := hprevious token rest rfl hequals
      obtain ⟨fault, hfault, -⟩ | ⟨-, -, hdefines⟩ :=
        definedName_eq_fate htable hrest hequals hprevious hopen
      · cases hname.symm.trans hfault
      obtain ⟨fault, hfault, -⟩ | ⟨name', hname', hmade, -⟩ :=
        definedName_cases htable hrest hequals hprevious
      · cases hname.symm.trans hfault
      obtain rfl := Except.ok.inj (hname.symm.trans hname')
      have hmore : tokens.drop (k + 1) = rest := drop_succ_of_drop hrest
      have hpairs : pairsBefore tokens (k + 1 + (takeValue rest).1.length) =
          pairsBefore tokens (k + 1) :=
        pairsBefore_add _ fun m hm => by
          cases m with
          | zero => exact pairAt_of_equalsAt hsign
          | succ m =>
              rw [Nat.add_comm m, ← Nat.add_assoc]
              exact pairAt_of_takeValue hmore m (Nat.lt_of_succ_lt hm)
      have hsilent : reportedBefore tokens (k + 1 + (takeValue rest).1.length) =
          reportedBefore tokens k := by
        rw [reportedBefore_add _ fun m hm _ => ?_, reportedBefore_succ hsign, hdefines]
        · exact List.append_nil _
        · rw [fate_of_takeValue hmore hsign hdefines hm]
          rfl
      have hafter := drop_takeValue hmore
      rw [← hsilent]
      refine ih (hmade.congr hpairs) hafter (fun token' more hbehind hequals' => ?_)
        fun token' more hbehind => .inr ?_
      · -- no equals sign stands where the value ends
        rw [not_equals_of_startsPair (startsPair_of_takeValue hbehind)] at hequals'
        cases hequals'
      · rw [← startsPair_drop, hafter, hbehind]
        exact startsPair_of_takeValue hbehind
  | case4 table previous token rest hequals ih =>
      have hsign : equalsAt tokens k = false :=
        (equalsAt_of_drop hrest).trans (Bool.eq_false_iff.mpr hequals)
      have hnone : ∀ i, k = i + 1 → pairAt tokens i = false := by
        rintro i rfl
        exact pairAt_eq_false (getElem?_of_drop hrest) (Bool.eq_false_iff.mpr hequals)
      have hsilent : reportedBefore tokens (k + 1) = reportedBefore tokens k :=
        reportedBefore_succ_of_silent fun h => by
          rw [hsign] at h
          cases h
      rw [← hsilent]
      exact ih (htable.congr (pairsBefore_succ hnone)) (drop_succ_of_drop hrest)
        (fun _ _ _ _ => precedes_succ hrest)
        fun _ _ _ => .inl (not_absorbed_succ_of_drop (hopen token rest rfl) hsign)

/-! ### Accounts -/

/-- The equals signs that make an assignment are those of the pairs that do. -/
theorem filter_defines (tokens : List Token) :
    (equalsSigns tokens).filter (fate tokens · = .defines) =
      ((pairs tokens).filter (FirstOfName tokens ·)).map (· + 1) := by
  rw [equalsSigns, pairs, List.filter_filter, List.filter_filter]
  generalize hlength : tokens.length = n
  cases n with
  | zero => rfl
  | succ n =>
      have hlast : pairAt tokens n = false := by
        rw [pairAt, List.getElem?_eq_none (Nat.le_of_eq hlength), Option.any_none, Bool.and_false]
      have hfirst : (decide (fate tokens 0 = .defines) && equalsAt tokens 0) = false := rfl
      nth_rewrite 2 [List.range_succ]
      rw [List.range_succ_eq_map, List.filter_cons, hfirst, if_neg Bool.false_ne_true,
        List.filter_map, List.filter_append, List.filter_cons, hlast, Bool.and_false,
        if_neg Bool.false_ne_true, List.filter_nil, List.append_nil]
      refine congrArg _ (List.filter_congr fun i _ => ?_)
      rw [Function.comp_apply, Bool.eq_iff_iff, Bool.and_eq_true, Bool.and_eq_true,
        decide_eq_true_eq, decide_eq_true_eq, Nat.succ_eq_add_one, fate_eq_defines_iff]
      constructor
      · rintro ⟨⟨hpair, hfirst⟩, -⟩
        exact ⟨hfirst, hpair⟩
      · rintro ⟨hfirst, hpair⟩
        exact ⟨⟨hpair, hfirst⟩, equalsAt_of_pairAt hpair⟩

/-- Each equals sign has one fate. -/
theorem length_fates (tokens : List Token) (signs : List Nat) :
    signs.length = (signs.filter (fate tokens · = .defines)).length +
      (signs.filterMap fun k => (fate tokens k).fault?).length +
      (signs.filter (fate tokens · = .absorbed)).length := by
  induction signs with
  | nil => rfl
  | cons k signs ih =>
      rw [List.length_cons, ih, List.filter_cons, List.filter_cons, List.filterMap_cons]
      cases fate tokens k <;> simp [Fate.fault?] <;> omega

theorem exists_mem_of_madeAt {indexes : List Nat} (h : List.Forall₂ (MadeAt tokens) indexes table)
    (hmem : i ∈ indexes) : ∃ assignment ∈ table, MadeAt tokens i assignment := by
  induction h with
  | nil => cases hmem
  | cons hhead _ ih =>
      rcases List.mem_cons.mp hmem with rfl | hmem
      · exact ⟨_, List.mem_cons_self, hhead⟩
      · obtain ⟨assignment, hassignment, hmade⟩ := ih hmem
        exact ⟨assignment, List.mem_cons_of_mem _ hassignment, hmade⟩

/-- **An absorbed equals sign** stands in the value of an assignment. -/
theorem exists_mem_value (h : Absorbed tokens k) (hequals : equalsAt tokens k = true)
    (htable : List.Forall₂ (MadeAt tokens) ((pairs tokens).filter (FirstOfName tokens ·)) table) :
    ∃ assignment ∈ table, ∃ i n, MadeAt tokens i assignment ∧ k = i + 2 + n ∧
      assignment.value[n]? = tokens[k]? := by
  obtain ⟨i, hi, hpair, hfirst, hnone⟩ := h
  obtain ⟨token, htoken, -⟩ := Option.any_eq_true _ _ |>.mp hequals
  have hlt : k < tokens.length := (List.getElem?_eq_some_iff.mp htoken).1
  have hmem : i ∈ (pairs tokens).filter (FirstOfName tokens ·) := by
    refine List.mem_filter.mpr ⟨List.mem_filter.mpr ⟨?_, hpair⟩, decide_eq_true hfirst⟩
    exact List.mem_range.mpr (by omega)
  obtain ⟨assignment, hassignment, hmade⟩ := exists_mem_of_madeAt htable hmem
  obtain ⟨next, sign, hnext, hsign, htokens⟩ := hmade
  have hbefore : k < next := by
    refine Nat.lt_of_not_le fun hle => ?_
    rcases hnext.stops with hstops | rfl
    · rcases Nat.eq_or_lt_of_le hle with rfl | hlt
      · rw [pairAt_of_equalsAt hequals] at hstops
        cases hstops
      · rw [hnone next hlt hnext.lt] at hstops
        cases hstops
    · omega
  refine ⟨assignment, hassignment, i, k - (i + 2), ⟨next, sign, hnext, hsign, htokens⟩,
    by omega, ?_⟩
  have hvalue := congrArg (·[k - (i + 2) + 2]?) htokens
  have hback : i + (k - (i + 2) + 2) = k := by omega
  simp only [List.getElem?_drop, List.getElem?_cons_succ, hback] at hvalue
  rw [← hvalue, List.getElem?_take_of_lt hbefore]

/-- **Every equals sign** makes an assignment, is reported, or is absorbed.  The assignments are
those of the signs that make one, in order, and the reports are one for each sign that is reported,
in order.  An absorbed sign stands in the value of an assignment, with nothing said of it: so the
assignments and the reports account for all equals signs just when none is absorbed, which is to say
that none stands behind no variable and has for the last pair before it one that makes an
assignment. -/
theorem extract_eq_fates (tokens : List Token) :
    List.Forall₂ (MadeAt tokens)
        (((equalsSigns tokens).filter (fate tokens · = .defines)).map (· - 1))
        (extract tokens).1 ∧
      (extract tokens).2 = (equalsSigns tokens).filterMap (fun k => (fate tokens k).fault?) ∧
      (∀ k ∈ equalsSigns tokens, Absorbed tokens k →
        ∃ assignment ∈ (extract tokens).1, ∃ i n, MadeAt tokens i assignment ∧ k = i + 2 + n ∧
          assignment.value[n]? = tokens[k]?) ∧
      ((equalsSigns tokens).length = (extract tokens).1.length + (extract tokens).2.length ↔
        ∀ k ∈ equalsSigns tokens, ¬ Absorbed tokens k) := by
  have hnone : MadeBefore tokens 0 [] := .nil
  obtain ⟨htable, -⟩ : List.Forall₂ (MadeAt tokens) ((pairs tokens).filter (FirstOfName tokens ·))
      (extract tokens).1 ∧ _ := extractFrom_pairs hnone rfl fun _ _ _ _ => rfl
  have hfaults : (extract tokens).2 =
      (equalsSigns tokens).filterMap (fun k => (fate tokens k).fault?) := by
    refine extractFrom_fates hnone rfl (fun _ _ _ _ => rfl) fun _ _ _ => .inl ?_
    rintro ⟨i, hi, -⟩
    exact absurd hi (Nat.not_lt_zero i)
  have hdefines : ((equalsSigns tokens).filter (fate tokens · = .defines)).map (· - 1) =
      (pairs tokens).filter (FirstOfName tokens ·) := by
    rw [filter_defines, List.map_map]
    exact List.map_id' _
  refine ⟨hdefines ▸ htable, hfaults, fun k hk habsorbed =>
    exists_mem_value habsorbed (List.mem_filter.mp hk).2 htable, ?_⟩
  have hall := length_fates tokens (equalsSigns tokens)
  rw [← hfaults, filter_defines, List.length_map, htable.length_eq] at hall
  rw [hall, Nat.add_eq_left, List.length_eq_zero_iff, List.filter_eq_nil_iff]
  simp only [decide_eq_true_eq, fate_eq_absorbed_iff]

/-- In `$v=1 $x=A=B` the last equals sign is in the value of `$x`. -/
theorem extract_eq_fates_of_absorbed :
    let tokens := (lex .strict "$v=1 $x=A=B".toList).body
    (6 ∈ equalsSigns tokens ∧ Absorbed tokens 6) ∧
      ∃ assignment ∈ (extract tokens).1, ∃ i n, MadeAt tokens i assignment ∧ 6 = i + 2 + n ∧
        assignment.value[n]? = tokens[6]? := by
  intro tokens
  have hsign : 6 ∈ equalsSigns tokens := by decide +kernel
  have habsorbed : Absorbed tokens 6 := by decide +kernel
  obtain ⟨-, -, hvalue, -⟩ := extract_eq_fates tokens
  exact ⟨⟨hsign, habsorbed⟩, hvalue 6 hsign habsorbed⟩

/-- In `$x=A=B` the second equals sign stands behind no variable.  It is left in the value of `$x`,
and nothing is reported. -/
theorem length_equalsSigns_ne_accounted :
    let tokens := (lex .strict "$x=A=B".toList).body
    (lex .strict "$x=A=B".toList).faults = [] ∧
      equalsSigns tokens = [1, 3] ∧ (extract tokens).1.length = 1 ∧ (extract tokens).2 = [] ∧
      (extract tokens).1.map (fun assignment => assignment.value.map Token.text) =
        [[['A'], ['='], ['B']]] ∧
      (equalsSigns tokens).length ≠ (extract tokens).1.length + (extract tokens).2.length := by
  decide +kernel

end CounterFormula.Assignment
