import CounterFormula.Proofs.Text.Nested

/-!
# Text — Outside

Splices at nested spans.  Where a span holds another one, the splice of the inner one, done first,
moves the end of the outer one, and the outer splice, at the offset where the end was, takes too
much or too little.

A text `DiffersOnlyAt` some spans from another one when what is outside of the spans is still
there, piece by piece.

* `differsOnlyAt_spliceAll`: whatever is spliced in, what is outside stays, if nothing is outside
  behind a span that holds another one (`Span.NestedAtEnd`).
* `length_spliceAll_deletions_lt`: if something is, deleting the spans takes some of it along.
-/

namespace CounterFormula

namespace Text

variable {text : Text} {spans : List Span} {start middle : Nat}

/-- The patches that delete the spans. -/
def deletions (spans : List Span) : List (Span × Text) :=
  spans.map fun span => (span, [])

/-- What is left of `text` from offset `start` on without the spans. -/
def outsideFrom (text : Text) (start : Nat) (spans : List Span) : Text :=
  patchFrom text start (deletions spans)

/-- What is left of `text` without the spans. -/
def outside (text : Text) (spans : List Span) : Text :=
  outsideFrom text 0 spans

/-- `new` is `text` with some text, whichever, in the place of each span. -/
def DiffersOnlyAt (spans : List Span) (text new : Text) : Prop :=
  ∃ news : List Text, news.length = spans.length ∧ new = text.patch (spans.zip news)

theorem fst_deletions (spans : List Span) : (deletions spans).map Prod.fst = spans := by
  rw [deletions, List.map_map]
  exact List.map_id spans

theorem outsideFrom_nil (text : Text) (start : Nat) :
    outsideFrom text start [] = text.drop start := rfl

theorem outsideFrom_cons (text : Text) (start : Nat) (span : Span) (rest : List Span) :
    outsideFrom text start (span :: rest) =
      (text.drop start).take (span.first - start) ++ outsideFrom text (span.last + 1) rest := by
  rw [outsideFrom, deletions, List.map_cons, patchFrom, List.append_nil, outsideFrom, deletions]

/-- A patched text consists of what is outside of the spans and of what is put in. -/
theorem mem_patchFrom {patches : List (Span × Text)} {c : Char}
    (h : c ∈ patchFrom text start patches) :
    c ∈ outsideFrom text start (patches.map Prod.fst) ∨ ∃ patch ∈ patches, c ∈ patch.2 := by
  induction patches generalizing start with
  | nil => exact .inl h
  | cons patch rest ih =>
      obtain ⟨span, new⟩ := patch
      rw [List.map_cons, outsideFrom_cons]
      rcases List.mem_append.mp h with h | h
      · rcases List.mem_append.mp h with h | h
        · exact .inl (List.mem_append_left _ h)
        · exact .inr ⟨(span, new), List.mem_cons_self, h⟩
      · rcases ih h with h | ⟨patch, hpatch, h⟩
        · exact .inl (List.mem_append_right _ h)
        · exact .inr ⟨patch, List.mem_cons_of_mem _ hpatch, h⟩

theorem outsideFrom_sublist (text : Text) (start : Nat) (spans : List Span) (news : List Text)
    (hlength : news.length = spans.length) :
    (outsideFrom text start spans).Sublist (patchFrom text start (spans.zip news)) := by
  induction spans generalizing start news with
  | nil => exact List.Sublist.refl _
  | cons span rest ih =>
      cases news with
      | nil => cases hlength
      | cons new news =>
          rw [outsideFrom_cons, List.zip_cons_cons, patchFrom]
          exact (List.sublist_append_left _ new).append
            (ih (span.last + 1) news (Nat.succ.inj hlength))

/-- What is outside is still there, once and in its order. -/
theorem DiffersOnlyAt.outside_sublist {new : Text} (h : DiffersOnlyAt spans text new) :
    (text.outside spans).Sublist new := by
  obtain ⟨news, hlength, rfl⟩ := h
  exact outsideFrom_sublist text 0 spans news hlength

/-- Nothing is outside when all characters are covered. -/
theorem outsideFrom_eq_nil_iff (h : Span.Laid start text.length spans) :
    outsideFrom text start spans = [] ↔
      ∀ offset, start ≤ offset → offset < text.length → Span.Covered spans offset := by
  induction spans generalizing start with
  | nil =>
      rw [outsideFrom_nil, List.drop_eq_nil_iff]
      constructor
      · intro hlength offset hoffset hstop
        exact absurd hstop (Nat.not_lt.mpr (Nat.le_trans hlength hoffset))
      · intro hcovered
        exact Nat.not_lt.mp fun hlength =>
          Span.not_covered_nil (hcovered start (Nat.le_refl start) hlength)
  | cons span rest ih =>
      have hfirst := h.first_le_last span List.mem_cons_self
      have hstart := h.start_le span List.mem_cons_self
      have hlast := h.lt_stop span List.mem_cons_self
      have hgap : (text.drop start).take (span.first - start) = [] ↔ span.first = start := by
        rw [← List.length_eq_zero_iff, List.length_take, List.length_drop]
        omega
      rw [outsideFrom_cons, List.append_eq_nil_iff, hgap, ih h.tail]
      constructor
      · rintro ⟨hgap, hrest⟩ offset hoffset hstop
        refine Span.covered_cons.mpr ?_
        by_cases hspan : span.last < offset
        · exact .inr (hrest offset hspan hstop)
        · exact .inl ⟨by omega, Nat.not_lt.mp hspan⟩
      intro hcovered
      refine ⟨?_, ?_⟩
      · rcases Span.covered_cons.mp (hcovered start (Nat.le_refl start) (by omega)) with hs | hs
        · exact Nat.le_antisymm hs.1 hstart
        · obtain ⟨s, hs, hcovers⟩ := hs
          have := h.tail.start_le s hs
          have := hcovers.1
          omega
      · intro offset hoffset hstop
        rcases Span.covered_cons.mp (hcovered offset (by omega) hstop) with hs | hs
        · exact absurd hs.2 (Nat.not_le.mpr hoffset)
        · exact hs

/-! ### Splices that touch nothing outside -/

theorem le_length_spliceAll {patches : List (Span × Text)} {count : Nat}
    (hcount : ∀ span ∈ patches.map Prod.fst, count ≤ span.first) (hlength : count ≤ text.length) :
    count ≤ (spliceAll text patches).length := by
  induction patches with
  | nil => exact hlength
  | cons patch rest ih =>
      have hrest := ih fun s hs => hcount s (List.mem_cons_of_mem _ hs)
      have hfirst : count ≤ patch.1.first := hcount patch.1 List.mem_cons_self
      rw [spliceAll_cons, splice, List.append_assoc, List.length_append, List.length_take]
      omega

/-- Splices leave what stands before all of them. -/
theorem take_spliceAll {patches : List (Span × Text)} {count : Nat}
    (hcount : ∀ span ∈ patches.map Prod.fst, count ≤ span.first) (hlength : count ≤ text.length) :
    (spliceAll text patches).take count = text.take count := by
  induction patches with
  | nil => rfl
  | cons patch rest ih =>
      have hrest : ∀ span ∈ rest.map Prod.fst, count ≤ span.first :=
        fun s hs => hcount s (List.mem_cons_of_mem _ hs)
      have hfirst : count ≤ patch.1.first := hcount patch.1 List.mem_cons_self
      have hle : count ≤ ((spliceAll text rest).take patch.1.first).length := by
        rw [List.length_take]
        exact Nat.le_min.mpr ⟨hfirst, le_length_spliceAll hrest hlength⟩
      rw [spliceAll_cons, splice, List.append_assoc, List.take_append_of_le_length hle,
        List.take_take, Nat.min_eq_left hfirst, ih hrest]

theorem zip_map_const_nil (spans : List Span) :
    spans.zip (spans.map fun _ => ([] : Text)) = deletions spans := by
  induction spans with
  | nil => rfl
  | cons span rest ih =>
      rw [List.map_cons, List.zip_cons_cons, ih]
      rfl

theorem exists_spliceAll_eq {patches : List (Span × Text)}
    (h : Span.Laminar text.length (patches.map Prod.fst))
    (hend : Span.NestedAtEnd text.length (patches.map Prod.fst)) (hstart : start ≤ text.length)
    (hfirst : ∀ span ∈ patches.map Prod.fst, start ≤ span.first) :
    ∃ news : List Text,
      news.length = (Span.outermostFrom start (patches.map Prod.fst)).length ∧
        spliceAll text patches = text.take start ++
          patchFrom text start ((Span.outermostFrom start (patches.map Prod.fst)).zip news) := by
  induction patches generalizing start with
  | nil => exact ⟨[], rfl, (List.take_append_drop start text).symm⟩
  | cons patch rest ih =>
      obtain ⟨span, new⟩ := patch
      rw [List.map_cons] at h hend hfirst ⊢
      have hle : start ≤ span.first := hfirst span List.mem_cons_self
      have hspan : span.first ≤ span.last := h.first_le_last span List.mem_cons_self
      have hlast : span.last < text.length := h.lt_stop span List.mem_cons_self
      rw [Span.outermostFrom_cons_of_le hle]
      by_cases hholds : ∃ inner ∈ rest.map Prod.fst, span.Holds inner
      · -- nothing is outside behind `span`, so all that is there may go into its place
        have hbehind := (Span.nestedAtEnd_cons_of_holds h hholds).mp hend
        rw [← outsideFrom_eq_nil_iff (Span.laid_outermostFrom h.tail (span.last + 1))] at hbehind
        refine ⟨(new ++ (spliceAll text rest).drop (span.last + 1)) ::
          (Span.outermostFrom (span.last + 1) (rest.map Prod.fst)).map fun _ => [], ?_, ?_⟩
        · rw [List.length_cons, List.length_map, List.length_cons]
        · have hkeep : (spliceAll text rest).take span.first = text.take span.first :=
            take_spliceAll (fun s hs => Nat.le_of_lt (h.first_lt s hs)) (by omega)
          rw [List.zip_cons_cons, zip_map_const_nil, patchFrom, ← outsideFrom, hbehind,
            spliceAll_cons, splice, hkeep, take_eq_append text hle]
          simp only [List.append_assoc, List.append_nil]
      · have hafter := h.last_lt_of_not_holds hholds
        obtain ⟨news, hlength, hrest⟩ := ih h.tail
          ((Span.nestedAtEnd_cons_of_lt hspan h.tail hafter).mp hend)
          (show span.last + 1 ≤ text.length from hlast) hafter
        refine ⟨new :: news, congrArg Nat.succ hlength, ?_⟩
        rw [List.zip_cons_cons, patchFrom, spliceAll_cons, hrest]
        exact splice_take_append new _ hle hspan hlast

/-- **Nothing outside is touched**, whatever is spliced in, when behind a span that holds another
one nothing is outside. -/
theorem differsOnlyAt_spliceAll {patches : List (Span × Text)}
    (hpatches : patches.map Prod.fst = spans) (h : Span.Laminar text.length spans)
    (hend : Span.NestedAtEnd text.length spans) :
    DiffersOnlyAt (Span.outermost spans) text (spliceAll text patches) := by
  subst hpatches
  obtain ⟨news, hlength, hsplice⟩ := exists_spliceAll_eq h hend (Nat.zero_le _)
    fun _ _ => Nat.zero_le _
  refine ⟨news, hlength, ?_⟩
  rw [hsplice, List.take_zero, List.nil_append]
  rfl

/-! ### Deletions that take some of the outside along -/

theorem length_outsideFrom_cons (text : Text) (start : Nat) (span : Span) (rest : List Span)
    (hstart : start ≤ span.first) (hfirst : span.first ≤ span.last)
    (hlast : span.last < text.length) :
    (outsideFrom text start (span :: rest)).length =
      span.first - start + (outsideFrom text (span.last + 1) rest).length := by
  rw [outsideFrom_cons, List.length_append, List.length_take, List.length_drop,
    Nat.min_eq_left (by omega)]

/-- What is outside before an offset `middle` that no span reaches across, at most all of it, and
less if a span begins there. -/
theorem length_outsideFrom_le (h : Span.Laminar text.length spans) (hstart : start ≤ middle)
    (hmiddle : middle ≤ text.length)
    (hacross : ∀ span ∈ spans, span.first < middle → span.last < middle) :
    (outsideFrom text start (Span.outermostFrom start spans)).length ≤
        middle - start + (outsideFrom text middle (Span.outermostFrom middle spans)).length ∧
      ((∃ span ∈ spans, start ≤ span.first ∧ span.first < middle) →
        (outsideFrom text start (Span.outermostFrom start spans)).length <
          middle - start + (outsideFrom text middle (Span.outermostFrom middle spans)).length) := by
  induction spans generalizing start with
  | nil =>
      refine ⟨?_, ?_⟩
      · simp only [Span.outermostFrom, outsideFrom_nil, List.length_drop]
        omega
      · rintro ⟨_, hspan, -⟩
        cases hspan
  | cons span rest ih =>
      have hfirst : span.first ≤ span.last := h.first_le_last span List.mem_cons_self
      have hlast : span.last < text.length := h.lt_stop span List.mem_cons_self
      have hrest : ∀ s ∈ rest, s.first < middle → s.last < middle :=
        fun s hs => hacross s (List.mem_cons_of_mem _ hs)
      by_cases hskip : span.first < start
      · rw [Span.outermostFrom_cons_of_lt hskip,
          Span.outermostFrom_cons_of_lt (Nat.lt_of_lt_of_le hskip hstart)]
        -- `span` begins before `start`, so it counts on neither side
        obtain ⟨hle, hlt⟩ := ih h.tail hstart hrest
        refine ⟨hle, ?_⟩
        rintro ⟨s, hs, hbounds⟩
        rcases List.mem_cons.mp hs with rfl | hs
        · exact absurd hbounds.1 (Nat.not_le.mpr hskip)
        · exact hlt ⟨s, hs, hbounds⟩
      · have hbegin : start ≤ span.first := Nat.not_lt.mp hskip
        rw [Span.outermostFrom_cons_of_le hbegin,
          length_outsideFrom_cons text start span _ hbegin hfirst hlast]
        by_cases hbefore : span.first < middle
        · have hend : span.last + 1 ≤ middle := hacross span List.mem_cons_self hbefore
          have hle := (ih h.tail hend hrest).1
          rw [Span.outermostFrom_cons_of_lt hbefore]
          refine ⟨by omega, fun _ => by omega⟩
        · have hbehind : middle ≤ span.first := Nat.not_lt.mp hbefore
          rw [Span.outermostFrom_cons_of_le hbehind,
            length_outsideFrom_cons text middle span _ hbehind hfirst hlast]
          refine ⟨by omega, ?_⟩
          rintro ⟨s, hs, hbounds⟩
          rcases List.mem_cons.mp hs with rfl | hs
          · exact absurd hbounds.2 hbefore
          · have := h.first_lt s hs
            omega

/-- The spans deleted one after the other, at the offsets of the text as it was. -/
theorem length_spliceAll_deletions (h : Span.Laminar text.length spans)
    (hstart : start ≤ text.length) (hfirst : ∀ span ∈ spans, start ≤ span.first) :
    (spliceAll text (deletions spans)).length ≤
        start + (outsideFrom text start (Span.outermostFrom start spans)).length ∧
      (¬ Span.NestedAtEnd text.length spans →
        (spliceAll text (deletions spans)).length <
          start + (outsideFrom text start (Span.outermostFrom start spans)).length) := by
  induction spans generalizing start with
  | nil =>
      refine ⟨?_, ?_⟩
      · rw [Span.outermostFrom, outsideFrom_nil, List.length_drop, Nat.add_sub_cancel' hstart]
        exact Nat.le_refl text.length
      · intro hend
        exact absurd (fun _ houter => absurd houter List.not_mem_nil) hend
  | cons span rest ih =>
      have hle : start ≤ span.first := hfirst span List.mem_cons_self
      have hspan : span.first ≤ span.last := h.first_le_last span List.mem_cons_self
      have hlast : span.last < text.length := h.lt_stop span List.mem_cons_self
      have hlength : (spliceAll text (deletions (span :: rest))).length ≤
          span.first + ((spliceAll text (deletions rest)).length - (span.last + 1)) := by
        rw [deletions, List.map_cons, spliceAll_cons, splice, ← deletions]
        simp only [List.append_nil, List.length_append, List.length_take, List.length_drop]
        omega
      rw [Span.outermostFrom_cons_of_le hle,
        length_outsideFrom_cons text start span _ hle hspan hlast]
      by_cases hholds : ∃ inner ∈ rest, span.Holds inner
      · -- what `span` holds is gone before, and as much is missing behind `span` afterwards
        have hholds' := hholds
        obtain ⟨inner, hinner, hwithin⟩ := hholds'
        have hrest := (ih h.tail (show span.first + 1 ≤ text.length by omega)
          (fun s hs => h.first_lt s hs)).1
        have hless := (length_outsideFrom_le h.tail
          (show span.first + 1 ≤ span.last + 1 by omega) hlast h.not_across).2
          ⟨inner, hinner, hwithin.1, Nat.lt_succ_of_le hwithin.2⟩
        refine ⟨by omega, ?_⟩
        intro hend
        rw [Span.nestedAtEnd_cons_of_holds h hholds,
          ← outsideFrom_eq_nil_iff (Span.laid_outermostFrom h.tail (span.last + 1))] at hend
        have := List.length_pos_iff.mpr hend
        omega
      · have hafter := h.last_lt_of_not_holds hholds
        obtain ⟨hrest, hless⟩ := ih h.tail (show span.last + 1 ≤ text.length from hlast) hafter
        refine ⟨by omega, ?_⟩
        intro hend
        rw [Span.nestedAtEnd_cons_of_lt hspan h.tail hafter] at hend
        -- the bound alone would not do: nothing may be left behind `span`, were it not still there
        have := hless hend
        have : span.last + 1 ≤ (spliceAll text (deletions rest)).length :=
          le_length_spliceAll (by rwa [fst_deletions]) hlast
        omega

/-- **Some of the outside is lost** when the spans are deleted and something is outside behind a
span that holds another one. -/
theorem length_spliceAll_deletions_lt (h : Span.Laminar text.length spans)
    (hend : ¬ Span.NestedAtEnd text.length spans) :
    (spliceAll text (deletions spans)).length <
      (text.outside (Span.outermost spans)).length := by
  have := (length_spliceAll_deletions h (Nat.zero_le _) fun _ _ => Nat.zero_le _).2 hend
  rwa [Nat.zero_add] at this

end Text

end CounterFormula
