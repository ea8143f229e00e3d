import CounterFormula.Proofs.Text.Patch

/-!
# Text — Nested spans

Splices at nested spans.  A stretch of a text may hold another one; then the splice of the inner
one, done first, moves the end of the outer one, and the outer splice, at the offset where the end
was, takes too much or too little.

A text `DiffersOnlyAt` some spans from another one when what is outside of them is still there,
piece by piece; `outermost` picks the spans to compare at.

* `covered_outermostFrom_iff`: the outermost spans cover what all the spans cover.
* `spliceAll_differsOnlyAt`: whatever is spliced in, nothing outside is touched when behind a span
  that holds another one nothing is outside (`Span.NestedAtEnd`).
* `length_spliceAll_lt`: when something is, splices that delete take some of the outside along.
-/

namespace CounterFormula

namespace Span

/-- `inner` begins within `outer`, behind its beginning. -/
def Holds (outer inner : Span) : Prop :=
  outer.first < inner.first ∧ inner.first ≤ outer.last

/-- The character at `offset` lies in `span`. -/
def Covers (span : Span) (offset : Nat) : Prop :=
  span.first ≤ offset ∧ offset ≤ span.last

/-- The character at `offset` lies in one of `spans`. -/
def Covered (spans : List Span) (offset : Nat) : Prop :=
  ∃ span ∈ spans, span.Covers offset

/-- `spans` in the order in which they begin, before the offset `stop`; one that begins within
another ends within it. -/
structure Laminar (stop : Nat) (spans : List Span) : Prop where
  first_le_last : ∀ span ∈ spans, span.first ≤ span.last
  lt_stop : ∀ span ∈ spans, span.last < stop
  ascending : spans.Pairwise fun a b => a.first < b.first
  within : spans.Pairwise fun a b => b.first ≤ a.last → b.last ≤ a.last

/-- The spans that begin at `reach` or later and within no earlier one of them. -/
def outermostFrom (reach : Nat) : List Span → List Span
  | [] => []
  | span :: rest =>
    if span.first < reach then outermostFrom reach rest
    else span :: outermostFrom (span.last + 1) rest

/-- The spans that begin within no other one. -/
def outermost (spans : List Span) : List Span :=
  outermostFrom 0 spans

/-- Behind a span that holds another one, every character before the offset `stop` lies in a
span. -/
def NestedAtEnd (stop : Nat) (spans : List Span) : Prop :=
  ∀ outer ∈ spans, ∀ inner ∈ spans, outer.Holds inner →
    ∀ offset, outer.last < offset → offset < stop → Covered spans offset

variable {start reach middle stop offset : Nat} {span : Span} {spans rest : List Span}

theorem not_covered_nil : ¬ Covered [] offset := by
  rintro ⟨_, h, -⟩
  cases h

theorem covered_cons :
    Covered (span :: rest) offset ↔ span.Covers offset ∨ Covered rest offset := by
  simp only [Covered, List.mem_cons, exists_eq_or_imp]

/-- A row of spans covers nothing that comes before all of them. -/
theorem not_covered_of_lt (h : ∀ span ∈ spans, offset < span.first) :
    ¬ Covered spans offset := by
  rintro ⟨span, hspan, hcovers⟩
  exact absurd hcovers.1 (Nat.not_le.mpr (h span hspan))

theorem outermostFrom_cons_of_lt (h : span.first < reach) :
    outermostFrom reach (span :: rest) = outermostFrom reach rest := by
  rw [outermostFrom, if_pos h]

theorem outermostFrom_cons_of_le (h : reach ≤ span.first) :
    outermostFrom reach (span :: rest) = span :: outermostFrom (span.last + 1) rest := by
  rw [outermostFrom, if_neg (Nat.not_lt.mpr h)]

/-! ### Laminar spans -/

namespace Laminar

theorem tail (h : Laminar stop (span :: spans)) : Laminar stop spans :=
  ⟨fun s hs => h.first_le_last s (List.mem_cons_of_mem _ hs),
    fun s hs => h.lt_stop s (List.mem_cons_of_mem _ hs),
    (List.pairwise_cons.mp h.ascending).2, (List.pairwise_cons.mp h.within).2⟩

theorem first_lt (h : Laminar stop (span :: spans)) : ∀ s ∈ spans, span.first < s.first :=
  (List.pairwise_cons.mp h.ascending).1

theorem last_le (h : Laminar stop (span :: spans)) :
    ∀ s ∈ spans, s.first ≤ span.last → s.last ≤ span.last :=
  (List.pairwise_cons.mp h.within).1

/-- None of the later spans reaches across the end of the first one. -/
theorem not_across (h : Laminar stop (span :: spans)) :
    ∀ s ∈ spans, s.first < span.last + 1 → s.last < span.last + 1 := by
  intro s hs hfirst
  exact Nat.lt_succ_of_le (h.last_le s hs (Nat.le_of_lt_succ hfirst))

/-- A span that holds none of the later ones lies before them. -/
theorem last_lt_of_not_holds (h : Laminar stop (span :: spans))
    (hholds : ¬ ∃ inner ∈ spans, span.Holds inner) : ∀ s ∈ spans, span.last < s.first := by
  intro s hs
  exact Nat.not_le.mp fun hwithin => hholds ⟨s, hs, h.first_lt s hs, hwithin⟩

theorem nil : Laminar stop [] :=
  ⟨fun _ h => absurd h List.not_mem_nil, fun _ h => absurd h List.not_mem_nil, .nil, .nil⟩

theorem cons (hspan : span.first ≤ span.last) (hstop : span.last < stop)
    (hfirst : ∀ s ∈ spans, span.first < s.first)
    (hlast : ∀ s ∈ spans, s.first ≤ span.last → s.last ≤ span.last) (h : Laminar stop spans) :
    Laminar stop (span :: spans) := by
  refine ⟨fun s hs => ?_, fun s hs => ?_, List.pairwise_cons.mpr ⟨hfirst, h.ascending⟩,
    List.pairwise_cons.mpr ⟨hlast, h.within⟩⟩
  · rcases List.mem_cons.mp hs with rfl | hs
    · exact hspan
    · exact h.first_le_last s hs
  · rcases List.mem_cons.mp hs with rfl | hs
    · exact hstop
    · exact h.lt_stop s hs

end Laminar

/-- Spans none of which holds another one do not overlap. -/
theorem Laminar.laid_of_not_holds (h : Laminar stop spans)
    (hflat : ∀ outer ∈ spans, ∀ inner ∈ spans, ¬ outer.Holds inner) : Laid 0 stop spans := by
  refine ⟨h.first_le_last, fun _ _ => Nat.zero_le _, h.lt_stop, ?_⟩
  refine h.ascending.imp_of_mem fun {a b} ha hb hfirst => ?_
  exact Nat.not_le.mp fun hwithin => hflat a ha b hb ⟨hfirst, hwithin⟩

/-- The outermost ones of laminar spans do not overlap. -/
theorem laid_outermostFrom (h : Laminar stop spans) (reach : Nat) :
    Laid reach stop (outermostFrom reach spans) := by
  induction spans generalizing reach with
  | nil => exact .nil
  | cons span rest ih =>
      by_cases hreach : span.first < reach
      · rw [outermostFrom_cons_of_lt hreach]
        exact ih h.tail reach
      · rw [outermostFrom_cons_of_le (Nat.not_lt.mp hreach)]
        exact .cons (h.first_le_last span List.mem_cons_self) (Nat.not_lt.mp hreach)
          (h.lt_stop span List.mem_cons_self) (ih h.tail (span.last + 1))

/-- **The outermost spans** cover what all the spans cover. -/
theorem covered_outermostFrom_iff (h : Laminar stop spans)
    (hreach : ∀ span ∈ spans, span.first < reach → span.last < reach) (hoffset : reach ≤ offset) :
    Covered (outermostFrom reach spans) offset ↔ Covered spans offset := by
  induction spans generalizing reach with
  | nil => exact Iff.rfl
  | cons span rest ih =>
      have hrest : ∀ s ∈ rest, s.first < reach → s.last < reach :=
        fun s hs => hreach s (List.mem_cons_of_mem _ hs)
      by_cases hfirst : span.first < reach
      · have hmiss : ¬ span.Covers offset := fun hcovers =>
          absurd (Nat.lt_of_le_of_lt hcovers.2 (hreach span List.mem_cons_self hfirst))
            (Nat.not_lt.mpr hoffset)
        rw [outermostFrom_cons_of_lt hfirst, ih h.tail hrest hoffset, covered_cons]
        exact ⟨.inr, fun hcovered => hcovered.resolve_left hmiss⟩
      · rw [outermostFrom_cons_of_le (Nat.not_lt.mp hfirst), covered_cons, covered_cons]
        by_cases hspan : span.Covers offset
        · exact iff_of_true (.inl hspan) (.inl hspan)
        refine or_congr_right ?_
        by_cases hlast : span.last < offset
        · exact ih h.tail h.not_across hlast
        · -- `offset` lies before `span`, and so before all the others
          have hbefore : offset < span.first := by
            rw [Covers, not_and] at hspan
            exact Nat.not_le.mp fun hle => hspan hle (Nat.not_lt.mp hlast)
          have hspan' : span.first ≤ span.last := h.first_le_last span List.mem_cons_self
          refine iff_of_false (not_covered_of_lt fun s hs => ?_) (not_covered_of_lt fun s hs => ?_)
          · have := (laid_outermostFrom h.tail (span.last + 1)).start_le s hs
            omega
          · exact Nat.lt_trans hbefore (h.first_lt s hs)

/-! ### What follows a nested span -/

/-- A span that holds none of the others changes nothing. -/
theorem nestedAtEnd_cons_of_lt (hspan : span.first ≤ span.last) (h : Laminar stop rest)
    (hrest : ∀ s ∈ rest, span.last < s.first) :
    NestedAtEnd stop (span :: rest) ↔ NestedAtEnd stop rest := by
  constructor
  · intro hend outer houter inner hinner hholds offset hoffset hstop
    have hcovered := hend outer (List.mem_cons_of_mem _ houter) inner
      (List.mem_cons_of_mem _ hinner) hholds offset hoffset hstop
    rcases covered_cons.mp hcovered with hcovers | hcovered
    · have hbefore : span.last < outer.last :=
        Nat.lt_of_lt_of_le (hrest outer houter) (h.first_le_last outer houter)
      exact absurd hcovers.2 (Nat.not_le.mpr (Nat.lt_trans hbefore hoffset))
    · exact hcovered
  · intro hend outer houter inner hinner hholds offset hoffset hstop
    refine covered_cons.mpr (.inr ?_)
    -- neither of the two is `span`
    have hinner' : inner ∈ rest := by
      rcases List.mem_cons.mp hinner with rfl | hinner
      · rcases List.mem_cons.mp houter with rfl | houter
        · exact absurd hholds.1 (Nat.lt_irrefl _)
        · have hbefore : inner.first < outer.first :=
            Nat.lt_of_le_of_lt hspan (hrest outer houter)
          exact absurd hholds.1 (Nat.lt_asymm hbefore)
      · exact hinner
    rcases List.mem_cons.mp houter with rfl | houter
    · exact absurd (hrest inner hinner') (Nat.not_lt.mpr hholds.2)
    · exact hend outer houter inner hinner' hholds offset hoffset hstop

/-- Behind the first of the spans nothing may be outside, when it holds another one. -/
theorem nestedAtEnd_cons_of_holds (h : Laminar stop (span :: rest))
    (hholds : ∃ inner ∈ rest, span.Holds inner) :
    NestedAtEnd stop (span :: rest) ↔
      ∀ offset, span.last + 1 ≤ offset → offset < stop →
        Covered (outermostFrom (span.last + 1) rest) offset := by
  constructor
  · intro hend offset hoffset hstop
    obtain ⟨inner, hinner, hholds⟩ := hholds
    have hcovered := hend span List.mem_cons_self inner (List.mem_cons_of_mem _ hinner) hholds
      offset hoffset hstop
    rw [covered_outermostFrom_iff h.tail h.not_across hoffset]
    rcases covered_cons.mp hcovered with hcovers | hcovered
    · exact absurd hcovers.2 (Nat.not_le.mpr hoffset)
    · exact hcovered
  · intro hrest outer houter _ _ _ offset hoffset hstop
    refine covered_cons.mpr ?_
    by_cases hlast : span.last < offset
    · have hcovered := hrest offset hlast hstop
      exact .inr ((covered_outermostFrom_iff h.tail h.not_across hlast).mp hcovered)
    · refine .inl ⟨?_, Nat.not_lt.mp hlast⟩
      have hle : outer.first ≤ offset :=
        Nat.le_trans (h.first_le_last outer houter) (Nat.le_of_lt hoffset)
      rcases List.mem_cons.mp houter with rfl | houter
      · exact hle
      · exact Nat.le_trans (Nat.le_of_lt (h.first_lt outer houter)) hle

end Span

end CounterFormula
