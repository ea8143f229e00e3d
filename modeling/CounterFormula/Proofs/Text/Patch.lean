import CounterFormula.Text.Basic

/-!
# Text — Patch

Replacing several stretches of a text at once.  A pass over a formula works through its tokens
from the right and splices one stretch after the other, at the offsets that the tokens have in
the text as it was at first; `patch` is what that is meant to give.

* `spliceAll_eq_patch`: splices from the right, at the old offsets, replace all stretches at once,
  when the stretches lie one after the other (`Span.Laid`).
* `patchFrom_append_cons`: what stands before a stretch and behind it is patched on its own.
-/

namespace CounterFormula

/-- The stretch from offset `first` to offset `last`, both included. -/
structure Span where
  first : Nat
  last : Nat
  deriving DecidableEq, Repr

namespace Span

/-- `spans` lie between the offsets `start` and `stop`, one after the other, none empty. -/
structure Laid (start stop : Nat) (spans : List Span) : Prop where
  first_le_last : ∀ span ∈ spans, span.first ≤ span.last
  start_le : ∀ span ∈ spans, start ≤ span.first
  lt_stop : ∀ span ∈ spans, span.last < stop
  apart : spans.Pairwise fun a b => a.last < b.first

namespace Laid

variable {start middle stop : Nat} {span : Span} {spans more : List Span}

theorem nil : Laid start stop [] :=
  ⟨fun _ h => absurd h List.not_mem_nil, fun _ h => absurd h List.not_mem_nil,
    fun _ h => absurd h List.not_mem_nil, .nil⟩

theorem singleton (hspan : span.first ≤ span.last) (hstart : start ≤ span.first)
    (hstop : span.last < stop) : Laid start stop [span] :=
  ⟨fun s h => by rwa [List.mem_singleton.mp h], fun s h => by rwa [List.mem_singleton.mp h],
    fun s h => by rwa [List.mem_singleton.mp h], List.pairwise_singleton _ _⟩

theorem append (h : Laid start middle spans) (h' : Laid middle stop more)
    (hstart : start ≤ middle) (hstop : middle ≤ stop) : Laid start stop (spans ++ more) := by
  refine ⟨fun s hs => ?_, fun s hs => ?_, fun s hs => ?_, ?_⟩
  · exact (List.mem_append.mp hs).elim (h.first_le_last s) (h'.first_le_last s)
  · rcases List.mem_append.mp hs with hs | hs
    · exact h.start_le s hs
    · exact Nat.le_trans hstart (h'.start_le s hs)
  · rcases List.mem_append.mp hs with hs | hs
    · exact Nat.lt_of_lt_of_le (h.lt_stop s hs) hstop
    · exact h'.lt_stop s hs
  · refine List.pairwise_append.mpr ⟨h.apart, h'.apart, fun a ha b hb => ?_⟩
    exact Nat.lt_of_lt_of_le (h.lt_stop a ha) (h'.start_le b hb)

theorem of_start_le (h : Laid start stop spans) (hstart : ∀ s ∈ spans, middle ≤ s.first) :
    Laid middle stop spans :=
  ⟨h.first_le_last, hstart, h.lt_stop, h.apart⟩

theorem cons (hspan : span.first ≤ span.last) (hstart : start ≤ span.first)
    (hstop : span.last < stop) (h : Laid (span.last + 1) stop spans) :
    Laid start stop (span :: spans) :=
  (singleton hspan hstart (Nat.lt_succ_self _)).append h
    (Nat.le_succ_of_le (Nat.le_trans hstart hspan)) hstop

/-- The spans after the first one lie behind it. -/
theorem tail (h : Laid start stop (span :: spans)) : Laid (span.last + 1) stop spans := by
  obtain ⟨hbefore, hafter⟩ := List.pairwise_cons.mp h.apart
  exact ⟨fun s hs => h.first_le_last s (List.mem_cons_of_mem _ hs), fun s hs => hbefore s hs,
    fun s hs => h.lt_stop s (List.mem_cons_of_mem _ hs), hafter⟩

theorem sublist (h : Laid start stop spans) (hsub : more.Sublist spans) :
    Laid start stop more :=
  ⟨fun s hs => h.first_le_last s (hsub.subset hs), fun s hs => h.start_le s (hsub.subset hs),
    fun s hs => h.lt_stop s (hsub.subset hs), h.apart.sublist hsub⟩

/-- A row of spans, up to one of them, makes a single span. -/
theorem join {last : Span} {between : List Span}
    (h : Laid start stop (span :: (between ++ last :: spans))) :
    Laid start stop (⟨span.first, last.last⟩ :: spans) := by
  have hmem : last ∈ between ++ last :: spans :=
    List.mem_append_right between List.mem_cons_self
  have hspan : span.first ≤ span.last := h.first_le_last span List.mem_cons_self
  have hbefore : span.last + 1 ≤ last.first := h.tail.start_le last hmem
  have hlast : last.first ≤ last.last := h.tail.first_le_last last hmem
  have hrest : Laid (last.last + 1) stop spans :=
    (h.tail.sublist (List.sublist_append_right between (last :: spans))).tail
  exact .cons (show span.first ≤ last.last by omega) (h.start_le span List.mem_cons_self)
    (h.tail.lt_stop last hmem) hrest

end Laid

end Span

namespace Text

/-- `text` from offset `start` on, with each span replaced by the text that goes with it. -/
def patchFrom (text : Text) (start : Nat) : List (Span × Text) → Text
  | [] => text.drop start
  | (span, new) :: rest =>
    (text.drop start).take (span.first - start) ++ new ++ patchFrom text (span.last + 1) rest

/-- `text` with each span replaced by the text that goes with it, all at once. -/
def patch (text : Text) (patches : List (Span × Text)) : Text :=
  patchFrom text 0 patches

/-- The splices of `patches` carried out on `text`, the last one first. -/
def spliceAll (text : Text) (patches : List (Span × Text)) : Text :=
  patches.foldr (fun patch text => splice text patch.1.first patch.1.last patch.2) text

theorem spliceAll_cons (text : Text) (patch : Span × Text) (rest : List (Span × Text)) :
    spliceAll text (patch :: rest) =
      splice (spliceAll text rest) patch.1.first patch.1.last patch.2 := rfl

theorem take_eq_append (text : Text) {start stop : Nat} (h : start ≤ stop) :
    text.take stop = text.take start ++ (text.drop start).take (stop - start) := by
  rw [← List.take_add, Nat.add_sub_cancel' h]

theorem drop_of_drop_eq {text run rest : Text} {start : Nat} (h : text.drop start = run ++ rest) :
    text.drop (start + run.length) = rest := by
  rw [← List.drop_drop, h, List.drop_left]

/-- A splice whose span lies in what is still as it was in `text`. -/
theorem splice_take_append {text : Text} {start first last : Nat} (new behind : Text)
    (hstart : start ≤ first) (hfirst : first ≤ last) (hlast : last < text.length) :
    splice (text.take (last + 1) ++ behind) first last new =
      text.take start ++ ((text.drop start).take (first - start) ++ new ++ behind) := by
  have hlength : (text.take (last + 1)).length = last + 1 := by
    rw [List.length_take, Nat.min_eq_left hlast]
  rw [splice, List.take_append_of_le_length (by omega), List.take_take,
    Nat.min_eq_left (by omega), take_eq_append text hstart, List.drop_append, hlength,
    Nat.sub_self, List.drop_of_length_le (Nat.le_of_eq hlength)]
  simp only [List.append_assoc, List.nil_append, List.drop_zero]

/-- **Splices from the right.**  At the offsets of the text as it was, they replace all the
spans at once. -/
theorem spliceAll_eq {text : Text} {patches : List (Span × Text)} {start : Nat}
    (h : Span.Laid start text.length (patches.map Prod.fst)) (hstart : start ≤ text.length) :
    spliceAll text patches = text.take start ++ patchFrom text start patches := by
  induction patches generalizing start with
  | nil => exact (List.take_append_drop start text).symm
  | cons patch rest ih =>
      obtain ⟨span, new⟩ := patch
      have hlast : span.last < text.length := h.lt_stop span List.mem_cons_self
      rw [spliceAll_cons, ih h.tail hlast, patchFrom]
      exact splice_take_append new _ (h.start_le span List.mem_cons_self)
        (h.first_le_last span List.mem_cons_self) hlast

/-- Up to the first span a patched text is as it was. -/
theorem patchFrom_of_drop_eq {text run rest : Text} {start : Nat} {patches : List (Span × Text)}
    (h : text.drop start = run ++ rest)
    (hpatches : ∀ patch ∈ patches, start + run.length ≤ patch.1.first) :
    patchFrom text start patches = run ++ patchFrom text (start + run.length) patches := by
  have hrest : text.drop (start + run.length) = rest := drop_of_drop_eq h
  cases patches with
  | nil => rw [patchFrom, patchFrom, h, hrest]
  | cons patch more =>
      obtain ⟨span, new⟩ := patch
      have hfirst : start + run.length ≤ span.first := hpatches _ List.mem_cons_self
      rw [patchFrom, patchFrom, h, hrest, List.take_append, List.take_of_length_le (by omega),
        Nat.sub_sub]
      simp only [List.append_assoc]

theorem spliceAll_eq_patch {text : Text} {patches : List (Span × Text)}
    (h : Span.Laid 0 text.length (patches.map Prod.fst)) :
    spliceAll text patches = text.patch patches := by
  rw [spliceAll_eq h (Nat.zero_le _), List.take_zero, List.nil_append, patch]

/-! ### Around a patch -/

/-- What stands before a patch and behind it is patched on its own. -/
theorem patchFrom_append_cons {text : Text} {start : Nat} {span : Span}
    {before : List (Span × Text)} (hbefore : ∀ patch ∈ before, patch.1.first ≤ span.first)
    (new : Text) (after : List (Span × Text)) :
    patchFrom text start (before ++ (span, new) :: after) =
      patchFrom (text.take span.first) start before ++ new ++
        patchFrom text (span.last + 1) after := by
  induction before generalizing start with
  | nil => rw [List.nil_append, patchFrom, patchFrom, List.drop_take]
  | cons patch rest ih =>
      obtain ⟨first, text'⟩ := patch
      have hfirst : first.first ≤ span.first := hbefore _ List.mem_cons_self
      rw [List.cons_append, patchFrom, patchFrom,
        ih fun patch hpatch => hbefore patch (List.mem_cons_of_mem _ hpatch), List.drop_take,
        List.take_take, Nat.min_eq_left (by omega)]
      simp only [List.append_assoc]

/-- A patched text ends as the text does, when no patch reaches its end. -/
theorem getLast?_patchFrom {text : Text} {start : Nat} {patches : List (Span × Text)}
    (hstart : start < text.length) (h : ∀ patch ∈ patches, patch.1.last + 1 < text.length) :
    (patchFrom text start patches).getLast? = text.getLast? := by
  induction patches generalizing start with
  | nil => rw [patchFrom, List.getLast?_drop, if_neg (by omega)]
  | cons patch rest ih =>
      obtain ⟨span, new⟩ := patch
      have hne : text ≠ [] := List.ne_nil_of_length_pos (by omega)
      rw [patchFrom, List.getLast?_append,
        ih (h _ List.mem_cons_self) fun patch hpatch => h patch (List.mem_cons_of_mem _ hpatch),
        List.getLast?_eq_some_getLast hne]
      rfl

end Text

end CounterFormula
