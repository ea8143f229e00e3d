import CounterFormula.Block
import CounterFormula.Config
import CounterFormula.Proofs.Index
import Mathlib.Data.List.Forall2
import Mathlib.Data.List.Infix
import Mathlib.Data.List.TakeWhile
import Mathlib.Order.Bounds.Basic

/-!
# Block — Following

Whether the block that is found follows the start phrase.  `locate` looks for `BEGIN` from the place
on where the first occurrence of the phrase begins, not from where it ends.  A `BEGIN` that begins
in the occurrence is taken for the mark of the block then, and what is left of the phrase for its
text.

`Located phrase document skip block`: `block` is the block of `document` when `BEGIN` is looked for
from `skip` characters behind the beginning of the first occurrence on.  So the block follows the
phrase when it is `Located` with the length of the phrase to skip.

* `located_iff`: for each place to look from, one block is located.
* `blockIn_eq_iff`: where a `BEGIN` before the place to look from makes no difference.
* `harmless_of_not_mayHoldBegin`, `not_harmless_of_mayHoldBegin`: the phrases that `BEGIN` cannot
  begin in are those that nothing goes wrong with.
* `locate_follows_iff`: the documents where the block follows the phrase, and the phrases that it
  always follows.
-/

namespace CounterFormula

namespace Text

/-! ### First places -/

/-- `offset` is the first place from `start` on from which the rest of `text` is as `P` says. -/
def FirstAt (P : Text → Prop) (text : Text) (start offset : Nat) : Prop :=
  IsLeast {place | start ≤ place ∧ P (text.drop place)} offset

/-- There is no such place from `start` on. -/
def Absent (P : Text → Prop) (text : Text) (start : Nat) : Prop :=
  ∀ place, start ≤ place → ¬ P (text.drop place)

variable {P : Text → Prop} {mark text rest : Text} {c : Char} {start offset place : Nat}

theorem FirstAt.holds (h : FirstAt P text start offset) : P (text.drop offset) :=
  h.1.2

theorem FirstAt.start_le (h : FirstAt P text start offset) : start ≤ offset :=
  h.1.1

theorem FirstAt.le (h : FirstAt P text start offset) (hstart : start ≤ place)
    (hplace : P (text.drop place)) : offset ≤ place :=
  h.2 ⟨hstart, hplace⟩

theorem Absent.not_firstAt (h : Absent P text start) : ¬ FirstAt P text start offset :=
  fun hfirst => h offset hfirst.start_le hfirst.holds

theorem Absent.mono {later : Nat} (h : Absent P text start) (hle : start ≤ later) :
    Absent P text later :=
  fun place hplace => h place (Nat.le_trans hle hplace)

/-- A search may start later when there is nothing to find before. -/
theorem FirstAt.later {later : Nat} (h : FirstAt P text start offset) (hle : start ≤ later)
    (hlater : later ≤ offset) : FirstAt P text later offset :=
  ⟨⟨hlater, h.holds⟩, fun _ hplace => h.le (Nat.le_trans hle hplace.1) hplace.2⟩

theorem firstAt_of_drop (h : FirstAt P (text.drop start) 0 offset) :
    FirstAt P text start (start + offset) := by
  refine ⟨⟨Nat.le_add_right start offset, ?_⟩, ?_⟩
  · have hholds := h.holds
    rwa [List.drop_drop] at hholds
  · rintro place ⟨hstart, hplace⟩
    obtain ⟨count, rfl⟩ := Nat.exists_eq_add_of_le hstart
    rw [← List.drop_drop] at hplace
    exact Nat.add_le_add_left (h.le (Nat.zero_le count) hplace) start

theorem absent_of_drop (h : Absent P (text.drop start) 0) : Absent P text start := by
  intro place hstart hplace
  obtain ⟨count, rfl⟩ := Nat.exists_eq_add_of_le hstart
  rw [← List.drop_drop] at hplace
  exact h count (Nat.zero_le count) hplace

theorem firstAt_zero (h : P text) : FirstAt P text 0 0 :=
  ⟨⟨Nat.le_refl 0, h⟩, fun place _ => Nat.zero_le place⟩

theorem absent_nil (h : ¬ P []) : Absent P [] 0 := by
  intro place _
  rwa [List.drop_nil]

theorem FirstAt.cons (h : FirstAt P rest 0 offset) (hnot : ¬ P (c :: rest)) :
    FirstAt P (c :: rest) 0 (offset + 1) := by
  refine ⟨⟨Nat.zero_le _, h.holds⟩, ?_⟩
  rintro (_ | place) ⟨-, hplace⟩
  · exact absurd hplace hnot
  · exact Nat.succ_le_succ (h.le (Nat.zero_le place) hplace)

theorem Absent.cons (h : Absent P rest 0) (hnot : ¬ P (c :: rest)) : Absent P (c :: rest) 0 := by
  rintro (_ | place) _
  · exact hnot
  · exact h place (Nat.zero_le place)

/-- **A cut** is made at the first place of the mark. -/
theorem cut?_cases (mark text : Text) :
    (cut? mark text = none ∧ Absent (mark <+: ·) text 0) ∨
      ∃ before after, cut? mark text = some (before, after) ∧
        FirstAt (mark <+: ·) text 0 before.length := by
  induction text with
  | nil =>
      rw [cut?]
      by_cases hmark : mark = []
      · subst hmark
        exact .inr ⟨[], [], rfl, firstAt_zero List.nil_prefix⟩
      · rw [if_neg (fun hempty => hmark (List.isEmpty_iff.mp hempty))]
        exact .inl ⟨rfl, absent_nil fun hprefix => hmark (List.prefix_nil.mp hprefix)⟩
  | cons c rest ih =>
      rw [cut?]
      by_cases hhere : mark <+: c :: rest
      · rw [if_pos (List.isPrefixOf_iff_prefix.mpr hhere)]
        exact .inr ⟨[], _, rfl, firstAt_zero hhere⟩
      · rw [if_neg (fun hprefix => hhere (List.isPrefixOf_iff_prefix.mp hprefix))]
        rcases ih with ⟨hnone, habsent⟩ | ⟨before, after, hsome, hfirst⟩
        · exact .inl ⟨by rw [hnone, Option.map_none], habsent.cons hhere⟩
        · exact .inr ⟨c :: before, after, by rw [hsome, Option.map_some], hfirst.cons hhere⟩

/-- Of two marks that stand in a text, the first one reaching into the second, one goes on as the
other does. -/
theorem prefix_or_prefix_of_overlap {other : Text} {k : Nat} (h : mark <+: text.drop place)
    (hother : other <+: text.drop (place + k)) : mark.drop k <+: other ∨ other <+: mark.drop k := by
  have hrest := h.drop k
  rw [List.drop_drop] at hrest
  exact List.prefix_or_prefix_of_prefix hrest hother

/-- Trimming only takes blanks away. -/
theorem count_trim (hc : isBlank c = false) (text : Text) : (trim text).count c = text.count c := by
  have hdrop (text : Text) : (text.dropWhile isBlank).count c = text.count c := by
    have hblanks : (text.takeWhile isBlank).count c = 0 := by
      refine List.count_eq_zero.mpr fun hmem => ?_
      rw [List.mem_takeWhile_imp hmem] at hc
      cases hc
    have hsplit : text.takeWhile isBlank ++ text.dropWhile isBlank = text :=
      List.takeWhile_append_dropWhile
    have hcount := congrArg (List.count c) hsplit
    rwa [List.count_append, hblanks, Nat.zero_add] at hcount
  rw [trim, trimEnd, List.count_reverse, hdrop, List.count_reverse, trimStart, hdrop]

end Text

namespace Block

open Text (FirstAt Absent)

variable {phrase document text : Text} {block : Block} {start inner outer closing : Nat}

/-! ### Phrases -/

/-- `text` begins with `phrase`, case aside. -/
def BeginsAlike (phrase text : Text) : Prop :=
  List.Forall₂ (fun c p => Text.sameLetter c p = true) (text.take phrase.length) phrase

theorem beginsWithPhrase_iff : beginsWithPhrase phrase text = true ↔ BeginsAlike phrase text := by
  fun_induction beginsWithPhrase phrase text with
  | case1 text => exact iff_of_true rfl .nil
  | case2 p phrase => exact iff_of_false Bool.false_ne_true nofun
  | case3 p phrase c text ih =>
      rw [Bool.and_eq_true, ih, BeginsAlike, BeginsAlike, List.length_cons, List.take_succ_cons,
        List.forall₂_cons]

/-- The rest of a document is taken from the first occurrence on. -/
theorem fromPhrase?_cases (phrase document : Text) :
    (fromPhrase? phrase document = none ∧ Absent (BeginsAlike phrase) document 0) ∨
      ∃ offset, fromPhrase? phrase document = some (document.drop offset) ∧
        FirstAt (BeginsAlike phrase) document 0 offset := by
  induction document with
  | nil =>
      rw [fromPhrase?]
      by_cases hhere : beginsWithPhrase phrase [] = true
      · exact .inr ⟨0, if_pos hhere, Text.firstAt_zero (beginsWithPhrase_iff.mp hhere)⟩
      · exact .inl ⟨if_neg hhere, Text.absent_nil (hhere ∘ beginsWithPhrase_iff.mpr)⟩
  | cons c rest ih =>
      rw [fromPhrase?]
      by_cases hhere : beginsWithPhrase phrase (c :: rest) = true
      · exact .inr ⟨0, if_pos hhere, Text.firstAt_zero (beginsWithPhrase_iff.mp hhere)⟩
      · rw [if_neg hhere]
        have hnot := hhere ∘ beginsWithPhrase_iff.mpr
        rcases ih with ⟨hnone, habsent⟩ | ⟨offset, hsome, hfirst⟩
        · exact .inl ⟨hnone, habsent.cons hnot⟩
        · exact .inr ⟨offset + 1, hsome, hfirst.cons hnot⟩

/-! ### Blocks -/

/-- The first `BEGIN` from `start` on is at `opening`. -/
def Opens (document : Text) (start opening : Nat) : Prop :=
  FirstAt (beginMark <+: ·) document start opening

/-- The first `END` behind the `BEGIN` at `opening` is at `closing`. -/
def Closes (document : Text) (opening closing : Nat) : Prop :=
  FirstAt (endMark <+: ·) document (opening + beginMark.length) closing

/-- No `END` follows the `BEGIN` at `opening`. -/
def Unclosed (document : Text) (opening : Nat) : Prop :=
  Absent (endMark <+: ·) document (opening + beginMark.length)

/-- The trimmed text between a `BEGIN` at `opening` and an `END` at `closing`. -/
def body (document : Text) (opening closing : Nat) : Text :=
  Text.trim ((document.drop (opening + beginMark.length)).take
    (closing - (opening + beginMark.length)))

/-- A closed block with `text` in it. -/
def ofBody (text : Text) : Block :=
  if text = [] then flawed .blank else formula text

/-- The block of `document` whose `BEGIN` is looked for from `start` on. -/
inductive BlockFrom (document : Text) (start : Nat) : Block → Prop
  | noBegin (hbegin : Absent (beginMark <+: ·) document start) :
      BlockFrom document start (.flawed .noBegin)
  | noEnd {opening : Nat} (hopens : Opens document start opening)
      (hend : Unclosed document opening) : BlockFrom document start (.flawed .noEnd)
  | closed {opening closing : Nat} (hopens : Opens document start opening)
      (hcloses : Closes document opening closing) :
      BlockFrom document start (ofBody (body document opening closing))

/-- The first block of a text. -/
def blockIn (text : Text) : Block :=
  match Text.cut? beginMark text with
  | none => flawed .noBegin
  | some (_, afterBegin) =>
    match Text.cut? endMark afterBegin with
    | none => flawed .noEnd
    | some (body, _) => ofBody (Text.trim body)

theorem ofBody_injective : Function.Injective ofBody := by
  intro text other h
  rw [ofBody, ofBody] at h
  split at h <;> split at h
  · exact ‹text = []›.trans ‹other = []›.symm
  · cases h
  · cases h
  · exact Block.formula.inj h

theorem ofBody_ne_noBegin (text : Text) : ofBody text ≠ flawed .noBegin := by
  rw [ofBody]
  split <;> nofun

theorem ofBody_ne_noEnd (text : Text) : ofBody text ≠ flawed .noEnd := by
  rw [ofBody]
  split <;> nofun

/-- **What is found** from `start` on. -/
theorem blockIn_cases (document : Text) (start : Nat) :
    (Absent (beginMark <+: ·) document start ∧
        blockIn (document.drop start) = flawed .noBegin) ∨
      ∃ opening, Opens document start opening ∧
        ((Unclosed document opening ∧ blockIn (document.drop start) = flawed .noEnd) ∨
          ∃ closing, Closes document opening closing ∧
            blockIn (document.drop start) = ofBody (body document opening closing)) := by
  rw [blockIn]
  rcases Text.cut?_cases beginMark (document.drop start) with
    ⟨hnone, habsent⟩ | ⟨before, afterBegin, hcut, hbegin⟩
  · rw [hnone]
    exact .inl ⟨Text.absent_of_drop habsent, rfl⟩
  have hafter : document.drop (start + before.length + beginMark.length) = afterBegin := by
    refine drop_add_of_drop beginMark (drop_add_of_drop before ?_)
    rw [Text.cut_eq_append hcut, List.append_assoc]
  refine .inr ⟨start + before.length, Text.firstAt_of_drop hbegin, ?_⟩
  rw [hcut]
  dsimp only
  rcases Text.cut?_cases endMark afterBegin with
    ⟨hnone, habsent⟩ | ⟨inside, afterEnd, hcut', hend⟩
  · rw [hnone]
    exact .inl ⟨Text.absent_of_drop (hafter ▸ habsent), rfl⟩
  · rw [hcut']
    refine .inr ⟨start + before.length + beginMark.length + inside.length,
      Text.firstAt_of_drop (hafter ▸ hend), ?_⟩
    rw [body, hafter, Nat.add_sub_cancel_left, Text.cut_eq_append hcut', List.append_assoc,
      List.take_left]

theorem blockIn_of_opens {opening : Nat} (h : Opens document start opening) :
    (Unclosed document opening ∧ blockIn (document.drop start) = flawed .noEnd) ∨
      ∃ closing, Closes document opening closing ∧
        blockIn (document.drop start) = ofBody (body document opening closing) := by
  rcases blockIn_cases document start with ⟨habsent, -⟩ | ⟨opening', hopens, hcases⟩
  · exact absurd h habsent.not_firstAt
  · rwa [IsLeast.unique h hopens]

/-- From each place on just one block is found. -/
theorem blockFrom_iff : BlockFrom document start block ↔ block = blockIn (document.drop start) := by
  constructor
  · intro h
    cases h with
    | noBegin hbegin =>
        rcases blockIn_cases document start with ⟨-, heq⟩ | ⟨opening, hopens, -⟩
        · exact heq.symm
        · exact absurd hopens hbegin.not_firstAt
    | noEnd hopens hend =>
        rcases blockIn_of_opens hopens with ⟨-, heq⟩ | ⟨closing, hcloses, -⟩
        · exact heq.symm
        · exact absurd hcloses hend.not_firstAt
    | closed hopens hcloses =>
        rcases blockIn_of_opens hopens with ⟨hend, -⟩ | ⟨closing, hcloses', heq⟩
        · exact absurd hcloses hend.not_firstAt
        · rw [heq, IsLeast.unique hcloses hcloses']
  · rintro rfl
    rcases blockIn_cases document start with
      ⟨hbegin, heq⟩ | ⟨opening, hopens, ⟨hend, heq⟩ | ⟨closing, hcloses, heq⟩⟩
    · exact heq ▸ .noBegin hbegin
    · exact heq ▸ .noEnd hopens hend
    · exact heq ▸ .closed hopens hcloses

/-- The block that `phrase` precedes in `document`, with its `BEGIN` looked for from the place that
is `skip` characters behind the beginning of the first occurrence of the phrase on. -/
inductive Located (phrase document : Text) (skip : Nat) : Block → Prop
  | noPhrase (h : Absent (BeginsAlike phrase) document 0) :
      Located phrase document skip .noPhrase
  | behind {offset : Nat} {block : Block}
      (hphrase : FirstAt (BeginsAlike phrase) document 0 offset)
      (hblock : BlockFrom document (offset + skip) block) : Located phrase document skip block

/-- The block that is located so. -/
def locateBehind (skip : Nat) (phrase document : Text) : Block :=
  match fromPhrase? phrase document with
  | none => noPhrase
  | some fromPhrase => blockIn (fromPhrase.drop skip)

theorem locate_eq (phrase document : Text) :
    locate phrase document = locateBehind 0 phrase document := by
  rw [locate, locateBehind]
  cases fromPhrase? phrase document with
  | none => rfl
  | some found =>
      dsimp only
      rw [List.drop_zero, blockIn]
      cases Text.cut? beginMark found with
      | none => rfl
      | some cut =>
          dsimp only
          cases Text.cut? endMark cut.2 with
          | none => rfl
          | some cut => simp only [ofBody, List.isEmpty_iff]

/-- **One block is located** for each place to look from. -/
theorem located_iff {skip : Nat} :
    Located phrase document skip block ↔ block = locateBehind skip phrase document := by
  rw [locateBehind]
  rcases fromPhrase?_cases phrase document with ⟨hnone, habsent⟩ | ⟨offset, hsome, hphrase⟩
  · rw [hnone]
    constructor
    · intro h
      cases h with
      | noPhrase => rfl
      | behind hphrase => exact absurd hphrase habsent.not_firstAt
    · rintro rfl
      exact .noPhrase habsent
  · rw [hsome]
    dsimp only
    rw [List.drop_drop, ← blockFrom_iff]
    constructor
    · intro h
      cases h with
      | noPhrase habsent => exact absurd hphrase habsent.not_firstAt
      | behind hphrase' hblock => exact IsLeast.unique hphrase hphrase' ▸ hblock
    · exact .behind hphrase

/-! ### A mark before the place to look from -/

/-- No two `BEGIN` overlap. -/
theorem le_of_begin_of_begin (hinner : beginMark <+: document.drop inner)
    (houter : beginMark <+: document.drop outer) (hlt : inner < outer) :
    inner + beginMark.length ≤ outer := by
  have happart : ∀ k < beginMark.length, 0 < k →
      ¬ (beginMark.drop k <+: beginMark ∨ beginMark <+: beginMark.drop k) := by decide
  obtain ⟨k, rfl⟩ := Nat.exists_eq_add_of_lt hlt
  by_contra hle
  exact happart (k + 1) (by omega) k.succ_pos (Text.prefix_or_prefix_of_overlap hinner houter)

/-- An `END` does not begin in a `BEGIN`. -/
theorem le_of_begin_of_end (houter : beginMark <+: document.drop outer)
    (hend : endMark <+: document.drop closing) (hle : outer ≤ closing) :
    outer + beginMark.length ≤ closing := by
  have happart : ∀ k < beginMark.length,
      ¬ (beginMark.drop k <+: endMark ∨ endMark <+: beginMark.drop k) := by decide
  obtain ⟨k, rfl⟩ := Nat.exists_eq_add_of_le hle
  by_contra hlt
  exact happart k (by omega) (Text.prefix_or_prefix_of_overlap houter hend)

/-- A block that another one begins in has more text than the other one: a `BEGIN` more. -/
theorem body_ne_body (houter : beginMark <+: document.drop outer)
    (hinner : inner + beginMark.length ≤ outer) (hclosing : outer + beginMark.length ≤ closing) :
    body document inner closing ≠ body document outer closing := by
  intro h
  obtain ⟨gap, rfl⟩ := Nat.exists_eq_add_of_le hinner
  obtain ⟨count, rfl⟩ := Nat.exists_eq_add_of_le hclosing
  obtain ⟨rest, hrest⟩ := houter
  have hbehind : document.drop (inner + beginMark.length + gap + beginMark.length) = rest :=
    drop_add_of_drop beginMark hrest.symm
  have hsplit : (document.drop (inner + beginMark.length)).take
      (inner + beginMark.length + gap + beginMark.length + count - (inner + beginMark.length)) =
      (document.drop (inner + beginMark.length)).take gap ++ (beginMark ++ rest.take count) := by
    rw [show inner + beginMark.length + gap + beginMark.length + count -
      (inner + beginMark.length) = gap + (beginMark.length + count) by omega, List.take_add,
      List.drop_drop, ← hrest, List.take_length_add_append]
  -- trimming keeps the `B` of the mark
  have hcount := congrArg (List.count 'B') h
  rw [body, body, hsplit, hbehind, Nat.add_sub_cancel_left, Text.count_trim (by decide),
    Text.count_trim (by decide), List.count_append, List.count_append] at hcount
  have hbegin : beginMark.count 'B' = 1 := by decide
  omega

/-- A search that starts later finds the same when no `BEGIN` begins before. -/
theorem blockIn_eq_of_later {later : Nat} (hle : start ≤ later)
    (hlater : ∀ opening, Opens document start opening → later ≤ opening) :
    blockIn (document.drop later) = blockIn (document.drop start) := by
  rcases blockIn_cases document start with ⟨hbegin, hblock⟩ | ⟨opening, hopens, hclosed⟩
  · exact (blockFrom_iff.mp (hblock ▸ .noBegin (hbegin.mono hle))).symm
  have hopens' : Opens document later opening := hopens.later hle (hlater opening hopens)
  rcases hclosed with ⟨hend, hblock⟩ | ⟨closing, hcloses, hblock⟩
  · exact (blockFrom_iff.mp (hblock ▸ .noEnd hopens' hend)).symm
  · exact (blockFrom_iff.mp (hblock ▸ .closed hopens' hcloses)).symm

/-- **A `BEGIN` before the place to look from** makes no difference just when another one is found
from there on, and either no `END` follows the first one, or the first block ends before the other
one begins and has the same text. -/
theorem blockIn_eq_iff {later : Nat} (hinner : Opens document start inner)
    (hlt : inner < later) :
    blockIn (document.drop start) = blockIn (document.drop later) ↔
      ∃ outer, Opens document later outer ∧
        (Unclosed document inner ∨
          ∃ closing last, Closes document inner closing ∧ closing < outer ∧
            Closes document outer last ∧
            body document inner closing = body document outer last) := by
  constructor
  · intro heq
    rcases blockIn_of_opens hinner with ⟨hend, hblock⟩ | ⟨closing, hcloses, hblock⟩
    · rcases blockIn_cases document later with
        ⟨-, hblock'⟩ | ⟨outer, hopens, -⟩
      · rw [hblock, hblock'] at heq
        cases heq
      · exact ⟨outer, hopens, .inl hend⟩
    · rcases blockIn_cases document later with
        ⟨-, hblock'⟩ | ⟨outer, hopens, ⟨-, hblock'⟩ | ⟨last, hcloses', hblock'⟩⟩
      · exact absurd (hblock.symm.trans (heq.trans hblock')) (ofBody_ne_noBegin _)
      · exact absurd (hblock.symm.trans (heq.trans hblock')) (ofBody_ne_noEnd _)
      · have hbody := ofBody_injective (hblock.symm.trans (heq.trans hblock'))
        refine ⟨outer, hopens, .inr ⟨closing, last, hcloses, ?_, hcloses', hbody⟩⟩
        by_contra hnot
        -- otherwise one `END` closes both blocks, and the first one holds the other one's mark
        have hapart := le_of_begin_of_begin hinner.holds hopens.holds
          (Nat.lt_of_lt_of_le hlt hopens.start_le)
        have hbehind := le_of_begin_of_end hopens.holds hcloses.holds (Nat.le_of_not_lt hnot)
        have hsame : closing = last :=
          IsLeast.unique (hcloses.later (Nat.add_le_add_right (by omega) _) hbehind) hcloses'
        exact body_ne_body hopens.holds hapart hbehind (hsame ▸ hbody)
  · rintro ⟨outer, hopens, hend | ⟨closing, last, hcloses, -, hcloses', hbody⟩⟩
    · have hbehind : inner + beginMark.length ≤ outer + beginMark.length :=
        Nat.add_le_add_right (Nat.le_trans (Nat.le_of_lt hlt) hopens.start_le) _
      rw [← blockFrom_iff.mp (.noEnd hinner hend)]
      exact blockFrom_iff.mp (.noEnd hopens (hend.mono hbehind))
    · rw [← blockFrom_iff.mp (.closed hinner hcloses), hbody]
      exact blockFrom_iff.mp (.closed hopens hcloses')

/-! ### Behind the phrase -/

/-- A `BEGIN` that begins in the first occurrence of `phrase`, if there is one, makes no difference:
another one follows the phrase, and either no `END` follows the first one, or its `END` stands
before the other one and the text up to it is the text of the block behind the phrase. -/
def Harmless (phrase document : Text) : Prop :=
  ∀ offset inner, FirstAt (BeginsAlike phrase) document 0 offset →
    Opens document offset inner → inner < offset + phrase.length →
    ∃ outer, Opens document (offset + phrase.length) outer ∧
      (Unclosed document inner ∨
        ∃ closing last, Closes document inner closing ∧ closing < outer ∧
          Closes document outer last ∧ body document inner closing = body document outer last)

/-- The block follows the phrase when no `BEGIN` in the phrase does harm. -/
theorem located_iff_harmless (phrase document : Text) :
    Located phrase document phrase.length (locate phrase document) ↔ Harmless phrase document := by
  rw [located_iff, locate_eq, locateBehind, locateBehind]
  rcases fromPhrase?_cases phrase document with ⟨hnone, habsent⟩ | ⟨offset, hsome, hphrase⟩
  · rw [hnone]
    exact iff_of_true rfl fun offset inner hphrase => absurd hphrase habsent.not_firstAt
  rw [hsome]
  dsimp only
  rw [List.drop_zero, List.drop_drop]
  constructor
  · intro heq offset' inner hphrase' hinner hlt
    rw [← IsLeast.unique hphrase hphrase'] at hinner hlt ⊢
    exact (blockIn_eq_iff hinner hlt).mp heq
  · intro hharmless
    by_cases hinner : ∃ inner, Opens document offset inner ∧ inner < offset + phrase.length
    · obtain ⟨inner, hopens, hlt⟩ := hinner
      exact (blockIn_eq_iff hopens hlt).mpr
        (hharmless offset inner hphrase hopens hlt)
    · refine (blockIn_eq_of_later (Nat.le_add_right _ _) fun opening hopens => ?_).symm
      exact Nat.le_of_not_lt fun hlt => hinner ⟨opening, hopens, hlt⟩

/-! ### Phrases that may hold a mark -/

/-- `BEGIN` may begin in an occurrence of `phrase`: from some place of the phrase on the two agree,
case aside, as far as both go. -/
def MayHoldBegin (phrase : Text) : Prop :=
  ∃ k < phrase.length, ∀ pair ∈ (phrase.drop k).zip beginMark,
    Text.sameLetter pair.1 pair.2 = true

theorem beginsAlike_refl (phrase : Text) : BeginsAlike phrase phrase := by
  rw [BeginsAlike, List.take_length]
  exact List.forall₂_same.mpr fun c _ => Text.sameLetter_refl c

theorem beginsAlike_cons {p c : Char} {phrase text : Text} :
    BeginsAlike (p :: phrase) (c :: text) ↔
      Text.sameLetter c p = true ∧ BeginsAlike phrase text := by
  rw [BeginsAlike, BeginsAlike, List.length_cons, List.take_succ_cons, List.forall₂_cons]

/-- A phrase and a mark that begin one text agree as far as both go. -/
theorem sameLetter_of_mem_zip {mark : Text} (hphrase : BeginsAlike phrase text)
    (hmark : mark <+: text) : ∀ pair ∈ phrase.zip mark, Text.sameLetter pair.1 pair.2 = true := by
  induction phrase generalizing mark text with
  | nil => nofun
  | cons p phrase ih =>
      obtain ⟨rest, rfl⟩ := hmark
      cases mark with
      | nil => nofun
      | cons m mark =>
          obtain ⟨hsame, hphrase⟩ := beginsAlike_cons.mp hphrase
          refine List.forall_mem_cons.mpr ⟨?_, ih hphrase (List.prefix_append mark rest)⟩
          exact Text.sameLetter_symm p m ▸ hsame

/-- A phrase begins its own beginning with another text written over the rest, as far as the two
agree. -/
theorem beginsAlike_overwritten {mark : Text}
    (h : ∀ pair ∈ phrase.zip mark, Text.sameLetter pair.1 pair.2 = true) :
    BeginsAlike phrase (mark ++ phrase.drop mark.length) := by
  induction phrase generalizing mark with
  | nil => exact .nil
  | cons p phrase ih =>
      cases mark with
      | nil => exact beginsAlike_refl _
      | cons m mark =>
          obtain ⟨hsame, hrest⟩ := List.forall_mem_cons.mp h
          exact beginsAlike_cons.mpr ⟨Text.sameLetter_symm p m ▸ hsame, ih hrest⟩

theorem BeginsAlike.drop (h : BeginsAlike phrase text) (k : Nat) :
    BeginsAlike (phrase.drop k) (text.drop k) := by
  have hdrop := List.forall₂_drop k h
  rwa [List.drop_take, ← List.length_drop] at hdrop

/-- What begins with the end of a phrase begins with the phrase, behind the rest of it. -/
theorem BeginsAlike.of_drop {k : Nat} (h : BeginsAlike (phrase.drop k) text)
    (hle : k ≤ phrase.length) : BeginsAlike phrase (phrase.take k ++ text) := by
  induction phrase generalizing k with
  | nil => exact .nil
  | cons p phrase ih =>
      cases k with
      | zero => exact h
      | succ k =>
          exact beginsAlike_cons.mpr ⟨Text.sameLetter_refl p, ih h (Nat.le_of_succ_le_succ hle)⟩

/-- No `BEGIN` begins in an occurrence of the phrase. -/
theorem harmless_of_not_mayHoldBegin (h : ¬ MayHoldBegin phrase) (document : Text) :
    Harmless phrase document := by
  intro offset inner hphrase hopens hlt
  obtain ⟨k, rfl⟩ := Nat.exists_eq_add_of_le hopens.start_le
  have hagree := hphrase.holds.drop k
  rw [List.drop_drop] at hagree
  exact absurd ⟨k, Nat.lt_of_add_lt_add_left hlt, sameLetter_of_mem_zip hagree hopens.holds⟩ h

/-- In a document that is the phrase with `BEGIN` written over it, nothing more than a part of the
mark follows the phrase. -/
theorem not_harmless_of_mayHoldBegin (h : MayHoldBegin phrase) :
    ∃ document, ¬ Harmless phrase document := by
  obtain ⟨k, hlt, hagree⟩ := h
  let document := phrase.take k ++ (beginMark ++ (phrase.drop k).drop beginMark.length)
  have hphrase : BeginsAlike phrase document :=
    (beginsAlike_overwritten hagree).of_drop (Nat.le_of_lt hlt)
  have hmark : beginMark <+: document.drop k := by
    rw [List.drop_left' (List.length_take_of_le (Nat.le_of_lt hlt))]
    exact List.prefix_append _ _
  refine ⟨document, fun hharmless => ?_⟩
  rcases blockIn_cases document 0 with ⟨habsent, -⟩ | ⟨inner, hopens, -⟩
  · exact habsent k (Nat.zero_le k) hmark
  have hinner : inner ≤ k := hopens.le (Nat.zero_le k) hmark
  obtain ⟨outer, houter, -⟩ :=
    hharmless 0 inner (Text.firstAt_zero hphrase) hopens (by omega)
  have hstart := houter.start_le
  have hpos : 0 < beginMark.length := by decide
  have hlength := houter.holds.length_le
  simp only [document, List.length_drop, List.length_append, List.length_take] at hlength
  omega

/-- **The block and the phrase.**  `locate` finds the block whose `BEGIN` is the first one from
where the first occurrence of the phrase begins.  It is the block that follows the phrase, with the
first `BEGIN` from where the occurrence ends, just when no `BEGIN` that begins in the occurrence
does harm.  So for a phrase it is the one that follows, whatever the document, just when `BEGIN`
cannot begin in an occurrence of the phrase. -/
theorem locate_follows_iff (phrase : Text) :
    (∀ document block, Located phrase document 0 block ↔ block = locate phrase document) ∧
      (∀ document, Located phrase document phrase.length (locate phrase document) ↔
        Harmless phrase document) ∧
      ((∀ document, Located phrase document phrase.length (locate phrase document)) ↔
        ¬ MayHoldBegin phrase) := by
  refine ⟨fun document block => ?_, located_iff_harmless phrase, fun hall hholds => ?_,
    fun hnot document => ?_⟩
  · rw [located_iff, locate_eq]
  · obtain ⟨document, hnot⟩ := not_harmless_of_mayHoldBegin hholds
    exact hnot ((located_iff_harmless phrase document).mp (hall document))
  · exact (located_iff_harmless phrase document).mpr (harmless_of_not_mayHoldBegin hnot document)

/-- In the document of a KPI that is referred to, and unless another phrase is configured, the block
follows the phrase. -/
theorem located_counterMethodPhrase (document : Text) :
    Located counterMethodPhrase document counterMethodPhrase.length
      (locate counterMethodPhrase document) := by
  have hnot : ¬ MayHoldBegin counterMethodPhrase := by
    rw [MayHoldBegin]
    decide +kernel
  exact (located_iff_harmless counterMethodPhrase document).mpr
    (harmless_of_not_mayHoldBegin hnot document)

/-- A `BEGIN` in the phrase opens the block, and the rest of the phrase is in its text. -/
theorem not_located_of_begin_in_phrase :
    let phrase := "Formula (BEGIN):".toList
    let document := "Formula (BEGIN): BEGIN a + b END".toList
    locate phrase document = .formula "): BEGIN a + b".toList ∧
      Located phrase document phrase.length (.formula "a + b".toList) ∧
      ¬ Located phrase document phrase.length (locate phrase document) := by
  intro phrase document
  rw [located_iff, located_iff]
  decide +kernel

end Block

end CounterFormula
