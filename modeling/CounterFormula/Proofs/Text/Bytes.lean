import CounterFormula.Text.Basic
import Mathlib.Data.Char
import Mathlib.Data.List.Lex
import Mathlib.Order.Defs.LinearOrder

/-!
# Text — Bytes

The bytes that texts are written in, by UTF-8.  A character takes one to four bytes: a first one
that says how many there are, and behind it the rest of its code point in digits of six bits.  A
greater character is written by greater bytes, wherever the two differ first, so texts are in the
order of their characters just when their bytes are in order.

* `Ascends.digit`: one more digit behind a code that keeps the order makes another one.
* `utf8EncodeChar_append_lt`: a greater character has greater bytes, whatever follows.
* `utf8_lt_iff`: the order of texts is the order of their bytes.
-/

namespace CounterFormula.Text

/-- The bytes of `text` in UTF-8. -/
def utf8 (text : Text) : List UInt8 :=
  text.flatMap String.utf8EncodeChar

theorem utf8_cons (c : Char) (text : Text) :
    utf8 (c :: text) = String.utf8EncodeChar c ++ utf8 text :=
  List.flatMap_cons

/-- They are the bytes of the string. -/
theorem toByteArray_utf8 (text : Text) :
    (utf8 text).toByteArray = (String.ofList text).toByteArray :=
  String.toByteArray_ofList.symm

/-! ### Codes that keep the order -/

/-- Of two numbers below `bound` the greater one has the greater code, whatever follows. -/
def Ascends (code : Nat → List UInt8) (bound : Nat) : Prop :=
  ∀ m n, m < n → n < bound → ∀ u v, code m ++ u < code n ++ v

theorem cons_lt_cons_of_lt {m n : Nat} (h : m < n) (hn : n < 256) (u v : List UInt8) :
    UInt8.ofNat m :: u < UInt8.ofNat n :: v := by
  refine List.cons_lt_cons_iff.mpr (.inl ?_)
  rwa [UInt8.lt_iff_toNat_lt, UInt8.toNat_ofNat_of_lt' (Nat.lt_trans h hn),
    UInt8.toNat_ofNat_of_lt' hn]

/-- A first byte. -/
theorem ascends_lead {size mark : Nat} (h : size + mark ≤ 256) :
    Ascends (fun n => [UInt8.ofNat (n % size + mark)]) size := by
  intro m n hlt hn u v
  have hm : m % size = m := Nat.mod_eq_of_lt (Nat.lt_trans hlt hn)
  have hn' : n % size = n := Nat.mod_eq_of_lt hn
  exact cons_lt_cons_of_lt (by omega) (by omega) u v

/-- **One more digit** decides when all before it are equal. -/
theorem Ascends.digit {code : Nat → List UInt8} {bound : Nat} (h : Ascends code bound) :
    Ascends (fun n => code (n / 64) ++ [UInt8.ofNat (n % 64 + 128)]) (bound * 64) := by
  intro m n hlt hn u v
  rw [List.append_assoc, List.append_assoc]
  rcases Nat.lt_or_ge (m / 64) (n / 64) with hfirst | hfirst
  · exact h _ _ hfirst (Nat.div_lt_of_lt_mul (by omega)) _ _
  · have hsame : m / 64 = n / 64 := Nat.le_antisymm (Nat.div_le_div_right (Nat.le_of_lt hlt)) hfirst
    rw [hsame]
    exact List.append_left_lt (cons_lt_cons_of_lt (by omega) (by omega) u v)

/-- One code up to `middle` and another one behind it. -/
theorem Ascends.ite {low high : Nat → List UInt8} {bound : Nat} (middle : Nat)
    (hlow : Ascends low (middle + 1)) (hhigh : Ascends high bound)
    (hless : ∀ m n, m ≤ middle → middle < n → n < bound → ∀ u v, low m ++ u < high n ++ v) :
    Ascends (fun n => if n ≤ middle then low n else high n) bound := by
  intro m n hlt hn u v
  dsimp only
  rcases Nat.lt_or_ge middle n with hbehind | hupTo
  · rw [if_neg (Nat.not_le.mpr hbehind)]
    split
    · exact hless m n ‹_› hbehind hn u v
    · exact hhigh m n hlt hn u v
  · rw [if_pos hupTo, if_pos (Nat.le_trans (Nat.le_of_lt hlt) hupTo)]
    exact hlow m n hlt (Nat.lt_succ_of_le hupTo) u v

/-! ### Characters and texts -/

/-- **The bytes of a character** are a code of its code point that keeps the order: the more bytes
there are, the greater is the first one. -/
theorem exists_ascends_utf8EncodeChar :
    ∃ code, Ascends code 2097152 ∧ ∀ c : Char, String.utf8EncodeChar c = code c.val.toNat := by
  have hone : Ascends (fun n => [UInt8.ofNat n]) 128 := fun m n hlt hn =>
    cons_lt_cons_of_lt hlt (by omega)
  have htwo := (ascends_lead (show 32 + 192 ≤ 256 by decide)).digit
  have hthree := (ascends_lead (show 16 + 224 ≤ 256 by decide)).digit.digit
  have hfour := (ascends_lead (show 8 + 240 ≤ 256 by decide)).digit.digit.digit
  simp only [Nat.div_div_eq_div_mul] at hthree hfour
  have habove := hthree.ite 65535 hfour fun m n _ _ _ u v =>
    cons_lt_cons_of_lt (by omega) (by omega) _ _
  have hbehind := htwo.ite 2047 habove fun m n _ _ _ u v => by
    split
    · exact cons_lt_cons_of_lt (by omega) (by omega) _ _
    · exact cons_lt_cons_of_lt (by omega) (by omega) _ _
  have hall := hone.ite 127 hbehind fun m n _ _ _ u v => by
    split
    · exact cons_lt_cons_of_lt (by omega) (by omega) _ _
    · split
      · exact cons_lt_cons_of_lt (by omega) (by omega) _ _
      · exact cons_lt_cons_of_lt (by omega) (by omega) _ _
  exact ⟨_, hall, fun c => rfl⟩

theorem utf8EncodeChar_append_lt {c d : Char} (h : c < d) (u v : List UInt8) :
    String.utf8EncodeChar c ++ u < String.utf8EncodeChar d ++ v := by
  obtain ⟨code, hascends, hcode⟩ := exists_ascends_utf8EncodeChar
  have hbound : d.val.toNat < 2097152 := by
    have hvalid := d.valid
    simp only [UInt32.isValidChar, Nat.isValidChar] at hvalid
    omega
  rw [hcode, hcode]
  exact hascends _ _ h hbound u v

theorem utf8EncodeChar_ne_nil (c : Char) : String.utf8EncodeChar c ≠ [] := by
  refine List.ne_nil_of_length_pos ?_
  rw [String.length_utf8EncodeChar]
  exact c.utf8Size_pos

theorem utf8_lt_utf8 {a b : Text} (h : a < b) : utf8 a < utf8 b := by
  induction a generalizing b with
  | nil =>
      cases b with
      | nil => exact absurd h (List.lt_irrefl [])
      | cons d b =>
          obtain ⟨byte, bytes, hbytes⟩ := List.exists_cons_of_ne_nil (utf8EncodeChar_ne_nil d)
          rw [utf8_cons, hbytes]
          exact List.nil_lt_cons byte _
  | cons c a ih =>
      cases b with
      | nil => exact absurd h (List.not_lt_nil _)
      | cons d b =>
          rw [utf8_cons, utf8_cons]
          rcases List.cons_lt_cons_iff.mp h with hlt | ⟨rfl, hlt⟩
          · exact utf8EncodeChar_append_lt hlt _ _
          · exact List.append_left_lt (ih hlt)

/-- **The order of texts** is the order of their bytes. -/
theorem utf8_lt_iff {a b : Text} : utf8 a < utf8 b ↔ a < b := by
  refine ⟨fun h => ?_, utf8_lt_utf8⟩
  rcases lt_trichotomy a b with hlt | rfl | hlt
  · exact hlt
  · exact absurd h (List.lt_irrefl _)
  · exact absurd (utf8_lt_utf8 hlt) (List.lt_asymm h)

end CounterFormula.Text
