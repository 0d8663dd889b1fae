import Mathlib.Data.List.TakeWhile
import SignalBoard.Proofs.Decimal.Rounding
import SignalBoard.Proofs.Text.Numeral
import SignalBoard.Proofs.Text.Run

/-!
This module contains the decimal notation of numbers. The texts that are read as finite numbers are written
in it: `Binary32.exists_form_of_read?`. Every number that is written in it is read as the nearest one that
can be represented: `Binary32.read?_form`.
-/

namespace SignalBoard

namespace Decimal

inductive Sign where
  | none
  | plus
  | minus

namespace Sign

def text : Sign → List Char
  | none => []
  | plus => ['+']
  | minus => ['-']

def isNegative : Sign → Bool
  | minus => true
  | _ => false

/--
What begins with a digit or a point has no sign.
-/
theorem ne_of_isDigit_or_point {c : Char} (h : c.isDigit = true ∨ c = '.') : c ≠ '-' ∧ c ≠ '+' := by
  constructor
  · rintro rfl
    exact absurd h (by decide)
  · rintro rfl
    exact absurd h (by decide)

end Sign

structure Exponent where
  mark : Char
  sign : Sign
  digits : List Char
  mark_eq : mark = 'e' ∨ mark = 'E'
  digits_isNumeral : Numeral.isNumeral digits = true

namespace Exponent

def text (exponent : Exponent) : List Char :=
  exponent.mark :: (exponent.sign.text ++ exponent.digits)

def value (exponent : Exponent) : Int :=
  if exponent.sign.isNegative then
    -Numeral.value exponent.digits
  else
    Numeral.value exponent.digits

end Exponent

/--
A number without sign as it may be written: digits with an optional point in front of, among or behind them,
and an optional exponent.
-/
structure Unsigned where
  whole : List Char
  fraction : Option (List Char)
  exponent : Option Exponent
  digits_isNumeral : Numeral.isNumeral (whole ++ fraction.getD []) = true

namespace Unsigned

/--
What stands behind the digits of the fraction.
-/
def tail (u : Unsigned) : List Char :=
  u.exponent.elim [] Exponent.text

def text (u : Unsigned) : List Char :=
  u.whole ++ (u.fraction.elim [] ('.' :: ·) ++ u.tail)

def digits (u : Unsigned) : Nat :=
  Numeral.value (u.whole ++ u.fraction.getD [])

/--
The power of ten that the digits count.
-/
def scale (u : Unsigned) : Int :=
  u.exponent.elim 0 Exponent.value - (u.fraction.getD []).length

theorem isDigit_of_mem {u : Unsigned} {c : Char} (h : c ∈ u.whole ++ u.fraction.getD [])
    : c.isDigit = true :=
  (Numeral.isNumeral_iff.mp u.digits_isNumeral).2 c h

theorem whole_isDigit (u : Unsigned) : ∀ c ∈ u.whole, c.isDigit = true := by
  intro c hc
  exact isDigit_of_mem (List.mem_append_left _ hc)

theorem exists_isDigit (u : Unsigned) : ∃ c ∈ u.text, c.isDigit = true := by
  obtain ⟨c, cs, hdigits⟩ := List.exists_cons_of_ne_nil (Numeral.isNumeral_iff.mp u.digits_isNumeral).1
  have hc : c ∈ u.whole ++ u.fraction.getD [] := by
    rw [hdigits]
    exact List.mem_cons_self
  refine ⟨c, ?_, isDigit_of_mem hc⟩
  rcases List.mem_append.mp hc with hwhole | hfraction
  · exact List.mem_append_left _ hwhole
  · apply List.mem_append_right
    apply List.mem_append_left
    cases hf : u.fraction with
    | none =>
      rw [hf] at hfraction
      cases hfraction
    | some fraction =>
      rw [hf] at hfraction
      exact List.mem_cons_of_mem _ hfraction

theorem isDigit_or_point_of_mem_head? (u : Unsigned) (c : Char) (h : c ∈ u.text.head?)
    : c.isDigit = true ∨ c = '.' := by
  unfold text at h
  cases hwhole : u.whole with
  | cons d whole =>
    rw [hwhole] at h
    cases h
    left
    apply u.whole_isDigit
    rw [hwhole]
    exact List.mem_cons_self
  | nil =>
    have hne := (Numeral.isNumeral_iff.mp u.digits_isNumeral).1
    cases hfraction : u.fraction with
    | none => simp [hwhole, hfraction] at hne
    | some fraction =>
      rw [hwhole, hfraction] at h
      cases h
      exact .inr rfl

theorem eq_mark_of_mem_head?_tail {u : Unsigned} {c : Char} (h : c ∈ u.tail.head?)
    : c = 'e' ∨ c = 'E' := by
  unfold tail at h
  cases hexponent : u.exponent with
  | none =>
    rw [hexponent] at h
    cases h
  | some exponent =>
    rw [hexponent] at h
    cases h
    exact exponent.mark_eq

theorem isDigit_eq_false_of_mem_head?_tail {u : Unsigned} {c : Char} (h : c ∈ u.tail.head?)
    : c.isDigit = false := by
  rcases eq_mark_of_mem_head?_tail h with rfl | rfl <;> decide

theorem isDigit_eq_false_of_mem_head?_rest {u : Unsigned} {c : Char}
    (h : c ∈ (u.fraction.elim [] ('.' :: ·) ++ u.tail).head?) : c.isDigit = false := by
  cases hfraction : u.fraction with
  | none =>
    rw [hfraction] at h
    exact isDigit_eq_false_of_mem_head?_tail h
  | some fraction =>
    rw [hfraction] at h
    cases h
    decide

theorem takeWhile_text (u : Unsigned) : u.text.takeWhile Char.isDigit = u.whole :=
  Text.takeWhile_append_of_run u.whole_isDigit fun _ => isDigit_eq_false_of_mem_head?_rest

theorem dropWhile_text (u : Unsigned)
    : u.text.dropWhile Char.isDigit = u.fraction.elim [] ('.' :: ·) ++ u.tail :=
  Text.dropWhile_append_of_run u.whole_isDigit fun _ => isDigit_eq_false_of_mem_head?_rest

end Unsigned

/--
A number as it may be written.
-/
structure Form where
  sign : Sign
  unsigned : Unsigned

namespace Form

def text (form : Form) : List Char :=
  form.sign.text ++ form.unsigned.text

/--
How large the number is, whatever its sign.
-/
def size (form : Form) : ℚ :=
  form.unsigned.digits * 10 ^ form.unsigned.scale

def value (form : Form) : ℚ :=
  if form.sign.isNegative then -form.size else form.size

theorem value_eq_size {form : Form} (h : form.sign.isNegative = false) : form.value = form.size := by
  rw [value, h]
  rfl

theorem isNegative_eq_false {form : Form} (h : 0 < form.value) : form.sign.isNegative = false := by
  by_contra hsign
  rw [Bool.not_eq_false] at hsign
  rw [value, if_pos hsign] at h
  have hsize : 0 ≤ form.size := by
    unfold size
    positivity
  linarith

/--
What the digits are read as.
-/
def nearest (form : Form) : Binary32 :=
  Binary32.ofDecimal form.sign.isNegative form.unsigned.digits form.unsigned.scale

theorem isNearest_nearest (form : Form)
    : Binary32.IsNearest form.sign.isNegative form.size form.nearest :=
  Binary32.isNearest_ofDecimal _ _ _

end Form

end Decimal

namespace Binary32

open Decimal

theorem readExponent?_eq_some_iff {cs : List Char} {n : Int}
    : readExponent? cs = some n ↔
        ∃ exponent : Option Exponent,
          exponent.elim [] Exponent.text = cs ∧ exponent.elim 0 Exponent.value = n := by
  constructor
  · intro h
    unfold readExponent? at h
    split at h
    · cases h
      exact ⟨none, rfl, rfl⟩
    · rename_i mark cs
      split at h
      · rename_i hmark
        split at h
        · obtain ⟨hdigits, hn⟩ := Option.ite_none_right_eq_some.mp h
          cases hn
          exact ⟨some ⟨mark, .minus, _, hmark, hdigits⟩, rfl, rfl⟩
        · obtain ⟨hdigits, hn⟩ := Option.ite_none_right_eq_some.mp h
          cases hn
          exact ⟨some ⟨mark, .plus, _, hmark, hdigits⟩, rfl, rfl⟩
        · obtain ⟨hdigits, hn⟩ := Option.ite_none_right_eq_some.mp h
          cases hn
          exact ⟨some ⟨mark, .none, _, hmark, hdigits⟩, rfl, rfl⟩
      · cases h
  · rintro ⟨_ | ⟨mark, sign, digits, hmark, hdigits⟩, rfl, rfl⟩
    · rfl
    · simp only [Option.elim_some, Exponent.text, readExponent?, if_pos hmark]
      cases sign with
      | minus => exact if_pos hdigits
      | plus => exact if_pos hdigits
      | none =>
        obtain ⟨hne, hall⟩ := Numeral.isNumeral_iff.mp hdigits
        obtain ⟨c, cs, rfl⟩ := List.exists_cons_of_ne_nil hne
        obtain ⟨hminus, hplus⟩ := Sign.ne_of_isDigit_or_point (.inl (hall c List.mem_cons_self))
        dsimp only [Sign.text, List.nil_append]
        split
        · rename_i heq
          cases heq
          exact absurd rfl hminus
        · rename_i heq
          cases heq
          exact absurd rfl hplus
        · exact if_pos hdigits

/--
What is read once the digits are told apart from what stands behind them.
-/
theorem readTail_eq_some_iff {negative : Bool} {digits cs : List Char} {n : Nat} {b : Binary32}
    : (if digits.isEmpty then
          none
        else do
          let exponent ← readExponent? cs
          return ofDecimal negative (Numeral.value digits) (exponent - n)) = some b ↔
        digits ≠ [] ∧ ∃ exponent : Option Exponent, exponent.elim [] Exponent.text = cs ∧
          ofDecimal negative (Numeral.value digits) (exponent.elim 0 Exponent.value - n) = b := by
  constructor
  · intro h
    split at h
    · cases h
    · rename_i hne
      obtain ⟨_, hread, hb⟩ := Option.bind_eq_some_iff.mp h
      cases hb
      obtain ⟨exponent, rfl, rfl⟩ := readExponent?_eq_some_iff.mp hread
      exact ⟨mt List.isEmpty_iff.mpr hne, exponent, rfl, rfl⟩
  · rintro ⟨hne, exponent, hcs, rfl⟩
    rw [if_neg (mt List.isEmpty_iff.mp hne), readExponent?_eq_some_iff.mpr ⟨exponent, hcs, rfl⟩]
    rfl

theorem readUnsigned?_eq_some_iff {negative : Bool} {cs : List Char} {b : Binary32}
    : readUnsigned? negative cs = some b ↔
        ∃ u : Unsigned, u.text = cs ∧ ofDecimal negative u.digits u.scale = b := by
  constructor
  · intro h
    have hcs := List.takeWhile_append_dropWhile (p := Char.isDigit) (l := cs)
    have hrun : ∀ ds : List Char, ∀ c ∈ ds.takeWhile Char.isDigit, c.isDigit = true := by
      intro ds c hc
      exact List.mem_takeWhile_imp hc
    unfold readUnsigned? at h
    dsimp only at h
    split at h
    · rename_i rest hpoint
      have hrest := List.takeWhile_append_dropWhile (p := Char.isDigit) (l := rest)
      obtain ⟨hne, exponent, htail, rfl⟩ := readTail_eq_some_iff.mp h
      have hdigits := List.forall_mem_append.mpr ⟨hrun cs, hrun rest⟩
      refine ⟨⟨cs.takeWhile Char.isDigit, some (rest.takeWhile Char.isDigit), exponent,
        Numeral.isNumeral_iff.mpr ⟨hne, hdigits⟩⟩, ?_, rfl⟩
      simp only [Unsigned.text, Unsigned.tail, htail, Option.elim_some, List.cons_append, hrest]
      rw [← hpoint, hcs]
    · obtain ⟨hne, exponent, htail, rfl⟩ := readTail_eq_some_iff.mp h
      have hdigits := List.forall_mem_append.mpr ⟨hrun cs, hrun []⟩
      refine ⟨⟨cs.takeWhile Char.isDigit, none, exponent,
        Numeral.isNumeral_iff.mpr ⟨hne, hdigits⟩⟩, ?_, rfl⟩
      simp only [Unsigned.text, Unsigned.tail, htail, Option.elim_none, List.nil_append]
      exact hcs
  · rintro ⟨u, rfl, rfl⟩
    have hne := (Numeral.isNumeral_iff.mp u.digits_isNumeral).1
    rw [readUnsigned?, u.takeWhile_text, u.dropWhile_text]
    dsimp only
    cases hfraction : u.fraction with
    | none =>
      split
      · rename_i rest hpoint
        rw [Option.elim_none, List.nil_append] at hpoint
        have hmark : '.' = 'e' ∨ '.' = 'E' := by
          apply Unsigned.eq_mark_of_mem_head?_tail (u := u)
          rw [hpoint]
          rfl
        exact absurd hmark (by decide)
      · rw [readTail_eq_some_iff]
        rw [hfraction] at hne
        refine ⟨hne, u.exponent, rfl, ?_⟩
        rw [Unsigned.digits, Unsigned.scale, hfraction]
        rfl
    | some fraction =>
      rw [hfraction] at hne
      have hrun : ∀ c ∈ fraction, c.isDigit = true := by
        intro c hc
        apply Unsigned.isDigit_of_mem (u := u)
        rw [hfraction]
        exact List.mem_append_right _ hc
      have hrest : ∀ c ∈ u.tail.head?, c.isDigit = false :=
        fun _ => Unsigned.isDigit_eq_false_of_mem_head?_tail
      simp only [Option.elim_some, List.cons_append]
      rw [Text.takeWhile_append_of_run hrun hrest, Text.dropWhile_append_of_run hrun hrest,
        readTail_eq_some_iff]
      refine ⟨hne, u.exponent, rfl, ?_⟩
      rw [Unsigned.digits, Unsigned.scale, hfraction]
      rfl

theorem toLower_eq_of_isDigit {c : Char} (h : c.isDigit = true) : c.toLower = c := by
  simp only [Char.isDigit, Bool.and_eq_true, decide_eq_true_eq, UInt32.le_iff_toNat_le] at h
  have hhigh : c.toNat ≤ 57 := h.2
  apply dif_neg
  rintro ⟨hupper, _⟩
  rw [ge_iff_le, UInt32.le_iff_toNat_le] at hupper
  have hlow : 65 ≤ c.toNat := hupper
  omega

/--
What has a digit in it is none of the words that are read as well.
-/
theorem word_ne {cs : List Char} (h : ∃ c ∈ cs, c.isDigit = true) {word : String}
    (hword : word.toList.any Char.isDigit = false) : String.ofList (cs.map Char.toLower) ≠ word := by
  obtain ⟨c, hc, hdigit⟩ := h
  rintro rfl
  have hlower : c.toLower ∈ cs.map Char.toLower := List.mem_map_of_mem hc
  rw [toLower_eq_of_isDigit hdigit] at hlower
  rw [String.toList_ofList] at hword
  exact List.any_eq_false.mp hword c hlower hdigit

theorem go_text {negative : Bool} (u : Unsigned)
    : read?.go negative u.text = some (ofDecimal negative u.digits u.scale) := by
  have hdigit := u.exists_isDigit
  unfold read?.go
  dsimp only
  rw [if_neg, if_neg, readUnsigned?_eq_some_iff]
  · exact ⟨u, rfl, rfl⟩
  · exact word_ne hdigit rfl
  · rw [not_or]
    exact ⟨word_ne hdigit rfl, word_ne hdigit rfl⟩

theorem read?_form {text : String} {form : Form} (h : form.text = text.toList)
    : read? text = some form.nearest := by
  unfold read?
  rw [← h, Form.text, Form.nearest]
  cases form.sign with
  | minus => exact go_text form.unsigned
  | plus => exact go_text form.unsigned
  | none =>
    have hhead := fun c => Sign.ne_of_isDigit_or_point ∘ form.unsigned.isDigit_or_point_of_mem_head? c
    dsimp only [Sign.text, List.nil_append]
    split
    · rename_i cs htext
      exact absurd rfl (hhead '-' (by rw [htext]; rfl)).1
    · rename_i cs htext
      exact absurd rfl (hhead '+' (by rw [htext]; rfl)).2
    · exact go_text form.unsigned

theorem exists_form_of_go {negative negative' : Bool} {cs : List Char} {m : Nat} {e : Int}
    (h : read?.go negative cs = some (.finite negative' m e)) : ∃ u : Unsigned, u.text = cs := by
  unfold read?.go at h
  dsimp only at h
  split at h
  · cases h
  · split at h
    · cases h
    · obtain ⟨u, htext, _⟩ := readUnsigned?_eq_some_iff.mp h
      exact ⟨u, htext⟩

theorem exists_form_of_read? {text : String} {negative : Bool} {m : Nat} {e : Int}
    (h : read? text = some (.finite negative m e)) : ∃ form : Form, form.text = text.toList := by
  unfold read? at h
  split at h
  · rename_i hcs
    obtain ⟨u, htext⟩ := exists_form_of_go h
    exact ⟨⟨.minus, u⟩, by rw [hcs, ← htext]; rfl⟩
  · rename_i hcs
    obtain ⟨u, htext⟩ := exists_form_of_go h
    exact ⟨⟨.plus, u⟩, by rw [hcs, ← htext]; rfl⟩
  · obtain ⟨u, htext⟩ := exists_form_of_go h
    exact ⟨⟨.none, u⟩, htext⟩

end Binary32

end SignalBoard
