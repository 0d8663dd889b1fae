import SignalBoard.Text.Numeral

/-!
This module shows which texts are read as numbers up to a limit: `Numeral.read_eq_ok_iff`. The number so far
is compared with the limit at every digit, and because it never gets smaller, this compares the value of the
whole numeral.
-/

namespace SignalBoard

namespace Numeral

theorem isNumeral_iff {cs : List Char}
    : isNumeral cs = true ↔ cs ≠ [] ∧ ∀ c ∈ cs, c.isDigit = true := by
  simp [isNumeral]

theorem append_eq (acc : Nat) (c : Char) : append acc c = 10 * acc + (c.toNat - '0'.toNat) := by
  rw [append, Nat.mul_comm]

theorem le_ofDigitChars (acc : Nat) (cs : List Char) : acc ≤ Nat.ofDigitChars 10 cs acc := by
  induction cs generalizing acc with
  | nil => simp
  | cons c cs ih =>
    rw [Nat.ofDigitChars_cons]
    have := ih (10 * acc + (c.toNat - '0'.toNat))
    omega

theorem readDigits.go_eq {limit : Nat} {cs : List Char} (hcs : ∀ c ∈ cs, c.isDigit = true) {acc : Nat}
    (hacc : acc ≤ limit)
    : readDigits.go limit cs acc
        =
      if Nat.ofDigitChars 10 cs acc ≤ limit then
        .ok (Nat.ofDigitChars 10 cs acc)
      else
        .error .tooLarge := by
  induction cs generalizing acc with
  | nil => simp [go, hacc]
  | cons c cs ih =>
    rw [List.forall_mem_cons] at hcs
    rw [Nat.ofDigitChars_cons, ← append_eq]
    simp only [go, hcs.1, Bool.not_true, Bool.false_eq_true, if_false]
    by_cases hc : limit < append acc c
    · -- the digits that follow only make the number larger
      have := le_ofDigitChars (append acc c) cs
      rw [if_pos hc, if_neg (by omega)]
    · rw [if_neg hc]
      apply ih hcs.2
      omega

/--
A numeral as it may be written: digits, with a plus sign in front of them or without one.
-/
structure Form where
  plus : Bool
  digits : List Char
  digits_isNumeral : isNumeral digits = true

namespace Form

def text (form : Form) : List Char :=
  if form.plus then '+' :: form.digits else form.digits

def value (form : Form) : Nat :=
  Numeral.value form.digits

theorem mem_text {form : Form} {c : Char} (h : c ∈ form.text) : c = '+' ∨ c.isDigit = true := by
  have hdigits := (isNumeral_iff.mp form.digits_isNumeral).2
  unfold text at h
  split at h
  · exact (List.mem_cons.mp h).imp id (hdigits c)
  · exact .inr (hdigits c h)

end Form

theorem read_form {limit : Nat} (form : Form)
    : read limit form.text = readDigits limit form.digits := by
  obtain ⟨hne, hdigits⟩ := isNumeral_iff.mp form.digits_isNumeral
  unfold Form.text
  cases form.plus with
  | true =>
    cases hform : form.digits with
    | nil => exact absurd hform hne
    | cons c cs => rfl
  | false =>
    cases hform : form.digits with
    | nil => exact absurd hform hne
    | cons c cs =>
      have hplus : c ≠ '+' := by
        rintro rfl
        exact absurd (hdigits '+' (by simp [hform])) (by decide)
      simp [read, hplus]

theorem readDigits.isDigit_of_go {limit acc n : Nat} {cs : List Char} (h : go limit cs acc = .ok n)
    : ∀ c ∈ cs, c.isDigit = true := by
  induction cs generalizing acc with
  | nil => simp
  | cons c cs ih =>
    unfold go at h
    split at h
    · cases h
    · rename_i hc
      split at h
      · cases h
      · exact List.forall_mem_cons.mpr ⟨by simpa using hc, ih h⟩

theorem readDigits_eq_ok_iff {limit n : Nat} {cs : List Char}
    : readDigits limit cs = .ok n ↔ (∀ c ∈ cs, c.isDigit = true) ∧ value cs = n ∧ n ≤ limit := by
  constructor
  · intro h
    have hdigits := readDigits.isDigit_of_go h
    rw [readDigits, readDigits.go_eq hdigits (Nat.zero_le limit)] at h
    split at h
    · rename_i hle
      cases h
      exact ⟨hdigits, rfl, hle⟩
    · cases h
  · rintro ⟨hdigits, rfl, hle⟩
    rw [readDigits, readDigits.go_eq hdigits (Nat.zero_le limit)]
    exact if_pos hle

/--
The texts that are read are the written forms of numerals of at most the limit.
-/
theorem read_eq_ok_iff {limit n : Nat} {cs : List Char}
    : read limit cs = .ok n ↔ ∃ form : Form, form.text = cs ∧ form.value = n ∧ n ≤ limit := by
  constructor
  · intro h
    unfold read at h
    split at h
    · cases h
    · cases h
    · rename_i cs hne
      obtain ⟨hdigits, hvalue, hle⟩ := readDigits_eq_ok_iff.mp h
      exact ⟨⟨true, cs, isNumeral_iff.mpr ⟨hne, hdigits⟩⟩, rfl, hvalue, hle⟩
    · rename_i hne _ _
      obtain ⟨hdigits, hvalue, hle⟩ := readDigits_eq_ok_iff.mp h
      exact ⟨⟨false, cs, isNumeral_iff.mpr ⟨hne, hdigits⟩⟩, rfl, hvalue, hle⟩
  · rintro ⟨form, rfl, rfl, hle⟩
    have hdigits := (isNumeral_iff.mp form.digits_isNumeral).2
    rw [read_form, readDigits_eq_ok_iff]
    exact ⟨hdigits, rfl, hle⟩

theorem isDigit_of_mem_repr {n : Nat} {c : Char} (h : c ∈ n.repr.toList) : c.isDigit = true := by
  rw [Nat.toList_repr] at h
  exact Nat.isDigit_of_mem_toDigits (by omega) (by omega) h

theorem isNumeral_repr (n : Nat) : isNumeral n.repr.toList = true := by
  rw [isNumeral_iff]
  constructor
  · simp
  · intro c hc
    exact isDigit_of_mem_repr hc

theorem value_repr (n : Nat) : value n.repr.toList = n := by
  simp [value]

/--
The form in which numbers are printed.
-/
def Form.ofNat (n : Nat) : Form where
  plus := false
  digits := n.repr.toList
  digits_isNumeral := isNumeral_repr n

theorem Form.value_ofNat (n : Nat) : (Form.ofNat n).value = n :=
  value_repr n

end Numeral

end SignalBoard
