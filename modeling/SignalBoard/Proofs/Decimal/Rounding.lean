import Mathlib.Algebra.Order.Field.Power
import Mathlib.Data.Rat.Cast.Order
import Mathlib.Tactic.FieldSimp
import Mathlib.Tactic.GCongr
import Mathlib.Tactic.Linarith
import Mathlib.Tactic.NormNum
import Mathlib.Tactic.Positivity
import Mathlib.Tactic.Ring
import SignalBoard.Decimal.Binary32

/-!
This module shows that numbers are rounded to the nearest one that can be represented, and to the even one of
two that are equally near: `Binary32.isNearest_ofFraction` for fractions and `Binary32.isNearest_ofDecimal` for
decimal numbers. Both this rounding and the one to whole numbers are described by the question which numbers
the result exceeds: those from which the way up to the next one is more than half done.
-/

namespace SignalBoard

theorem roundToEven_eq (num den : Nat)
    : roundToEven num den
        =
      if 2 * (num % den) < den then
        num / den
      else if den < 2 * (num % den) then
        num / den + 1
      else
        num / den + num / den % 2 := rfl

theorem lt_roundToEven_iff_nat {num den n : Nat} (hden : 0 < den)
    : n < roundToEven num den ↔
        (2 * n + 1) * den < 2 * num ∨ (2 * n + 1) * den = 2 * num ∧ n % 2 = 1 := by
  have hdiv := Nat.div_add_mod num den
  have hmod := Nat.mod_lt num hden
  rw [roundToEven_eq]
  generalize num / den = floor at *
  generalize num % den = rest at *
  subst hdiv
  rw [Nat.add_mul, Nat.mul_assoc, Nat.one_mul]
  rcases Nat.lt_trichotomy n floor with hlt | rfl | hgt
  · have hle := Nat.mul_le_mul_right den hlt
    rw [Nat.succ_mul, Nat.mul_comm floor] at hle
    constructor
    · intro _
      left
      omega
    · intro _
      split
      · exact hlt
      · split <;> omega
  · rw [Nat.mul_comm den n]
    split
    · omega
    · split <;> omega
  · have hle := Nat.mul_le_mul_right den hgt
    rw [Nat.succ_mul, Nat.mul_comm floor] at hle
    constructor
    · intro h
      split at h
      · omega
      · split at h <;> omega
    · rintro (h | ⟨h, _⟩) <;> omega

/--
What is rounded gets beyond `n` if it is more than half of the way to `n + 1`, or just half of it and `n` is
odd.
-/
theorem lt_roundToEven_iff {num den n : Nat} (hden : 0 < den)
    : n < roundToEven num den ↔
        (n : ℚ) + 1 / 2 < num / den ∨ (n : ℚ) + 1 / 2 = num / den ∧ n % 2 = 1 := by
  have hden' : (0 : ℚ) < den := by exact_mod_cast hden
  have hlt : (2 * n + 1) * den < 2 * num ↔ ((n : ℚ) + 1 / 2) * den < num := by
    rw [← Nat.cast_lt (α := ℚ)]
    push_cast
    constructor <;> intro h <;> linarith
  have heq : (2 * n + 1) * den = 2 * num ↔ ((n : ℚ) + 1 / 2) * den = num := by
    rw [← Nat.cast_inj (R := ℚ)]
    push_cast
    constructor <;> intro h <;> linarith
  rw [lt_roundToEven_iff_nat hden, hlt, heq, lt_div_iff₀ hden', eq_div_iff hden'.ne']

namespace Binary32

theorem shift_pos {den : Nat} (hden : 0 < den) (num : Nat) (e : Int) : 0 < (shift num den e).2 := by
  unfold shift
  split
  · exact hden
  · rw [Nat.shiftLeft_eq]
    positivity

theorem shift_div (num den : Nat) (e : Int)
    : ((shift num den e).1 : ℚ) / (shift num den e).2 = num / den * 2 ^ e := by
  unfold shift
  split
  · rename_i he
    lift e to ℕ using he
    simp only [Int.toNat_natCast, Nat.shiftLeft_eq, Nat.cast_mul, Nat.cast_pow, Nat.cast_ofNat,
      zpow_natCast]
    ring
  · rename_i he
    obtain ⟨k, rfl⟩ : ∃ k : ℕ, e = -k := ⟨(-e).toNat, by omega⟩
    simp only [neg_neg, Int.toNat_natCast, Nat.shiftLeft_eq, Nat.cast_mul, Nat.cast_pow,
      Nat.cast_ofNat, div_mul_eq_div_div, zpow_neg, zpow_natCast]
    ring

theorem floorLog2_spec {num den : Nat} (hnum : 0 < num) (hden : 0 < den)
    : (2 : ℚ) ^ floorLog2 num den ≤ num / den ∧ (num : ℚ) / den < 2 ^ (floorLog2 num den + 1) := by
  have hden' : (0 : ℚ) < den := by exact_mod_cast hden
  have hnumLow : (2 : ℚ) ^ (num.log2 : ℤ) ≤ num := by exact_mod_cast Nat.log2_self_le hnum.ne'
  have hnumHigh : (num : ℚ) < 2 ^ ((num.log2 : ℤ) + 1) := by exact_mod_cast Nat.lt_log2_self
  have hdenLow : (2 : ℚ) ^ (den.log2 : ℤ) ≤ den := by exact_mod_cast Nat.log2_self_le hden.ne'
  have hdenHigh : (den : ℚ) < 2 ^ ((den.log2 : ℤ) + 1) := by exact_mod_cast Nat.lt_log2_self
  unfold floorLog2
  extract_lets e
  have hlow : (2 : ℚ) ^ (e - 1) < num / den := by
    rw [lt_div_iff₀ hden']
    calc
      (2 : ℚ) ^ (e - 1) * den < 2 ^ (e - 1) * 2 ^ ((den.log2 : ℤ) + 1) := by gcongr
      _ = 2 ^ (num.log2 : ℤ) := by
        rw [← zpow_add₀ two_ne_zero]
        congr 1
        omega
      _ ≤ num := hnumLow
  have hhigh : (num : ℚ) / den < 2 ^ (e + 1) := by
    rw [div_lt_iff₀ hden']
    calc
      (num : ℚ) < 2 ^ ((num.log2 : ℤ) + 1) := hnumHigh
      _ = 2 ^ (e + 1) * 2 ^ (den.log2 : ℤ) := by
        rw [← zpow_add₀ two_ne_zero]
        congr 1
        omega
      _ ≤ 2 ^ (e + 1) * den := by gcongr
  have hcompare : (shift num den (-e)).2 ≤ (shift num den (-e)).1 ↔ (2 : ℚ) ^ e ≤ num / den := by
    have hpos : (0 : ℚ) < (shift num den (-e)).2 := by exact_mod_cast shift_pos hden num (-e)
    rw [← Nat.cast_le (α := ℚ), ← one_le_div hpos, shift_div, zpow_neg, ← div_eq_mul_inv,
      one_le_div (by positivity)]
  dsimp only
  split
  · rename_i h
    exact ⟨hcompare.mp h, hhigh⟩
  · rename_i h
    rw [hcompare, not_le] at h
    refine ⟨hlow.le, ?_⟩
    rwa [sub_add_cancel]

/--
The numbers `m * 2 ^ e` that can be represented. Only those with the smallest exponent may have a small
mantissa.
-/
structure Representable (m : Nat) (e : Int) : Prop where
  lt : m < 2 ^ 24
  min_le : -149 ≤ e
  le_max : e ≤ 104
  normal : e = -149 ∨ 2 ^ 23 ≤ m

/--
Numbers with larger exponents are larger, if their mantissas are not small.
-/
theorem mul_le_mul_of_exponent_lt {x y : ℚ} {d e : Int} (hx : x ≤ 2 ^ 24) (hy : 2 ^ 23 ≤ y) (h : d < e)
    : x * 2 ^ d ≤ y * 2 ^ e := by
  calc
    x * 2 ^ d ≤ 2 ^ 24 * 2 ^ d := by gcongr
    _ = 2 ^ 23 * 2 ^ (d + 1) := by
      rw [zpow_add_one₀ two_ne_zero]
      ring
    _ ≤ y * 2 ^ e := by
      gcongr
      · exact one_le_two
      · omega

/--
The next number after `m * 2 ^ e` that can be represented is `(m + 1) * 2 ^ e`.
-/
theorem Representable.succ_mul_le {m n : Nat} {d e : Int} (hm : Representable m d)
    (hn : Representable n e) (h : (m : ℚ) * 2 ^ d < n * 2 ^ e)
    : ((m : ℚ) + 1) * 2 ^ d ≤ n * 2 ^ e := by
  have hm' : (m : ℚ) + 1 ≤ 2 ^ 24 := by exact_mod_cast hm.lt
  have hn' : (n : ℚ) ≤ 2 ^ 24 := by exact_mod_cast hn.lt.le
  rcases lt_trichotomy d e with hlt | rfl | hgt
  · have hnormal := hn.normal.resolve_left (by have := hm.min_le; omega)
    exact mul_le_mul_of_exponent_lt hm' (by exact_mod_cast hnormal) hlt
  · have hlt : m < n := by exact_mod_cast lt_of_mul_lt_mul_right h (by positivity)
    gcongr
    exact_mod_cast hlt
  · have hnormal := hm.normal.resolve_left (by have := hn.min_le; omega)
    have hle := mul_le_mul_of_exponent_lt hn' (y := (m : ℚ)) (by exact_mod_cast hnormal) hgt
    exact absurd h hle.not_gt

/--
Whether a number is larger than `x` in size.
-/
def Exceeds : Binary32 → ℚ → Prop
  | .finite _ m e, x => x < m * 2 ^ e
  | .infinite _, _ => True
  | .nan, _ => False

/--
The representable number nearest to `v`, with its sign given apart; of two that are equally near, the one
with an even mantissa. Beyond the middle between the largest one and the next power of two it is infinite.
-/
structure IsNearest (negative : Bool) (v : ℚ) (b : Binary32) : Prop where
  cases : (∃ m e, b = .finite negative m e ∧ Representable m e) ∨ b = .infinite negative
  exceeds_iff : ∀ m e, Representable m e →
    (b.Exceeds (m * 2 ^ e) ↔
      ((m : ℚ) + 1 / 2) * 2 ^ e < v ∨ ((m : ℚ) + 1 / 2) * 2 ^ e = v ∧ m % 2 = 1)

/--
Rounding `v` to a multiple of `2 ^ e` gives `m * 2 ^ e`, where `e` is the exponent that suits `v`.
-/
structure RoundsTo (v : ℚ) (m : Nat) (e : Int) : Prop where
  min_le : -149 ≤ e
  low : e = -149 ∨ 2 ^ 23 * 2 ^ e ≤ v
  high : v < 2 ^ 24 * 2 ^ e
  lt_iff : ∀ n : Nat, n < m ↔
    ((n : ℚ) + 1 / 2) * 2 ^ e < v ∨ ((n : ℚ) + 1 / 2) * 2 ^ e = v ∧ n % 2 = 1

namespace RoundsTo

variable {v : ℚ} {m : Nat} {e : Int}

theorem le_two_pow (h : RoundsTo v m e) : m ≤ 2 ^ 24 := by
  by_contra hgt
  have hpos : (0 : ℚ) < 2 ^ e := by positivity
  have := h.high
  rcases (h.lt_iff (2 ^ 24)).mp (by omega) with hlt | ⟨heq, _⟩
  · push_cast at hlt
    nlinarith
  · push_cast at heq
    nlinarith

theorem two_pow_le (h : RoundsTo v m e) (he : e ≠ -149) : 2 ^ 23 ≤ m := by
  have hpos : (0 : ℚ) < 2 ^ e := by positivity
  have hlow := h.low.resolve_left he
  have hlt := (h.lt_iff (2 ^ 23 - 1)).mpr (by
    left
    push_cast
    nlinarith)
  omega

/--
Rounding gets beyond a representable number if more than half of the way to the next one is done. If the
two have different exponents, both sides can be read off the exponents.
-/
theorem mul_lt_mul_iff (h : RoundsTo v m e) {k : Nat} {d : Int} (hk : Representable k d)
    : (k : ℚ) * 2 ^ d < m * 2 ^ e ↔
        ((k : ℚ) + 1 / 2) * 2 ^ d < v ∨ ((k : ℚ) + 1 / 2) * 2 ^ d = v ∧ k % 2 = 1 := by
  have hpos : (0 : ℚ) < 2 ^ d := by positivity
  rcases lt_trichotomy d e with hlt | rfl | hgt
  · have hmin : e ≠ -149 := by have := hk.min_le; omega
    have hk' : (k : ℚ) + 1 ≤ 2 ^ 24 := by exact_mod_cast hk.lt
    have hm : (2 : ℚ) ^ 23 ≤ m := by exact_mod_cast h.two_pow_le hmin
    have hrounded := mul_le_mul_of_exponent_lt hk' hm hlt
    have hvalue := mul_le_mul_of_exponent_lt hk' (le_refl _) hlt
    have hlow := h.low.resolve_left hmin
    constructor
    · intro _
      left
      nlinarith
    · intro _
      nlinarith
  · rw [← h.lt_iff]
    constructor
    · intro hlt
      exact_mod_cast lt_of_mul_lt_mul_right hlt hpos.le
    · intro hlt
      gcongr
  · have hmin : d ≠ -149 := by have := h.min_le; omega
    have hk' : (2 : ℚ) ^ 23 ≤ k := by exact_mod_cast hk.normal.resolve_left hmin
    have hm : (m : ℚ) ≤ 2 ^ 24 := by exact_mod_cast h.le_two_pow
    have hrounded := mul_le_mul_of_exponent_lt hm hk' hgt
    have hvalue := mul_le_mul_of_exponent_lt (le_refl _) hk' hgt
    have hhigh := h.high
    constructor
    · intro hlt
      exact absurd hlt hrounded.not_gt
    · rintro (hlt | ⟨heq, _⟩) <;> nlinarith

end RoundsTo

theorem roundsTo_of_shift {num den : Nat} (hnum : 0 < num) (hden : 0 < den) {e : Int}
    (he : e = max minExponent (floorLog2 num den - (precision - 1)))
    : RoundsTo (num / den) (roundToEven (shift num den (-e)).1 (shift num den (-e)).2) e := by
  have hpos : (0 : ℚ) < 2 ^ e := by positivity
  obtain ⟨hlow, hhigh⟩ := floorLog2_spec hnum hden
  simp only [minExponent, precision] at he
  have hscaled : ((shift num den (-e)).1 : ℚ) / (shift num den (-e)).2 = num / den / 2 ^ e := by
    rw [shift_div, zpow_neg, ← div_eq_mul_inv]
  constructor
  case min_le => omega
  case low =>
    by_cases hmin : e = -149
    · exact .inl hmin
    · right
      rw [show e = floorLog2 num den - 23 by omega]
      calc
        (2 : ℚ) ^ 23 * 2 ^ (floorLog2 num den - 23) = 2 ^ floorLog2 num den := by
          rw [← zpow_natCast, ← zpow_add₀ two_ne_zero]
          congr 1
          omega
        _ ≤ num / den := hlow
  case high =>
    calc
      (num : ℚ) / den < 2 ^ (floorLog2 num den + 1) := hhigh
      _ ≤ 2 ^ (24 + e) := zpow_le_zpow_right₀ one_le_two (by omega)
      _ = 2 ^ 24 * 2 ^ e := by
        rw [zpow_add₀ two_ne_zero]
        rfl
  case lt_iff =>
    intro n
    rw [lt_roundToEven_iff (shift_pos hden num (-e)), hscaled, lt_div_iff₀ hpos, eq_div_iff hpos.ne']

/--
A mantissa that got too long is halved, which is exact.
-/
theorem RoundsTo.carry {v : ℚ} {m : Nat} {e : Int} (h : RoundsTo v m e)
    : let carried := if m = 1 <<< precision then (1 <<< (precision - 1), e + 1) else (m, e)
      carried.1 < 2 ^ 24 ∧ -149 ≤ carried.2 ∧ (carried.2 = -149 ∨ 2 ^ 23 ≤ carried.1) ∧
      (carried.1 : ℚ) * 2 ^ carried.2 = m * 2 ^ e := by
  have hmin := h.min_le
  have hm := h.le_two_pow
  have hlong : 1 <<< precision = 2 ^ 24 := rfl
  have hhalf : 1 <<< (precision - 1) = 2 ^ 23 := rfl
  rw [hlong, hhalf]
  split
  · rename_i hcarry
    refine ⟨by norm_num, by dsimp only; omega, .inr le_rfl, ?_⟩
    rw [hcarry, zpow_add_one₀ two_ne_zero]
    push_cast
    ring
  · refine ⟨by dsimp only; omega, hmin, ?_, rfl⟩
    by_cases he : e = -149
    · exact .inl he
    · exact .inr (h.two_pow_le he)

theorem isNearest_of_tiny (negative : Bool) {v : ℚ} (h : v ≤ 2 ^ (-150 : Int))
    : IsNearest negative v (.finite negative 0 minExponent) := by
  constructor
  case cases => exact .inl ⟨0, minExponent, rfl, by decide, by decide, by decide, .inl rfl⟩
  case exceeds_iff =>
    intro k d hk
    have hunit : (2 : ℚ) * 2 ^ (-150 : Int) ≤ 2 ^ d := by
      rw [← zpow_one_add₀ two_ne_zero]
      exact zpow_le_zpow_right₀ one_le_two hk.min_le
    have hpos : (0 : ℚ) < 2 ^ (-150 : Int) := by positivity
    have hk' : (0 : ℚ) ≤ k := k.cast_nonneg
    constructor
    · intro hlt
      rw [Exceeds, Nat.cast_zero, zero_mul] at hlt
      exact absurd hlt (by positivity : (0 : ℚ) ≤ k * 2 ^ d).not_gt
    · rintro (hlt | ⟨heq, hodd⟩)
      · nlinarith
      · have hk'' : (1 : ℚ) ≤ k := by exact_mod_cast (by omega : 1 ≤ k)
        nlinarith

theorem isNearest_of_huge (negative : Bool) {v : ℚ} (h : 2 ^ 128 ≤ v)
    : IsNearest negative v (.infinite negative) := by
  constructor
  case cases => exact .inr rfl
  case exceeds_iff =>
    intro k d hk
    have hk' : (k : ℚ) + 1 ≤ 2 ^ 24 := by exact_mod_cast hk.lt
    have hpos : (0 : ℚ) < 2 ^ d := by positivity
    have hle : ((k : ℚ) + 1) * 2 ^ d ≤ 2 ^ 23 * 2 ^ (105 : Int) :=
      mul_le_mul_of_exponent_lt hk' le_rfl (by have := hk.le_max; omega)
    have hend : (2 : ℚ) ^ 23 * 2 ^ (105 : Int) = 2 ^ 128 := by norm_num
    constructor
    · intro _
      left
      linarith
    · intro _
      trivial

theorem isNearest_ofFraction (negative : Bool) (num : Nat) {den : Nat} (hden : 0 < den)
    : IsNearest negative (num / den) (ofFraction negative num den) := by
  rcases Nat.eq_zero_or_pos num with rfl | hnum
  · apply isNearest_of_tiny
    rw [Nat.cast_zero, zero_div]
    positivity
  · have hround := roundsTo_of_shift hnum hden rfl
    rw [ofFraction, if_neg hnum.ne']
    dsimp only
    generalize max minExponent (floorLog2 num den - (precision - 1)) = e at *
    generalize roundToEven (shift num den (-e)).1 (shift num den (-e)).2 = m at *
    obtain ⟨hlt, hmin, hnormal, hvalue⟩ := hround.carry
    generalize (if m = 1 <<< precision then (1 <<< (precision - 1), e + 1) else (m, e)) = carried at *
    split
    · rename_i hoverflow
      constructor
      case cases => exact .inr rfl
      case exceeds_iff =>
        intro k d hk
        rw [← hround.mul_lt_mul_iff hk, ← hvalue]
        have hk' : (k : ℚ) + 1 ≤ 2 ^ 24 := by exact_mod_cast hk.lt
        have hlong : (2 : ℚ) ^ 23 ≤ carried.1 := by
          exact_mod_cast hnormal.resolve_left (by unfold maxExponent at hoverflow; omega)
        have hle := mul_le_mul_of_exponent_lt hk' hlong (lt_of_le_of_lt hk.le_max hoverflow)
        have hpos : (0 : ℚ) < 2 ^ d := by positivity
        apply iff_of_true trivial
        linarith
    · rename_i hfits
      constructor
      case cases => exact .inl ⟨_, _, rfl, hlt, hmin, not_lt.mp hfits, hnormal⟩
      case exceeds_iff =>
        intro k d hk
        rw [← hround.mul_lt_mul_iff hk, ← hvalue]
        rfl

/--
The number of digits tells between which powers of ten a number is.
-/
theorem lt_ten_pow_length (n : Nat) : n < 10 ^ (Nat.toDigits 10 n).length :=
  (Nat.length_toDigits_le_iff (by omega) Nat.length_toDigits_pos).mp le_rfl

theorem ten_pow_le {n : Nat} (hn : n ≠ 0) : 10 ^ ((Nat.toDigits 10 n).length - 1) ≤ n := by
  by_contra hlt
  rw [not_le] at hlt
  by_cases hone : (Nat.toDigits 10 n).length - 1 = 0
  · rw [hone] at hlt
    omega
  · have := (Nat.length_toDigits_le_iff (by omega) (by omega)).mpr hlt
    omega

/--
Beyond both cutoffs, where no power of ten is computed, the result is the same that computing it would give.
-/
theorem isNearest_ofDecimal (negative : Bool) (digits : Nat) (exponent : Int)
    : IsNearest negative (digits * 10 ^ exponent) (ofDecimal negative digits exponent) := by
  have hpos : (0 : ℚ) < 10 ^ exponent := by positivity
  unfold ofDecimal
  extract_lets magnitude
  split
  · rename_i hsmall
    apply isNearest_of_tiny
    rcases hsmall with rfl | hsmall
    · rw [Nat.cast_zero, zero_mul]
      positivity
    · have hdigits : (digits : ℚ) ≤ 10 ^ ((Nat.toDigits 10 digits).length : Int) := by
        exact_mod_cast (lt_ten_pow_length digits).le
      calc
        (digits : ℚ) * 10 ^ exponent
          ≤ 10 ^ ((Nat.toDigits 10 digits).length : Int) * 10 ^ exponent := by gcongr
        _ = 10 ^ magnitude := by rw [← zpow_add₀ (by norm_num)]
        _ ≤ 10 ^ (-51 : Int) := zpow_le_zpow_right₀ (by norm_num) (by omega)
        _ ≤ 2 ^ (-150 : Int) := by norm_num
  · rename_i hlarge
    rw [not_or] at hlarge
    split
    · apply isNearest_of_huge
      have hdigits : (10 : ℚ) ^ ((Nat.toDigits 10 digits).length - 1 : Int) ≤ digits := by
        have hlength := Nat.length_toDigits_pos (b := 10) (n := digits)
        rw [← Nat.cast_pred hlength, zpow_natCast]
        exact_mod_cast ten_pow_le hlarge.1
      calc
        (2 : ℚ) ^ 128 ≤ 10 ^ (40 : Int) := by norm_num
        _ ≤ 10 ^ (magnitude - 1) := zpow_le_zpow_right₀ (by norm_num) (by omega)
        _ = 10 ^ ((Nat.toDigits 10 digits).length - 1 : Int) * 10 ^ exponent := by
          rw [← zpow_add₀ (by norm_num)]
          congr 1
          omega
        _ ≤ digits * 10 ^ exponent := by gcongr
    · split
      · rename_i hexponent
        lift exponent to ℕ using hexponent
        have h := isNearest_ofFraction negative (digits * 10 ^ exponent) Nat.one_pos
        rw [Nat.cast_one, div_one] at h
        rw [zpow_natCast]
        exact_mod_cast h
      · rename_i hexponent
        obtain ⟨k, rfl⟩ : ∃ k : ℕ, exponent = -k := ⟨(-exponent).toNat, by omega⟩
        have h := isNearest_ofFraction negative digits (Nat.pow_pos (n := k) (by omega : 0 < 10))
        rw [zpow_neg, zpow_natCast, ← div_eq_mul_inv, neg_neg, Int.toNat_natCast]
        exact_mod_cast h

end Binary32

end SignalBoard
