import SignalBoard.Proofs.Decimal.Notation
import SignalBoard.Time.Seconds

/-!
This module shows which texts are read as lengths of time, `Duration.exists_readSeconds_iff`, and which of
these lengths are positive, `Duration.pos_iff_of_readSeconds`. A number of seconds is rounded twice, to the
precision of `Binary32` and to whole nanoseconds. Between two neighbours of the first rounding there is
at most one point at which the second one goes on to the next nanosecond, so that both together
exceed a number of nanoseconds from the middle between these neighbours on.
-/

namespace SignalBoard

namespace Binary32

theorem IsNearest.representable {negative negative' : Bool} {v : ℚ} {m : Nat} {e : Int}
    (h : IsNearest negative v (.finite negative' m e)) : negative' = negative ∧ Representable m e := by
  rcases h.cases with ⟨_, _, heq, hm⟩ | heq
  · cases heq
    exact ⟨rfl, hm⟩
  · cases heq

/--
A number is not rounded to zero if it is more than half as large as the smallest one that can be
represented.
-/
theorem IsNearest.pos_iff {negative negative' : Bool} {v : ℚ} {m : Nat} {e : Int}
    (h : IsNearest negative v (.finite negative' m e)) : 0 < m ↔ 1 / 2 ^ 150 < v := by
  have hzero : Representable 0 (-149) := ⟨by decide, by decide, by decide, .inl rfl⟩
  have hpos : (0 : ℚ) < 2 ^ e := by positivity
  have hexceeds := h.exceeds_iff 0 (-149) hzero
  have hhalf : ((0 : Nat) + 1 / 2 : ℚ) * 2 ^ (-149 : Int) = 1 / 2 ^ 150 := by norm_num
  rw [hhalf, Exceeds, Nat.cast_zero, zero_mul, mul_pos_iff_of_pos_right hpos, Nat.cast_pos] at hexceeds
  rw [hexceeds]
  simp

end Binary32

namespace Duration

open Binary32

/--
The whole number of nanoseconds nearest to `m * 2 ^ e` seconds.
-/
def nearestNanoseconds (m : Nat) (e : Int) : Nat :=
  let scaled := shift (m * nanosecondsPerSecond) 1 e
  roundToEven scaled.1 scaled.2

theorem ofBinarySeconds?_eq_some_iff {m : Nat} {e : Int} {d : Duration}
    : ofBinarySeconds? m e = some d ↔ d.nanoseconds = nearestNanoseconds m e := by
  rw [show ofBinarySeconds? m e = ofNanoseconds? (nearestNanoseconds m e) from rfl, ofNanoseconds?]
  split
  · rw [Option.some_inj]
    constructor
    · rintro rfl
      rfl
    · intro h
      cases d
      cases h
      rfl
  · rename_i hlarge
    have := d.le_max
    simp only [reduceCtorEq, false_iff]
    omega

theorem readSeconds_eq_ok_iff {text : String} {d : Duration}
    : readSeconds text = .ok d ↔
        ∃ m e, read? text = some (.finite false m e) ∧ 0 < m ∧ d.nanoseconds = nearestNanoseconds m e := by
  constructor
  · intro h
    unfold readSeconds at h
    split at h
    · cases h
    · rename_i negative m e hread
      split at h
      · cases h
      · rename_i hpos
        rw [not_or, Bool.not_eq_true] at hpos
        split at h
        · cases h
        · rename_i hd
          cases h
          rw [hpos.1] at hread
          exact ⟨m, e, hread, by omega, ofBinarySeconds?_eq_some_iff.mp hd⟩
    · cases h
  · rintro ⟨m, e, hread, hm, hd⟩
    simp only [readSeconds, hread, ofBinarySeconds?_eq_some_iff.mpr hd]
    rw [if_neg]
    simp only [Bool.false_eq_true, false_or]
    omega

/--
If `n` and a half nanoseconds are between `k * 2 ^ d` seconds and the next number that can be represented,
then what is nearest to `v` is rounded to more than `n` nanoseconds from the middle between both on.
-/
theorem lt_nearestNanoseconds_iff {negative : Bool} {v : ℚ} {m k n : Nat} {e d : Int}
    (h : IsNearest negative v (.finite negative m e)) (hk : Representable k d) (hodd : k % 2 = 1)
    (hlow : (k : ℚ) * 2 ^ d < (n + 1 / 2) / nanosecondsPerSecond)
    (hhigh : (n + 1 / 2) / nanosecondsPerSecond < ((k : ℚ) + 1) * 2 ^ d)
    : n < nearestNanoseconds m e ↔ ((k : ℚ) + 1 / 2) * 2 ^ d ≤ v := by
  have hscale : (0 : ℚ) < nanosecondsPerSecond := by
    unfold nanosecondsPerSecond
    norm_num
  have hscaled : ((shift (m * nanosecondsPerSecond) 1 e).1 : ℚ) / (shift (m * nanosecondsPerSecond) 1 e).2
      = (m : ℚ) * 2 ^ e * nanosecondsPerSecond := by
    rw [shift_div]
    push_cast
    ring
  have hbetween : (((n : ℚ) + 1 / 2) / nanosecondsPerSecond < m * 2 ^ e ∨
      ((n : ℚ) + 1 / 2) / nanosecondsPerSecond = m * 2 ^ e ∧ n % 2 = 1) ↔ (k : ℚ) * 2 ^ d < m * 2 ^ e := by
    constructor
    · rintro (hlt | ⟨heq, _⟩)
      · exact hlow.trans hlt
      · exact heq ▸ hlow
    · intro hlt
      left
      exact lt_of_lt_of_le hhigh (hk.succ_mul_le h.representable.2 hlt)
  have hexceeds := h.exceeds_iff k d hk
  rw [Exceeds] at hexceeds
  rw [nearestNanoseconds, lt_roundToEven_iff (shift_pos Nat.one_pos _ e), hscaled,
    ← div_lt_iff₀ hscale, ← div_eq_iff hscale.ne', hbetween, hexceeds, le_iff_lt_or_eq]
  simp only [hodd, and_true]

/--
Half a nanosecond is between `9007199 * 2 ^ (-54)` seconds and the next number.
-/
theorem nearestNanoseconds_pos_iff {negative : Bool} {v : ℚ} {m : Nat} {e : Int}
    (h : IsNearest negative v (.finite negative m e))
    : 0 < nearestNanoseconds m e ↔ 18014399 / 2 ^ 55 ≤ v := by
  have hk : Representable 9007199 (-54) := by
    constructor <;> norm_num
  have hmiddle : ((9007199 : Nat) + 1 / 2 : ℚ) * 2 ^ (-54 : Int) = 18014399 / 2 ^ 55 := by norm_num
  rw [lt_nearestNanoseconds_iff h hk (by decide), hmiddle]
  · norm_num [nanosecondsPerSecond]
  · norm_num [nanosecondsPerSecond]

/--
Half a nanosecond beyond the maximum is between the last number before `2 ^ 64` seconds and `2 ^ 64`.
-/
theorem maxNanoseconds_lt_iff {negative : Bool} {v : ℚ} {m : Nat} {e : Int}
    (h : IsNearest negative v (.finite negative m e))
    : maxNanoseconds < nearestNanoseconds m e ↔ 2 ^ 64 - 2 ^ 39 ≤ v := by
  have hk : Representable (2 ^ 24 - 1) 40 := by
    constructor <;> norm_num
  have hmiddle : ((2 ^ 24 - 1 : Nat) + 1 / 2 : ℚ) * 2 ^ (40 : Int) = 2 ^ 64 - 2 ^ 39 := by norm_num
  rw [lt_nearestNanoseconds_iff h hk (by decide), hmiddle]
  · norm_num [nanosecondsPerSecond, maxNanoseconds]
  · norm_num [nanosecondsPerSecond, maxNanoseconds]

variable {text : String} {form : Decimal.Form}

theorem exists_nearest_of_readSeconds (h : form.text = text.toList) {d : Duration}
    (hread : readSeconds text = .ok d)
    : ∃ m e, IsNearest false form.value (.finite false m e) ∧ 0 < m ∧
        d.nanoseconds = nearestNanoseconds m e := by
  obtain ⟨m, e, hnumber, hm, hd⟩ := readSeconds_eq_ok_iff.mp hread
  have hnearest := form.isNearest_nearest
  rw [read?_form h, Option.some_inj] at hnumber
  rw [hnumber] at hnearest
  have hsign := hnearest.representable.1
  rw [← hsign] at hnearest
  rw [form.value_eq_size hsign.symm]
  exact ⟨m, e, hnearest, hm, hd⟩

/--
The numbers that are accepted are those that are rounded neither to zero nor to `2 ^ 64` seconds.
-/
theorem exists_readSeconds_iff (h : form.text = text.toList)
    : (∃ d, readSeconds text = .ok d) ↔ 1 / 2 ^ 150 < form.value ∧ form.value < 2 ^ 64 - 2 ^ 39 := by
  constructor
  · rintro ⟨d, hread⟩
    obtain ⟨m, e, hnearest, hm, hd⟩ := exists_nearest_of_readSeconds h hread
    refine ⟨hnearest.pos_iff.mp hm, ?_⟩
    rw [← not_le, ← maxNanoseconds_lt_iff hnearest, ← hd, not_lt]
    exact d.le_max
  · rintro ⟨hlow, hhigh⟩
    have hsign := form.isNegative_eq_false (lt_trans (by norm_num) hlow)
    have hnearest := form.isNearest_nearest
    rw [hsign, ← form.value_eq_size hsign] at hnearest
    rcases hnearest.cases with ⟨m, e, hfinite, _⟩ | hinfinite
    · rw [hfinite] at hnearest
      have hmax := mt (maxNanoseconds_lt_iff hnearest).mp hhigh.not_ge
      refine ⟨⟨nearestNanoseconds m e, not_lt.mp hmax⟩, readSeconds_eq_ok_iff.mpr ?_⟩
      refine ⟨m, e, ?_, hnearest.pos_iff.mpr hlow, rfl⟩
      rw [read?_form h, hfinite]
    · rw [hinfinite] at hnearest
      have hlargest : Representable (2 ^ 24 - 1) 40 := by
        constructor <;> norm_num
      have hexceeds := (hnearest.exceeds_iff _ _ hlargest).mp trivial
      norm_num at hexceeds hhigh
      rcases hexceeds with hlt | heq <;> linarith

theorem pos_iff_of_readSeconds (h : form.text = text.toList) {d : Duration} (hread : readSeconds text = .ok d)
    : 0 < d.nanoseconds ↔ 18014399 / 2 ^ 55 ≤ form.value := by
  obtain ⟨m, e, hnearest, _, hd⟩ := exists_nearest_of_readSeconds h hread
  rw [hd, nearestNanoseconds_pos_iff hnearest]

theorem exists_form_of_readSeconds {d : Duration} (hread : readSeconds text = .ok d)
    : ∃ form : Decimal.Form, form.text = text.toList := by
  obtain ⟨m, e, hnumber, _⟩ := readSeconds_eq_ok_iff.mp hread
  exact exists_form_of_read? hnumber

end Duration

end SignalBoard
