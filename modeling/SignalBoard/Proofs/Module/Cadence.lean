import Mathlib.Algebra.Order.Floor.Div
import Mathlib.Logic.ExistsUnique
import SignalBoard.Module.Signals

/-!
This module shows how often an emitter fires: `Emitter.fires_at_rate`. The number of beats on which it does
is additive over stretches of beats, and a stretch as long as the interval has exactly one, wherever it
starts.
-/

namespace SignalBoard

namespace Emitter

variable {e : Emitter}

theorem fires_add_interval (e : Emitter) (beat : Nat)
    : e.fires (beat + e.interval.toNat) = e.fires beat := by
  rw [Bool.eq_iff_iff, fires_iff, fires_iff, Nat.add_mod_right]

theorem interval_pos_of_fires {beat : Nat} (h : e.fires beat = true) : 0 < e.interval.toNat :=
  (fires_iff.mp h).1

/--
Two beats on which an emitter fires are a multiple of the interval apart.
-/
theorem add_interval_le_of_fires {beat next : Nat} (hlt : beat < next) (hbeat : e.fires beat = true)
    (hnext : e.fires next = true) : beat + e.interval.toNat ≤ next := by
  have hmod : next % e.interval.toNat = beat % e.interval.toNat := by
    rw [(fires_iff.mp hbeat).2, (fires_iff.mp hnext).2]
  have hdvd : e.interval.toNat ∣ next - beat := Nat.dvd_of_mod_eq_zero (Nat.sub_mod_eq_zero_of_mod_eq hmod)
  have hle := Nat.le_of_dvd (by omega) hdvd
  omega

/--
An emitter that fires at all has an offset smaller than its interval.
-/
theorem offset_lt_of_fires {beat : Nat} (h : e.fires beat = true)
    : e.offset.toNat < e.interval.toNat := by
  obtain ⟨hpos, hmod⟩ := fires_iff.mp h
  rw [← hmod]
  exact Nat.mod_lt beat hpos

/--
The number of the `n` beats from `start` on on which the emitter fires.
-/
def firings (e : Emitter) (start n : Nat) : Nat :=
  (List.range' start n).countP e.fires

theorem firings_add (e : Emitter) (start m n : Nat)
    : e.firings start (m + n) = e.firings start m + e.firings (start + m) n := by
  rw [firings, ← List.range'_append_1, List.countP_append]
  rfl

theorem firings_one (e : Emitter) (start : Nat)
    : e.firings start 1 = if e.fires start = true then 1 else 0 := by
  rw [firings, List.range'_one, List.countP_singleton]

theorem firings_mono (e : Emitter) (start : Nat) {m n : Nat} (h : m ≤ n)
    : e.firings start m ≤ e.firings start n := by
  obtain ⟨k, rfl⟩ := Nat.exists_eq_add_of_le h
  rw [firings_add]
  exact Nat.le_add_right _ _

/--
Where a stretch as long as the interval starts does not matter: the beat that it loses in front and the
one that it gains behind have the same place in the interval.
-/
theorem firings_interval_succ (e : Emitter) (start : Nat)
    : e.firings (start + 1) e.interval.toNat = e.firings start e.interval.toNat := by
  have hfront := e.firings_add start 1 e.interval.toNat
  have hbehind := e.firings_add start e.interval.toNat 1
  rw [Nat.add_comm 1, hbehind, firings_one, firings_one, fires_add_interval] at hfront
  omega

theorem firings_interval (h : e.offset.toNat < e.interval.toNat) (start : Nat)
    : e.firings start e.interval.toNat = 1 := by
  induction start with
  | zero =>
    have hfires : ∀ beat ∈ List.range e.interval.toNat,
        e.fires beat = true ↔ (beat == e.offset.toNat) = true := by
      intro beat hbeat
      rw [fires_iff, Nat.mod_eq_of_lt (List.mem_range.mp hbeat), beq_iff_eq]
      omega
    rw [firings, ← List.range_eq_range', List.countP_congr hfires]
    exact List.count_eq_one_of_mem List.nodup_range (List.mem_range.mpr h)
  | succ start ih => rw [firings_interval_succ, ih]

theorem firings_mul_interval (h : e.offset.toNat < e.interval.toNat) (start k : Nat)
    : e.firings start (e.interval.toNat * k) = k := by
  induction k with
  | zero => rfl
  | succ k ih => rw [Nat.mul_succ, firings_add, ih, firings_interval h]

theorem existsUnique_fires (h : e.offset.toNat < e.interval.toNat) (start : Nat)
    : ∃! beat, (start ≤ beat ∧ beat < start + e.interval.toNat) ∧ e.fires beat = true := by
  have hone := firings_interval h start
  obtain ⟨beat, hbeat, hfires⟩ := List.countP_pos_iff.mp (Nat.lt_of_lt_of_eq Nat.one_pos hone.symm)
  rw [List.mem_range'_1] at hbeat
  refine ⟨beat, ⟨hbeat, hfires⟩, ?_⟩
  rintro other ⟨hother, hfires'⟩
  rcases Nat.lt_trichotomy other beat with hlt | heq | hgt
  · have := add_interval_le_of_fires hlt hfires' hfires
    omega
  · exact heq
  · have := add_interval_le_of_fires hgt hfires hfires'
    omega

/--
The next beat on which an emitter fires is one interval later.
-/
theorem next_fires_iff {beat next : Nat} (hbeat : e.fires beat = true) (hlt : beat < next)
    : (e.fires next = true ∧ ∀ between, beat < between → between < next → e.fires between = false)
        ↔
      next = beat + e.interval.toNat := by
  have hagain : e.fires (beat + e.interval.toNat) = true := by rw [fires_add_interval, hbeat]
  have hpos := interval_pos_of_fires hbeat
  constructor
  · rintro ⟨hnext, hsilent⟩
    have hle := add_interval_le_of_fires hlt hbeat hnext
    by_contra hne
    have := hsilent (beat + e.interval.toNat) (by omega) (by omega)
    rw [hagain] at this
    cases this
  · rintro rfl
    refine ⟨hagain, ?_⟩
    intro between hbehind hbefore
    by_contra hfires
    have := add_interval_le_of_fires hbehind hbeat (by simpa using hfires)
    omega

/--
An emitter whose offset is smaller than its interval fires once in every stretch of as many beats as the
interval has, each time one interval after the last time. The number of times that it fires in `n` beats
is `n` divided by the interval, rounded up or down. Any other emitter never fires.
-/
theorem fires_at_rate (e : Emitter)
    : (0 < e.interval → e.offset < e.interval →
        (∀ start n, n / e.interval.toNat ≤ e.firings start n ∧
          e.firings start n ≤ n ⌈/⌉ e.interval.toNat) ∧
        (∀ start, ∃! beat, (start ≤ beat ∧ beat < start + e.interval.toNat) ∧ e.fires beat = true) ∧
        ∀ beat next, e.fires beat = true → beat < next →
          ((e.fires next = true ∧
              ∀ between, beat < between → between < next → e.fires between = false)
            ↔
          next = beat + e.interval.toNat)) ∧
      (e.interval = 0 ∨ e.interval ≤ e.offset → ∀ beat, e.fires beat = false) := by
  constructor
  · intro hpos hoffset
    rw [UInt32.lt_iff_toNat_lt] at hpos hoffset
    refine ⟨?_, existsUnique_fires hoffset, fun beat next => next_fires_iff⟩
    intro start n
    constructor
    · calc
        n / e.interval.toNat = e.firings start (e.interval.toNat * (n / e.interval.toNat)) :=
          (firings_mul_interval hoffset start _).symm
        _ ≤ e.firings start n := e.firings_mono start (Nat.mul_div_le n _)
    · calc
        e.firings start n ≤ e.firings start (e.interval.toNat * (n ⌈/⌉ e.interval.toNat)) :=
          e.firings_mono start (le_smul_ceilDiv hpos)
        _ = n ⌈/⌉ e.interval.toNat := firings_mul_interval hoffset start _
  · intro hnever beat
    by_contra hfires
    have hfires : e.fires beat = true := by simpa using hfires
    have hoffset := offset_lt_of_fires hfires
    rcases hnever with hzero | hle
    · rw [hzero] at hoffset
      exact absurd hoffset (Nat.not_lt_zero _)
    · rw [UInt32.le_iff_toNat_le] at hle
      omega

theorem fires_at_rate_third
    : let e := { Emitter.default with interval := 3, offset := 2 }
      let silent := { Emitter.default with interval := 3, offset := 3 }
      e.firings 4 7 = 2 ∧ e.firings 5 7 = 3 ∧
      (7 / 3 ≤ e.firings 4 7 ∧ e.firings 5 7 ≤ 7 ⌈/⌉ 3) ∧
      (∃! beat, (6 ≤ beat ∧ beat < 6 + 3) ∧ e.fires beat = true) ∧
      ((e.fires 8 = true ∧ ∀ between, 5 < between → between < 8 → e.fires between = false) ↔ 8 = 5 + 3) ∧
      silent.fires 3 = false := by
  intro e silent
  obtain ⟨hrate, hunique, hnext⟩ := (fires_at_rate e).1 (by decide) (by decide)
  have hsilent := (fires_at_rate silent).2 (.inr (by decide)) 3
  exact ⟨by decide, by decide, ⟨(hrate 4 7).1, (hrate 5 7).2⟩, hunique 6,
    hnext 5 8 (by decide) (by decide), hsilent⟩

end Emitter

end SignalBoard
