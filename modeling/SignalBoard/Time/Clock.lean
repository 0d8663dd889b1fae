import SignalBoard.Time.Duration

/-!
This module contains the clock that drives the beats.
-/

namespace SignalBoard

/--
A clock collects elapsed time until it has a full step.
-/
structure Clock where
  step : Duration
  collected : Duration
deriving DecidableEq

inductive ClockError where
  /-- More time was collected than a `Duration` holds. -/
  | overflow
deriving DecidableEq

def ClockError.message : ClockError → String
  | .overflow => "overflow when adding durations"

namespace Clock

def new (step : Duration) : Clock :=
  ⟨step, .zero⟩

/--
Collect elapsed time, and tell whether a full step has passed. If so the clock starts over from zero,
and what it had collected beyond the step is dropped.
-/
def advance (c : Clock) (elapsed : Duration) : Except ClockError (Bool × Clock) :=
  match c.collected.add? elapsed with
  | none => .error .overflow
  | some collected =>
    if c.step.nanoseconds ≤ collected.nanoseconds then
      .ok (true, { c with collected := .zero })
    else
      .ok (false, { c with collected := collected })

theorem advance_eq_error_iff {c : Clock} {elapsed : Duration} {e : ClockError}
    : c.advance elapsed = .error e ↔
        maxNanoseconds < c.collected.nanoseconds + elapsed.nanoseconds := by
  rw [← Duration.add?_eq_none_iff]
  cases e
  unfold advance
  cases c.collected.add? elapsed with
  | none => simp
  | some collected =>
    simp only [reduceCtorEq, iff_false]
    split <;> simp

end Clock

end SignalBoard
