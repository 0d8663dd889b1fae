import SignalBoard.Decimal.Binary32
import SignalBoard.Time.Duration

/-!
This module reads lengths of time that are written as a number of seconds.
-/

namespace SignalBoard

namespace Duration

inductive ReadError where
  | invalid (text : String)
  | notPositive (text : String)
  | tooLarge (text : String)
deriving DecidableEq

def ReadError.message : ReadError → String
  | .invalid text => s!"invalid duration: {text}"
  | .notPositive text => s!"duration must be positive: {text}"
  | .tooLarge text =>
    s!"invalid duration {text}: cannot convert float seconds to Duration: value is either too big or NaN"

/--
The length of time of `mantissa * 2 ^ exponent` seconds, rounded to whole nanoseconds, if it is not
too large.
-/
def ofBinarySeconds? (mantissa : Nat) (exponent : Int) : Option Duration :=
  let (num, den) := Binary32.shift (mantissa * nanosecondsPerSecond) 1 exponent
  ofNanoseconds? (roundToEven num den)

/--
Read a number of seconds. It is rounded to the precision of `Binary32` and must be positive then; the
whole nanoseconds that it is rounded to after that can be none.
-/
def readSeconds (text : String) : Except ReadError Duration :=
  match Binary32.read? text with
  | none => .error (.invalid text)
  | some (.finite negative mantissa exponent) =>
    if negative ∨ mantissa = 0 then
      .error (.notPositive text)
    else
      match ofBinarySeconds? mantissa exponent with
      | none => .error (.tooLarge text)
      | some d => .ok d
  | some _ => .error (.notPositive text)

end Duration

end SignalBoard
