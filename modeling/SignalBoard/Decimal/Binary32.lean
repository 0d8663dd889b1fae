import SignalBoard.Text.Numeral

/-!
This module reads decimal numbers with the precision of binary floating point numbers of 32 bits:
what is read is the representable number nearest to the one that is written.
-/

namespace SignalBoard

/--
The whole number nearest to `num / den`; of two that are equally near, the even one.
-/
def roundToEven (num den : Nat) : Nat :=
  let floor := num / den
  let rest := num % den
  if 2 * rest < den then
    floor
  else if den < 2 * rest then
    floor + 1
  else
    floor + floor % 2

inductive Binary32 where
  /-- The number `mantissa * 2 ^ exponent`, with its sign. -/
  | finite (negative : Bool) (mantissa : Nat) (exponent : Int)
  | infinite (negative : Bool)
  | nan
deriving DecidableEq

namespace Binary32

/--
The fraction `num / den * 2 ^ e`, as a numerator and a denominator.
-/
def shift (num den : Nat) (e : Int) : Nat × Nat :=
  if 0 ≤ e then (num <<< e.toNat, den) else (num, den <<< (-e).toNat)

def minExponent : Int := -149

def maxExponent : Int := 104

def precision : Nat := 24

/--
The largest `e` with `2 ^ e ≤ num / den`, for a fraction that is not zero.
-/
def floorLog2 (num den : Nat) : Int :=
  let e : Int := num.log2 - den.log2
  let (num, den) := shift num den (-e)
  if den ≤ num then e else e - 1

/--
The representable number nearest to `num / den`.
-/
def ofFraction (negative : Bool) (num den : Nat) : Binary32 :=
  if num = 0 then
    .finite negative 0 minExponent
  else
    let exponent := max minExponent (floorLog2 num den - (precision - 1))
    let (num, den) := shift num den (-exponent)
    let mantissa := roundToEven num den
    let (mantissa, exponent) :=
      if mantissa = 1 <<< precision then (1 <<< (precision - 1), exponent + 1) else (mantissa, exponent)
    if maxExponent < exponent then .infinite negative else .finite negative mantissa exponent

/--
The representable number nearest to `digits * 10 ^ exponent`. Numbers from `10 ^ 40` on are beyond
the largest representable number, and those below `10 ^ (-50)` are nearest to zero, so that the powers
of ten stay small.
-/
def ofDecimal (negative : Bool) (digits : Nat) (exponent : Int) : Binary32 :=
  let magnitude := (Nat.toDigits 10 digits).length + exponent
  if digits = 0 ∨ magnitude < -50 then
    .finite negative 0 minExponent
  else if 40 < magnitude then
    .infinite negative
  else if 0 ≤ exponent then
    ofFraction negative (digits * Nat.pow 10 exponent.toNat) 1
  else
    ofFraction negative digits (Nat.pow 10 (-exponent).toNat)

/--
Read an exponent, which is the rest of a number behind its digits. There may be none.
-/
def readExponent? : List Char → Option Int
  | [] => some 0
  | e :: cs =>
    if e = 'e' ∨ e = 'E' then
      match cs with
      | '-' :: cs => if Numeral.isNumeral cs then some (-(Numeral.value cs : Int)) else none
      | '+' :: cs => if Numeral.isNumeral cs then some (Numeral.value cs) else none
      | cs => if Numeral.isNumeral cs then some (Numeral.value cs) else none
    else
      none

/--
Read a number without sign: digits, of which there is at least one, with an optional point among them
and an optional exponent behind them.
-/
def readUnsigned? (negative : Bool) (cs : List Char) : Option Binary32 := do
  let whole := cs.takeWhile Char.isDigit
  let cs := cs.dropWhile Char.isDigit
  let (fraction, cs) :=
    match cs with
    | '.' :: cs => (cs.takeWhile Char.isDigit, cs.dropWhile Char.isDigit)
    | cs => ([], cs)
  let digits := whole ++ fraction
  if digits.isEmpty then
    none
  else
    let exponent ← readExponent? cs
    return ofDecimal negative (Numeral.value digits) (exponent - fraction.length)

/--
Read a number in decimal notation, or one of the words `inf`, `infinity` and `nan` in any case. Both
can have a sign.
-/
def read? (text : String) : Option Binary32 :=
  match text.toList with
  | '-' :: cs => go true cs
  | '+' :: cs => go false cs
  | cs => go false cs
where
  go (negative : Bool) (cs : List Char) : Option Binary32 :=
    let word := String.ofList (cs.map Char.toLower)
    if word = "inf" ∨ word = "infinity" then
      some (.infinite negative)
    else if word = "nan" then
      some .nan
    else
      readUnsigned? negative cs

end Binary32

end SignalBoard
