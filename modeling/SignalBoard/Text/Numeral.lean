/-!
This module reads decimal numerals made of the ASCII digits `0` to `9`. Printing is `Nat.repr`.
-/

namespace SignalBoard

namespace Numeral

/--
Whether `cs` is a non-empty run of ASCII digits.
-/
def isNumeral (cs : List Char) : Bool :=
  !cs.isEmpty && cs.all Char.isDigit

def value (cs : List Char) : Nat :=
  Nat.ofDigitChars 10 cs 0

/--
The number that is written as `acc` followed by the digit `c`.
-/
def append (acc : Nat) (c : Char) : Nat :=
  acc * 10 + (c.toNat - '0'.toNat)

/--
Like `append`, but neither the product nor the sum goes beyond `limit`.
-/
def appendSaturating (limit acc : Nat) (c : Char) : Nat :=
  min (min (acc * 10) limit + (c.toNat - '0'.toNat)) limit

inductive ReadError where
  | empty
  | invalidDigit
  | tooLarge
deriving DecidableEq

def ReadError.message : ReadError → String
  | .empty => "cannot parse integer from empty string"
  | .invalidDigit => "invalid digit found in string"
  | .tooLarge => "number too large to fit in target type"

/--
Read digits from left to right, as long as the number so far is at most `limit`.
-/
def readDigits (limit : Nat) (cs : List Char) : Except ReadError Nat :=
  go cs 0
where
  go : List Char → Nat → Except ReadError Nat
    | [], acc => .ok acc
    | c :: cs, acc =>
      if !c.isDigit then
        .error .invalidDigit
      else if limit < append acc c then
        .error .tooLarge
      else
        go cs (append acc c)

/--
Read a numeral of at most `limit`, with one optional `+` in front. The first character at which
the text can no longer be such a numeral decides the error.
-/
def read (limit : Nat) : List Char → Except ReadError Nat
  | [] => .error .empty
  | ['+'] => .error .invalidDigit
  | '+' :: cs => readDigits limit cs
  | cs => readDigits limit cs

end Numeral

end SignalBoard
