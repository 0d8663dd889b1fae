import SignalBoard.Property.Value
import SignalBoard.Text.Blank
import SignalBoard.Text.Numeral

/-!
This module reads the literals that operators write for property values, one reader for each type.
Numbers that are too large for their type are read as its largest value.
-/

namespace SignalBoard

namespace Literal

/--
Read a run of digits, cutting its value off at `limit`.
-/
def saturated? (limit : Nat) (cs : List Char) : Option Nat :=
  if Numeral.isNumeral cs then some (min (Numeral.value cs) limit) else none

def bool? (text : String) : Option Bool :=
  if text = "true" then
    some true
  else if text = "false" then
    some false
  else
    none

def int? (text : String) : Option UInt32 :=
  (saturated? (UInt32.size - 1) text.toList).map UInt32.ofNat

def char? (text : String) : Option Char :=
  match text.toList with
  | [c] => some c
  | _ => none

/--
Read one field of a color, which may stand between blank characters.
-/
def channel? (field : List Char) : Option UInt8 :=
  (saturated? (UInt8.size - 1) (Text.trimChars field)).map UInt8.ofNat

/--
Remove the parentheses around `cs`.
-/
def unparenthesize? : List Char → Option (List Char)
  | '(' :: cs => if cs.getLast? = some ')' then some cs.dropLast else none
  | _ => none

/--
Read a color: three fields between parentheses, separated by commas.
-/
def color? (text : String) : Option Color := do
  match (← unparenthesize? text.toList).splitOn ',' with
  | [red, green, blue] => return ⟨← channel? red, ← channel? green, ← channel? blue⟩
  | _ => none

end Literal

def PropertyKind.read? (kind : PropertyKind) (text : String) : Option PropertyValue :=
  match kind with
  | .bool => (Literal.bool? text).map .bool
  | .int => (Literal.int? text).map .int
  | .char => (Literal.char? text).map .char
  | .color => (Literal.color? text).map .color

theorem PropertyKind.kind_of_read? {kind : PropertyKind} {text : String} {value : PropertyValue}
    (h : kind.read? text = some value) : value.kind = kind := by
  cases kind <;> simp only [read?, Option.map_eq_some_iff] at h <;> obtain ⟨_, _, rfl⟩ := h <;> rfl

end SignalBoard
