/-!
This module contains the typed values of module properties, and their written forms.
-/

namespace SignalBoard

structure Color where
  red : UInt8
  green : UInt8
  blue : UInt8
deriving DecidableEq, Inhabited

def Color.render (c : Color) : String :=
  s!"({c.red.toNat},{c.green.toNat},{c.blue.toNat})"

inductive PropertyKind where
  | bool
  | int
  | char
  | color
deriving DecidableEq, Inhabited

/--
The name of the type, as operators see it.
-/
def PropertyKind.name : PropertyKind → String
  | .bool => "bool"
  | .int => "int"
  | .char => "char"
  | .color => "color"

inductive PropertyValue where
  | bool (value : Bool)
  | int (value : UInt32)
  | char (value : Char)
  | color (value : Color)
deriving DecidableEq, Inhabited

namespace PropertyValue

def kind : PropertyValue → PropertyKind
  | .bool _ => .bool
  | .int _ => .int
  | .char _ => .char
  | .color _ => .color

def render : PropertyValue → String
  | .bool value => if value then "true" else "false"
  | .int value => toString value.toNat
  | .char value => String.singleton value
  | .color value => value.render

end PropertyValue

end SignalBoard
