import SignalBoard.Property.Literal

/-!
This module contains the properties of a module as operators see them, as texts with a type and a
label, and the validation of edits against them.
-/

namespace SignalBoard

/--
A named property: its value in written form, its type and the label shown for it.
-/
structure Property where
  name : String
  value : String
  kind : PropertyKind
  label : String
deriving DecidableEq, Inhabited

def Property.ofValue (name : String) (value : PropertyValue) (label : String) : Property :=
  ⟨name, value.render, value.kind, label⟩

/--
A batch of edits: the names of properties, each with the literal of its new value.
-/
abbrev Changes := List (String × String)

inductive PropertyError where
  | unknown (name : String)
  | invalid (name value : String) (kind : PropertyKind)
deriving DecidableEq

def PropertyError.message : PropertyError → String
  | .unknown name => s!"unknown property '{name}'"
  | .invalid name value kind => s!"'{value}' is not a valid {kind.name} for '{name}'"

/--
The properties of a module, in the order in which they are shown.
-/
abbrev PropertyMap := List Property

namespace PropertyMap

def lookup (props : PropertyMap) (name : String) : Option Property :=
  props.find? (·.name = name)

/--
Read the literal of one edit by the type of the property that it names.
-/
def validateEntry (props : PropertyMap) (entry : String × String)
    : Except PropertyError (String × PropertyValue) :=
  match props.lookup entry.1 with
  | none => .error (.unknown entry.1)
  | some prop =>
    match prop.kind.read? entry.2 with
    | none => .error (.invalid entry.1 entry.2 prop.kind)
    | some value => .ok (entry.1, value)

/--
Read a whole batch of edits. The first entry that names no property, or whose literal does not fit
the type of the property, refuses the batch.
-/
def validate (props : PropertyMap) (changes : Changes)
    : Except PropertyError (List (String × PropertyValue)) :=
  changes.mapM props.validateEntry

/--
The edits that write the present value of every property.
-/
def asChanges (props : PropertyMap) : Changes :=
  props.map fun prop => (prop.name, prop.value)

end PropertyMap

end SignalBoard
