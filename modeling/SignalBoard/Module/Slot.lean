import SignalBoard.Module.Basic
import SignalBoard.Property.Map

/-!
This module contains slots, the settings of modules that operators can read and write by name. The
properties of a module are the values in its slots, and a batch of edits writes to its slots.
-/

namespace SignalBoard

/--
The two ways in which signals pass the edge of a module.
-/
inductive Flow where
  | input
  | output
deriving DecidableEq, Inhabited

def Flow.name : Flow → String
  | .input => "input"
  | .output => "output"

/--
A setting that a module may have.
-/
inductive Slot where
  | character
  | color
  /-- Whether the edge in that direction is open to signals that flow that way. -/
  | opening (flow : Flow) (direction : Direction)
  | interval
  | offset
deriving DecidableEq, Inhabited

namespace Slot

def name : Slot → String
  | .character => "character"
  | .color => "color"
  | .opening flow direction => direction.name ++ "_is_" ++ flow.name
  | .interval => "interval"
  | .offset => "offset"

def label : Slot → String
  | .character => "character"
  | .color => "color"
  | .opening flow direction => direction.name ++ " is " ++ flow.name
  | .interval => "pulse interval"
  | .offset => "pulse offset"

/--
The type of the values that the slot holds.
-/
def kind : Slot → PropertyKind
  | .character => .char
  | .color => .color
  | .opening _ _ => .bool
  | .interval => .int
  | .offset => .int

end Slot

/--
The slots of the modules of a kind, in the order in which they are shown.
-/
def ModuleKind.slots : ModuleKind → List Slot
  | .empty => []
  | .spreader =>
    [.character, .color] ++ Direction.all.map (.opening .input) ++ Direction.all.map (.opening .output)
  | .emitter =>
    [.character, .color] ++ Direction.all.map (.opening .output) ++ [.interval, .offset]

namespace Symbol

def read? (s : Symbol) : Slot → Option PropertyValue
  | .character => some (.char s.glyph)
  | .color => some (.color s.foreground)
  | _ => none

def write? (s : Symbol) : Slot → PropertyValue → Option Symbol
  | .character, .char glyph => some { s with glyph := glyph }
  | .color, .color color => some { s with foreground := color }
  | _, _ => none

theorem read?_write? {s t : Symbol} {slot : Slot} {value : PropertyValue}
    (h : s.write? slot value = some t) (other : Slot)
    : t.read? other = if other = slot then some value else s.read? other := by
  unfold write? at h
  split at h
  · cases h
    cases other <;> simp [read?]
  · cases h
    cases other <;> simp [read?]
  · cases h

end Symbol

namespace Spreader

def read? (s : Spreader) : Slot → Option PropertyValue
  | .opening .input d => some (.bool (s.inputs.contains d))
  | .opening .output d => some (.bool (s.outputs.contains d))
  | slot => s.symbol.read? slot

def write? (s : Spreader) : Slot → PropertyValue → Option Spreader
  | .opening .input d, .bool on => some { s with inputs := s.inputs.set d on }
  | .opening .output d, .bool on => some { s with outputs := s.outputs.set d on }
  | slot, value => (s.symbol.write? slot value).map fun symbol => { s with symbol := symbol }

theorem read?_write? {s t : Spreader} {slot : Slot} {value : PropertyValue}
    (h : s.write? slot value = some t) (other : Slot)
    : t.read? other = if other = slot then some value else s.read? other := by
  unfold write? at h
  split at h
  · cases h
    rcases other with _ | _ | ⟨_ | _, d⟩ | _ | _ <;> simp [read?, Directions.contains_set]
    split <;> rfl
  · cases h
    rcases other with _ | _ | ⟨_ | _, d⟩ | _ | _ <;> simp [read?, Directions.contains_set]
    split <;> rfl
  · obtain ⟨u, hu, rfl⟩ := Option.map_eq_some_iff.mp h
    have := Symbol.read?_write? hu other
    rcases other with _ | _ | ⟨_ | _, d⟩ | _ | _ <;> simp_all [read?, Symbol.read?]

end Spreader

namespace Emitter

def read? (e : Emitter) : Slot → Option PropertyValue
  | .opening .output d => some (.bool (e.outputs.contains d))
  | .interval => some (.int e.interval)
  | .offset => some (.int e.offset)
  | slot => e.symbol.read? slot

def write? (e : Emitter) : Slot → PropertyValue → Option Emitter
  | .opening .output d, .bool on => some { e with outputs := e.outputs.set d on }
  | .interval, .int interval => some { e with interval := interval }
  | .offset, .int offset => some { e with offset := offset }
  | slot, value => (e.symbol.write? slot value).map fun symbol => { e with symbol := symbol }

theorem read?_write? {e f : Emitter} {slot : Slot} {value : PropertyValue}
    (h : e.write? slot value = some f) (other : Slot)
    : f.read? other = if other = slot then some value else e.read? other := by
  unfold write? at h
  split at h
  · cases h
    rcases other with _ | _ | ⟨_ | _, d⟩ | _ | _ <;> simp [read?, Directions.contains_set]
    split <;> rfl
  · cases h
    rcases other with _ | _ | ⟨_ | _, d⟩ | _ | _ <;> simp [read?]
  · cases h
    rcases other with _ | _ | ⟨_ | _, d⟩ | _ | _ <;> simp [read?]
  · obtain ⟨u, hu, rfl⟩ := Option.map_eq_some_iff.mp h
    have := Symbol.read?_write? hu other
    rcases other with _ | _ | ⟨_ | _, d⟩ | _ | _ <;> simp_all [read?, Symbol.read?]

end Emitter

namespace Body

/--
The value in a slot, if the body has the slot.
-/
def read? (b : Body) (slot : Slot) : Option PropertyValue :=
  match b with
  | .empty => none
  | .spreader s => s.read? slot
  | .emitter e => e.read? slot

/--
Put a value into a slot, if the body has the slot and the value is of its type.
-/
def write? (b : Body) (slot : Slot) (value : PropertyValue) : Option Body :=
  match b with
  | .empty => none
  | .spreader s => (s.write? slot value).map .spreader
  | .emitter e => (e.write? slot value).map .emitter

theorem kind_of_write? {b b' : Body} {slot : Slot} {value : PropertyValue}
    (h : b.write? slot value = some b') : b'.kind = b.kind := by
  cases b with
  | empty => simp [write?] at h
  | spreader s =>
    obtain ⟨_, _, rfl⟩ := Option.map_eq_some_iff.mp h
    rfl
  | emitter e =>
    obtain ⟨_, _, rfl⟩ := Option.map_eq_some_iff.mp h
    rfl

/--
A write changes the slot that it names and no other.
-/
theorem read?_write? {b b' : Body} {slot : Slot} {value : PropertyValue}
    (h : b.write? slot value = some b') (other : Slot)
    : b'.read? other = if other = slot then some value else b.read? other := by
  cases b with
  | empty => simp [write?] at h
  | spreader s =>
    obtain ⟨t, ht, rfl⟩ := Option.map_eq_some_iff.mp h
    exact Spreader.read?_write? ht other
  | emitter e =>
    obtain ⟨f, hf, rfl⟩ := Option.map_eq_some_iff.mp h
    exact Emitter.read?_write? hf other

end Body

namespace Module

/--
The properties of the module: the values in its slots, in written form.
-/
def properties (m : Module) : PropertyMap :=
  m.kind.slots.filterMap fun slot =>
    (m.body.read? slot).map fun value => .ofValue slot.name value slot.label

/--
Write a value to the slot that is called `name`.
-/
def assign? (m : Module) (name : String) (value : PropertyValue) : Option Module := do
  let slot ← m.kind.slots.find? (·.name = name)
  let body ← m.body.write? slot value
  return { m with body := body }

/--
Write one value of a validated batch.
-/
def assign (m : Module) (entry : String × PropertyValue) : Module :=
  (m.assign? entry.1 entry.2).getD m

/--
Write a batch of edits. The batch is validated as a whole before anything is written, and of several
literals for one property the last one counts.
-/
def edit (m : Module) (changes : Changes) : Except PropertyError Module :=
  match m.properties.validate changes with
  | .error e => .error e
  | .ok entries => .ok (entries.foldl assign m)

end Module

end SignalBoard
