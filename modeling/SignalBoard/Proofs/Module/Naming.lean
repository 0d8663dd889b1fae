import Mathlib.Data.List.Basic
import SignalBoard.Proofs.Module.Snapshot

/-!
This module contains a second way from the name of a property to the setting that it stands for. It does
not look the name up among the slots, but compares it with the fixed names and takes apart the names of
openings. `Module.assign?_eq_writeNamed?` says that both ways lead to the same setting, or to none, for
every name.
-/

namespace SignalBoard

/--
The direction in a name that consists of a direction, `_is_` and the name of the flow.
-/
def Flow.direction? (flow : Flow) (name : String) : Option Direction := do
  let rest ← name.toList.dropSuffix? flow.name.toList
  let direction ← rest.dropSuffix? "_is_".toList
  Direction.ofName? (String.ofList direction)

def Symbol.writeNamed? (s : Symbol) (name : String) : PropertyValue → Option Symbol
  | .char glyph => if name = "character" then some { s with glyph := glyph } else none
  | .color color => if name = "color" then some { s with foreground := color } else none
  | _ => none

/--
A name that is both an input and an output would stand for the input.
-/
def Spreader.writeNamed? (s : Spreader) (name : String) (value : PropertyValue) : Option Spreader :=
  match s.symbol.writeNamed? name value, value with
  | some symbol, _ => some { s with symbol := symbol }
  | none, .bool on =>
    match Flow.input.direction? name with
    | some d => some { s with inputs := s.inputs.set d on }
    | none =>
      (Flow.output.direction? name).map fun d => { s with outputs := s.outputs.set d on }
  | none, _ => none

def Emitter.writeNamed? (e : Emitter) (name : String) (value : PropertyValue) : Option Emitter :=
  match e.symbol.writeNamed? name value, value with
  | some symbol, _ => some { e with symbol := symbol }
  | none, .int number =>
    if name = "interval" then
      some { e with interval := number }
    else if name = "offset" then
      some { e with offset := number }
    else
      none
  | none, .bool on =>
    (Flow.output.direction? name).map fun d => { e with outputs := e.outputs.set d on }
  | none, _ => none

/--
Write a value to the setting that the name stands for, if there is one of the type of the value.
-/
def Body.writeNamed? (b : Body) (name : String) (value : PropertyValue) : Option Body :=
  match b with
  | .empty => none
  | .spreader s => (s.writeNamed? name value).map .spreader
  | .emitter e => (e.writeNamed? name value).map .emitter

theorem Flow.direction?_eq_some_iff {flow : Flow} {name : String} {d : Direction}
    : flow.direction? name = some d ↔ name = (Slot.opening flow d).name := by
  simp only [direction?, Option.bind_eq_bind, Option.bind_eq_some_iff, List.dropSuffix?_eq_some_iff,
    beq_iff_eq]
  constructor
  · rintro ⟨_, ⟨_, hname, rfl⟩, direction, ⟨_, hrest, rfl⟩, hdirection⟩
    have hd : direction = d.name.toList := by
      have := List.find?_some hdirection
      simp only [decide_eq_true_eq] at this
      rw [this, String.toList_ofList]
    rw [← String.toList_inj, hname, hrest, hd]
    simp [Slot.name]
  · rintro rfl
    refine ⟨d.name.toList ++ "_is_".toList, ⟨_, by simp [Slot.name], rfl⟩, d.name.toList,
      ⟨_, rfl, rfl⟩, ?_⟩
    rw [String.ofList_toList]
    exact Direction.ofName?_name d

theorem Body.writeNamed?_name (b : Body) (slot : Slot) (value : PropertyValue)
    : b.writeNamed? slot.name value = b.write? slot value := by
  cases b with
  | empty => rfl
  | spreader s =>
    rcases slot with _ | _ | ⟨_ | _, _ | _ | _ | _⟩ | _ | _ <;> cases value <;> rfl
  | emitter e =>
    rcases slot with _ | _ | ⟨_ | _, _ | _ | _ | _⟩ | _ | _ <;> cases value <;> rfl

theorem Body.writeNamed?_eq_none {b : Body} {name : String} (h : ∀ slot : Slot, slot.name ≠ name)
    (value : PropertyValue) : b.writeNamed? name value = none := by
  have hdirection : ∀ flow : Flow, flow.direction? name = none := by
    intro flow
    rw [Option.eq_none_iff_forall_ne_some]
    intro d hd
    exact h _ (Flow.direction?_eq_some_iff.mp hd).symm
  have hcharacter : name ≠ "character" := (h .character).symm
  have hcolor : name ≠ "color" := (h .color).symm
  have hinterval : name ≠ "interval" := (h .interval).symm
  have hoffset : name ≠ "offset" := (h .offset).symm
  cases b with
  | empty => rfl
  | spreader s =>
    cases value <;>
      simp [writeNamed?, Spreader.writeNamed?, Symbol.writeNamed?, hcharacter, hcolor, hdirection]
  | emitter e =>
    cases value <;>
      simp [writeNamed?, Emitter.writeNamed?, Symbol.writeNamed?, hcharacter, hcolor, hinterval, hoffset,
        hdirection]

theorem Body.write?_eq_none {b : Body} {slot : Slot} (h : slot ∉ b.kind.slots) (value : PropertyValue)
    : b.write? slot value = none := by
  rw [Option.eq_none_iff_forall_ne_some]
  intro b' hwrite
  have hread : b'.read? slot = some value := by rw [read?_write? hwrite, if_pos rfl]
  rw [← kind_of_write? hwrite] at h
  exact h (mem_slots_of_read? hread)

theorem Module.assign?_eq_writeNamed? (m : Module) (name : String) (value : PropertyValue)
    : m.assign? name value
        =
      (m.body.writeNamed? name value).map fun body => { m with body := body } := by
  rw [assign?]
  by_cases hname : ∃ slot : Slot, slot.name = name
  · obtain ⟨slot, rfl⟩ := hname
    rw [Body.writeNamed?_name]
    by_cases hslot : slot ∈ m.kind.slots
    · simp only [ModuleKind.find?_slots hslot, Option.bind_eq_bind, Option.bind_some]
      cases m.body.write? slot value <;> rfl
    · have hfind : m.kind.slots.find? (·.name = slot.name) = none := by
        rw [List.find?_eq_none]
        intro other hother
        rw [decide_eq_true_eq, Slot.name_inj]
        rintro rfl
        exact hslot hother
      rw [hfind, Body.write?_eq_none hslot]
      rfl
  · have hfind : m.kind.slots.find? (·.name = name) = none := by
      rw [List.find?_eq_none]
      intro slot _ hslot
      exact hname ⟨slot, of_decide_eq_true hslot⟩
    rw [hfind, Body.writeNamed?_eq_none (not_exists.mp hname)]
    rfl

end SignalBoard
