import SignalBoard.Proofs.Action.Inverse

/-!
This module shows when an undo is refused: `Undo.refuses_exactly`. The undo of a change of type goes by the
kind alone, and the undo of an edit by all that operators can set. Both compare texts, which is no
restriction: the normal forms of two names tell their kinds apart, and so do the properties of two modules
all that can be set on them, in whatever order they are compared.
-/

namespace SignalBoard

theorem ModuleKind.normalize_name (kind : ModuleKind) : normalize kind.name = kind.name := by
  cases kind <;> decide +kernel

theorem ModuleKind.length_slots_inj {k l : ModuleKind} : k.slots.length = l.slots.length ↔ k = l := by
  cases k <;> cases l <;> decide

namespace PropertyMap

/--
Whether two maps hold the same properties. Their order does not matter.
-/
def Same (props other : PropertyMap) : Prop :=
  props.length = other.length ∧ ∀ prop ∈ props, other.lookup prop.name = some prop

instance (props other : PropertyMap) : Decidable (props.Same other) :=
  inferInstanceAs (Decidable (_ ∧ _))

end PropertyMap

namespace Module

theorem length_properties (m : Module) : m.properties.length = m.kind.slots.length := by
  rw [← List.length_map (f := Property.name), names_properties, List.length_map]

/--
Maps of properties that hold the same properties also have them in the same order.
-/
theorem properties_same_iff {m c : Module} : m.properties.Same c.properties ↔ m.properties = c.properties
    := by
  constructor
  · rintro ⟨hlength, hlookup⟩
    rw [length_properties, length_properties, ModuleKind.length_slots_inj] at hlength
    rw [properties_eq_iff]
    apply Body.profile_eq_of_read?
    intro slot
    cases hm : m.body.read? slot with
    | none =>
      have hslot : slot ∉ m.body.kind.slots := by
        rw [← Body.isSome_read?_iff, hm]
        simp
      rw [Body.read?_eq_none]
      rwa [← show m.body.kind = c.body.kind from hlength]
    | some value =>
      have hmem := mem_properties.mpr ⟨slot, value, hm, rfl⟩
      have hfound := List.mem_of_find?_eq_some (hlookup _ hmem)
      obtain ⟨other, found, hc, heq⟩ := mem_properties.mp hfound
      obtain ⟨hname, hrender, hkind, _⟩ := Property.mk.inj heq
      rw [Slot.name_inj.mp hname, hc, PropertyValue.eq_of_render hkind hrender]
  · intro h
    rw [h]
    exact ⟨rfl, fun prop hprop => lookup_of_mem_properties hprop⟩

end Module

namespace Undo

/--
The name of the present kind may be normalized as well before it is compared.
-/
theorem apply_restoreModule (target : String) (replaced current : Module)
    : (restoreModule target replaced).apply current
        =
      if ModuleKind.normalize current.name = ModuleKind.normalize target then
        .ok replaced
      else
        .error (.typeConflict target current.name) := by
  rw [apply, Module.name, ModuleKind.normalize_name]

/--
The properties may be compared as maps.
-/
theorem apply_restoreProperties (before : PropertyMap) (edited current : Module)
    : (restoreProperties before edited.properties).apply current
        =
      if current.properties.Same edited.properties then
        (current.edit before.asChanges).mapError .property
      else
        .error .propertyConflict := by
  rw [apply]
  split
  · rename_i hsame
    rw [if_pos (Module.properties_same_iff.mpr hsame)]
  · rename_i hdifferent
    rw [if_neg (Module.properties_same_iff.not.mpr hdifferent)]

variable {action : Action} {m r : Module} {undo : Undo}

theorem apply_of_changeType {target : String} (h : (Action.changeType target).apply m = .ok (r, undo))
    (c : Module)
    : undo.apply c = if c.kind = r.kind then .ok m else .error (.typeConflict target c.name) := by
  rcases Action.cases_of_apply h with ⟨_, kind, haction, hkind, rfl, rfl⟩ | ⟨_, haction, _⟩
  · cases haction
    have hname : ModuleKind.normalize c.name = ModuleKind.normalize target ↔ c.kind = kind := by
      rw [Module.name, ModuleKind.normalize_name, ModuleKind.ofName?_eq_some_iff.mp hkind,
        ModuleKind.name_inj]
    rw [apply_restoreModule, Module.kind_new]
    simp only [hname]
  · cases haction

theorem exists_of_same_profile {changes : Changes}
    (h : (Action.changeProperty changes).apply m = .ok (r, undo)) {c : Module}
    (hc : c.profile = r.profile)
    : ∃ back, undo.apply c = .ok back ∧ back.profile = m.profile ∧ back.position = c.position ∧
        back.background? = c.background? := by
  rcases Action.cases_of_apply h with ⟨_, _, haction, _⟩ | ⟨_, _, hedit, rfl⟩
  · cases haction
  · have hkind : c.kind = m.kind :=
      (Body.kind_eq_of_profile hc).trans (Module.sameOutsideSlots_of_edit hedit).kind
    obtain ⟨back, hback, houtside, hprofile⟩ := Module.edit_asChanges hkind
    refine ⟨back, ?_, hprofile, houtside.position, houtside.background⟩
    rw [apply_restoreProperties, if_pos, hback]
    · rfl
    · rwa [Module.properties_same_iff, Module.properties_eq_iff]

theorem conflict_of_other_profile {changes : Changes}
    (h : (Action.changeProperty changes).apply m = .ok (r, undo)) {c : Module}
    (hc : c.profile ≠ r.profile) : undo.apply c = .error .propertyConflict := by
  rcases Action.cases_of_apply h with ⟨_, _, haction, _⟩ | ⟨_, _, _, rfl⟩
  · cases haction
  · rw [apply_restoreProperties, if_neg]
    rwa [Module.properties_same_iff, Module.properties_eq_iff]

/--
A change of type is undone on the modules of the kind that it made, and then gives back the module from
before. An edit is undone on the modules on which all that can be set is as the edit left it, and then sets
this back to what it was, while position and background stay. On all other modules there is a conflict.
What the action itself left behind is none.
-/
theorem refuses_exactly (h : action.apply m = .ok (r, undo)) (c : Module)
    : (∀ target, action = .changeType target →
        (c.kind = r.kind → undo.apply c = .ok m) ∧
        (c.kind ≠ r.kind → undo.apply c = .error (.typeConflict target c.name))) ∧
      (∀ changes, action = .changeProperty changes →
        (c.profile = r.profile → ∃ back, undo.apply c = .ok back ∧ back.profile = m.profile ∧
          back.position = c.position ∧ back.background? = c.background?) ∧
        (c.profile ≠ r.profile → undo.apply c = .error .propertyConflict)) ∧
      undo.apply r = .ok m := by
  refine ⟨?_, ?_, apply_of_apply h⟩
  · rintro target rfl
    rw [apply_of_changeType h]
    exact ⟨fun hc => if_pos hc, fun hc => if_neg hc⟩
  · rintro changes rfl
    exact ⟨exists_of_same_profile h, conflict_of_other_profile h⟩

theorem refuses_exactly_spreader
    : let target := "\u2003sPReADER\t"
      let m := Module.new .emitter ⟨1, 2⟩
      let r := Module.new .spreader ⟨1, 2⟩
      let edited : Module := ⟨⟨1, 2⟩, .emitter { Emitter.default with interval := 9 }⟩
      let changes := [("interval", "7"), ("interval", "009")]
      let undoType := restoreModule target m
      let undoEdit := restoreProperties m.properties edited.properties
      (Action.changeType target).apply m = .ok (r, undoType) ∧
      undoType.apply (.new .spreader ⟨0, 0⟩) = .ok m ∧
      undoType.apply (.new .empty ⟨0, 0⟩) = .error (.typeConflict target "empty") ∧
      (Action.changeProperty changes).apply m = .ok (edited, undoEdit) ∧
      undoEdit.apply edited = .ok m ∧ undoEdit.apply m = .error .propertyConflict := by
  intro target m r edited changes undoType undoEdit
  have htype : (Action.changeType target).apply m = .ok (r, undoType) := by decide +kernel
  have hedit : (Action.changeProperty changes).apply m = .ok (edited, undoEdit) := by decide +kernel
  obtain ⟨hspreader, _⟩ := refuses_exactly htype (.new .spreader ⟨0, 0⟩)
  obtain ⟨hempty, _⟩ := refuses_exactly htype (.new .empty ⟨0, 0⟩)
  obtain ⟨_, hunedited, hback⟩ := refuses_exactly hedit m
  exact ⟨htype, (hspreader target rfl).1 rfl, (hempty target rfl).2 (by decide), hedit, hback,
    (hunedited changes rfl).2 (by decide)⟩

end Undo

end SignalBoard
