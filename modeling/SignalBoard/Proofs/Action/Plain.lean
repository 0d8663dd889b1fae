import SignalBoard.Proofs.Action.Inverse
import SignalBoard.Proofs.Text.Line

/-!
This module shows that no newline gets into a module unless an action writes it there, and that what is
said about modules without newlines and about the actions on them stays on its line.
-/

namespace SignalBoard

theorem PropertyValue.singleLine_render_iff {value : PropertyValue}
    : Text.SingleLine value.render ↔ value ≠ .char '\n' := by
  cases value with
  | bool value => cases value <;> simp +decide
  | int value => simp [render]
  | char value => simp [render]
  | color value => simp +decide [render, Color.render]

/--
No literal of one line stands for a newline.
-/
theorem PropertyKind.ne_newline_of_read? {kind : PropertyKind} {text : String} {value : PropertyValue}
    (htext : Text.SingleLine text) (h : kind.read? text = some value) : value ≠ .char '\n' := by
  rintro rfl
  obtain rfl : kind = .char := (kind_of_read? h).symm
  have hchar : Literal.char? text = some '\n' := by simpa [read?] using h
  unfold Literal.char? at hchar
  split at hchar
  · rename_i c hc
    cases hchar
    exact htext (hc ▸ List.mem_singleton_self _)
  · cases hchar

theorem PropertyKind.singleLine_name (kind : PropertyKind) : Text.SingleLine kind.name := by
  cases kind <;> decide

theorem Slot.singleLine_name (slot : Slot) : Text.SingleLine slot.name := by
  rcases slot with _ | _ | ⟨_ | _, _ | _ | _ | _⟩ | _ | _ <;> decide

theorem Slot.singleLine_label (slot : Slot) : Text.SingleLine slot.label := by
  rcases slot with _ | _ | ⟨_ | _, _ | _ | _ | _⟩ | _ | _ <;> decide

/--
The texts of the property are of one line.
-/
structure Property.Plain (prop : Property) : Prop where
  name : Text.SingleLine prop.name
  value : Text.SingleLine prop.value
  label : Text.SingleLine prop.label

namespace Module

/--
No setting of the module is a newline.
-/
def Plain (m : Module) : Prop :=
  ∀ slot, m.body.read? slot ≠ some (.char '\n')

theorem plain_new (kind : ModuleKind) (position : Position) : (new kind position).Plain := by
  intro slot hread
  change (Body.ofKind kind).read? slot = _ at hread
  have hkind : PropertyKind.char = slot.kind := Body.kind_of_read? hread
  cases slot with
  | character => cases kind <;> exact absurd hread (by decide)
  | color => cases hkind
  | opening flow direction => cases hkind
  | interval => cases hkind
  | offset => cases hkind

namespace Plain

variable {m : Module}

theorem assign (h : m.Plain) {entry : String × PropertyValue} (hvalue : entry.2 ≠ .char '\n')
    : (m.assign entry).Plain := by
  rcases assign_cases m entry with hsame | ⟨written, body, hwrite, hassign⟩
  · rw [hsame]
    exact h
  · rw [hassign]
    intro slot
    change body.read? slot ≠ _
    rw [Body.read?_write? hwrite]
    split
    · simpa using hvalue
    · exact h slot

theorem foldl_assign (h : m.Plain) {entries : List (String × PropertyValue)}
    (hentries : ∀ entry ∈ entries, entry.2 ≠ .char '\n') : (entries.foldl Module.assign m).Plain := by
  induction entries generalizing m with
  | nil => exact h
  | cons entry rest ih =>
    rw [List.forall_mem_cons] at hentries
    exact ih (h.assign hentries.1) hentries.2

theorem edit (h : m.Plain) {changes : Changes}
    (hchanges : ∀ entry ∈ changes, Text.SingleLine entry.2) {r : Module} (hedit : m.edit changes = .ok r)
    : r.Plain := by
  unfold Module.edit at hedit
  split at hedit
  · cases hedit
  · rename_i entries hvalidate
    cases hedit
    apply h.foldl_assign
    intro result hresult
    obtain ⟨entry, hentry, hvalidated⟩ := PropertyMap.exists_entry_of_validate hvalidate hresult
    obtain ⟨prop, _, _, hvalue⟩ := PropertyMap.validateEntry_eq_ok_iff.mp hvalidated
    exact PropertyKind.ne_newline_of_read? (hchanges entry hentry) hvalue

theorem properties (h : m.Plain) {prop : Property} (hprop : prop ∈ m.properties) : prop.Plain := by
  obtain ⟨slot, value, hread, rfl⟩ := mem_properties.mp hprop
  constructor
  · exact slot.singleLine_name
  · rw [Property.ofValue, PropertyValue.singleLine_render_iff]
    rintro rfl
    exact h slot hread
  · exact slot.singleLine_label

end Plain

end Module

theorem PropertyMap.Refuses.singleLine_message {props : PropertyMap} {entry : String × String}
    {error : PropertyError} (h : props.Refuses entry error) (hname : Text.SingleLine entry.1)
    (hliteral : Text.SingleLine entry.2) : Text.SingleLine error.message := by
  cases h with
  | @unknown name literal _ =>
    have hname : Text.SingleLine name := hname
    change Text.SingleLine s!"unknown property '{name}'"
    simp +decide [hname]
  | @invalid name literal prop _ _ =>
    have hname : Text.SingleLine name := hname
    have hliteral : Text.SingleLine literal := hliteral
    change Text.SingleLine s!"'{literal}' is not a valid {prop.kind.name} for '{name}'"
    simp +decide [hname, hliteral, prop.kind.singleLine_name]

namespace Action

/--
The texts of the action are of one line, and it asks for no kind that there is not.
-/
def Plain : Action → Prop
  | .changeType target => (ModuleKind.ofName? target).isSome = true
  | .changeProperty changes =>
    ∀ entry ∈ changes, Text.SingleLine entry.1 ∧ Text.SingleLine entry.2
  | .moveCursor _ => True

variable {action : Action} {m : Module}

theorem Plain.apply (haction : action.Plain) (hm : m.Plain) {r : Module} {undo : Undo}
    (h : action.apply m = .ok (r, undo)) : r.Plain := by
  rcases cases_of_apply h with ⟨_, kind, _, _, rfl, _⟩ | ⟨changes, rfl, hedit, _⟩
  · exact Module.plain_new kind m.position
  · exact hm.edit (fun entry hentry => (haction entry hentry).2) hedit

theorem Plain.singleLine_message (haction : action.Plain) {error : ActionError}
    (h : action.apply m = .error error) : Text.SingleLine error.message := by
  cases action with
  | changeType target =>
    obtain ⟨kind, hkind⟩ := Option.isSome_iff_exists.mp haction
    rw [Action.apply, Module.ofName, hkind] at h
    cases h
  | changeProperty changes =>
    simp only [Action.apply, Module.edit] at h
    cases hvalidate : m.properties.validate changes with
    | ok entries =>
      rw [hvalidate] at h
      cases h
    | error refused =>
      rw [hvalidate] at h
      cases h
      obtain ⟨_, entry, _, rfl, _, hrefuses⟩ := PropertyMap.validate_eq_error_iff.mp hvalidate
      obtain ⟨hname, hliteral⟩ := haction entry (by simp)
      exact hrefuses.singleLine_message hname hliteral
  | moveCursor direction =>
    cases h
    exact (by decide : Text.SingleLine (ActionError.wrongScope "move cursor").message)

end Action

end SignalBoard
