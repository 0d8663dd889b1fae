import SignalBoard.Proofs.Module.Naming

/-!
This module shows what a batch of edits does to a module: `Module.edit_all_or_nothing`. It is refused for
its first entry that is wrong, or else every property gets the value of the last literal for it. The same
holds of a module that is written to in place, where a value that finds no setting would stop the batch
half way.
-/

namespace SignalBoard

/--
What a batch of edits makes of a property. The literal that counts is the last one for the property, and
its value is shown in printed form.
-/
inductive Property.Becomes (changes : Changes) (prop : Property) : Property → Prop where
  | written {literal : String} {value : PropertyValue}
      (hliteral : changes.reverse.lookup prop.name = some literal)
      (hvalue : prop.kind.read? literal = some value)
      : Becomes changes prop { prop with value := value.render }
  | kept (hliteral : changes.reverse.lookup prop.name = none) : Becomes changes prop prop

/--
Why an edit in place ends early.
-/
inductive EditFault where
  | refused (error : PropertyError)
  /-- The name of a validated entry stands for no setting of the module. -/
  | unassigned (name : String)
deriving DecidableEq

namespace Module

/--
Write validated values one after the other, as long as their names stand for settings of the module.
-/
def writeEach (m : Module) : List (String × PropertyValue) → Module × Option EditFault
  | [] => (m, none)
  | (name, value) :: rest =>
    match m.body.writeNamed? name value with
    | none => (m, some (.unassigned name))
    | some body => { m with body := body }.writeEach rest

/--
Validate a batch of edits and write it to the module itself, which is handed back as it is when the batch
ends.
-/
def editInPlace (m : Module) (changes : Changes) : Module × Option EditFault :=
  match m.properties.validate changes with
  | .error error => (m, some (.refused error))
  | .ok entries => m.writeEach entries

theorem assign?_of_fits {m : Module} {entry : String × PropertyValue} (h : m.Fits entry)
    : m.assign? entry.1 entry.2 = some (m.assign entry) := by
  obtain ⟨name, value⟩ := entry
  obtain ⟨slot, hslot, rfl, hkind⟩ := h
  obtain ⟨body, hwrite⟩ := Body.exists_write? hslot hkind
  simp [assign, assign?, ModuleKind.find?_slots hslot, hwrite]

theorem writeEach_of_fits {m : Module} {entries : List (String × PropertyValue)}
    (h : ∀ entry ∈ entries, m.Fits entry) : m.writeEach entries = (entries.foldl assign m, none) := by
  induction entries generalizing m with
  | nil => rfl
  | cons entry rest ih =>
    rw [List.forall_mem_cons] at h
    have hassign := assign?_of_fits h.1
    rw [assign?_eq_writeNamed?, Option.map_eq_some_iff] at hassign
    obtain ⟨body, hbody, hwritten⟩ := hassign
    rw [writeEach, hbody]
    dsimp only
    rw [hwritten, List.foldl_cons]
    apply ih
    intro other hother
    exact fits_assign entry (h.2 other hother)

theorem fits_of_validateEntry {m : Module} {entry : String × String} {result : String × PropertyValue}
    (h : m.properties.validateEntry entry = .ok result) : m.Fits result := by
  obtain ⟨prop, hprop, hname, hvalue⟩ := PropertyMap.validateEntry_eq_ok_iff.mp h
  have hlookup := PropertyMap.name_of_lookup hprop
  obtain ⟨slot, old, hread, rfl⟩ := mem_properties.mp (List.mem_of_find?_eq_some hprop)
  refine ⟨slot, Body.mem_slots_of_read? hread, hname.trans hlookup.symm, ?_⟩
  rw [PropertyKind.kind_of_read? hvalue]
  exact Body.kind_of_read? hread

theorem fits_of_validate {m : Module} {changes : Changes} {results : List (String × PropertyValue)}
    (h : m.properties.validate changes = .ok results) : ∀ result ∈ results, m.Fits result := by
  intro result hresult
  obtain ⟨_, _, hentry⟩ := PropertyMap.exists_entry_of_validate h hresult
  exact fits_of_validateEntry hentry

/--
Writing in place comes to the same as making an edited module. In particular it leaves the module alone
when the batch is refused, and stops at no validated entry.
-/
theorem editInPlace_eq (m : Module) (changes : Changes)
    : m.editInPlace changes
        =
      match m.edit changes with
      | .error error => (m, some (.refused error))
      | .ok r => (r, none) := by
  rw [editInPlace, edit]
  cases hvalidate : m.properties.validate changes with
  | error error => rfl
  | ok results => exact writeEach_of_fits (fits_of_validate hvalidate)

end Module

/--
The value that is validated for a name and the literal that is given for it come from the same entry.
-/
theorem PropertyMap.lookup_validated {props : PropertyMap} {changes : Changes}
    {results : List (String × PropertyValue)}
    (h : List.Forall₂ (fun entry result => props.validateEntry entry = .ok result) changes results)
    {prop : Property} (hprop : props.lookup prop.name = some prop)
    : (changes.lookup prop.name = none ∧ results.lookup prop.name = none) ∨
        ∃ literal value, changes.lookup prop.name = some literal ∧
          prop.kind.read? literal = some value ∧ results.lookup prop.name = some value := by
  induction h with
  | nil => exact .inl ⟨rfl, rfl⟩
  | @cons entry result _ _ hentry _ ih =>
    obtain ⟨name, literal⟩ := entry
    obtain ⟨written, value⟩ := result
    obtain ⟨found, hfound, rfl, hvalue⟩ := validateEntry_eq_ok_iff.mp hentry
    by_cases hname : prop.name = written
    · subst hname
      rw [hprop] at hfound
      cases hfound
      exact .inr ⟨literal, value, by simp, hvalue, by simp⟩
    · simpa only [List.lookup_cons, beq_false_of_ne hname] using ih

namespace Module

theorem becomes_ofValue {m : Module} {changes : Changes} {results : List (String × PropertyValue)}
    (h : m.properties.validate changes = .ok results) {slot : Slot} {old new : PropertyValue}
    (hold : m.body.read? slot = some old)
    (hnew : (results.reverse.lookup slot.name).or (m.body.read? slot) = some new)
    : Property.Becomes changes (.ofValue slot.name old slot.label) (.ofValue slot.name new slot.label) := by
  let prop := Property.ofValue slot.name old slot.label
  have hprop : m.properties.lookup prop.name = some prop := by
    rw [show prop.name = slot.name from rfl, lookup_properties, hold]
    rfl
  have hreverse := List.forall₂_reverse_iff.mpr (PropertyMap.validate_eq_ok_iff.mp h)
  rcases PropertyMap.lookup_validated hreverse hprop with ⟨hliteral, hresult⟩ |
    ⟨literal, value, hliteral, hvalue, hresult⟩
  · rw [show results.reverse.lookup slot.name = none from hresult, hold] at hnew
    cases hnew
    exact .kept hliteral
  · rw [show results.reverse.lookup slot.name = some value from hresult] at hnew
    cases hnew
    have hkind : new.kind = old.kind := PropertyKind.kind_of_read? hvalue
    have hwritten : Property.ofValue slot.name new slot.label
        =
      { prop with value := new.render } := by
      simp [prop, Property.ofValue, hkind]
    rw [hwritten]
    exact .written hliteral hvalue

theorem becomes_properties {m r : Module} {changes : Changes} {results : List (String × PropertyValue)}
    (h : m.properties.validate changes = .ok results) (hr : results.foldl assign m = r)
    : List.Forall₂ (Property.Becomes changes) m.properties r.properties := by
  have hkind : r.kind = m.kind := hr ▸ (sameOutsideSlots_foldl_assign m results).kind
  have hread : ∀ slot, r.body.read? slot = (results.reverse.lookup slot.name).or (m.body.read? slot) := by
    intro slot
    rw [← hr, read?_foldl_assign (fits_of_validate h)]
  have hslots : ∀ slots : List Slot, (∀ slot ∈ slots, slot ∈ m.kind.slots) →
      List.Forall₂ (Property.Becomes changes)
        (slots.filterMap fun slot => (m.body.read? slot).map (.ofValue slot.name · slot.label))
        (slots.filterMap fun slot => (r.body.read? slot).map (.ofValue slot.name · slot.label)) := by
    intro slots hslots
    induction slots with
    | nil => exact .nil
    | cons slot slots ih =>
      rw [List.forall_mem_cons] at hslots
      have hslot : slot ∈ r.kind.slots := by
        rw [hkind]
        exact hslots.1
      obtain ⟨old, hold⟩ := Option.isSome_iff_exists.mp (Body.isSome_read?_iff.mpr hslots.1)
      obtain ⟨new, hnew⟩ := Option.isSome_iff_exists.mp (Body.isSome_read?_iff.mpr hslot)
      rw [List.filterMap_cons_some (by rw [hold]; rfl), List.filterMap_cons_some (by rw [hnew]; rfl)]
      exact .cons (becomes_ofValue h hold (by rw [← hread, hnew])) (ih hslots.2)
  rw [properties, properties, hkind]
  exact hslots m.kind.slots fun _ hslot => hslot

/--
A batch of edits is refused exactly if one of its entries is, for the reason of the first one, and then it
changes nothing, also when it is written in place. Otherwise the kind, the position and the background
stay, and the properties stay in their order, each with the value of the last literal for it if there is
one. No validated entry fails to find its setting.
-/
theorem edit_all_or_nothing (m : Module) (changes : Changes)
    : ((∃ error, m.edit changes = .error error) ↔
        ∃ entry ∈ changes, ∃ error, m.properties.Refuses entry error) ∧
      (∀ error, m.edit changes = .error error →
        m.properties.RefusesFirst changes error ∧
          m.editInPlace changes = (m, some (.refused error))) ∧
      ∀ r, m.edit changes = .ok r →
        m.SameOutsideSlots r ∧ List.Forall₂ (Property.Becomes changes) m.properties r.properties ∧
          m.editInPlace changes = (r, none) := by
  have herror : ∀ error, m.edit changes = .error error ↔
      m.properties.validate changes = .error error := by
    intro error
    rw [edit]
    cases m.properties.validate changes <;> simp
  refine ⟨?_, ?_, ?_⟩
  · simp only [herror]
    exact PropertyMap.validate_refused_iff
  · intro error h
    refine ⟨PropertyMap.validate_eq_error_iff.mp ((herror error).mp h), ?_⟩
    rw [editInPlace_eq, h]
  · intro r h
    refine ⟨sameOutsideSlots_of_edit h, ?_, by rw [editInPlace_eq, h]⟩
    rw [edit] at h
    cases hvalidate : m.properties.validate changes with
    | error error =>
      rw [hvalidate] at h
      cases h
    | ok results =>
      rw [hvalidate] at h
      exact becomes_properties hvalidate (Except.ok.inj h)

end Module

end SignalBoard
