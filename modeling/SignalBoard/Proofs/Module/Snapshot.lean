import SignalBoard.Proofs.Module.Profile
import SignalBoard.Proofs.Property.Literal
import SignalBoard.Proofs.Property.Validation

/-!
This module shows that the properties of a module are a snapshot of it. `Module.edit_asChanges` says
what writing the properties of one module to another of the same kind amounts to, and
`Module.edit_back` that an edit is taken back by writing the properties from before it.
-/

namespace SignalBoard

theorem Slot.name_inj {s t : Slot} : s.name = t.name ↔ s = t := by
  constructor
  · intro h
    rcases s with _ | _ | ⟨_ | _, _ | _ | _ | _⟩ | _ | _
    all_goals
      rcases t with _ | _ | ⟨_ | _, _ | _ | _ | _⟩ | _ | _
      all_goals
        first
        | rfl
        | exact absurd h (by decide)
  · intro h
    rw [h]

theorem ModuleKind.find?_slots {kind : ModuleKind} {slot : Slot} (h : slot ∈ kind.slots)
    : kind.slots.find? (·.name = slot.name) = some slot := by
  cases hfind : kind.slots.find? (·.name = slot.name) with
  | none =>
    rw [List.find?_eq_none] at hfind
    have := hfind slot h
    simp at this
  | some found =>
    have := List.find?_some hfind
    simp only [decide_eq_true_eq] at this
    rw [Slot.name_inj.mp this]

namespace Body

theorem isSome_read?_iff {b : Body} {slot : Slot}
    : (b.read? slot).isSome = true ↔ slot ∈ b.kind.slots := by
  cases b with
  | empty => simp [read?, kind, ModuleKind.slots]
  | spreader s =>
    rcases slot with _ | _ | ⟨_ | _, d⟩ | _ | _ <;>
      simp [read?, Spreader.read?, Symbol.read?, kind, ModuleKind.slots, Direction.mem_all]
  | emitter e =>
    rcases slot with _ | _ | ⟨_ | _, d⟩ | _ | _ <;>
      simp [read?, Emitter.read?, Symbol.read?, kind, ModuleKind.slots, Direction.mem_all]

theorem read?_eq_none {b : Body} {slot : Slot} (h : slot ∉ b.kind.slots) : b.read? slot = none := by
  rw [← isSome_read?_iff] at h
  simpa using h

theorem mem_slots_of_read? {b : Body} {slot : Slot} {value : PropertyValue}
    (h : b.read? slot = some value) : slot ∈ b.kind.slots := by
  rw [← isSome_read?_iff, h]
  rfl

theorem kind_of_read? {b : Body} {slot : Slot} {value : PropertyValue}
    (h : b.read? slot = some value) : value.kind = slot.kind := by
  cases b with
  | empty => simp [read?] at h
  | spreader s =>
    rcases slot with _ | _ | ⟨_ | _, d⟩ | _ | _ <;>
      simp only [read?, Spreader.read?, Symbol.read?, Option.some.injEq, reduceCtorEq] at h <;>
      subst h <;> rfl
  | emitter e =>
    rcases slot with _ | _ | ⟨_ | _, d⟩ | _ | _ <;>
      simp only [read?, Emitter.read?, Symbol.read?, Option.some.injEq, reduceCtorEq] at h <;>
      subst h <;> rfl

theorem exists_write? {b : Body} {slot : Slot} {value : PropertyValue}
    (hslot : slot ∈ b.kind.slots) (hkind : value.kind = slot.kind)
    : ∃ b', b.write? slot value = some b' := by
  rw [← isSome_read?_iff] at hslot
  cases b with
  | empty => simp [read?] at hslot
  | spreader s =>
    rcases slot with _ | _ | ⟨_ | _, d⟩ | _ | _ <;> cases value <;>
      simp_all [read?, Spreader.read?, Symbol.read?, PropertyValue.kind, Slot.kind, write?,
        Spreader.write?, Symbol.write?]
  | emitter e =>
    rcases slot with _ | _ | ⟨_ | _, d⟩ | _ | _ <;> cases value <;>
      simp_all [read?, Emitter.read?, Symbol.read?, PropertyValue.kind, Slot.kind, write?,
        Emitter.write?, Symbol.write?]

theorem background?_of_write? {b b' : Body} {slot : Slot} {value : PropertyValue}
    (h : b.write? slot value = some b') : b'.background? = b.background? := by
  have hsymbol : ∀ {s t : Symbol}, s.write? slot value = some t → t.background = s.background := by
    intro s t hst
    unfold Symbol.write? at hst
    split at hst <;> cases hst <;> rfl
  cases b with
  | empty => simp [write?] at h
  | spreader s =>
    obtain ⟨t, ht, rfl⟩ := Option.map_eq_some_iff.mp h
    unfold Spreader.write? at ht
    split at ht
    · cases ht
      rfl
    · cases ht
      rfl
    · obtain ⟨u, hu, rfl⟩ := Option.map_eq_some_iff.mp ht
      simp [background?, symbol?, hsymbol hu]
  | emitter e =>
    obtain ⟨t, ht, rfl⟩ := Option.map_eq_some_iff.mp h
    unfold Emitter.write? at ht
    split at ht
    · cases ht
      rfl
    · cases ht
      rfl
    · cases ht
      rfl
    · obtain ⟨u, hu, rfl⟩ := Option.map_eq_some_iff.mp ht
      simp [background?, symbol?, hsymbol hu]

end Body

theorem PropertyMap.name_of_lookup {props : PropertyMap} {name : String} {prop : Property}
    (h : props.lookup name = some prop) : prop.name = name := by
  simpa using List.find?_some h

theorem ModuleKind.nodup_names_slots (kind : ModuleKind) : (kind.slots.map Slot.name).Nodup := by
  cases kind <;> decide

namespace Module

/--
The values in all slots of the module.
-/
def values (m : Module) : List (Slot × PropertyValue) :=
  m.kind.slots.filterMap fun slot => (m.body.read? slot).map (slot, ·)

theorem mem_values {m : Module} {slot : Slot} {value : PropertyValue}
    : (slot, value) ∈ m.values ↔ m.body.read? slot = some value := by
  simp only [values, List.mem_filterMap, Option.map_eq_some_iff, Prod.mk.injEq]
  constructor
  · rintro ⟨_, _, _, hread, rfl, rfl⟩
    exact hread
  · intro hread
    exact ⟨slot, Body.mem_slots_of_read? hread, value, hread, rfl, rfl⟩

theorem properties_eq_map_values (m : Module)
    : m.properties = m.values.map fun entry => .ofValue entry.1.name entry.2 entry.1.label := by
  simp only [properties, values, List.map_filterMap, Option.map_map]
  rfl

theorem asChanges_properties (m : Module)
    : m.properties.asChanges = m.values.map fun entry => (entry.1.name, entry.2.render) := by
  rw [properties_eq_map_values, PropertyMap.asChanges, List.map_map]
  rfl

theorem mem_properties {m : Module} {prop : Property}
    : prop ∈ m.properties ↔
        ∃ slot value, m.body.read? slot = some value ∧
          prop = .ofValue slot.name value slot.label := by
  rw [properties_eq_map_values, List.mem_map]
  constructor
  · rintro ⟨⟨slot, value⟩, hmem, rfl⟩
    exact ⟨slot, value, mem_values.mp hmem, rfl⟩
  · rintro ⟨slot, value, hread, rfl⟩
    exact ⟨(slot, value), mem_values.mpr hread, rfl⟩

theorem names_properties (m : Module) : m.properties.map Property.name = m.kind.slots.map Slot.name := by
  rw [properties, List.map_filterMap, ← List.filterMap_eq_map]
  apply List.filterMap_congr
  intro slot hslot
  obtain ⟨value, hvalue⟩ := Option.isSome_iff_exists.mp (Body.isSome_read?_iff.mpr hslot)
  rw [hvalue]
  rfl

theorem nodup_names_properties (m : Module) : (m.properties.map Property.name).Nodup := by
  rw [names_properties]
  exact m.kind.nodup_names_slots

theorem lookup_properties (m : Module) (slot : Slot)
    : m.properties.lookup slot.name
        =
      (m.body.read? slot).map fun value => .ofValue slot.name value slot.label := by
  cases hfind : m.properties.lookup slot.name with
  | none =>
    cases hread : m.body.read? slot with
    | none => rfl
    | some value =>
      rw [PropertyMap.lookup, List.find?_eq_none] at hfind
      have := hfind _ (mem_properties.mpr ⟨slot, value, hread, rfl⟩)
      simp [Property.ofValue] at this
  | some prop =>
    have hname := PropertyMap.name_of_lookup hfind
    obtain ⟨other, value, hread, rfl⟩ := mem_properties.mp (List.mem_of_find?_eq_some hfind)
    -- the names of different slots are different, so this is the value in `slot`
    rw [← Slot.name_inj.mp hname, hread]
    rfl

theorem lookup_of_mem_properties {m : Module} {prop : Property} (h : prop ∈ m.properties)
    : m.properties.lookup prop.name = some prop := by
  obtain ⟨slot, value, hread, rfl⟩ := mem_properties.mp h
  change m.properties.lookup slot.name = _
  rw [lookup_properties, hread]
  rfl

/--
The properties are the same exactly if all is that operators can set.
-/
theorem properties_eq_iff {m c : Module} : m.properties = c.properties ↔ m.profile = c.profile := by
  constructor
  · intro h
    apply Body.profile_eq_of_read?
    intro slot
    have hlookup := lookup_properties m slot
    rw [h, lookup_properties] at hlookup
    cases hm : m.body.read? slot with
    | none =>
      rw [hm, Option.map_none, Option.map_eq_none_iff] at hlookup
      exact hlookup.symm
    | some v =>
      cases hc : c.body.read? slot with
      | none => simp [hm, hc] at hlookup
      | some w =>
        simp only [hm, hc, Option.map_some, Option.some.injEq, Property.ofValue,
          Property.mk.injEq] at hlookup
        rw [PropertyValue.eq_of_render hlookup.2.2.1 hlookup.2.1]
  · intro h
    have hkind : m.kind = c.kind := Body.kind_eq_of_profile h
    have hread : ∀ slot, m.body.read? slot = c.body.read? slot := Body.read?_eq_of_profile h
    simp only [properties, hkind, hread]

theorem validateEntry_render {m : Module} {slot : Slot} {value : PropertyValue}
    (hslot : slot ∈ m.kind.slots) (hkind : value.kind = slot.kind)
    : m.properties.validateEntry (slot.name, value.render) = .ok (slot.name, value) := by
  obtain ⟨old, hold⟩ := Option.isSome_iff_exists.mp (Body.isSome_read?_iff.mpr hslot)
  have hread : slot.kind.read? value.render = some value := by
    rw [← hkind]
    apply PropertyKind.read?_render
  simp only [PropertyMap.validateEntry, lookup_properties, hold, Option.map_some,
    Property.ofValue, Body.kind_of_read? hold, hread]

theorem assign_eq {m : Module} {slot : Slot} (hslot : slot ∈ m.kind.slots) (value : PropertyValue)
    : m.assign (slot.name, value)
        =
      { m with body := (m.body.write? slot value).getD m.body } := by
  simp only [assign, assign?, ModuleKind.find?_slots hslot, Option.bind_eq_bind, Option.bind_some]
  cases m.body.write? slot value <;> rfl

theorem assign_cases (m : Module) (entry : String × PropertyValue)
    : m.assign entry = m ∨
        ∃ slot body, m.body.write? slot entry.2 = some body ∧
          m.assign entry = { m with body := body } := by
  unfold assign assign?
  cases m.kind.slots.find? (·.name = entry.1) with
  | none => exact .inl rfl
  | some slot =>
    simp only [Option.bind_eq_bind, Option.bind_some]
    cases hwrite : m.body.write? slot entry.2 with
    | none => exact .inl rfl
    | some body => exact .inr ⟨slot, body, hwrite, rfl⟩

theorem read?_assign {m : Module} {slot : Slot} {value : PropertyValue}
    (hslot : slot ∈ m.kind.slots) (hkind : value.kind = slot.kind) (other : Slot)
    : (m.assign (slot.name, value)).body.read? other
        =
      if other = slot then some value else m.body.read? other := by
  obtain ⟨body, hwrite⟩ := Body.exists_write? hslot hkind
  rw [assign_eq hslot, hwrite]
  exact Body.read?_write? hwrite other

/--
What no edit of properties changes: the kind, the position and the background.
-/
structure SameOutsideSlots (m r : Module) : Prop where
  kind : r.kind = m.kind
  position : r.position = m.position
  background : r.body.background? = m.body.background?

theorem SameOutsideSlots.trans {m r t : Module} (h : m.SameOutsideSlots r) (h' : r.SameOutsideSlots t)
    : m.SameOutsideSlots t where
  kind := h'.kind.trans h.kind
  position := h'.position.trans h.position
  background := h'.background.trans h.background

theorem sameOutsideSlots_assign (m : Module) (entry : String × PropertyValue)
    : m.SameOutsideSlots (m.assign entry) := by
  rcases assign_cases m entry with hsame | ⟨slot, body, hwrite, hassign⟩
  · rw [hsame]
    exact ⟨rfl, rfl, rfl⟩
  · rw [hassign]
    exact ⟨Body.kind_of_write? hwrite, rfl, Body.background?_of_write? hwrite⟩

theorem sameOutsideSlots_foldl_assign (m : Module) (entries : List (String × PropertyValue))
    : m.SameOutsideSlots (entries.foldl assign m) := by
  induction entries generalizing m with
  | nil => exact ⟨rfl, rfl, rfl⟩
  | cons entry rest ih => exact (sameOutsideSlots_assign m entry).trans (ih (m.assign entry))

theorem sameOutsideSlots_of_edit {m r : Module} {changes : Changes} (h : m.edit changes = .ok r)
    : m.SameOutsideSlots r := by
  unfold edit at h
  split at h
  · cases h
  · cases h
    apply sameOutsideSlots_foldl_assign

/--
What validation lets pass: the name of a slot that the module has, with a value of the slot's type.
-/
def Fits (m : Module) (entry : String × PropertyValue) : Prop :=
  ∃ slot ∈ m.kind.slots, entry.1 = slot.name ∧ entry.2.kind = slot.kind

theorem fits_assign {m : Module} {entry : String × PropertyValue} (written : String × PropertyValue)
    (h : m.Fits entry) : (m.assign written).Fits entry := by
  rwa [Fits, (sameOutsideSlots_assign m written).kind]

/--
Of the values that are written to a slot the last one stays.
-/
theorem read?_foldl_assign {m : Module} {entries : List (String × PropertyValue)}
    (hentries : ∀ entry ∈ entries, m.Fits entry) (slot : Slot)
    : (entries.foldl assign m).body.read? slot
        =
      (entries.reverse.lookup slot.name).or (m.body.read? slot) := by
  induction entries generalizing m with
  | nil => rfl
  | cons entry rest ih =>
    obtain ⟨name, value⟩ := entry
    rw [List.forall_mem_cons] at hentries
    obtain ⟨⟨written, hwritten, rfl, hkind⟩, hrest⟩ := hentries
    have hfits : ∀ entry ∈ rest, (m.assign (written.name, value)).Fits entry := by
      intro entry hentry
      exact fits_assign _ (hrest entry hentry)
    rw [List.foldl_cons, ih hfits, read?_assign hwritten hkind, List.reverse_cons, List.lookup_append,
      Option.or_assoc]
    by_cases hsame : slot = written
    · simp [hsame]
    · have : ¬ slot.name = written.name := fun hname => hsame (Slot.name_inj.mp hname)
      simp [hsame, List.lookup_cons, beq_false_of_ne this]

theorem validate_asChanges {c m : Module} (hkind : c.kind = m.kind)
    : c.properties.validate m.properties.asChanges
        =
      .ok (m.values.map fun entry => (entry.1.name, entry.2)) := by
  rw [PropertyMap.validate_eq_ok_iff, asChanges_properties, List.forall₂_map_left_iff,
    List.forall₂_map_right_iff, List.forall₂_same]
  intro entry hentry
  have hread := mem_values.mp hentry
  apply validateEntry_render _ (Body.kind_of_read? hread)
  rw [hkind]
  exact Body.mem_slots_of_read? hread

theorem fits_of_mem_values {c m : Module} (hkind : c.kind = m.kind) {entry : Slot × PropertyValue}
    (h : entry ∈ m.values) : c.Fits (entry.1.name, entry.2) := by
  have hread := mem_values.mp h
  refine ⟨entry.1, ?_, rfl, Body.kind_of_read? hread⟩
  rw [hkind]
  exact Body.mem_slots_of_read? hread

theorem lookup_values (m : Module) (slot : Slot)
    : (m.values.map fun entry => (entry.1.name, entry.2)).reverse.lookup slot.name
        =
      m.body.read? slot := by
  cases hlookup : (m.values.map fun entry => (entry.1.name, entry.2)).reverse.lookup slot.name with
  | some value =>
    obtain ⟨_, _, hsplit, _⟩ := List.lookup_eq_some_iff.mp hlookup
    have hmem : (slot.name, value) ∈ m.values.map fun entry => (entry.1.name, entry.2) := by
      rw [← List.mem_reverse, hsplit]
      simp
    obtain ⟨⟨other, _⟩, hother, heq⟩ := List.mem_map.mp hmem
    obtain ⟨hname, rfl⟩ := Prod.mk.inj heq
    rw [← Slot.name_inj.mp hname]
    exact (mem_values.mp hother).symm
  | none =>
    cases hread : m.body.read? slot with
    | none => rfl
    | some value =>
      rw [List.lookup_eq_none_iff] at hlookup
      have hmem : (slot.name, value) ∈ m.values.map fun entry => (entry.1.name, entry.2) :=
        List.mem_map_of_mem (mem_values.mpr hread)
      simpa using hlookup _ (List.mem_reverse.mpr hmem)

/--
The properties of a module can be written to every module of its kind, which then has the same values
in all slots.
-/
theorem edit_asChanges {c m : Module} (hkind : c.kind = m.kind)
    : ∃ r, c.edit m.properties.asChanges = .ok r ∧ c.SameOutsideSlots r ∧
        r.profile = m.profile := by
  refine ⟨_, by rw [edit, validate_asChanges hkind], sameOutsideSlots_foldl_assign .., ?_⟩
  apply Body.profile_eq_of_read?
  intro slot
  rw [read?_foldl_assign, lookup_values]
  · cases hread : m.body.read? slot with
    | some value => rfl
    | none =>
      -- the other module does not have the slot either
      have hslot : slot ∉ m.body.kind.slots := by
        rw [← Body.isSome_read?_iff, hread]
        simp
      apply Body.read?_eq_none
      rwa [show c.body.kind = m.body.kind from hkind]
  · intro entry hentry
    obtain ⟨written, hwritten, rfl⟩ := List.mem_map.mp hentry
    exact fits_of_mem_values hkind hwritten

/--
An edit is taken back by writing the properties from before it.
-/
theorem edit_back {m r : Module} {changes : Changes} (h : m.edit changes = .ok r)
    : r.edit m.properties.asChanges = .ok m := by
  have hedited := sameOutsideSlots_of_edit h
  obtain ⟨back, hback, houtside, hprofile⟩ := edit_asChanges hedited.kind
  have hcircle := hedited.trans houtside
  rw [hback]
  apply congrArg
  apply ext_profile hprofile
  · exact hcircle.position
  · exact hcircle.background

end Module

end SignalBoard
