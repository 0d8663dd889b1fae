import SignalBoard.Proofs.Property.Grammar

/-!
This module shows that a property value is read back from its written form: `PropertyKind.read?_render`.
`PropertyKind.read?_forms` says which texts are read as numbers and colors, and as which.
-/

namespace SignalBoard

namespace Literal

theorem bool?_render (value : Bool) : bool? (PropertyValue.bool value).render = some value := by
  cases value <;> decide

theorem int?_render (value : UInt32) : int? (PropertyValue.int value).render = some value := by
  rw [int?_eq_some_iff, PropertyValue.render, Nat.toString_eq_repr, Numeral.value_repr]
  exact ⟨Numeral.isNumeral_repr _, (Nat.min_eq_left (Nat.le_sub_one_of_lt value.toNat_lt_size)).symm⟩

theorem char?_render (value : Char) : char? (PropertyValue.char value).render = some value := by
  simp [char?, PropertyValue.render]

/--
The field that a channel is printed as, without blank characters.
-/
def Field.ofChannel (channel : UInt8) : Field where
  front := []
  digits := channel.toNat.repr.toList
  back := []
  front_isBlank := by simp
  digits_isNumeral := Numeral.isNumeral_repr _
  back_isBlank := by simp

theorem Field.channel_ofChannel (channel : UInt8) : (Field.ofChannel channel).channel = channel := by
  have hle : channel.toNat ≤ 255 := Nat.le_of_lt_succ channel.toNat_lt
  rw [Field.channel, ofChannel, Numeral.value_repr, Nat.min_eq_left hle, UInt8.ofNat_toNat]

theorem color?_render (value : Color) : color? (PropertyValue.color value).render = some value := by
  rw [color?_eq_some_iff]
  refine ⟨⟨.ofChannel value.red, .ofChannel value.green, .ofChannel value.blue⟩, ?_, ?_⟩
  · simp [ColorForm.text, Field.text, Field.ofChannel, PropertyValue.render, Color.render, toString]
  · simp [ColorForm.color, Field.channel_ofChannel]

end Literal

/--
Every value is read back from its written form.
-/
@[simp]
theorem PropertyKind.read?_render (value : PropertyValue)
    : value.kind.read? value.render = some value := by
  cases value with
  | bool value => simp [PropertyValue.kind, read?, Literal.bool?_render]
  | int value => simp [PropertyValue.kind, read?, Literal.int?_render]
  | char value => simp [PropertyValue.kind, read?, Literal.char?_render]
  | color value => simp [PropertyValue.kind, read?, Literal.color?_render]

theorem PropertyValue.eq_of_render {v w : PropertyValue} (hkind : v.kind = w.kind)
    (hrender : v.render = w.render) : v = w := by
  have h := PropertyKind.read?_render v
  rw [hkind, hrender, PropertyKind.read?_render] at h
  exact (Option.some.inj h).symm

/--
The literals of numbers are the non-empty runs of digits, and those of colors are the color forms. What
is too large is read as the largest value there is. Whatever a literal was read as, its printed form is
read as the same.
-/
theorem PropertyKind.read?_forms
    : (∀ text value, PropertyKind.int.read? text = some value ↔
        (text.toList ≠ [] ∧ ∀ c ∈ text.toList, c.isDigit = true) ∧
          ∃ number : UInt32, value = .int number ∧
            number.toNat = min (Numeral.value text.toList) (UInt32.size - 1)) ∧
      (∀ text value, PropertyKind.color.read? text = some value ↔
        ∃ form : Literal.ColorForm, form.text = text.toList ∧ value = .color form.color) ∧
      (∀ value : PropertyValue, value.kind.read? value.render = some value) ∧
      ∀ (kind : PropertyKind) text value, kind.read? text = some value →
        kind.read? value.render = some value := by
  refine ⟨?_, ?_, read?_render, ?_⟩
  · intro text value
    simp only [read?, Option.map_eq_some_iff, Literal.int?_eq_some_iff, Numeral.isNumeral_iff]
    constructor
    · rintro ⟨number, ⟨hdigits, hnumber⟩, rfl⟩
      exact ⟨hdigits, number, rfl, hnumber⟩
    · rintro ⟨hdigits, number, rfl, hnumber⟩
      exact ⟨number, ⟨hdigits, hnumber⟩, rfl⟩
  · intro text value
    simp only [read?, Option.map_eq_some_iff, Literal.color?_eq_some_iff]
    constructor
    · rintro ⟨color, ⟨form, htext, rfl⟩, rfl⟩
      exact ⟨form, htext, rfl⟩
    · rintro ⟨form, htext, rfl⟩
      exact ⟨_, ⟨form, htext, rfl⟩, rfl⟩
  · intro kind text value h
    rw [← kind_of_read? h]
    exact read?_render value

example : PropertyKind.color.read? "( 007\t,300,0)" = some (.color ⟨7, 255, 0⟩) := by decide +kernel

end SignalBoard
