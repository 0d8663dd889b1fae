import SignalBoard.Property.Literal
import SignalBoard.Proofs.Text.Blank
import SignalBoard.Proofs.Text.Numeral

/-!
This module contains the written forms of the literals that have more than one: numerals, and colors with
blank characters around their numerals. `Literal.int?_eq_some_iff` and `Literal.color?_eq_some_iff` say
that the readers take exactly these forms, and which values they give.
-/

namespace SignalBoard

namespace Literal

/--
A numeral between blank characters.
-/
structure Field where
  front : List Char
  digits : List Char
  back : List Char
  front_isBlank : ∀ c ∈ front, Text.isBlank c = true
  digits_isNumeral : Numeral.isNumeral digits = true
  back_isBlank : ∀ c ∈ back, Text.isBlank c = true

namespace Field

def text (f : Field) : List Char :=
  f.front ++ f.digits ++ f.back

/--
The value of the numeral, as far as it fits into a channel.
-/
def channel (f : Field) : UInt8 :=
  .ofNat (min (Numeral.value f.digits) 255)

end Field

/--
Three fields between parentheses, with commas between them.
-/
structure ColorForm where
  red : Field
  green : Field
  blue : Field

namespace ColorForm

def text (form : ColorForm) : List Char :=
  '(' :: (form.red.text ++ ',' :: (form.green.text ++ ',' :: form.blue.text)) ++ [')']

def color (form : ColorForm) : Color :=
  ⟨form.red.channel, form.green.channel, form.blue.channel⟩

end ColorForm

theorem saturated?_eq_some_iff {limit n : Nat} {cs : List Char}
    : saturated? limit cs = some n ↔
        Numeral.isNumeral cs = true ∧ min (Numeral.value cs) limit = n := by
  simp [saturated?]

theorem int?_eq_some_iff {text : String} {value : UInt32}
    : int? text = some value ↔
        Numeral.isNumeral text.toList = true ∧
          value.toNat = min (Numeral.value text.toList) (UInt32.size - 1) := by
  have hfits : ∀ n : Nat, UInt32.ofNat (min n (UInt32.size - 1)) = value ↔
      value.toNat = min n (UInt32.size - 1) := by
    intro n
    rw [← UInt32.toNat_inj, UInt32.toNat_ofNat_of_lt' (by simp only [UInt32.size]; omega), eq_comm]
  rw [int?, Option.map_eq_some_iff]
  constructor
  · rintro ⟨n, hn, hvalue⟩
    obtain ⟨hnumeral, rfl⟩ := saturated?_eq_some_iff.mp hn
    exact ⟨hnumeral, (hfits _).mp hvalue⟩
  · rintro ⟨hnumeral, hvalue⟩
    exact ⟨_, saturated?_eq_some_iff.mpr ⟨hnumeral, rfl⟩, (hfits _).mpr hvalue⟩

theorem comma_notMem_numeral {cs : List Char} (h : Numeral.isNumeral cs = true) : ',' ∉ cs := by
  intro hmem
  exact absurd ((Numeral.isNumeral_iff.mp h).2 ',' hmem) (by decide)

namespace Field

theorem comma_notMem_text (f : Field) : ',' ∉ f.text := by
  have hblank : Text.isBlank ',' = false := by decide
  simp only [text, List.mem_append, not_or]
  refine ⟨⟨?_, comma_notMem_numeral f.digits_isNumeral⟩, ?_⟩
  · intro hmem
    simp [f.front_isBlank _ hmem] at hblank
  · intro hmem
    simp [f.back_isBlank _ hmem] at hblank

theorem trimChars_text (f : Field) : Text.trimChars f.text = f.digits := by
  obtain ⟨hne, hdigits⟩ := Numeral.isNumeral_iff.mp f.digits_isNumeral
  apply Text.trimChars_append f.front_isBlank hne _ f.back_isBlank
  intro c hc
  exact Text.isBlank_eq_false_of_isDigit (hdigits c hc)

end Field

theorem channel?_text (f : Field) : channel? f.text = some f.channel := by
  rw [channel?, f.trimChars_text, saturated?, if_pos f.digits_isNumeral]
  rfl

theorem channel?_eq_some_iff {field : List Char} {value : UInt8}
    : channel? field = some value ↔ ∃ f : Field, f.text = field ∧ f.channel = value := by
  constructor
  · intro h
    obtain ⟨n, hn, rfl⟩ := Option.map_eq_some_iff.mp h
    obtain ⟨hnumeral, rfl⟩ := saturated?_eq_some_iff.mp hn
    obtain ⟨front, back, htext, hfront, hback⟩ := Text.exists_eq_append_trimChars field
    exact ⟨⟨front, Text.trimChars field, back, hfront, hnumeral, hback⟩, htext.symm, rfl⟩
  · rintro ⟨f, rfl, rfl⟩
    exact channel?_text f

theorem unparenthesize?_eq_some_iff {cs inner : List Char}
    : unparenthesize? cs = some inner ↔ cs = '(' :: inner ++ [')'] := by
  constructor
  · intro h
    unfold unparenthesize? at h
    split at h
    · rename_i rest
      split at h
      · rename_i hlast
        cases h
        rw [List.cons_append, List.dropLast_append_getLast? _ hlast]
      · cases h
    · cases h
  · rintro rfl
    simp [unparenthesize?]

theorem splitOn_eq_fields_iff {cs red green blue : List Char} (hred : ',' ∉ red) (hgreen : ',' ∉ green)
    (hblue : ',' ∉ blue)
    : cs.splitOn ',' = [red, green, blue] ↔ cs = red ++ ',' :: (green ++ ',' :: blue) := by
  constructor
  · intro h
    calc
      cs = [','].intercalate (cs.splitOn ',') := (List.intercalate_splitOn ',').symm
      _ = red ++ ',' :: (green ++ ',' :: blue) := by simp [h, List.intercalate]
  · rintro rfl
    rw [List.splitOn_append_cons_self_of_not_mem hred, List.splitOn_append_cons_self_of_not_mem hgreen,
      List.splitOn_eq_singleton hblue]

theorem color?_eq_some_iff {text : String} {color : Color}
    : color? text = some color ↔
        ∃ form : ColorForm, form.text = text.toList ∧ form.color = color := by
  constructor
  · intro h
    rw [color?, Option.bind_eq_bind, Option.bind_eq_some_iff] at h
    obtain ⟨inner, hinner, h⟩ := h
    rw [unparenthesize?_eq_some_iff] at hinner
    split at h
    · rename_i red green blue hfields
      simp only [Option.bind_eq_bind, Option.bind_eq_some_iff] at h
      obtain ⟨r, hr, g, hg, b, hb, hcolor⟩ := h
      cases hcolor
      obtain ⟨redField, rfl, rfl⟩ := channel?_eq_some_iff.mp hr
      obtain ⟨greenField, rfl, rfl⟩ := channel?_eq_some_iff.mp hg
      obtain ⟨blueField, rfl, rfl⟩ := channel?_eq_some_iff.mp hb
      rw [splitOn_eq_fields_iff redField.comma_notMem_text greenField.comma_notMem_text
        blueField.comma_notMem_text] at hfields
      refine ⟨⟨redField, greenField, blueField⟩, ?_, rfl⟩
      rw [hinner, hfields]
      rfl
    · cases h
  · rintro ⟨⟨red, green, blue⟩, htext, rfl⟩
    have hinner : unparenthesize? text.toList
        =
      some (red.text ++ ',' :: (green.text ++ ',' :: blue.text)) := by
      rw [unparenthesize?_eq_some_iff, ← htext]
      rfl
    have hfields := (splitOn_eq_fields_iff red.comma_notMem_text green.comma_notMem_text
      blue.comma_notMem_text).mpr rfl
    simp only [color?, hinner, Option.bind_eq_bind, Option.bind_some, hfields, channel?_text]
    rfl

end Literal

end SignalBoard
