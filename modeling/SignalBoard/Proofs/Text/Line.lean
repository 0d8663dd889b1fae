import SignalBoard.Proofs.Text.Numeral

/-!
This module contains the lines of texts. Texts of one line can be written below each other and read again:
`Text.lines_intercalate`.
-/

namespace SignalBoard

namespace Text

/--
The lines of a text, without the newlines between them.
-/
def lines (text : String) : List String :=
  (text.toList.splitOn '\n').map String.ofList

def SingleLine (text : String) : Prop :=
  '\n' ∉ text.toList

instance (text : String) : Decidable (SingleLine text) :=
  inferInstanceAs (Decidable ('\n' ∉ text.toList))

@[simp]
theorem singleLine_append {front back : String}
    : SingleLine (front ++ back) ↔ SingleLine front ∧ SingleLine back := by
  simp [SingleLine]

@[simp]
theorem singleLine_ofList {cs : List Char} : SingleLine (String.ofList cs) ↔ '\n' ∉ cs := by
  simp [SingleLine]

theorem singleLine_push {text : String} {c : Char}
    : SingleLine (text.push c) ↔ SingleLine text ∧ c ≠ '\n' := by
  simp [SingleLine, eq_comm]

@[simp]
theorem singleLine_singleton {c : Char} : SingleLine (String.singleton c) ↔ c ≠ '\n' := by
  simp [SingleLine, eq_comm]

@[simp]
theorem singleLine_toString_char {c : Char} : SingleLine (toString c) ↔ c ≠ '\n' :=
  singleLine_singleton

@[simp]
theorem singleLine_toString {text : String} : SingleLine (toString text) ↔ SingleLine text :=
  Iff.rfl

@[simp]
theorem singleLine_natRepr (n : Nat) : SingleLine n.repr := by
  intro h
  have hdigit := Numeral.isDigit_of_mem_repr h
  revert hdigit
  decide

@[simp]
theorem singleLine_intRepr (n : Int) : SingleLine n.repr := by
  cases n with
  | ofNat n => exact singleLine_natRepr n
  | negSucc n => exact singleLine_append.mpr ⟨by decide, singleLine_natRepr (n + 1)⟩

theorem lines_intercalate {texts : List String} (hne : texts ≠ [])
    (htexts : ∀ text ∈ texts, SingleLine text) : lines ("\n".intercalate texts) = texts := by
  have hsplit : (['\n'].intercalate (texts.map String.toList)).splitOn '\n' = texts.map String.toList := by
    apply List.splitOn_intercalate
    · intro cs hcs
      obtain ⟨text, htext, rfl⟩ := List.mem_map.mp hcs
      exact htexts text htext
    · simpa using hne
  rw [lines, String.toList_intercalate]
  change ((['\n'].intercalate _).splitOn '\n').map String.ofList = _
  rw [hsplit, List.map_map]
  simp

end Text

end SignalBoard
