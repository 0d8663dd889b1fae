import Mathlib.Data.List.Basic
import Mathlib.Data.List.TakeWhile
import SignalBoard.Proofs.Text.Run
import SignalBoard.Text.Blank

/-!
This module shows what trimming does: a text is its trimmed form between blank characters, and a text
without blank characters is the trimmed form of itself between any blank characters.
-/

namespace SignalBoard

namespace Text

theorem isBlank_eq_false_of_isDigit {c : Char} (h : c.isDigit = true) : isBlank c = false := by
  simp only [Char.isDigit, Bool.and_eq_true, decide_eq_true_eq, UInt32.le_iff_toNat_le] at h
  have hlow : 48 ≤ c.toNat := h.1
  have hhigh : c.toNat ≤ 57 := h.2
  simp only [isBlank, Bool.or_eq_false_iff, Bool.and_eq_false_iff, decide_eq_false_iff_not,
    beq_eq_false_iff_ne]
  omega

theorem trimRight_append {cs back : List Char} (hcs : ∀ c ∈ cs, isBlank c = false)
    (hback : ∀ c ∈ back, isBlank c = true) : trimRight (cs ++ back) = cs := by
  rw [trimRight, List.reverse_append, dropWhile_append_of_run, List.reverse_reverse]
  · simpa using hback
  · intro c hc
    exact hcs c (List.mem_reverse.mp (List.mem_of_mem_head? hc))

theorem trimChars_append {front cs back : List Char} (hfront : ∀ c ∈ front, isBlank c = true)
    (hne : cs ≠ []) (hcs : ∀ c ∈ cs, isBlank c = false) (hback : ∀ c ∈ back, isBlank c = true)
    : trimChars (front ++ cs ++ back) = cs := by
  rw [trimChars, List.append_assoc, dropWhile_append_of_run hfront]
  · exact trimRight_append hcs hback
  · intro c hc
    rw [List.head?_append_of_ne_nil _ hne] at hc
    exact hcs c (List.mem_of_mem_head? hc)

theorem exists_eq_append_trimChars (cs : List Char)
    : ∃ front back, cs = front ++ trimChars cs ++ back ∧ (∀ c ∈ front, isBlank c = true) ∧
        ∀ c ∈ back, isBlank c = true := by
  have hblank : ∀ cs : List Char, ∀ c ∈ cs.takeWhile isBlank, isBlank c = true := by
    intro cs c hc
    exact List.mem_takeWhile_imp hc
  let rest := cs.dropWhile isBlank
  refine ⟨cs.takeWhile isBlank, (rest.reverse.takeWhile isBlank).reverse, ?_, hblank cs, ?_⟩
  · have hrest : rest = trimRight rest ++ (rest.reverse.takeWhile isBlank).reverse := by
      rw [trimRight, ← List.reverse_append, List.takeWhile_append_dropWhile, List.reverse_reverse]
    rw [List.append_assoc, trimChars, ← hrest, List.takeWhile_append_dropWhile]
  · intro c hc
    exact hblank _ c (List.mem_reverse.mp hc)

end Text

end SignalBoard
