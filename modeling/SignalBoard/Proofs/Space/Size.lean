import Mathlib.Algebra.Group.Nat.Defs
import Mathlib.Data.List.TakeWhile
import SignalBoard.Proofs.Text.Numeral
import SignalBoard.Space.Size

/-!
This module shows which texts are read as sizes, and that all cells of a size that was read can be told
apart by small numbers: `Size.reads_addressable_sizes`.
-/

namespace SignalBoard

namespace Size

/--
A size that has cells, with sides short enough for coordinates of 32 bits.
-/
structure Addressable (size : Size) : Prop where
  width_pos : 0 < size.width
  width_lt : size.width < 2 ^ 31
  height_pos : 0 < size.height
  height_lt : size.height < 2 ^ 31

theorem area_lt {size : Size} (hwidth : size.width < 2 ^ 31) (hheight : size.height < 2 ^ 31)
    : size.area < UInt64.size := by
  have : size.area ≤ 2 ^ 31 * 2 ^ 31 := Nat.mul_le_mul (by omega) (by omega)
  simp only [UInt64.size]
  omega

/--
Both sides of a size as they may be written.
-/
structure Form where
  width : Numeral.Form
  height : Numeral.Form

namespace Form

def text (form : Form) : List Char :=
  form.width.text ++ 'x' :: form.height.text

def size (form : Form) : Size :=
  ⟨form.width.value, form.height.value⟩

/--
The `x` between the numerals is the first one of the text.
-/
theorem x_notMem_width (form : Form) : 'x' ∉ form.width.text := by
  intro hx
  rcases Numeral.Form.mem_text hx with h | h
  · exact absurd h (by decide)
  · exact absurd h (by decide)

theorem takeWhile_text (form : Form) : form.text.takeWhile (· ≠ 'x') = form.width.text := by
  rw [text, List.takeWhile_append_of_pos, List.takeWhile_cons_of_neg (by simp), List.append_nil]
  intro c hc
  rw [decide_eq_true_eq]
  rintro rfl
  exact form.x_notMem_width hc

theorem dropWhile_text (form : Form)
    : form.text.dropWhile (· ≠ 'x') = 'x' :: form.height.text := by
  have h := List.takeWhile_append_dropWhile (p := (· ≠ 'x')) (l := form.text)
  rw [takeWhile_text] at h
  exact List.append_cancel_left h

end Form

/--
A text is read as a size exactly if it is a form of the size, and the size is addressable. That the number
of its cells can be read as well is no further restriction.
-/
theorem read_eq_ok_iff {text : String} {size : Size}
    : read text = .ok size ↔
        (∃ form : Form, form.text = text.toList ∧ form.size = size) ∧ size.Addressable := by
  constructor
  · intro h
    simp only [read] at h
    split at h
    · cases h
    · rename_i c tail hdrop
      have hsplit := List.takeWhile_append_dropWhile (p := (· ≠ 'x')) (l := text.toList)
      have hx : c = 'x' := by
        have := List.head?_dropWhile_not (· ≠ 'x') text.toList
        rw [hdrop] at this
        simpa using this
      rw [hdrop, hx] at hsplit
      split at h
      · cases h
      · rename_i width hwidth
        obtain ⟨widthForm, htext, rfl, _⟩ := Numeral.read_eq_ok_iff.mp hwidth
        split at h
        · cases h
        · rename_i height hheight
          obtain ⟨heightForm, rfl, rfl, _⟩ := Numeral.read_eq_ok_iff.mp hheight
          split at h
          · cases h
          · split at h
            · cases h
            · cases h
              unfold maxCoordinate at *
              refine ⟨⟨⟨widthForm, heightForm⟩, ?_, rfl⟩, ?_⟩
              · rw [Form.text, htext, hsplit]
              · constructor <;> dsimp only <;> omega
  · rintro ⟨⟨form, htext, rfl⟩, h⟩
    have harea := area_lt h.width_lt h.height_lt
    obtain ⟨hwidth, hwidth', hheight, hheight'⟩ := h
    simp only [Form.size, area, UInt64.size] at hwidth hwidth' hheight hheight' harea
    have hread : ∀ numeral : Numeral.Form, numeral.value < 2 ^ 31 →
        Numeral.read maxNumeral numeral.text = .ok numeral.value := by
      intro numeral hlt
      have hle : numeral.value ≤ maxNumeral := by
        simp only [maxNumeral, UInt64.size]
        omega
      exact Numeral.read_eq_ok_iff.mpr ⟨numeral, rfl, rfl, hle⟩
    simp only [read, ← htext, form.dropWhile_text, form.takeWhile_text, hread _ hwidth',
      hread _ hheight']
    rw [if_neg (by omega), if_neg]
    · rfl
    · simp only [maxCoordinate, maxNumeral, UInt64.size]
      omega

/--
The form in which sizes are printed.
-/
def Form.ofSize (size : Size) : Form :=
  ⟨.ofNat size.width, .ofNat size.height⟩

theorem Form.text_ofSize (size : Size) : (Form.ofSize size).text = size.render.toList := by
  simp [Form.text, ofSize, Numeral.Form.text, Numeral.Form.ofNat, render, toString]

theorem Form.size_ofSize (size : Size) : (Form.ofSize size).size = size := by
  simp [Form.size, ofSize, Numeral.Form.value_ofNat]

theorem read_render {size : Size} (h : size.Addressable) : read size.render = .ok size :=
  read_eq_ok_iff.mpr ⟨⟨.ofSize size, Form.text_ofSize size, Form.size_ofSize size⟩, h⟩

theorem toInt_ofInt_of_mem {size : Size} (h : size.Addressable) {p : Position} (hp : p ∈ size)
    : (Int32.ofInt p.x).toInt = p.x ∧ (Int32.ofInt p.y).toInt = p.y := by
  have hwidth := h.width_lt
  have hheight := h.height_lt
  obtain ⟨hx, hy, hx', hy'⟩ := mem_iff.mp hp
  exact ⟨Int32.toInt_ofInt_of_le (by omega) (by omega), Int32.toInt_ofInt_of_le (by omega) (by omega)⟩

/--
A text is read as a size exactly if it consists of two numerals with an `x` between them, which may have a
plus sign and any number of zeros in front, and both numbers are positive and below `2 ^ 31`. A size that was
read is read again from its printed form. Counting its cells needs no more than 64 bits, every cell has
coordinates of 32 bits, and counted row by row the cells have different numbers below the area.
-/
theorem reads_addressable_sizes
    : (∀ text size, read text = .ok size ↔
        (∃ width height : Numeral.Form,
          text.toList = width.text ++ 'x' :: height.text ∧ 'x' ∉ width.text ∧
            width.value = size.width ∧ height.value = size.height) ∧
          (1 ≤ size.width ∧ size.width ≤ 2 ^ 31 - 1) ∧ 1 ≤ size.height ∧ size.height ≤ 2 ^ 31 - 1) ∧
      ∀ text size, read text = .ok size →
        read size.render = .ok size ∧
        size.width * size.height < 2 ^ 64 ∧
        (∀ p ∈ size, (Int32.ofInt p.x).toInt = p.x ∧ (Int32.ofInt p.y).toInt = p.y) ∧
        (∀ p ∈ size, size.index p < size.area) ∧
        ∀ p ∈ size, ∀ q ∈ size, size.index p = size.index q → p = q := by
  constructor
  · intro text size
    rw [read_eq_ok_iff]
    constructor
    · rintro ⟨⟨form, htext, rfl⟩, hwidth, hwidth', hheight, hheight'⟩
      refine ⟨⟨form.width, form.height, htext.symm, form.x_notMem_width, rfl, rfl⟩, ?_⟩
      omega
    · rintro ⟨⟨width, height, htext, _, hwidth, hheight⟩, hbounds⟩
      refine ⟨⟨⟨width, height⟩, htext.symm, ?_⟩, ?_⟩
      · rw [Form.size, hwidth, hheight]
      · constructor <;> omega
  · intro text size hread
    have h := (read_eq_ok_iff.mp hread).2
    refine ⟨read_render h, area_lt h.width_lt h.height_lt, fun p => toInt_ofInt_of_mem h, ?_, ?_⟩
    · exact fun p => index_lt_area
    · exact fun p hp q hq => (index_inj hp hq).mp

theorem reads_addressable_sizes_zeros
    : let size : Size := ⟨7, 2147483647⟩
      read "+007x2147483647" = .ok size ∧ read size.render = .ok size ∧
      size.width * size.height < 2 ^ 64 ∧
      (Int32.ofInt 2147483646).toInt = 2147483646 ∧ size.index ⟨6, 2147483646⟩ < size.area := by
  intro size
  have hread : read "+007x2147483647" = .ok size := by decide +kernel
  obtain ⟨hrender, harea, hcells, hindex, _⟩ := reads_addressable_sizes.2 _ _ hread
  have hcorner : ⟨6, 2147483646⟩ ∈ size := by decide
  exact ⟨hread, hrender, harea, (hcells _ hcorner).2, hindex _ hcorner⟩

end Size

end SignalBoard
