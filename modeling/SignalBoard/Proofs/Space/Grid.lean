import SignalBoard.Space.Grid

/-!
This module shows that positions are pulled back onto a board that has cells, that a step from a cell
leads at most just beyond the edge, and that a grid is determined by what it holds at each position. It
also contains the writing of one cell as a total function, which changes what is held at that position
only.
-/

namespace SignalBoard

theorem Size.clampAxis_bounds {extent : Nat} (h : 0 < extent) (v : Int)
    : 0 ≤ clampAxis extent v ∧ clampAxis extent v < extent := by
  unfold clampAxis maxCoordinate
  omega

theorem Size.clamp_mem {size : Size} (hwidth : 0 < size.width) (hheight : 0 < size.height)
    (p : Position) : size.clamp p ∈ size := by
  have hx := clampAxis_bounds hwidth p.x
  have hy := clampAxis_bounds hheight p.y
  rw [mem_iff]
  exact ⟨hx.1, hy.1, hx.2, hy.2⟩

theorem Size.moved_bounds {size : Size} {p : Position} (hp : p ∈ size) (d : Direction)
    : -1 ≤ (p.moved d).x ∧ (p.moved d).x ≤ size.width ∧
        -1 ≤ (p.moved d).y ∧ (p.moved d).y ≤ size.height := by
  have := mem_iff.mp hp
  cases d <;> simp only [Position.moved, Direction.vector, Position.add_x, Position.add_y] <;> omega

/--
The cell with the number `i`, when the cells are counted row by row.
-/
def Size.position (size : Size) (i : Nat) : Position :=
  ⟨(i % size.width : Nat), (i / size.width : Nat)⟩

section Position

variable {size : Size} {i : Nat}

theorem Size.width_pos_of_lt_area (h : i < size.area) : 0 < size.width := by
  apply Nat.pos_of_ne_zero
  intro hzero
  simp [area, hzero] at h

theorem Size.position_mem (h : i < size.area) : size.position i ∈ size := by
  have hcolumn : i % size.width < size.width := Nat.mod_lt i (width_pos_of_lt_area h)
  have hrow : i / size.width < size.height := Nat.div_lt_of_lt_mul h
  rw [mem_iff]
  exact ⟨Int.natCast_nonneg _, Int.natCast_nonneg _, Int.ofNat_lt.mpr hcolumn, Int.ofNat_lt.mpr hrow⟩

@[simp]
theorem Size.index_position (size : Size) (i : Nat) : size.index (size.position i) = i := by
  simp only [index, position, Int.toNat_natCast]
  rw [Nat.mul_comm]
  exact Nat.mod_add_div i size.width

end Position

namespace Grid

variable {α : Type}

theorem ext_get? {g h : Grid α} (hsize : g.size = h.size) (hget : ∀ p, g.get? p = h.get? p)
    : g = h := by
  obtain ⟨size, cells, hcells⟩ := g
  obtain ⟨_, cells', hcells'⟩ := h
  dsimp only at hsize
  subst hsize
  have : cells = cells' := by
    apply Array.ext
    · rw [hcells, hcells']
    · intro i hi hi'
      rw [hcells] at hi
      have := hget (size.position i)
      simp only [get?, Size.position_mem hi, if_true, Size.index_position] at this
      rw [Array.getElem?_eq_getElem (by omega), Array.getElem?_eq_getElem hi'] at this
      exact Option.some.inj this
  subst this
  rfl

/--
Write `a` at `p`. There is nothing to write to outside of the grid.
-/
def set (g : Grid α) (p : Position) (a : α) : Grid α :=
  match g.replace p a with
  | .ok (_, g) => g
  | .error _ => g

section Set

variable {g : Grid α} {p : Position}

theorem set_of_mem (h : p ∈ g.size) (a : α)
    : ∃ old, g.replace p a = .ok (old, g.set p a) ∧ g.get? p = some old := by
  unfold set
  cases hreplace : g.replace p a with
  | error error => exact absurd h (replace_eq_error_iff.mp hreplace)
  | ok result => exact ⟨result.1, rfl, get?_of_replace hreplace⟩

theorem set_of_notMem (h : p ∉ g.size) (a : α) : g.set p a = g := by
  have hrefused : g.replace p a = .error .outOfRange := replace_eq_error_iff.mpr h
  rw [set, hrefused]

theorem size_set (p : Position) (a : α) : (g.set p a).size = g.size := by
  by_cases h : p ∈ g.size
  · obtain ⟨_, hreplace, _⟩ := set_of_mem h a
    exact size_of_replace hreplace
  · rw [set_of_notMem h]

theorem get?_set (h : p ∈ g.size) (a : α) (q : Position)
    : (g.set p a).get? q = if q = p then some a else g.get? q := by
  obtain ⟨_, hreplace, _⟩ := set_of_mem h a
  exact get?_replace hreplace q

end Set

end Grid

end SignalBoard
