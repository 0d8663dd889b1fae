import SignalBoard.Space.Size

/-!
This module contains grids, which hold one value for every cell of a board. The view of a grid is
`get?`: `get?_ofFn` and `get?_replace` say what a grid holds after each operation.
-/

namespace SignalBoard

/--
One value for every cell, stored row by row.
-/
structure Grid (α : Type) where
  size : Size
  cells : Array α
  size_cells : cells.size = size.area
deriving DecidableEq

/--
The refusal to write to a position that is no cell of the grid.
-/
inductive GridError where
  | outOfRange
deriving DecidableEq

def GridError.message : GridError → String
  | .outOfRange => "Cell out of range"

namespace Grid

variable {α : Type}

/--
The grid that holds `f p` at each cell `p`; the cells are visited in the order of `Size.positions`.
-/
def ofFn (size : Size) (f : Position → α) : Grid α where
  size := size
  cells := (size.positions.map f).toArray
  size_cells := by simp [Size.length_positions]

/--
The value at `p`, if `p` is a cell.
-/
def get? (g : Grid α) (p : Position) : Option α :=
  if p ∈ g.size then g.cells[g.size.index p]? else none

/--
Write `a` at `p`. The value that was there is handed back together with the new grid.
-/
def replace (g : Grid α) (p : Position) (a : α) : Except GridError (α × Grid α) :=
  if h : p ∈ g.size then
    have hlt : g.size.index p < g.cells.size := by
      rw [g.size_cells]
      exact Size.index_lt_area h
    .ok (g.cells[g.size.index p], {
      size := g.size
      cells := g.cells.set (g.size.index p) a
      size_cells := by simp [g.size_cells]
    })
  else
    .error .outOfRange

/--
The cells in storage order, each with the position that its place in the order stands for.
-/
def toList (g : Grid α) : List (Position × α) :=
  g.cells.toList.zipIdx.map fun (a, i) =>
    (⟨(i % g.size.width : Nat), (i / g.size.width : Nat)⟩, a)

@[simp]
theorem size_ofFn (size : Size) (f : Position → α) : (ofFn size f).size = size := rfl

theorem get?_ofFn (size : Size) (f : Position → α) (p : Position)
    : (ofFn size f).get? p = if p ∈ size then some (f p) else none := by
  by_cases h : p ∈ size
  · simp [get?, ofFn, h, Size.getElem?_positions h]
  · simp [get?, ofFn, h]

theorem get?_eq_none_iff {g : Grid α} {p : Position} : g.get? p = none ↔ p ∉ g.size := by
  unfold get?
  split
  · rename_i h
    have := Size.index_lt_area h
    simp [h, g.size_cells, this]
  · simp_all

theorem size_of_replace {g g' : Grid α} {p : Position} {a old : α}
    (h : g.replace p a = .ok (old, g')) : g'.size = g.size := by
  unfold replace at h
  split at h
  · cases h
    rfl
  · cases h

/--
A write succeeds exactly on the cells of the grid, and hands back what was there.
-/
theorem replace_eq_error_iff {g : Grid α} {p : Position} {a : α} {e : GridError}
    : g.replace p a = .error e ↔ p ∉ g.size := by
  unfold replace
  cases e
  split <;> simp_all

theorem get?_of_replace {g g' : Grid α} {p : Position} {a old : α}
    (h : g.replace p a = .ok (old, g')) : g.get? p = some old := by
  unfold replace at h
  split at h
  · rename_i hp
    cases h
    have := Size.index_lt_area hp
    rw [← g.size_cells] at this
    simp [get?, hp, this]
  · cases h

theorem get?_replace {g g' : Grid α} {p : Position} {a old : α}
    (h : g.replace p a = .ok (old, g')) (q : Position)
    : g'.get? q = if q = p then some a else g.get? q := by
  unfold replace at h
  split at h
  · rename_i hp
    cases h
    have hlt := Size.index_lt_area hp
    rw [← g.size_cells] at hlt
    unfold get?
    by_cases hq : q ∈ g.size
    · by_cases hqp : q = p
      · subst hqp
        simp [hq, hlt]
      · have : g.size.index p ≠ g.size.index q := fun h => hqp ((Size.index_inj hp hq).mp h).symm
        simp [hq, hqp, this]
    · have : q ≠ p := fun h => hq (h ▸ hp)
      simp [hq, this]
  · cases h

end Grid

end SignalBoard
