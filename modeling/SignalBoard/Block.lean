/-!
This module contains blocks, the squares of three rows and three columns as which cells are drawn.
-/

namespace SignalBoard

/--
Three rows of three values.
-/
structure Block (α : Type) where
  rows : Vector (Vector α 3) 3
deriving DecidableEq

namespace Block

variable {α : Type}

def ofFn (f : Fin 3 → Fin 3 → α) : Block α :=
  ⟨Vector.ofFn fun row => Vector.ofFn (f row)⟩

def get (b : Block α) (row column : Fin 3) : α :=
  b.rows[row][column]

/--
The values of one row, from left to right.
-/
def row (b : Block α) (row : Fin 3) : List α :=
  b.rows[row].toList

@[simp]
theorem get_ofFn (f : Fin 3 → Fin 3 → α) (row column : Fin 3)
    : (ofFn f).get row column = f row column := by
  simp [ofFn, get]

@[simp]
theorem length_row (b : Block α) (row : Fin 3) : (b.row row).length = 3 := by
  simp [Block.row]

theorem getElem?_row (b : Block α) (row column : Fin 3)
    : (b.row row)[column.val]? = some (b.get row column) := by
  simp [Block.row, get]

end Block

end SignalBoard
