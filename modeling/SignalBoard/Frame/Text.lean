import SignalBoard.Frame

/-!
This module draws frames as text. Each cell of the board takes a block of three by three characters.
-/

namespace SignalBoard

namespace Frame

/--
What stands in front of the command line when no property is in focus.
-/
def defaultPrompt : String := "(ilokalama):> "

/--
A character of the cell at `p` before emphasis: the symbol of the module, or `=` in the middle of an
empty cell.
-/
def baseGlyph (f : Frame) (p : Position) (row column : Fin 3) : Char :=
  match f.chunks.get? p with
  | some (some chunk) =>
    match chunk.get row column with
    | some symbol => symbol.glyph
    | none => ' '
  | _ => if row.val = 1 ∧ column.val = 1 then '=' else ' '

/--
A character of the cell at `p`. The cursor stands in brackets, and a pulse has a star in each corner.
-/
def glyph (f : Frame) (p : Position) (row column : Fin 3) : Char :=
  match f.highlight p with
  | .cursor =>
    if row.val = 1 ∧ column.val = 0 then
      '['
    else if row.val = 1 ∧ column.val = 2 then
      ']'
    else
      f.baseGlyph p row column
  | .pulse => if row.val ≠ 1 ∧ column.val ≠ 1 then '*' else f.baseGlyph p row column
  | .none => f.baseGlyph p row column

def block (f : Frame) (p : Position) : Block Char :=
  .ofFn (f.glyph p)

/--
One line of characters through the blocks of the cells in row `y` of the board.
-/
def boardLine (f : Frame) (y : Nat) (row : Fin 3) : String :=
  String.ofList ((List.range f.size.width).flatMap fun (x : Nat) => (f.block ⟨x, y⟩).row row)

/--
The lines of the drawn board.
-/
def boardLines (f : Frame) : List String :=
  (List.range f.size.height).flatMap fun y => (List.finRange 3).map (f.boardLine y)

@[simp]
theorem length_boardLine (f : Frame) (y : Nat) (row : Fin 3)
    : (f.boardLine y row).toList.length = 3 * f.size.width := by
  rw [boardLine, String.toList_ofList, Size.length_rows (w := 3) (by simp), List.length_range, Nat.mul_comm]

@[simp]
theorem length_boardLines (f : Frame) : f.boardLines.length = 3 * f.size.height := by
  rw [boardLines, Size.length_rows (w := 3) (by simp), List.length_range, Nat.mul_comm]

/--
All lines of the frame: the board, an empty line, the command line, the status if there is one, and
the help.
-/
def lines (f : Frame) : List String :=
  f.boardLines ++ ["", f.prompt.getD defaultPrompt ++ f.commandLine] ++ f.status.toList ++ f.help

def render (f : Frame) : String :=
  "\n".intercalate f.lines

end Frame

/--
The line that announces a beat.
-/
def beatLine (beat : Nat) : String :=
  s!"-- beat {beat} --"

end SignalBoard
