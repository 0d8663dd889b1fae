import Mathlib.Data.List.Basic
import Mathlib.Data.List.Find
import SignalBoard.Board.Lemmas
import SignalBoard.Engine
import SignalBoard.Frame.Text
import SignalBoard.Proofs.Space.RowMajor

/-!
This module shows which character stands at which place of a drawn board, and that all that is drawn can be
read back from the lines: `Engine.draws_what_is_there`.
-/

namespace SignalBoard

namespace Drawing

/--
The character in a place of the cell at `p`, where `lines` are the lines of a drawn board.
-/
def charAt? (lines : List String) (p : Position) (row column : Fin 3) : Option Char := do
  let line ← lines[3 * p.y.toNat + row]?
  line.toList[3 * p.x.toNat + column]?

/--
The size of the board that was drawn. How wide a board without rows is does not show.
-/
def size (lines : List String) : Size :=
  ⟨(lines.head?.map (·.toList.length)).getD 0 / 3, lines.length / 3⟩

/--
The cells with the characters in their middle.
-/
def faces (lines : List String) : List (Position × Char) :=
  (size lines).positions.filterMap fun p => (charAt? lines p 1 1).map (p, ·)

/--
The cell in brackets.
-/
def cursor? (lines : List String) : Option Position :=
  (size lines).positions.find? fun p => charAt? lines p 1 0 = some '['

/--
The cells with stars in their corners.
-/
def pulses (lines : List String) : List Position :=
  (size lines).positions.filter fun p => charAt? lines p 0 0 = some '*'

end Drawing

namespace Frame

variable (f : Frame)

theorem getElem?_boardLines {y : Nat} (hy : y < f.size.height) (row : Fin 3)
    : f.boardLines[3 * y + row]? = some (f.boardLine y row) := by
  rw [boardLines, Nat.add_comm, Nat.mul_comm, Size.getElem?_rows (by simp) row.isLt,
    List.getElem?_range hy]
  simp

theorem getElem?_boardLine {x : Nat} (hx : x < f.size.width) (y : Nat) (row column : Fin 3)
    : (f.boardLine y row).toList[3 * x + column]? = some (f.glyph ⟨x, y⟩ row column) := by
  rw [boardLine, String.toList_ofList, Nat.add_comm, Nat.mul_comm, Size.getElem?_rows (by simp) column.isLt,
    List.getElem?_range hx, Option.bind_some, Block.getElem?_row, block, Block.get_ofFn]

theorem charAt?_boardLines {p : Position} (hp : p ∈ f.size) (row column : Fin 3)
    : Drawing.charAt? f.boardLines p row column = some (f.glyph p row column) := by
  obtain ⟨hx, hy, hwidth, hheight⟩ := Size.mem_iff.mp hp
  have hcell : (⟨p.x.toNat, p.y.toNat⟩ : Position) = p := by
    rw [Int.toNat_of_nonneg hx, Int.toNat_of_nonneg hy]
  rw [Drawing.charAt?, getElem?_boardLines f (by omega), Option.bind_eq_bind, Option.bind_some,
    getElem?_boardLine f (by omega), hcell]

theorem positions_size_boardLines : (Drawing.size f.boardLines).positions = f.size.positions := by
  have hheight : (Drawing.size f.boardLines).height = f.size.height := by simp [Drawing.size]
  rcases Nat.eq_zero_or_pos f.size.height with hzero | hpos
  · -- without rows there is no line to take the width from, and no position either
    rw [Size.positions, Size.positions, hheight, hzero]
    rfl
  · have hfirst : f.boardLines.head? = some (f.boardLine 0 0) := by
      rw [List.head?_eq_getElem?]
      exact getElem?_boardLines f hpos 0
    have hwidth : (Drawing.size f.boardLines).width = f.size.width := by simp [Drawing.size, hfirst]
    rw [Size.positions, Size.positions, hheight, hwidth]

theorem length_of_mem_boardLines {line : String} (h : line ∈ f.boardLines)
    : line.toList.length = 3 * f.size.width := by
  simp only [boardLines, List.mem_flatMap, List.mem_map] at h
  obtain ⟨y, _, row, _, rfl⟩ := h
  exact length_boardLine f y row

end Frame

/--
The character for the middle of a cell: the symbol of its module.
-/
def Module.face (m : Module) : Char :=
  match m.body.symbol? with
  | some symbol => symbol.glyph
  | none => '='

/--
Whether a pulse stands on the cell at `p`.
-/
def Board.HasPulse (b : Board) (p : Position) : Prop :=
  ∃ pulse ∈ b.pulses.toList, pulse.position = p

instance (b : Board) (p : Position) : Decidable (b.HasPulse p) :=
  inferInstanceAs (Decidable (∃ pulse ∈ b.pulses.toList, pulse.position = p))

namespace Engine

variable (e : Engine) {p : Position} {m : Module}

/--
The character that belongs in a place of the cell at `p`, on which `m` stands.
-/
def character (p : Position) (m : Module) (row column : Fin 3) : Char :=
  if row = 1 ∧ column = 1 then
    m.face
  else if row = 1 ∧ column = 0 ∧ p = e.editor.cursor then
    '['
  else if row = 1 ∧ column = 2 ∧ p = e.editor.cursor then
    ']'
  else if row ≠ 1 ∧ column ≠ 1 ∧ e.board.HasPulse p ∧ p ≠ e.editor.cursor then
    '*'
  else
    ' '

theorem size_frame : e.frame.size = e.board.size := rfl

theorem baseGlyph_frame (hm : e.board.get? p = some m) (row column : Fin 3)
    : e.frame.baseGlyph p row column = if row = 1 ∧ column = 1 then m.face else ' ' := by
  have hchunk : e.frame.chunks.get? p = some m.chunk? := by
    have hp : p ∈ e.board.size := Board.mem_size_of_get? hm
    simp [frame, Board.chunks, Grid.get?_ofFn, hp, Board.chunkAt?, hm]
  rw [Frame.baseGlyph, hchunk, Module.chunk?, Module.face]
  cases m.body.symbol? with
  | none => simp [Fin.ext_iff]
  | some symbol =>
    by_cases hmiddle : row.val = 1 ∧ column.val = 1 <;> simp [hmiddle, Fin.ext_iff]

theorem highlight_frame (p : Position)
    : e.frame.highlight p
        =
      if p = e.editor.cursor then .cursor else if e.board.HasPulse p then .pulse else .none := by
  have hpulse : p ∈ e.frame.pulses ↔ e.board.HasPulse p := by
    rw [frame, OrderedSet.map, OrderedSet.mem_ofList, List.mem_map]
    rfl
  simp only [Frame.highlight, hpulse]
  rfl

theorem glyph_frame (hm : e.board.get? p = some m) (row column : Fin 3)
    : e.frame.glyph p row column = e.character p m row column := by
  rw [Frame.glyph, highlight_frame, baseGlyph_frame e hm, character]
  by_cases hcursor : p = e.editor.cursor
  · rw [if_pos hcursor]
    grind
  · rw [if_neg hcursor]
    by_cases hpulse : e.board.HasPulse p
    · rw [if_pos hpulse]
      grind
    · rw [if_neg hpulse]
      grind

theorem charAt?_frame (hm : e.board.get? p = some m) (row column : Fin 3)
    : Drawing.charAt? e.frame.boardLines p row column = some (e.character p m row column) := by
  rw [Frame.charAt?_boardLines _ (Board.mem_size_of_get? hm), glyph_frame e hm]

theorem faces_frame
    : Drawing.faces e.frame.boardLines
        =
      e.board.modules.toList.map fun cell => (cell.1, cell.2.face) := by
  rw [Drawing.faces, Frame.positions_size_boardLines, size_frame, Board.size, ← Grid.map_fst_toList,
    List.filterMap_map, List.filterMap_eq_map_iff_forall_eq_some]
  intro cell hcell
  have hm : e.board.get? cell.1 = some cell.2 := Grid.get?_of_mem_toList hcell
  rw [Function.comp_apply, charAt?_frame e hm]
  rfl

theorem charAt?_frame_eq_some_iff (hp : p ∈ e.board.size)
    : (Drawing.charAt? e.frame.boardLines p 1 0 = some '[' ↔ p = e.editor.cursor) ∧
      (Drawing.charAt? e.frame.boardLines p 0 0 = some '*' ↔
        e.board.HasPulse p ∧ p ≠ e.editor.cursor) := by
  obtain ⟨m, hm⟩ := Board.exists_get? hp
  simp only [charAt?_frame e hm, character]
  grind

theorem cursor?_frame
    : Drawing.cursor? e.frame.boardLines
        =
      if e.editor.cursor ∈ e.board.size then some e.editor.cursor else none := by
  have hfind : Drawing.cursor? e.frame.boardLines
      =
    e.board.size.positions.find? (· = e.editor.cursor) := by
    rw [Drawing.cursor?, Frame.positions_size_boardLines, size_frame]
    apply List.find?_congr
    intro p hp
    exact decide_eq_decide.mpr (charAt?_frame_eq_some_iff e (Size.mem_positions.mp hp)).1
  rw [hfind]
  cases hfound : e.board.size.positions.find? (· = e.editor.cursor) with
  | none =>
    have houtside : e.editor.cursor ∉ e.board.size := by
      intro hcursor
      exact List.find?_eq_none.mp hfound _ (Size.mem_positions.mpr hcursor) (decide_eq_true rfl)
    rw [if_neg houtside]
  | some p =>
    have hp : p = e.editor.cursor := by simpa using List.find?_some hfound
    subst hp
    rw [if_pos (Size.mem_positions.mp (List.mem_of_find?_eq_some hfound))]

theorem pulses_frame
    : Drawing.pulses e.frame.boardLines
        =
      e.board.size.positions.filter fun p => e.board.HasPulse p ∧ p ≠ e.editor.cursor := by
  rw [Drawing.pulses, Frame.positions_size_boardLines, size_frame]
  apply List.filter_congr
  intro p hp
  exact decide_eq_decide.mpr (charAt?_frame_eq_some_iff e (Size.mem_positions.mp hp)).2

/--
The drawn board is exact. Each cell takes three characters of each of three lines: its symbol in the
middle, the brackets of the cursor beside it, the stars of a pulse in the corners if the cursor is
elsewhere, and spaces. So the lines alone tell all faces, where the cursor is, and where there are
pulses besides it.
-/
theorem draws_what_is_there (e : Engine)
    : let lines := e.frame.boardLines
      let size := e.board.size
      (lines.length = 3 * size.height ∧ ∀ line ∈ lines, line.toList.length = 3 * size.width) ∧
      (∀ p ∈ size, ∃ m, e.board.get? p = some m ∧
        ∀ row column, Drawing.charAt? lines p row column = some (e.character p m row column)) ∧
      Drawing.faces lines = e.board.modules.toList.map (fun cell => (cell.1, cell.2.face)) ∧
      Drawing.cursor? lines = (if e.editor.cursor ∈ size then some e.editor.cursor else none) ∧
      Drawing.pulses lines
        =
      size.positions.filter fun p => e.board.HasPulse p ∧ p ≠ e.editor.cursor := by
  intro lines size
  refine ⟨⟨e.frame.length_boardLines, fun line => e.frame.length_of_mem_boardLines⟩, ?_, faces_frame e,
    cursor?_frame e, pulses_frame e⟩
  intro p hp
  obtain ⟨m, hm⟩ := Board.exists_get? hp
  exact ⟨m, hm, charAt?_frame e hm⟩

example
    : let e := ((Engine.new ⟨2, 1⟩ .zero .default).submit "s").2
      (e.submit "l").2.tick.frame.boardLines = ["* *   ", " O [=]", "* *   "] := by decide +kernel

end Engine

end SignalBoard
