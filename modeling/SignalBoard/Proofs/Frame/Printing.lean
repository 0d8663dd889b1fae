import SignalBoard.Proofs.Engine.Plain
import SignalBoard.Proofs.Frame.Drawing
import SignalBoard.Session

/-!
This module shows that a printed frame can be cut into its parts again: `Engine.lines_render`. For this no
part may have a newline, which holds of all states in which none was typed.
-/

namespace SignalBoard

theorem Frame.exists_glyph_of_mem_boardLines {f : Frame} {line : String} (hline : line ∈ f.boardLines)
    {c : Char} (hc : c ∈ line.toList) : ∃ p ∈ f.size, ∃ row column, c = f.glyph p row column := by
  simp only [boardLines, List.mem_flatMap, List.mem_map, List.mem_range] at hline
  obtain ⟨y, hy, row, _, rfl⟩ := hline
  simp only [boardLine, String.toList_ofList, List.mem_flatMap, List.mem_range] at hc
  obtain ⟨x, hx, hmem⟩ := hc
  obtain ⟨i, hi, rfl⟩ := List.mem_iff_getElem.mp hmem
  rw [Block.length_row] at hi
  refine ⟨⟨x, y⟩, ?_, row, ⟨i, hi⟩, ?_⟩
  · rw [Size.mem_iff]
    exact ⟨Int.natCast_nonneg x, Int.natCast_nonneg y, Int.ofNat_lt.mpr hx, Int.ofNat_lt.mpr hy⟩
  · apply Option.some.inj
    rw [← List.getElem?_eq_getElem]
    exact ((f.block ⟨x, y⟩).getElem?_row row ⟨i, hi⟩).trans (by rw [block, Block.get_ofFn])

theorem Module.Plain.face_ne {m : Module} (h : m.Plain) : m.face ≠ '\n' := by
  obtain ⟨position, body⟩ := m
  have hread := h .character
  cases body with
  | empty => simp [face, Body.symbol?]
  | spreader s => simpa [face, Body.symbol?, Body.read?, Spreader.read?, Symbol.read?] using hread
  | emitter e => simpa [face, Body.symbol?, Body.read?, Emitter.read?, Symbol.read?] using hread

namespace Engine

/--
What stands in front of the command line.
-/
def promptText (e : Engine) : String :=
  match e.editor.focus with
  | some prop => s!"{prop.label} [{prop.kind.name}]: "
  | none => Frame.defaultPrompt

/--
The states of an engine that is only ever given texts of one line, as commands, as typed lines, and as
literals.
-/
inductive PlainDriven (size : Size) (step : Duration) (settings : Settings) : Engine → Prop where
  | new : PlainDriven size step settings (.new size step settings)
  | operation {e : Engine} {op : Operation} (hop : op.Plain) (he : PlainDriven size step settings e)
    : PlainDriven size step settings (e.after op)
  | line {e : Engine} {text : String} (htext : Text.SingleLine text)
    (he : PlainDriven size step settings e)
    : PlainDriven size step settings (e.handleAll (lineEvents text)).2

theorem plain_of_mem_lineEvents {text : String} (htext : Text.SingleLine text) {event : InputEvent}
    (hevent : event ∈ lineEvents text) : Operation.Plain (.handle event) := by
  cases event with
  | char c =>
    rintro rfl
    unfold lineEvents at hevent
    split_ifs at hevent
    all_goals simp at hevent
    exact htext hevent
  | backspace => trivial
  | confirm => trivial
  | cancel => trivial
  | arrow direction => trivial
  | undo => trivial
  | exit => trivial

theorem handleAll_induction {P : Engine → Prop} {events : List InputEvent}
    (hhandle : ∀ event ∈ events, ∀ e : Engine, P e → P (e.handle event).2) {e : Engine} (h : P e)
    : P (e.handleAll events).2 := by
  induction events generalizing e with
  | nil => exact h
  | cons event rest ih =>
    rw [List.forall_mem_cons] at hhandle
    have hnext := hhandle.1 e h
    rw [handleAll]
    generalize e.handle event = handled at hnext ⊢
    obtain ⟨control, next⟩ := handled
    cases control with
    | exit => exact hnext
    | proceed => exact ih hhandle.2 hnext

variable {settings : Settings} {e : Engine}

theorem PlainDriven.plain {size : Size} {step : Duration} (h : e.PlainDriven size step settings)
    (hkeys : ∀ entry ∈ settings.keytable.bindings, entry.2.namesKind = true)
    : e.Plain settings ∧ e.board.size = size := by
  have hafter : ∀ op : Operation, op.Plain → ∀ e : Engine,
      e.Plain settings ∧ e.board.size = size →
      (e.after op).Plain settings ∧ (e.after op).board.size = size :=
    fun op hop e he => ⟨he.1.after hkeys hop, kept_after (Board.kept_size size) he.2 op⟩
  induction h with
  | new => exact ⟨.new size step settings, rfl⟩
  | operation hop _ ih => exact hafter _ hop _ ih
  | line htext _ ih =>
    apply handleAll_induction (P := fun e => e.Plain settings ∧ e.board.size = size) _ ih
    intro event hevent
    exact hafter (.handle event) (plain_of_mem_lineEvents htext hevent)

theorem lines_frame (h : e.Follows settings)
    : e.frame.lines
        =
      e.frame.boardLines ++ ["", e.promptText ++ e.editor.commandLine] ++ e.status.toList ++
        (e.board.propertiesAt e.editor.cursor).filterMap fun prop =>
          (e.editor.shortcutOf? prop.name).map fun key => Editor.helpLine key prop := by
  have hprompt : e.frame.prompt.getD Frame.defaultPrompt = e.promptText := by
    unfold frame promptText
    cases e.editor.focus <;> rfl
  rw [Frame.lines, hprompt, ← h.help_eq]
  rfl

namespace Plain

theorem singleLine_promptText (h : e.Plain settings) : Text.SingleLine e.promptText := by
  unfold promptText
  split
  · rename_i prop hfocus
    have hprop := h.shortcut (.inl hfocus)
    simp +decide [hprop.label, prop.kind.singleLine_name]
  · decide

theorem singleLine_boardLines (h : e.Plain settings) {line : String} (hline : line ∈ e.frame.boardLines)
    : Text.SingleLine line := by
  intro hnewline
  obtain ⟨p, hp, row, column, hglyph⟩ := Frame.exists_glyph_of_mem_boardLines hline hnewline
  obtain ⟨m, hm⟩ := Board.exists_get? (b := e.board) hp
  have hface : m.face ≠ '\n' := (h.modules p m hm).face_ne
  rw [glyph_frame e hm, character] at hglyph
  grind

theorem singleLine_lines (h : e.Plain settings) : ∀ line ∈ e.frame.lines, Text.SingleLine line := by
  rw [lines_frame h.toFollows]
  intro line hline
  simp only [List.mem_append, List.mem_cons, List.not_mem_nil, or_false, Option.mem_toList,
    List.mem_filterMap, Option.map_eq_some_iff] at hline
  rcases hline with ((hboard | rfl | rfl) | hstatus) | ⟨prop, hprop, key, hkey, rfl⟩
  · exact h.singleLine_boardLines hboard
  · decide
  · exact Text.singleLine_append.mpr ⟨h.singleLine_promptText, h.commandLine⟩
  · exact h.status line hstatus
  · have hprop := h.properties hprop
    have hne : key ≠ '\n' := by
      rintro rfl
      exact absurd (Editor.mem_letters_of_shortcutOf? h.shortcuts hkey) (by decide)
    simp +decide [Editor.helpLine, hne, hprop.label, hprop.value, prop.kind.singleLine_name]

end Plain

/--
A printed frame can be cut into its parts by line, as long as all bindings are to kinds and no newline is
typed. Three lines for each row of the board are as wide as the board, and an empty line follows. The prompt
and the command line share one line. There is a line for the status if there is one, and one for every
property of the module under the cursor that has a shortcut, in the order of the properties.
-/
theorem lines_render (size : Size) (step : Duration) (settings : Settings)
    (hkeys : ∀ entry ∈ settings.keytable.bindings, entry.2.namesKind = true) {e : Engine}
    (h : e.PlainDriven size step settings)
    : let board := e.frame.boardLines
      Text.lines e.frame.render
        =
      board ++ ["", e.promptText ++ e.editor.commandLine] ++ e.status.toList ++
        ((e.board.propertiesAt e.editor.cursor).filterMap fun prop =>
          (e.editor.shortcutOf? prop.name).map fun key => Editor.helpLine key prop) ∧
      board.length = 3 * size.height ∧ ∀ line ∈ board, line.toList.length = 3 * size.width := by
  intro board
  obtain ⟨hplain, hsize⟩ := h.plain hkeys
  refine ⟨?_, ?_, ?_⟩
  · have hne : e.frame.lines ≠ [] := by simp [Frame.lines]
    rw [Frame.render, Text.lines_intercalate hne hplain.singleLine_lines, lines_frame hplain.toFollows]
  · rw [← hsize]
    exact e.frame.length_boardLines
  · intro line hline
    rw [← hsize]
    exact e.frame.length_of_mem_boardLines hline

theorem lines_render_focused
    : let e := (((new ⟨2, 1⟩ .zero .default).handleAll (lineEvents "s")).2.submit "i").2
      Text.lines e.frame.render
        =
      ["      ", "[O] = ", "      ", "", "pulse interval [int]: ", "pulse interval [int] = 5",
        "a - character (char: O)", "b - color (color: (191,255,0))", "c - up is output (bool: true)",
        "d - down is output (bool: false)", "f - left is output (bool: false)",
        "g - right is output (bool: false)", "i - pulse interval (int: 5)", "n - pulse offset (int: 0)"] ∧
      e.frame.boardLines.length = 3 := by
  intro e
  have hsubmit : Operation.Plain (.submit "i") := by
    change Text.SingleLine "i"
    decide
  have htext : Text.SingleLine "s" := by decide
  have hdriven : e.PlainDriven ⟨2, 1⟩ .zero .default := .operation hsubmit (.line htext .new)
  obtain ⟨hlines, hheight, _⟩ := lines_render ⟨2, 1⟩ .zero .default (by decide) hdriven
  refine ⟨hlines.trans ?_, hheight⟩
  decide +kernel

end Engine

end SignalBoard
