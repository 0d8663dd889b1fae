import SignalBoard.Proofs.Board.Reordering
import SignalBoard.Proofs.Engine.Operation

/-!
This module shows that the order of the active positions and that of the pulses cannot be told from
what an engine answers and shows: `Engine.trace_eq_of_reordering`.
-/

namespace SignalBoard

theorem Frame.render_with_pulses (f : Frame) {pulses : OrderedSet Position}
    (h : f.pulses.Perm pulses) : { f with pulses := pulses }.render = f.render := by
  have hhighlight : ∀ p, { f with pulses := pulses }.highlight p = f.highlight p := by
    intro p
    -- of its pulses a frame shows only where they are
    simp only [highlight, h.mem_iff]
  have hglyph : { f with pulses := pulses }.glyph = f.glyph := by
    funext p row column
    rw [glyph, hhighlight, glyph]
    rfl
  have hlines : { f with pulses := pulses }.boardLines = f.boardLines := by
    unfold boardLines boardLine block
    rw [hglyph]
    rfl
  rw [render, lines, hlines, render, lines]

theorem Board.Reordering.chunks {b c : Board} (h : b.Reordering c) : c.chunks = b.chunks := by
  have hchunk : c.chunkAt? = b.chunkAt? := by
    funext p
    rw [chunkAt?, h.get?, chunkAt?]
  rw [Board.chunks, h.size, hchunk, Board.chunks]

namespace Engine

/--
The engine `f` differs from `e` at most in the order of the active positions and of the pulses on its
board.
-/
structure Reordering (e f : Engine) : Prop where
  board : e.board.Reordering f.board
  rest : f = { e with board := f.board }

namespace Reordering

variable {e f : Engine}

theorem exists_board (h : e.Reordering f) : ∃ c, e.board.Reordering c ∧ f = { e with board := c } :=
  ⟨f.board, h.board, h.rest⟩

theorem render (h : e.Reordering f) : f.frame.render = e.frame.render := by
  obtain ⟨c, hc, rfl⟩ := h.exists_board
  have hframe : ({ e with board := c } : Engine).frame
      = { e.frame with pulses := c.pulses.map Pulse.position } := by
    simp only [frame, hc.chunks]
  rw [hframe]
  apply Frame.render_with_pulses
  exact hc.pulses.map Pulse.position

theorem refresh (h : e.Reordering f) : e.refresh.Reordering f.refresh := by
  obtain ⟨c, hc, rfl⟩ := h.exists_board
  refine ⟨hc, ?_⟩
  simp only [Engine.refresh, hc.propertiesAt]

theorem remember (h : e.Reordering f) (records : List Record)
    : (e.remember records).Reordering (f.remember records) := by
  obtain ⟨c, hc, rfl⟩ := h.exists_board
  unfold Engine.remember
  split
  · exact h
  · exact ⟨hc, rfl⟩

theorem rejected (h : e.Reordering f) {s t : Batch} (hbatch : s.Reordering t)
    : (e.rejected s).Reordering (f.rejected t) := by
  obtain ⟨c, _, rfl⟩ := h.exists_board
  unfold Engine.rejected
  rw [hbatch.records]
  apply refresh
  exact ⟨(hbatch.board.revertAll s.records).2, rfl⟩

theorem accepted (h : e.Reordering f) {s t : Batch} (hbatch : s.Reordering t)
    : (e.accepted s).Reordering (f.accepted t) := by
  obtain ⟨c, _, rfl⟩ := h.exists_board
  unfold Engine.accepted
  rw [hbatch.records, hbatch.cursor]
  apply refresh
  apply remember
  exact ⟨hbatch.board, rfl⟩

theorem startBatch (h : e.Reordering f) : e.startBatch.Reordering f.startBatch := by
  obtain ⟨c, hc, rfl⟩ := h.exists_board
  exact ⟨hc, rfl, rfl⟩

theorem perform (h : e.Reordering f) (actions : List Action)
    : (f.perform actions).1 = (e.perform actions).1 ∧
        (e.perform actions).2.Reordering (f.perform actions).2 := by
  obtain ⟨herror, hbatch⟩ := h.startBatch.run actions
  -- both batches stop at the same action, or neither is refused
  rcases perform_cases e actions with ⟨s, hs, he⟩ | ⟨s, error, hs, he⟩ <;>
    rcases perform_cases f actions with ⟨t, ht, hf⟩ | ⟨t, error', ht, hf⟩ <;>
    rw [hs, ht] at herror hbatch
  · rw [he, hf]
    exact ⟨rfl, h.accepted hbatch⟩
  · cases herror
  · cases herror
  · cases herror
    rw [he, hf]
    exact ⟨rfl, h.rejected hbatch⟩

theorem undone (h : e.Reordering f) (records : List Record) (older : List (List Record))
    : (e.undone records older).Reordering (f.undone records older) := by
  obtain ⟨c, hc, rfl⟩ := h.exists_board
  obtain ⟨hconflict, hboards⟩ := hc.revertAll records
  unfold Engine.undone
  dsimp only
  rw [hconflict]
  apply refresh
  exact ⟨hboards, rfl⟩

theorem undo (h : e.Reordering f) : f.undo.1 = e.undo.1 ∧ e.undo.2.Reordering f.undo.2 := by
  have hsame : f.history = e.history := by
    rw [h.rest]
  cases hhistory : e.history with
  | nil =>
    rw [hhistory] at hsame
    rw [undo_nil hhistory, undo_nil hsame]
    obtain ⟨c, hc, rfl⟩ := h.exists_board
    exact ⟨rfl, hc, rfl⟩
  | cons records older =>
    rw [hhistory] at hsame
    rw [undo_cons hhistory, undo_cons hsame]
    exact ⟨rfl, h.undone records older⟩

theorem dispatch (h : e.Reordering f) (outcome : Outcome)
    : (f.dispatch outcome).1 = (e.dispatch outcome).1 ∧
        (e.dispatch outcome).2.Reordering (f.dispatch outcome).2 := by
  obtain ⟨c, hc, rfl⟩ := h.exists_board
  cases outcome with
  | actions actions => exact perform ⟨hc, rfl⟩ actions
  | focused prop => exact ⟨rfl, hc, rfl⟩

theorem submit (h : e.Reordering f) (command : String)
    : (f.submit command).1 = (e.submit command).1 ∧
        (e.submit command).2.Reordering (f.submit command).2 := by
  obtain ⟨c, hc, rfl⟩ := h.exists_board
  unfold Engine.submit
  dsimp only
  cases e.editor.interpret command with
  | error error => exact ⟨rfl, hc, rfl⟩
  | ok result =>
    obtain ⟨outcome, editor⟩ := result
    obtain ⟨hresult, hengines⟩ :=
      dispatch (e := { e with editor := editor }) (f := { e with board := c, editor := editor })
        ⟨hc, rfl⟩ outcome
    dsimp only
    rw [hresult]
    exact ⟨rfl, hengines⟩

theorem report (h : e.Reordering f) (result : Except EngineError Unit)
    : (e.report result).Reordering (f.report result) := by
  obtain ⟨c, hc, rfl⟩ := h.exists_board
  unfold Engine.report
  split
  · exact ⟨hc, rfl⟩
  · exact h

theorem handle (h : e.Reordering f) (event : InputEvent)
    : (e.handle event).2.Reordering (f.handle event).2 := by
  obtain ⟨c, hc, rfl⟩ := h.exists_board
  cases event with
  | char _ => exact ⟨hc, rfl⟩
  | backspace => exact ⟨hc, rfl⟩
  | cancel => exact ⟨hc, rfl⟩
  | exit => exact h
  | undo => exact h.undo.2
  | arrow direction =>
    rw [handle_arrow, handle_arrow]
    exact (perform ⟨hc, rfl⟩ _).2
  | confirm =>
    have hcleared : e.clearLine.Reordering ({ e with board := c } : Engine).clearLine := ⟨hc, rfl⟩
    obtain ⟨hresult, hengines⟩ := hcleared.submit e.editor.commandLine
    rw [handle_confirm, handle_confirm]
    dsimp only
    rw [hresult]
    exact hengines.report _

theorem tick (h : e.Reordering f) : e.tick.Reordering f.tick := by
  obtain ⟨c, hc, rfl⟩ := h.exists_board
  exact ⟨hc.update e.beats, rfl⟩

theorem update (h : e.Reordering f) (elapsed : Duration)
    : (f.update elapsed).map Prod.fst = (e.update elapsed).map Prod.fst ∧
        (e.after (.update elapsed)).Reordering (f.after (.update elapsed)) := by
  obtain ⟨c, hc, rfl⟩ := h.exists_board
  simp only [Engine.after, Engine.update]
  cases e.clock.advance elapsed with
  | error error => exact ⟨rfl, hc, rfl⟩
  | ok result =>
    obtain ⟨beat, clock⟩ := result
    cases beat with
    | false => exact ⟨rfl, hc, rfl⟩
    | true =>
      refine ⟨rfl, ?_⟩
      apply tick
      exact ⟨hc, rfl⟩

theorem response (h : e.Reordering f) (op : Operation) : f.response op = e.response op := by
  cases op with
  | handle event => simp only [Engine.response, control_handle]
  | submit command => rw [Engine.response, (h.submit command).1, Engine.response]
  | perform actions => rw [Engine.response, (h.perform actions).1, Engine.response]
  | undo => rw [Engine.response, h.undo.1, Engine.response]
  | tick => rfl
  | update elapsed => rw [Engine.response, (h.update elapsed).1, Engine.response]
  | addPulse pulse => rw [Engine.response, h.board.accepts, Engine.response]

theorem after (h : e.Reordering f) (op : Operation) : (e.after op).Reordering (f.after op) := by
  cases op with
  | handle event => exact h.handle event
  | submit command => exact (h.submit command).2
  | perform actions => exact (h.perform actions).2
  | undo => exact h.undo.2
  | tick => exact h.tick
  | update elapsed => exact (h.update elapsed).2
  | addPulse pulse =>
    obtain ⟨c, hc, rfl⟩ := h.exists_board
    exact ⟨hc.addPulse pulse, rfl⟩

theorem run (h : e.Reordering f) (ops : List Operation) : (e.run ops).Reordering (f.run ops) := by
  induction ops generalizing e f with
  | nil => exact h
  | cons op ops ih => exact ih (h.after op)

theorem trace (h : e.Reordering f) (ops : List Operation) : f.trace ops = e.trace ops := by
  induction ops generalizing e f with
  | nil => rfl
  | cons op ops ih =>
    rw [Engine.trace, h.response, (h.after op).render, ih (h.after op), Engine.trace]

end Reordering

/--
Engines that differ at most in the order of their active positions and of their pulses answer alike to
all operations, show the same after each of them, and still differ at most in these orders.
-/
theorem trace_eq_of_reordering {e f : Engine} (h : e.Reordering f) (ops : List Operation)
    : f.trace ops = e.trace ops ∧ (e.run ops).Reordering (f.run ops) ∧
        (f.run ops).frame.render = (e.run ops).frame.render := by
  have hrun := h.run ops
  exact ⟨h.trace ops, hrun, hrun.render⟩

theorem trace_eq_of_reordering_reverse
    : let e := (Engine.new ⟨2, 2⟩ .zero .default).run [.perform [
        .changeType "emitter", .changeProperty [("down_is_output", "true")], .moveCursor .right,
        .changeType "emitter", .changeProperty [("down_is_output", "true")]], .tick]
      let active : OrderedSet Position := ⟨e.board.active.toList.reverse⟩
      let pulses : OrderedSet Pulse := ⟨e.board.pulses.toList.reverse⟩
      let f := { e with board := { e.board with active := active, pulses := pulses } }
      let ops := [.addPulse ⟨⟨1, 0⟩, .left⟩, .perform [.moveCursor .left, .changeType "mixer"], .tick]
      e.Reordering f ∧ f.trace ops = e.trace ops ∧
      (f.run ops).board.pulses ≠ (e.run ops).board.pulses := by
  intro e active pulses f ops
  have hf : e.Reordering f := by
    refine ⟨⟨rfl, ?_, ?_⟩, rfl⟩
    · exact (List.reverse_perm _).symm
    · exact (List.reverse_perm _).symm
  have hpulses : (f.run ops).board.pulses ≠ (e.run ops).board.pulses := by decide +kernel
  clear_value e f ops
  exact ⟨hf, (trace_eq_of_reordering hf ops).1, hpulses⟩

end Engine

end SignalBoard
