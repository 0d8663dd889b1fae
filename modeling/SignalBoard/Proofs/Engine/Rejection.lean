import Mathlib.Control.Monad.Basic
import SignalBoard.Proofs.Engine.Operation

/-!
This module shows that a batch or a command that is refused leaves the board and the work of the
operator as they were: `Engine.untouched_of_refused`.
-/

namespace SignalBoard

namespace Engine

/--
The states that an engine can come into. Besides its own operations this allows for changes of the
board behind the engine's back, and for any other editor in place of its own, with the cursor anywhere.
-/
inductive Reachable : Engine → Prop where
  | new (size : Size) (step : Duration) (settings : Settings) : Reachable (.new size step settings)
  | after {e : Engine} (op : Operation) : Reachable e → Reachable (e.after op)
  | apply {e : Engine} {action : Action} {p : Position} {b : Board} {undo : Undo}
    : Reachable e → e.board.apply action p = .ok (b, undo) → Reachable { e with board := b }
  | revert {e : Engine} {undo : Undo} {p : Position} {b : Board}
    : Reachable e → e.board.revert undo p = .ok b → Reachable { e with board := b }
  | update {e : Engine} (beat : Nat) : Reachable e → Reachable { e with board := e.board.update beat }
  | editor {e : Engine} (editor : Editor) : Reachable e → Reachable { e with editor := editor }

theorem Reachable.run {e : Engine} (h : e.Reachable) (ops : List Operation) : (e.run ops).Reachable := by
  induction ops generalizing e with
  | nil => exact h
  | cons op ops ih => exact ih (h.after op)

theorem activationExact_of_reachable {e : Engine} (h : e.Reachable) : e.board.ActivationExact := by
  induction h with
  | new size step settings => exact Board.activationExact_new size
  | after op _ ih => exact kept_after Board.kept_activationExact ih op
  | apply _ happly ih => exact ih.apply happly
  | revert _ hrevert ih => exact ih.revert hrevert
  | update beat _ ih => exact ih.update beat
  | editor editor _ ih => exact ih

/--
The engine `e'` agrees with `e` on all modules, on which of them are active, on the pulses and the beats,
and on what the operator has done and typed.
-/
structure Untouched (e e' : Engine) : Prop where
  modules : ∀ p, e'.board.get? p = e.board.get? p
  active : ∀ p, p ∈ e'.board.active ↔ p ∈ e.board.active
  pulses : e'.board.pulses = e.board.pulses
  cursor : e'.editor.cursor = e.editor.cursor
  history : e'.history = e.history
  beats : e'.beats = e.beats
  commandLine : e'.editor.commandLine = e.editor.commandLine

theorem activationExact_rejected {e : Engine} (h : e.board.ActivationExact) {actions : List Action}
    {s : Batch} {error : ActionError} (hrun : e.startBatch.run actions = (s, some error))
    : (e.rejected s).board.ActivationExact := by
  apply Board.revertAll_induction Board.kept_activationExact.install
  have := Batch.run_board_induction Board.kept_activationExact.install (s := e.startBatch) h actions
  rwa [hrun] at this

theorem untouched_rejected {e : Engine} (h : e.board.ActivationExact) {actions : List Action}
    {s : Batch} {error : ActionError} (hrun : e.startBatch.run actions = (s, some error))
    : e.Untouched (e.rejected s) := by
  have hpulses := Batch.pulses_run e.startBatch actions
  rw [hrun] at hpulses
  have hget : ∀ p, (e.rejected s).board.get? p = e.board.get? p := by
    intro p
    rw [Board.get?, modules_rejected hrun]
    rfl
  refine ⟨hget, ?_, ?_, rfl, rfl, rfl, rfl⟩
  · -- both sets of active positions are determined by the modules
    intro p
    rw [(activationExact_rejected h hrun).mem_iff, h.mem_iff, hget]
  · exact (Board.pulses_revertAll s.board s.records).trans hpulses

theorem perform_of_error {e e' : Engine} {actions : List Action} {error : ActionError}
    (h : e.perform actions = (.error error, e'))
    : ∃ s, e.startBatch.run actions = (s, some error) ∧ e' = e.rejected s := by
  rcases perform_cases e actions with ⟨_, _, hperform⟩ | ⟨s, _, hrun, hperform⟩
  · rw [hperform] at h
    cases h
  · rw [hperform] at h
    cases h
    exact ⟨s, hrun, rfl⟩

theorem first_failure {e e' : Engine} {actions : List Action} {error : ActionError}
    (h : e.perform actions = (.error error, e'))
    : ∃ front action rest before, actions = front ++ action :: rest ∧
        e.perform front = (.ok (), before) ∧ action.scope = .cell ∧
        before.board.apply action before.editor.cursor = .error error := by
  obtain ⟨s, hrun, _⟩ := perform_of_error h
  obtain ⟨front, action, rest, hactions, hfront, hrefused⟩ := Batch.exists_of_run_error hrun
  obtain ⟨hscope, happly⟩ := Batch.step_eq_error_iff.mp hrefused
  rcases perform_cases e front with ⟨_, hbefore, hperform⟩ | ⟨_, _, hfailed, _⟩
  · rw [hfront] at hbefore
    cases hbefore
    refine ⟨front, action, rest, e.accepted s, hactions, hperform, hscope, ?_⟩
    rw [board_accepted, cursor_accepted]
    exact happly
  · rw [hfailed] at hfront
    cases hfront

theorem cases_of_submit_error {e e' : Engine} {command : String} {error : EngineError}
    (h : e.submit command = (.error error, e'))
    : (∃ refused, error = .command refused ∧ e' = e) ∨
        (∃ focus actions refused,
          error = .action refused ∧
          ({ e with editor := { e.editor with focus := focus }, status := none } : Engine).perform
            actions = (.error refused, e')) := by
  rcases e.submit_cases command with ⟨refused, _, hsubmit⟩ | ⟨actions, editor, hinterpret, hsubmit⟩ |
    ⟨prop, editor, _, hsubmit⟩
  · rw [hsubmit] at h
    cases h
    exact .inl ⟨refused, rfl, rfl⟩
  · right
    obtain ⟨focus, rfl⟩ := Editor.exists_focus_of_interpret hinterpret
    rw [hsubmit, interpreted] at h
    generalize hperform : perform _ actions = performed at h
    obtain ⟨result, e''⟩ := performed
    cases result with
    | ok => cases h
    | error refused =>
      cases h
      exact ⟨focus, actions, refused, rfl, hperform⟩
  · rw [hsubmit] at h
    cases h

/--
Whatever state the engine is in, a batch that is refused leaves the modules, the set of the active ones,
the pulses, the cursor, the history, the beats, the command line and the status alone, and its error is
that of the first action that fails. A command that is refused leaves them alone up to the status, and
focus and status too if a character of it is unknown.
-/
theorem untouched_of_refused {e : Engine} (h : e.Reachable)
    : (∀ actions error e', e.perform actions = (.error error, e') →
        e.Untouched e' ∧ e'.status = e.status ∧
        ∃ front action rest before, actions = front ++ action :: rest ∧
          e.perform front = (.ok (), before) ∧ action.scope = .cell ∧
          before.board.apply action before.editor.cursor = .error error) ∧
      (∀ command error e', e.submit command = (.error error, e') →
        e.Untouched e' ∧
        ((∃ c, error = .command (.unknownCommand c)) →
          e'.editor.focus = e.editor.focus ∧ e'.status = e.status)) := by
  have hactivation := activationExact_of_reachable h
  constructor
  · intro actions error e' hperform
    obtain ⟨s, hrun, rfl⟩ := perform_of_error hperform
    exact ⟨untouched_rejected hactivation hrun, rfl, first_failure hperform⟩
  · intro command error e' hsubmit
    rcases cases_of_submit_error hsubmit with ⟨_, rfl, rfl⟩ | ⟨focus, actions, refused, rfl, hperform⟩
    · exact ⟨⟨fun _ => rfl, fun _ => Iff.rfl, rfl, rfl, rfl, rfl, rfl⟩, fun _ => ⟨rfl, rfl⟩⟩
    · obtain ⟨s, hrun, rfl⟩ := perform_of_error hperform
      obtain ⟨hmodules, hactive, hpulses, hcursor, hhistory, hbeats, hcommandLine⟩ :=
        untouched_rejected hactivation hrun
      refine ⟨⟨hmodules, hactive, hpulses, hcursor, hhistory, hbeats, hcommandLine⟩, ?_⟩
      rintro ⟨c, hc⟩
      cases hc

theorem untouched_of_refused_spreader
    : let e := (Engine.new ⟨2, 1⟩ .zero .default).after (.submit "s")
      let actions := [.changeProperty [("interval", "7")], .changeType "empty", .moveCursor .right,
        .changeType "spreader", .changeProperty [("color", "(1,2,3)")], .changeType "mixer"]
      (e.perform actions).1 = .error (.kind (.unknown "mixer")) ∧ e.Untouched (e.perform actions).2 ∧
      (e.submit "lm?").1 = .error (.command (.unknownCommand '?')) ∧
      e.Untouched (e.submit "lm?").2 ∧ (e.submit "lm?").2.editor.focus = e.editor.focus := by
  intro e actions
  have hperform : (e.perform actions).1 = .error (.kind (.unknown "mixer")) := by decide +kernel
  have hsubmit : (e.submit "lm?").1 = .error (.command (.unknownCommand '?')) := by decide +kernel
  have h := untouched_of_refused (e := e) (.after _ (.new _ _ _))
  -- from here on the engine and the batch are only names, so that nothing is evaluated again
  clear_value e actions
  have hbatch := h.1 actions _ (e.perform actions).2 (Prod.ext hperform rfl)
  have hcommand := h.2 "lm?" _ (e.submit "lm?").2 (Prod.ext hsubmit rfl)
  exact ⟨hperform, hbatch.1, hsubmit, hcommand.1, (hcommand.2 ⟨'?', rfl⟩).1⟩

end Engine

end SignalBoard
