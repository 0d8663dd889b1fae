import SignalBoard.Engine
import SignalBoard.Proofs.Batch.Rollback

/-!
This module describes `Engine.perform` and `Engine.undo` by the engines that they lead to: a batch is
accepted or rejected as a whole, and the newest batch is undone. It also says what interpreting a
command does to the editor.
-/

namespace SignalBoard

namespace Editor

/--
The three readings of a command: as the new value of the property in focus, as a shortcut with or
without a value behind it, and as an expression.
-/
theorem interpret_cases (e : Editor) (command : String)
    : (∃ prop, e.focus = some prop ∧
          e.interpret command
            =
          .ok (.actions [.changeProperty [(prop.name, command)]], e.unfocus)) ∨
        (∃ key value prop, command.toList = key :: value ∧ e.shortcuts.lookup key = some prop ∧
          e.interpret command
            =
          if value.isEmpty then
            .ok (.focused prop, { e with focus := some prop })
          else
            .ok (.actions [.changeProperty [(prop.name, String.ofList value)]], e)) ∨
        e.interpret command
          =
        (RepeatExpression.read e.keytable e.maxRepeat command).map (.actions ·, e) := by
  cases hfocus : e.focus with
  | some prop =>
    left
    refine ⟨prop, rfl, ?_⟩
    rw [interpret, hfocus]
  | none =>
    right
    simp only [interpret, hfocus, interpretUnfocused]
    cases hcommand : command.toList with
    | nil =>
      right
      cases RepeatExpression.read e.keytable e.maxRepeat command <;> rfl
    | cons key value =>
      cases hkey : e.shortcuts.lookup key with
      | none =>
        right
        simp only [hkey]
        cases RepeatExpression.read e.keytable e.maxRepeat command <;> rfl
      | some prop =>
        left
        refine ⟨key, value, prop, rfl, hkey, ?_⟩
        simp only [hkey]

theorem cases_of_interpret {e e' : Editor} {command : String} {outcome : Outcome}
    (h : e.interpret command = .ok (outcome, e'))
    : (∃ actions focus, outcome = .actions actions ∧ (focus = none ∨ focus = e.focus) ∧
          e' = { e with focus := focus }) ∨
        (∃ key prop, e.shortcuts.lookup key = some prop ∧ outcome = .focused prop ∧
          e' = { e with focus := some prop }) := by
  rcases e.interpret_cases command with ⟨prop, _, hvalue⟩ | ⟨key, value, prop, _, hkey, hvalue⟩ |
    hexpression
  · rw [hvalue] at h
    cases h
    exact .inl ⟨_, none, rfl, .inl rfl, rfl⟩
  · rw [hvalue] at h
    split at h
    · cases h
      exact .inr ⟨key, prop, hkey, rfl, rfl⟩
    · cases h
      exact .inl ⟨_, e.focus, rfl, .inr rfl, rfl⟩
  · rw [hexpression] at h
    cases hread : RepeatExpression.read e.keytable e.maxRepeat command with
    | error error =>
      rw [hread] at h
      cases h
    | ok actions =>
      rw [hread] at h
      cases h
      exact .inl ⟨actions, e.focus, rfl, .inr rfl, rfl⟩

theorem exists_focus_of_interpret {e e' : Editor} {command : String} {outcome : Outcome}
    (h : e.interpret command = .ok (outcome, e')) : ∃ focus, e' = { e with focus := focus } := by
  rcases cases_of_interpret h with ⟨_, focus, _, _, rfl⟩ | ⟨_, prop, _, _, rfl⟩
  · exact ⟨focus, rfl⟩
  · exact ⟨some prop, rfl⟩

/--
The editor with its cursor at `p`. It drops the focus if the cursor was elsewhere.
-/
def withCursor (e : Editor) (p : Position) : Editor :=
  { (if p = e.cursor then e else e.unfocus) with cursor := p }

@[simp]
theorem cursor_withCursor (e : Editor) (p : Position) : (e.withCursor p).cursor = p := rfl

@[simp]
theorem keytable_withCursor (e : Editor) (p : Position)
    : (e.withCursor p).keytable = e.keytable := by
  unfold withCursor
  split <;> rfl

end Editor

namespace Engine

variable (e : Engine)

@[simp]
theorem board_refresh : e.refresh.board = e.board := rfl

@[simp]
theorem history_refresh : e.refresh.history = e.history := rfl

@[simp]
theorem maxHistory_refresh : e.refresh.maxHistory = e.maxHistory := rfl

@[simp]
theorem cursor_refresh : e.refresh.editor.cursor = e.editor.cursor := rfl

section Remember

variable (records : List Record)

@[simp]
theorem board_remember : (e.remember records).board = e.board := by
  unfold remember
  split <;> rfl

@[simp]
theorem editor_remember : (e.remember records).editor = e.editor := by
  unfold remember
  split <;> rfl

@[simp]
theorem maxHistory_remember : (e.remember records).maxHistory = e.maxHistory := by
  unfold remember
  split <;> rfl

theorem history_remember
    : (e.remember records).history
        =
      if records.isEmpty then e.history else (records :: e.history).take e.maxHistory := by
  unfold remember
  split <;> rfl

end Remember

/--
The state in which a batch starts.
-/
def startBatch : Batch :=
  ⟨e.board, e.editor.cursor, []⟩

/--
The engine after a batch was refused, where `s` is how far it had been applied.
-/
def rejected (s : Batch) : Engine :=
  refresh { e with board := (s.board.revertAll s.records).1 }

/--
The engine after a batch was applied to its end `s`.
-/
def accepted (s : Batch) : Engine :=
  (remember { e with board := s.board, editor := e.editor.withCursor s.cursor } s.records).refresh

@[simp]
theorem board_accepted (s : Batch) : (e.accepted s).board = s.board := by
  simp [accepted]

@[simp]
theorem cursor_accepted (s : Batch) : (e.accepted s).editor.cursor = s.cursor := by
  simp [accepted]

@[simp]
theorem maxHistory_accepted (s : Batch) : (e.accepted s).maxHistory = e.maxHistory := by
  simp [accepted]

theorem history_accepted (s : Batch)
    : (e.accepted s).history
        =
      if s.records.isEmpty then e.history else (s.records :: e.history).take e.maxHistory := by
  rw [accepted, history_refresh, history_remember]

variable {e}

theorem perform_of_accepted {actions : List Action} {s : Batch}
    (hrun : e.startBatch.run actions = (s, none)) : e.perform actions = (.ok (), e.accepted s) := by
  unfold startBatch at hrun
  simp only [perform, hrun]
  rfl

theorem perform_of_rejected {actions : List Action} {s : Batch} {error : ActionError}
    (hrun : e.startBatch.run actions = (s, some error))
    : e.perform actions = (.error error, e.rejected s) := by
  unfold startBatch at hrun
  simp only [perform, hrun]
  rfl

theorem perform_cases (e : Engine) (actions : List Action)
    : (∃ s, e.startBatch.run actions = (s, none) ∧ e.perform actions = (.ok (), e.accepted s)) ∨
        (∃ s error, e.startBatch.run actions = (s, some error) ∧
          e.perform actions = (.error error, e.rejected s)) := by
  cases hrun : e.startBatch.run actions with
  | mk s error =>
    cases error with
    | none => exact .inl ⟨s, rfl, perform_of_accepted hrun⟩
    | some error => exact .inr ⟨s, error, rfl, perform_of_rejected hrun⟩

theorem exists_run_of_perform_ok {actions : List Action} (h : (e.perform actions).1 = .ok ())
    : ∃ s, e.startBatch.run actions = (s, none) ∧ e.perform actions = (.ok (), e.accepted s) := by
  rcases perform_cases e actions with haccepted | ⟨_, _, _, hrejected⟩
  · exact haccepted
  · rw [hrejected] at h
    cases h

theorem history_accepted_of_edits {actions : List Action} {s : Batch}
    (hrun : e.startBatch.run actions = (s, none)) (hedits : actions.any (·.scope = .cell) = true)
    : (e.accepted s).history = (s.records :: e.history).take e.maxHistory := by
  have hrecords : s.records.isEmpty = !actions.any (·.scope = .cell) :=
    Batch.isEmpty_records_of_run hrun
  rw [history_accepted, hrecords, hedits]
  rfl

theorem restores_of_run {actions : List Action} {s : Batch} {error : Option ActionError}
    (hrun : e.startBatch.run actions = (s, error))
    : Restores s.records s.board.modules e.board.modules := by
  have hrestores := Batch.restores_run (s := e.startBatch) (restores_nil _) actions
  rw [hrun] at hrestores
  exact hrestores

theorem revertEach_rejected {actions : List Action} {s : Batch} {error : ActionError}
    (hrun : e.startBatch.run actions = (s, some error))
    : s.board.revertEach s.records = .ok (e.rejected s).board ∧
        (e.rejected s).board.modules = e.board.modules := by
  obtain ⟨b, hback, hmodules⟩ := restores_of_run hrun s.board rfl
  -- none of the records is refused, so skipping those that are makes no difference
  have hboard : (e.rejected s).board = b := by
    change (s.board.revertAll s.records).1 = b
    rw [Board.revertEach_eq_ok_iff.mp hback]
  rw [hboard]
  exact ⟨hback, hmodules⟩

theorem modules_rejected {actions : List Action} {s : Batch} {error : ActionError}
    (hrun : e.startBatch.run actions = (s, some error))
    : (e.rejected s).board.modules = e.board.modules :=
  (revertEach_rejected hrun).2

/--
The engine in which the actions of a command start, with the editor that interpreted it.
-/
def interpreted (e : Engine) (editor : Editor) : Engine :=
  { e with editor := editor, status := none }

theorem submit_of_error {command : String} {error : CommandError}
    (h : e.editor.interpret command = .error error)
    : e.submit command = (.error (.command error), e) := by
  unfold submit
  rw [h]

theorem submit_of_ok {command : String} {outcome : Outcome} {editor : Editor}
    (h : e.editor.interpret command = .ok (outcome, editor))
    : e.submit command
        =
      (({ e with editor := editor } : Engine).dispatch outcome).map (Except.mapError .action) id := by
  unfold submit
  rw [h]
  rfl

theorem submit_cases (e : Engine) (command : String)
    : (∃ error, e.editor.interpret command = .error error ∧
          e.submit command = (.error (.command error), e)) ∨
        (∃ actions editor, e.editor.interpret command = .ok (.actions actions, editor) ∧
          e.submit command
            =
          (((e.interpreted editor).perform actions).1.mapError .action,
            ((e.interpreted editor).perform actions).2)) ∨
        (∃ prop editor, e.editor.interpret command = .ok (.focused prop, editor) ∧
          e.submit command
            =
          (.ok (), { e with
            editor := editor
            status := some s!"{prop.label} [{prop.kind.name}] = {prop.value}" })) := by
  cases hinterpret : e.editor.interpret command with
  | error error => exact .inl ⟨error, rfl, submit_of_error hinterpret⟩
  | ok result =>
    obtain ⟨outcome, editor⟩ := result
    cases outcome with
    | actions actions => exact .inr (.inl ⟨actions, editor, rfl, submit_of_ok hinterpret⟩)
    | focused prop => exact .inr (.inr ⟨prop, editor, rfl, submit_of_ok hinterpret⟩)

theorem undo_nil (h : e.history = [])
    : e.undo = (false, { e with status := some "nothing to undo" }) := by
  unfold undo
  rw [h]

/--
The engine after the newest batch was taken back, where `older` are the batches before it.
-/
def undone (e : Engine) (records : List Record) (older : List (List Record)) : Engine :=
  refresh { e with
    board := (e.board.revertAll records).1
    history := older
    status :=
      match (e.board.revertAll records).2 with
      | some error => some error.message
      | none => e.status }

theorem undo_cons {records : List Record} {older : List (List Record)}
    (h : e.history = records :: older) : e.undo = (true, e.undone records older) := by
  unfold undo
  rw [h]
  rfl

end Engine

end SignalBoard
