import SignalBoard.Proofs.Engine.Operation

/-!
This module contains the background of an engine, which is what goes on beside the editing: the pulses,
the time and what is being typed. Batches, undos and commands neither look at it nor change it. This is
said in one way for all of them: before any other background they do the same, and leave it as it is.
-/

namespace SignalBoard

theorem Board.revertAll_withPulses (b : Board) (pulses : OrderedSet Pulse) (records : List Record)
    : (b.withPulses pulses).revertAll records
        =
      ((b.revertAll records).1.withPulses pulses, (b.revertAll records).2) := by
  induction records generalizing b with
  | nil => rfl
  | cons record records ih =>
    rw [revertAll_cons, revertAll_cons, revert_withPulses]
    cases b.revert record.undo record.position with
    | error error =>
      simp only [Except.map]
      rw [ih]
    | ok c => exact ih c

namespace Batch

/--
The batch on a board with other pulses in flight.
-/
def withPulses (s : Batch) (pulses : OrderedSet Pulse) : Batch :=
  { s with board := s.board.withPulses pulses }

theorem step_withPulses (s : Batch) (pulses : OrderedSet Pulse) (action : Action)
    : (s.withPulses pulses).step action = (s.step action).map fun next => next.withPulses pulses := by
  unfold step
  cases action.scope with
  | editor => rfl
  | cell =>
    simp only [withPulses, Board.apply_withPulses]
    cases s.board.apply action s.cursor <;> rfl

theorem run_withPulses (s : Batch) (pulses : OrderedSet Pulse) (actions : List Action)
    : (s.withPulses pulses).run actions
        =
      ((s.run actions).1.withPulses pulses, (s.run actions).2) := by
  induction actions generalizing s with
  | nil => rfl
  | cons action rest ih =>
    rw [run, run, step_withPulses]
    cases s.step action with
    | error error => rfl
    | ok next => exact ih next

end Batch

namespace Editor

/--
The editor with another text on its command line.
-/
def withLine (e : Editor) (line : String) : Editor :=
  { e with commandLine := line }

@[simp]
theorem keytable_withLine (e : Editor) (line : String) : (e.withLine line).keytable = e.keytable := rfl

@[simp]
theorem maxRepeat_withLine (e : Editor) (line : String)
    : (e.withLine line).maxRepeat = e.maxRepeat := rfl

@[simp]
theorem shortcuts_withLine (e : Editor) (line : String)
    : (e.withLine line).shortcuts = e.shortcuts := rfl

@[simp]
theorem focus_withLine (e : Editor) (line : String) : (e.withLine line).focus = e.focus := rfl

theorem withCursor_withLine (e : Editor) (line : String) (p : Position)
    : (e.withLine line).withCursor p = (e.withCursor p).withLine line := by
  by_cases h : p = e.cursor
  · simp only [withCursor, withLine, h, ↓reduceIte]
  · simp only [withCursor, withLine, h, ↓reduceIte, unfocus]

theorem interpretUnfocused_withLine (e : Editor) (line command : String)
    : (e.withLine line).interpretUnfocused command
        =
      (e.interpretUnfocused command).map fun (outcome, next) => (outcome, next.withLine line) := by
  unfold interpretUnfocused
  simp only [keytable_withLine, maxRepeat_withLine, shortcuts_withLine]
  cases command.toList with
  | nil => cases RepeatExpression.read e.keytable e.maxRepeat command <;> rfl
  | cons key value =>
    dsimp only
    cases e.shortcuts.lookup key with
    | none => cases RepeatExpression.read e.keytable e.maxRepeat command <;> rfl
    | some prop => cases value <;> rfl

theorem interpret_withLine (e : Editor) (line command : String)
    : (e.withLine line).interpret command
        =
      (e.interpret command).map fun (outcome, next) => (outcome, next.withLine line) := by
  unfold interpret
  rw [focus_withLine]
  cases e.focus with
  | some prop => rfl
  | none => exact e.interpretUnfocused_withLine line command

end Editor

/--
What time changes on an engine: the pulses in flight, and how late it is.
-/
structure Simulation where
  pulses : OrderedSet Pulse
  clock : Clock
  beats : Nat

/--
What goes on beside the editing of a board.
-/
structure Background extends Simulation where
  commandLine : String

namespace Engine

def simulation (e : Engine) : Simulation where
  pulses := e.board.pulses
  clock := e.clock
  beats := e.beats

def background (e : Engine) : Background where
  toSimulation := e.simulation
  commandLine := e.editor.commandLine

/--
The engine before another background.
-/
def against (e : Engine) (g : Background) : Engine :=
  { e with
    board := e.board.withPulses g.pulses
    editor := e.editor.withLine g.commandLine
    clock := g.clock
    beats := g.beats }

variable (e : Engine) (g : Background)

@[simp]
theorem against_background : e.against e.background = e := rfl

@[simp]
theorem background_against : (e.against g).background = g := rfl

theorem refresh_against : (e.against g).refresh = e.refresh.against g := rfl

theorem remember_against (records : List Record)
    : (e.against g).remember records = (e.remember records).against g := by
  unfold remember
  split <;> rfl

theorem rejected_against (s : Batch)
    : (e.against g).rejected (s.withPulses g.pulses) = (e.rejected s).against g := by
  simp only [rejected, Batch.withPulses, Board.revertAll_withPulses]
  rfl

theorem accepted_against (s : Batch)
    : (e.against g).accepted (s.withPulses g.pulses) = (e.accepted s).against g := by
  simp only [accepted, ← refresh_against, ← remember_against]
  simp only [against, Batch.withPulses, Editor.withCursor_withLine]

theorem perform_against (actions : List Action)
    : (e.against g).perform actions
        =
      ((e.perform actions).1, (e.perform actions).2.against g) := by
  have hrun : (e.against g).startBatch.run actions = _ :=
    Batch.run_withPulses e.startBatch g.pulses actions
  rcases perform_cases e actions with ⟨s, hs, hperform⟩ | ⟨s, error, hs, hperform⟩
  · rw [hs] at hrun
    rw [perform_of_accepted hrun, hperform, accepted_against]
  · rw [hs] at hrun
    rw [perform_of_rejected hrun, hperform, rejected_against]

theorem undone_against (records : List Record) (older : List (List Record))
    : (e.against g).undone records older = (e.undone records older).against g := by
  simp only [undone, against, Board.revertAll_withPulses]
  rfl

theorem undo_against : (e.against g).undo = (e.undo.1, e.undo.2.against g) := by
  have hsame : (e.against g).history = e.history := rfl
  cases hhistory : e.history with
  | nil =>
    rw [undo_nil hhistory, undo_nil (hsame.trans hhistory)]
    rfl
  | cons records older =>
    rw [undo_cons hhistory, undo_cons (hsame.trans hhistory), undone_against]

theorem dispatch_against (outcome : Outcome)
    : (e.against g).dispatch outcome
        =
      ((e.dispatch outcome).1, (e.dispatch outcome).2.against g) := by
  cases outcome with
  | actions actions => exact perform_against { e with status := none } g actions
  | focused prop => rfl

theorem submit_against (command : String)
    : (e.against g).submit command = ((e.submit command).1, (e.submit command).2.against g) := by
  have hinterpret : (e.against g).editor.interpret command = _ :=
    e.editor.interpret_withLine g.commandLine command
  cases he : e.editor.interpret command with
  | error error =>
    rw [he] at hinterpret
    rw [submit_of_error he, submit_of_error hinterpret]
  | ok result =>
    obtain ⟨outcome, editor⟩ := result
    rw [he] at hinterpret
    rw [submit_of_ok he, submit_of_ok hinterpret]
    exact congrArg (Prod.map (Except.mapError EngineError.action) id)
      (dispatch_against { e with editor := editor } g outcome)

/--
What does the same before all backgrounds leaves the background as it is.
-/
theorem background_of_against {α : Type} {f : Engine → α × Engine}
    (hf : ∀ (e : Engine) (g : Background), f (e.against g) = ((f e).1, (f e).2.against g))
    : (f e).2.background = e.background := by
  have h := congrArg Prod.snd (hf e e.background)
  rw [against_background] at h
  rw [h, background_against]

theorem background_perform (actions : List Action)
    : (e.perform actions).2.background = e.background :=
  background_of_against (f := (·.perform actions)) e fun e g => perform_against e g actions

theorem background_undo : e.undo.2.background = e.background :=
  background_of_against e undo_against

theorem background_submit (command : String) : (e.submit command).2.background = e.background :=
  background_of_against (f := (·.submit command)) e fun e g => submit_against e g command

theorem commandLine_perform (actions : List Action)
    : (e.perform actions).2.editor.commandLine = e.editor.commandLine :=
  congrArg Background.commandLine (background_perform e actions)

theorem commandLine_undo : e.undo.2.editor.commandLine = e.editor.commandLine :=
  congrArg Background.commandLine (background_undo e)

theorem commandLine_submit (command : String)
    : (e.submit command).2.editor.commandLine = e.editor.commandLine :=
  congrArg Background.commandLine (background_submit e command)

end Engine

end SignalBoard
