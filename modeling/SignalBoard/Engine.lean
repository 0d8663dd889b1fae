import SignalBoard.Batch
import SignalBoard.Editor
import SignalBoard.Frame
import SignalBoard.Settings.Basic
import SignalBoard.Time.Clock

/-!
This module contains the engine, which owns the board and the editor. `Engine.handle` and
`Engine.submit` take what the operator does, `Engine.perform` and `Engine.undo` change the board
through batches of actions, and `Engine.tick` and `Engine.update` let the beats go on.
-/

namespace SignalBoard

inductive EngineError where
  | command (error : CommandError)
  | action (error : ActionError)
deriving DecidableEq

def EngineError.message : EngineError → String
  | .command error => error.message
  | .action error => error.message

/--
Whether to go on after an input.
-/
inductive Control where
  | proceed
  | exit
deriving DecidableEq

structure Engine where
  board : Board
  editor : Editor
  clock : Clock
  /-- The number of beats so far. -/
  beats : Nat
  /-- The records of the batches that can be undone. The newest batch comes first, and in each batch
  the newest record. -/
  history : List (List Record)
  maxHistory : Nat
  /-- The last message for the operator. -/
  status : Option String
deriving DecidableEq

namespace Engine

/--
Follow the module under the cursor with the shortcuts and the focus.
-/
def refresh (e : Engine) : Engine :=
  { e with editor := e.editor.follow (e.board.propertiesAt e.editor.cursor) }

/--
An engine on a board of empty modules, which has a beat every `step`.
-/
def new (size : Size) (step : Duration) (settings : Settings) : Engine :=
  refresh {
    board := .new size
    editor := .new settings.keytable settings.maxRepeat
    clock := .new step
    beats := 0
    history := []
    maxHistory := settings.maxHistory
    status := none
  }

/--
Keep the records of a batch for undoing, unless there are none. The oldest batches are forgotten
first.
-/
def remember (e : Engine) (records : List Record) : Engine :=
  if records.isEmpty then
    e
  else
    { e with history := (records :: e.history).take e.maxHistory }

/--
Apply a batch of actions. If one of them is refused, those before it are taken back, and the cursor
stays where it was. A batch that moves the cursor drops the focus.
-/
def perform (e : Engine) (actions : List Action) : Except ActionError Unit × Engine :=
  let start : Batch := ⟨e.board, e.editor.cursor, []⟩
  match start.run actions with
  | (batch, some error) =>
    let board := (batch.board.revertAll batch.records).1
    (.error error, { e with board := board }.refresh)
  | (batch, none) =>
    let editor := if batch.cursor = e.editor.cursor then e.editor else e.editor.unfocus
    let e := { e with board := batch.board, editor := { editor with cursor := batch.cursor } }
    (.ok (), (e.remember batch.records).refresh)

/--
Take back the newest batch, if there is one. A record that no longer fits its module is skipped, and
reported through the status.
-/
def undo (e : Engine) : Bool × Engine :=
  match e.history with
  | [] => (false, { e with status := some "nothing to undo" })
  | records :: history =>
    let (board, conflict) := e.board.revertAll records
    let status :=
      match conflict with
      | some error => some error.message
      | none => e.status
    (true, { e with board := board, history := history, status := status }.refresh)

/--
Carry out what a command amounts to.
-/
def dispatch (e : Engine) (outcome : Outcome) : Except ActionError Unit × Engine :=
  match outcome with
  | .actions actions => { e with status := none }.perform actions
  | .focused prop =>
    (.ok (), { e with status := some s!"{prop.label} [{prop.kind.name}] = {prop.value}" })

/--
Interpret and carry out a whole command. A refusal is handed back and not written to the status.
-/
def submit (e : Engine) (command : String) : Except EngineError Unit × Engine :=
  match e.editor.interpret command with
  | .error error => (.error (.command error), e)
  | .ok (outcome, editor) =>
    let (result, e) := { e with editor := editor }.dispatch outcome
    (result.mapError .action, e)

/--
Take an input. A refused command is reported through the status.
-/
def handle (e : Engine) (event : InputEvent) : Control × Engine :=
  match event with
  | .exit => (.exit, e)
  | .undo => (.proceed, e.undo.2)
  | event =>
    let (result, editor) := e.editor.input event
    let e := { e with editor := editor }
    match result with
    | .error error => (.proceed, { e with status := some error.message })
    | .ok none => (.proceed, e)
    | .ok (some outcome) =>
      match e.dispatch outcome with
      | (.error error, e) => (.proceed, { e with status := some error.message })
      | (.ok (), e) => (.proceed, e)

/--
Take inputs until one of them asks to leave.
-/
def handleAll (e : Engine) : List InputEvent → Control × Engine
  | [] => (.proceed, e)
  | event :: rest =>
    match e.handle event with
    | (.exit, e) => (.exit, e)
    | (.proceed, e) => e.handleAll rest

/--
Let one beat pass, whatever the clock says.
-/
def tick (e : Engine) : Engine :=
  { e with board := e.board.update e.beats, beats := e.beats + 1 }

/--
Let time pass, and with it at most one beat. Tells whether there was one.
-/
def update (e : Engine) (elapsed : Duration) : Except ClockError (Bool × Engine) :=
  match e.clock.advance elapsed with
  | .error error => .error error
  | .ok (false, clock) => .ok (false, { e with clock := clock })
  | .ok (true, clock) => .ok (true, { e with clock := clock }.tick)

/--
What is shown of the engine.
-/
def frame (e : Engine) : Frame where
  chunks := e.board.chunks
  cursor := e.editor.cursor
  pulses := e.board.pulses.map Pulse.position
  commandLine := e.editor.commandLine
  prompt := e.editor.focus.map fun prop => s!"{prop.label} [{prop.kind.name}]: "
  help := e.editor.help
  status := e.status

end Engine

end SignalBoard
