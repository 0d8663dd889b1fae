import SignalBoard.Board

/-!
This module contains batches, lists of actions that take effect together. `Batch.run` applies the
actions up to the first one that is refused, and keeps a record of every edit; `Board.revertAll` goes
back through the records.
-/

namespace SignalBoard

/--
An edit of the module at a position, with the way back.
-/
structure Record where
  position : Position
  undo : Undo
deriving DecidableEq

/--
Go back through records, the newest of which comes first. A record that is refused is skipped; the
error of the last one that was is handed back together with the board.
-/
def Board.revertAll (b : Board) (records : List Record) : Board × Option ActionError :=
  records.foldl
    (fun (b, conflict) record =>
      match b.revert record.undo record.position with
      | .ok b => (b, conflict)
      | .error error => (b, some error))
    (b, none)

structure Batch where
  board : Board
  cursor : Position
  /-- The edits so far, the newest of which comes first. -/
  records : List Record

namespace Batch

/--
Apply one action. Moves take effect on the cursor, everything else on the module under it.
-/
def step (s : Batch) (action : Action) : Except ActionError Batch :=
  match action.scope with
  | .editor => .ok { s with cursor := action.applyToCursor s.cursor s.board.size }
  | .cell =>
    match s.board.apply action s.cursor with
    | .error error => .error error
    | .ok (board, undo) =>
      .ok { s with board := board, records := ⟨s.cursor, undo⟩ :: s.records }

/--
Apply actions until one is refused. The state before that action is handed back with its error.
-/
def run (s : Batch) : List Action → Batch × Option ActionError
  | [] => (s, none)
  | action :: rest =>
    match s.step action with
    | .error error => (s, some error)
    | .ok next => next.run rest

/--
A batch goes on where its first part stopped, unless an action of that part is refused.
-/
theorem run_append (s : Batch) (first second : List Action)
    : s.run (first ++ second) =
        match s.run first with
        | (s, some error) => (s, some error)
        | (s, none) => s.run second := by
  induction first generalizing s with
  | nil => rfl
  | cons action rest ih =>
    simp only [List.cons_append, run]
    cases s.step action with
    | error error => rfl
    | ok next => exact ih next

end Batch

end SignalBoard
