import SignalBoard.CommandLine.Launch
import SignalBoard.Main
import SignalBoard.Proofs.Action.Conflict
import SignalBoard.Proofs.Action.Plain
import SignalBoard.Proofs.Action.Walk
import SignalBoard.Proofs.Batch.Rollback
import SignalBoard.Proofs.Board.Independence
import SignalBoard.Proofs.Board.Invariants
import SignalBoard.Proofs.Board.Locality
import SignalBoard.Proofs.Board.NextPulses
import SignalBoard.Proofs.Board.Reordering
import SignalBoard.Proofs.Board.Run
import SignalBoard.Proofs.Board.StraightLines
import SignalBoard.Proofs.Board.Superposition
import SignalBoard.Proofs.CommandLine.Step
import SignalBoard.Proofs.Editor.Keys
import SignalBoard.Proofs.Editor.Modes
import SignalBoard.Proofs.Engine.ActivationOrder
import SignalBoard.Proofs.Engine.Background
import SignalBoard.Proofs.Engine.Coherence
import SignalBoard.Proofs.Engine.Composition
import SignalBoard.Proofs.Engine.Fault
import SignalBoard.Proofs.Engine.Operation
import SignalBoard.Proofs.Engine.Plain
import SignalBoard.Proofs.Engine.Rejection
import SignalBoard.Proofs.Engine.Reordering
import SignalBoard.Proofs.Engine.Separation
import SignalBoard.Proofs.Engine.Snapshots
import SignalBoard.Proofs.Engine.Typing
import SignalBoard.Proofs.Engine.UndoConflicts
import SignalBoard.Proofs.Frame.Drawing
import SignalBoard.Proofs.Frame.Printing
import SignalBoard.Proofs.Module.Cadence
import SignalBoard.Proofs.Module.Edit
import SignalBoard.Proofs.Module.Loading
import SignalBoard.Proofs.RepeatExpression.Grouping
import SignalBoard.Proofs.RepeatExpression.Reading
import SignalBoard.Proofs.Session.BeatLimit
import SignalBoard.Proofs.Space.RowMajor
import SignalBoard.Proofs.Space.Size
import SignalBoard.Proofs.Text.Line
import SignalBoard.Proofs.Time.Beats
