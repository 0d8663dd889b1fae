import SignalBoard.Space.Position

/-!
This module contains pulses, the signals that travel over the board.
-/

namespace SignalBoard

/--
A signal at a position, travelling in a direction.
-/
structure Pulse where
  position : Position
  direction : Direction
deriving DecidableEq, Inhabited

/--
The pulse one cell further along its direction.
-/
def Pulse.step (pulse : Pulse) : Pulse :=
  { pulse with position := pulse.position.moved pulse.direction }

/--
The pulse that leaves `position` in direction `d` and has reached the next cell.
-/
def Pulse.leaving (position : Position) (d : Direction) : Pulse :=
  Pulse.step ⟨position, d⟩

end SignalBoard
