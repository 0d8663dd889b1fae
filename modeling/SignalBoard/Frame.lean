import SignalBoard.Board

/-!
This module contains frames, which hold all that is shown of an engine at one moment.
-/

namespace SignalBoard

/--
How a cell is emphasised.
-/
inductive Highlight where
  | none
  | cursor
  | pulse
deriving DecidableEq

structure Frame where
  chunks : Grid (Option (Block (Option Symbol)))
  cursor : Position
  /-- The positions of the pulses in flight. -/
  pulses : OrderedSet Position
  commandLine : String
  /-- What stands in front of the command line, if it is not the usual prompt. -/
  prompt : Option String
  help : List String
  status : Option String

namespace Frame

def size (f : Frame) : Size :=
  f.chunks.size

/--
How the cell at `p` is emphasised. The cursor hides a pulse.
-/
def highlight (f : Frame) (p : Position) : Highlight :=
  if p = f.cursor then
    .cursor
  else if p ∈ f.pulses then
    .pulse
  else
    .none

end Frame

/--
How every cell of the board is drawn.
-/
def Board.chunks (b : Board) : Grid (Option (Block (Option Symbol))) :=
  .ofFn b.size b.chunkAt?

end SignalBoard
