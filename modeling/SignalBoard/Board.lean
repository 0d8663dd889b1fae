import SignalBoard.Action
import SignalBoard.Module.Signals
import SignalBoard.OrderedSet
import SignalBoard.Space.Grid

/-!
This module contains the board: a module on every cell, the positions of the modules that send out
pulses of their own, and the pulses in flight. `Board.update` advances the pulses by one beat,
`Board.apply` and `Board.revert` change modules.
-/

namespace SignalBoard

structure Board where
  modules : Grid Module
  /-- The positions of the active modules, in the order of their activation. -/
  active : OrderedSet Position
  pulses : OrderedSet Pulse
deriving DecidableEq

namespace Board

def new (size : Size) : Board where
  modules := .ofFn size (Module.new .empty)
  active := .empty
  pulses := .empty

def size (b : Board) : Size :=
  b.modules.size

def get? (b : Board) (p : Position) : Option Module :=
  b.modules.get? p

/--
The properties of the module at `p`; there are none outside the board.
-/
def propertiesAt (b : Board) (p : Position) : PropertyMap :=
  match b.get? p with
  | some m => m.properties
  | none => []

def nameAt? (b : Board) (p : Position) : Option String :=
  (b.get? p).map Module.name

def chunkAt? (b : Board) (p : Position) : Option (Block (Option Symbol)) :=
  (b.get? p).bind Module.chunk?

/--
Whether a pulse can be added: it is on the board, and there is none like it.
-/
def accepts (b : Board) (pulse : Pulse) : Bool :=
  pulse.position ∈ b.size ∧ pulse ∉ b.pulses

def addPulse (b : Board) (pulse : Pulse) : Board :=
  if b.accepts pulse then { b with pulses := b.pulses.insert pulse } else b

/--
What becomes of a pulse in flight within one beat. What leaves the board is gone.
-/
def routePulse (b : Board) (pulse : Pulse) : List Pulse :=
  match b.get? pulse.position with
  | some m => (m.route pulse).filter (·.position ∈ b.size)
  | none => []

/--
The pulses that the module at `p` sends out on a beat.
-/
def emitAt (b : Board) (beat : Nat) (p : Position) : List Pulse :=
  match b.get? p with
  | some m => m.emit beat
  | none => []

/--
Advance the board by one beat. The pulses in flight are routed first, then the active modules send
out theirs, which are routed on the next beat. Equal pulses become one.
-/
def update (b : Board) (beat : Nat) : Board :=
  let routed := b.pulses.toList.flatMap b.routePulse
  let emitted := b.active.toList.flatMap (b.emitAt beat)
  { b with pulses := .ofList (routed ++ emitted) }

/--
Put a module on the cell `p`, and keep account of the active modules.
-/
def install (b : Board) (p : Position) (m : Module) : Board :=
  match b.modules.replace p m with
  | .error _ => b
  | .ok (previous, modules) =>
    let active := if previous.isActive then b.active.erase p else b.active
    { b with
      modules := modules
      active := if m.isActive then active.insert p else active }

/--
Replace the module at `p` by what `action` makes of it.
-/
def apply (b : Board) (action : Action) (p : Position) : Except ActionError (Board × Undo) :=
  match b.get? p with
  | none => .error (.outOfBounds p)
  | some current =>
    match action.apply current with
    | .error error => .error error
    | .ok (replacement, undo) => .ok (b.install p replacement, undo)

/--
Put back what an action at `p` replaced.
-/
def revert (b : Board) (undo : Undo) (p : Position) : Except ActionError Board :=
  match b.get? p with
  | none => .error (.outOfBounds p)
  | some current =>
    match undo.apply current with
    | .error error => .error error
    | .ok restored => .ok (b.install p restored)

end Board

end SignalBoard
