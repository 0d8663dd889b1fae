import SignalBoard.Module.Slot
import SignalBoard.Space.Size

/-!
This module contains the actions that an operator can take, and their inverses. `Action.apply` gives
the module that an action puts in place of another one together with the `Undo` that leads back, and
`Undo.apply` goes back unless the module has changed in between.
-/

namespace SignalBoard

inductive Action where
  /-- Replace the module by a new one of the kind that is called `target`. -/
  | changeType (target : String)
  | changeProperty (changes : Changes)
  /-- Move the cursor by one cell. -/
  | moveCursor (direction : Direction)
deriving DecidableEq, Inhabited

inductive Scope where
  | cell
  | editor
deriving DecidableEq

inductive ActionError where
  | kind (error : KindError)
  | property (error : PropertyError)
  | outOfBounds (position : Position)
  | wrongScope (action : String)
  | typeConflict (target current : String)
  | propertyConflict
deriving DecidableEq

def ActionError.message : ActionError → String
  | .kind error => error.message
  | .property error => error.message
  | .outOfBounds position => s!"position {position.render} is outside the board"
  | .wrongScope action => s!"{action} cannot be applied to a module"
  | .typeConflict target current =>
    s!"tried to undo, but target was '{target}' while the current module is '{current}'"
  | .propertyConflict => "tried to undo, but the properties changed since the edit"

/--
The way back from an applied action.
-/
inductive Undo where
  /-- Put back the module that a new one of the kind called `target` replaced. -/
  | restoreModule (target : String) (replaced : Module)
  /-- Write the properties from before an edit, if those from after it are still there. -/
  | restoreProperties (before after : PropertyMap)
deriving DecidableEq

namespace Undo

/--
The module to put in place of `current`. It is refused when `current` no longer looks like what the
action left behind: it is of another kind, or has other properties.
-/
def apply (undo : Undo) (current : Module) : Except ActionError Module :=
  match undo with
  | .restoreModule target replaced =>
    if current.name = ModuleKind.normalize target then
      .ok replaced
    else
      .error (.typeConflict target current.name)
  | .restoreProperties before after =>
    if current.properties = after then
      (current.edit before.asChanges).mapError .property
    else
      .error .propertyConflict

end Undo

namespace Action

def scope : Action → Scope
  | .changeType _ => .cell
  | .changeProperty _ => .cell
  | .moveCursor _ => .editor

def name : Action → String
  | .changeType _ => "change type"
  | .changeProperty _ => "change property"
  | .moveCursor _ => "move cursor"

/--
The module that the action puts in place of `m`, together with the way back.
-/
def apply (action : Action) (m : Module) : Except ActionError (Module × Undo) :=
  match action with
  | .changeType target =>
    match Module.ofName target m.position with
    | .error error => .error (.kind error)
    | .ok replacement => .ok (replacement, .restoreModule target m)
  | .changeProperty changes =>
    match m.edit changes with
    | .error error => .error (.property error)
    | .ok edited => .ok (edited, .restoreProperties m.properties edited.properties)
  | .moveCursor _ => .error (.wrongScope action.name)

/--
Where the action takes the cursor on a board of the given size. Only moves take it anywhere, and
they stop at the edge.
-/
def applyToCursor (action : Action) (cursor : Position) (size : Size) : Position :=
  match action with
  | .moveCursor direction => size.clamp (cursor.moved direction)
  | _ => cursor

end Action

end SignalBoard
