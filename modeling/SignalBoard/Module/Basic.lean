import SignalBoard.Block
import SignalBoard.Module.Kind
import SignalBoard.Property.Value
import SignalBoard.Space.Position

/-!
This module contains modules, the devices that stand on the cells of the board.
-/

namespace SignalBoard

/--
A character with its colors.
-/
structure Symbol where
  glyph : Char
  foreground : Color
  background : Color
deriving DecidableEq, Inhabited

namespace Symbol

/--
The background of every symbol that is newly put on the board.
-/
def defaultBackground : Color := ⟨31, 31, 31⟩

def ofGlyph (glyph : Char) (foreground : Color) : Symbol :=
  ⟨glyph, foreground, defaultBackground⟩

end Symbol

/--
The settings of a spreader.
-/
structure Spreader where
  symbol : Symbol
  inputs : Directions
  outputs : Directions
deriving DecidableEq, Inhabited

/--
A new spreader takes pulses from everywhere and sends them to the right.
-/
def Spreader.default : Spreader where
  symbol := .ofGlyph ']' ⟨255, 63, 0⟩
  inputs := .all
  outputs := .only .right

/--
The settings of an emitter.
-/
structure Emitter where
  symbol : Symbol
  outputs : Directions
  interval : UInt32
  offset : UInt32
deriving DecidableEq, Inhabited

/--
A new emitter sends a pulse upwards on every fifth beat.
-/
def Emitter.default : Emitter where
  symbol := .ofGlyph 'O' ⟨191, 255, 0⟩
  outputs := .only .up
  interval := 5
  offset := 0

/--
A kind together with the settings that modules of this kind have.
-/
inductive Body where
  | empty
  | spreader (settings : Spreader)
  | emitter (settings : Emitter)
deriving DecidableEq, Inhabited

namespace Body

def kind : Body → ModuleKind
  | .empty => .empty
  | .spreader _ => .spreader
  | .emitter _ => .emitter

/--
The body of a new module.
-/
def ofKind : ModuleKind → Body
  | .empty => .empty
  | .spreader => .spreader .default
  | .emitter => .emitter .default

def symbol? : Body → Option Symbol
  | .empty => none
  | .spreader s => some s.symbol
  | .emitter e => some e.symbol

@[simp]
theorem kind_ofKind (kind : ModuleKind) : (ofKind kind).kind = kind := by
  cases kind <;> rfl

end Body

/--
A module, which knows the position that it sends its pulses from.
-/
structure Module where
  position : Position
  body : Body
deriving DecidableEq, Inhabited

namespace Module

def new (kind : ModuleKind) (position : Position) : Module :=
  ⟨position, .ofKind kind⟩

/--
The new module of the kind that is called `text`.
-/
def ofName (text : String) (position : Position) : Except KindError Module :=
  match ModuleKind.ofName? text with
  | some kind => .ok (new kind position)
  | none => .error (.unknown (ModuleKind.normalize text))

def kind (m : Module) : ModuleKind :=
  m.body.kind

def name (m : Module) : String :=
  m.kind.name

/--
Whether the module sends out pulses of its own.
-/
def isActive (m : Module) : Bool :=
  m.kind = .emitter

/--
How the module is drawn: its symbol in the middle of a block. An empty module is not drawn.
-/
def chunk? (m : Module) : Option (Block (Option Symbol)) :=
  m.body.symbol?.map fun symbol =>
    Block.ofFn fun row column => if row.val = 1 ∧ column.val = 1 then some symbol else none

@[simp]
theorem kind_new (kind : ModuleKind) (position : Position) : (new kind position).kind = kind := by
  simp [new, Module.kind]

@[simp]
theorem position_new (kind : ModuleKind) (position : Position)
    : (new kind position).position = position := rfl

end Module

end SignalBoard
