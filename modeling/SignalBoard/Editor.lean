import SignalBoard.RepeatExpression

/-!
This module contains the editor, which turns what the operator types into actions. A command is the
new value of the property in focus, or selects or changes a property by its shortcut, or is a repeat
expression.
-/

namespace SignalBoard

inductive InputEvent where
  | char (c : Char)
  | backspace
  | confirm
  | cancel
  | arrow (direction : Direction)
  | undo
  | exit
deriving DecidableEq

/--
What a command amounts to.
-/
inductive Outcome where
  | actions (actions : List Action)
  /-- A property was selected, for the next command to give its new value. -/
  | focused (property : Property)
deriving DecidableEq

structure Editor where
  cursor : Position
  commandLine : String
  keytable : Keytable
  /-- The keys that select the properties of the module under the cursor. -/
  shortcuts : List (Char × Property)
  /-- The property whose new value the next command gives. -/
  focus : Option Property
  /-- The largest number that counts in a repeat expression. -/
  maxRepeat : Nat
deriving DecidableEq

namespace Editor

def new (keytable : Keytable) (maxRepeat : Nat) : Editor where
  cursor := .origin
  commandLine := ""
  keytable := keytable
  shortcuts := []
  focus := none
  maxRepeat := maxRepeat

/--
The 26 letters from `first` on.
-/
def alphabetFrom (first : Char) : List Char :=
  (List.range 26).map fun i => Char.ofNat (first.toNat + i)

/--
The keys that can become shortcuts, in the order in which they are given out.
-/
def letters : List Char :=
  alphabetFrom 'a' ++ alphabetFrom 'A'

/--
Give a free letter to every property, as long as there are free ones. Letters that the keytable
binds are not free.
-/
def shortcutsFor (keytable : Keytable) (props : PropertyMap) : List (Char × Property) :=
  (letters.filter fun key => !keytable.contains key).zip props

def updateShortcuts (e : Editor) (props : PropertyMap) : Editor :=
  { e with shortcuts := shortcutsFor e.keytable props }

/--
The shortcut of the property that is called `name`.
-/
def shortcutOf? (e : Editor) (name : String) : Option Char :=
  (e.shortcuts.find? fun (_, prop) => prop.name = name).map Prod.fst

def help (e : Editor) : List String :=
  e.shortcuts.map fun (key, prop) => s!"{key} - {prop.label} ({prop.kind.name}: {prop.value})"

def unfocus (e : Editor) : Editor :=
  { e with focus := none }

def cancel (e : Editor) : Editor :=
  { e with commandLine := "", focus := none }

/--
Follow the properties of the module under the cursor: the shortcuts are given out anew, and the focus
is dropped unless its property is still there as it was.
-/
def follow (e : Editor) (props : PropertyMap) : Editor :=
  { e with
    shortcuts := shortcutsFor e.keytable props
    focus := e.focus.filter fun prop => props.lookup prop.name = some prop }

/--
Interpret a command when no property is in focus.
-/
def interpretUnfocused (e : Editor) (command : String)
    : Except CommandError (Outcome × Editor) :=
  let expression :=
    match RepeatExpression.read e.keytable e.maxRepeat command with
    | .error error => .error error
    | .ok actions => .ok (.actions actions, e)
  match command.toList with
  | [] => expression
  | key :: value =>
    match e.shortcuts.lookup key with
    | none => expression
    | some prop =>
      if value.isEmpty then
        .ok (.focused prop, { e with focus := some prop })
      else
        .ok (.actions [.changeProperty [(prop.name, String.ofList value)]], e)

/--
Interpret a command. A refused command leaves the editor as it is.
-/
def interpret (e : Editor) (command : String) : Except CommandError (Outcome × Editor) :=
  match e.focus with
  | some prop => .ok (.actions [.changeProperty [(prop.name, command)]], e.unfocus)
  | none => e.interpretUnfocused command

/--
Take one input. The command line is typed and confirmed here; undoing and leaving are not the
editor's business.
-/
def input (e : Editor) (event : InputEvent) : Except CommandError (Option Outcome) × Editor :=
  match event with
  | .char c => (.ok none, { e with commandLine := e.commandLine.push c })
  | .backspace =>
    (.ok none, { e with commandLine := String.ofList e.commandLine.toList.dropLast })
  | .cancel => (.ok none, e.cancel)
  | .arrow direction => (.ok (some (.actions [.moveCursor direction])), e)
  | .confirm =>
    let cleared := { e with commandLine := "" }
    match cleared.interpret e.commandLine with
    | .error error => (.error error, cleared)
    | .ok (outcome, next) => (.ok (some outcome), next)
  | .undo => (.ok none, e)
  | .exit => (.ok none, e)

end Editor

end SignalBoard
