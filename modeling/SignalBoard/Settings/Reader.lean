import SignalBoard.Json.Reader
import SignalBoard.Settings.Basic

/-!
This module reads settings from JSON documents. A document is an object with the settings as members,
or an array of them in the order keytable, repeat limit, history limit; what is missing is set to its
default.
-/

namespace SignalBoard

namespace Settings

def maxLimit : Nat := UInt64.size - 1

def readLimit? : Json → Option Nat
  | .natural n => if n ≤ maxLimit then some n else none
  | _ => none

/--
A direction is written as its name, or as an object whose only member has that name and no value.
-/
def readDirection? : Json → Option Direction
  | .string (some name) => Direction.ofName? name
  | .object [(some name, .null)] => Direction.ofName? name
  | _ => none

/--
A binding is an object with one member, which is named for the action.
-/
def readBinding? : Json → Option Binding
  | .object [(some "change_type", .string (some target))] => some (.changeType target)
  | .object [(some "move_cursor", direction)] => (readDirection? direction).map .moveCursor
  | _ => none

/--
The member of a keytable is named for the key, which is a single character.
-/
def readEntry? (member : Option String × Json) : Option (Char × Binding) := do
  match (← member.1).toList with
  | [key] => return (key, ← readBinding? member.2)
  | _ => none

def readKeytable? : Json → Option Keytable
  | .object members => (members.mapM readEntry?).map Keytable.ofList
  | _ => none

/--
Which of the settings the document has given so far.
-/
structure Given where
  keytable : Option Keytable
  maxRepeat : Option Nat
  maxHistory : Option Nat

/--
The settings, where defaults stand in for what is not given.
-/
def ofGiven (given : Given) : Settings where
  keytable := given.keytable.getD default.keytable
  maxRepeat := given.maxRepeat.getD default.maxRepeat
  maxHistory := given.maxHistory.getD default.maxHistory

/--
Take one member of the object. A setting must not be given twice, and members that are no settings
are skipped.
-/
def readMember? (given : Given) (member : Option String × Json) : Option Given := do
  match ← member.1 with
  | "keytable" =>
    if given.keytable.isSome then none
    else return { given with keytable := some (← readKeytable? member.2) }
  | "max_repeat" =>
    if given.maxRepeat.isSome then none
    else return { given with maxRepeat := some (← readLimit? member.2) }
  | "max_history" =>
    if given.maxHistory.isSome then none
    else return { given with maxHistory := some (← readLimit? member.2) }
  | _ => return given

def ofJson? : Json → Option Settings
  | .object members => (members.foldlM readMember? ⟨none, none, none⟩).map ofGiven
  | .array [] => some (ofGiven ⟨none, none, none⟩)
  | .array [keytable] => do
    return ofGiven ⟨← readKeytable? keytable, none, none⟩
  | .array [keytable, maxRepeat] => do
    return ofGiven ⟨← readKeytable? keytable, ← readLimit? maxRepeat, none⟩
  | .array [keytable, maxRepeat, maxHistory] => do
    return ofGiven ⟨← readKeytable? keytable, ← readLimit? maxRepeat, ← readLimit? maxHistory⟩
  | _ => none

def read? (text : String) : Option Settings :=
  (Json.read? text).bind ofJson?

end Settings

end SignalBoard
