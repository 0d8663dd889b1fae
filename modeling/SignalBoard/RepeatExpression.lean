import SignalBoard.Keytable
import SignalBoard.Text.Numeral

/-!
This module reads repeat expressions such as `3h2l`: commands of one character each, where a number
repeats all commands that follow it up to the next number.
-/

namespace SignalBoard

inductive CommandError where
  | unknownCommand (command : Char)
deriving DecidableEq

def CommandError.message : CommandError → String
  | .unknownCommand command => s!"unknown command '{command}'"

namespace RepeatExpression

/--
The largest number that the reader counts to.
-/
def maxCount : Nat := UInt64.size - 1

/--
How far an expression has been read.
-/
structure State where
  /-- The actions of all finished groups. -/
  output : List Action
  /-- The actions of the group that is being read. -/
  staged : List Action
  /-- How often that group is to be repeated. -/
  count : Nat
  /-- Whether the last character was a digit. -/
  inNumber : Bool

namespace State

/--
The commands in front of the first number run once.
-/
def start : State where
  output := []
  staged := []
  count := 1
  inNumber := false

/--
Finish the group that is being read.
-/
def flush (s : State) : State :=
  { s with
    output := s.output ++ (List.replicate s.count s.staged).flatten
    staged := [] }

/--
Read one character. A number is cut off at `limit`.
-/
def feed (keytable : Keytable) (limit : Nat) (s : State) (c : Char) : Except CommandError State :=
  if c.isDigit then
    let s := if s.inNumber then s else { s.flush with count := 0, inNumber := true }
    .ok { s with count := min (Numeral.appendSaturating maxCount s.count c) limit }
  else
    match keytable.resolve? c with
    | none => .error (.unknownCommand c)
    | some action => .ok { s with staged := s.staged ++ [action], inNumber := false }

end State

/--
Read an expression, where no group runs more than `limit` times on account of its number. A character
that is neither a digit nor a bound key refuses it.
-/
def read (keytable : Keytable) (limit : Nat) (command : String)
    : Except CommandError (List Action) :=
  match command.toList.foldlM (State.feed keytable limit) State.start with
  | .error error => .error error
  | .ok s => .ok s.flush.output

end RepeatExpression

end SignalBoard
