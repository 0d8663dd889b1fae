import SignalBoard.Engine
import SignalBoard.Frame.Text

/-!
This module contains sessions, in which an operator types lines and sees frames. A session goes
through turns: `Session.turn` says what happens in one of them, and `Session.run` in a list of them.
-/

namespace SignalBoard

/--
The inputs that a typed line stands for. Three lines are control words; any other line is typed
character by character and confirmed.
-/
def lineEvents (line : String) : List InputEvent :=
  if line = ":quit" then
    [.exit]
  else if line = ":undo" then
    [.undo]
  else if line = ":cancel" then
    [.cancel]
  else
    line.toList.map .char ++ [.confirm]

/--
The typed line that a line of input holds, which is all but the line end.
-/
def typedLine (input : String) : String :=
  match input.toList.reverse with
  | '\n' :: '\r' :: cs => String.ofList cs.reverse
  | '\n' :: cs => String.ofList cs.reverse
  | _ => input

/--
What comes in between two turns.
-/
structure Turn where
  /-- The lines that were typed. -/
  lines : List String
  /-- Whether no line can follow. -/
  closed : Bool
  /-- The time since the last turn. -/
  elapsed : Duration

structure Session where
  engine : Engine
  /-- The number of beats after which the session ends. -/
  limit : Option Nat

structure TurnResult where
  session : Session
  /-- The lines that are written. -/
  output : List String
  finished : Bool

namespace Session

def drawing (s : Session) : String :=
  s.engine.frame.render

/--
Feed typed lines to the engine until one of them asks to leave.
-/
def feed (e : Engine) : List String → Control × Engine
  | [] => (.proceed, e)
  | line :: rest =>
    match e.handleAll (lineEvents line) with
    | (.exit, e) => (.exit, e)
    | (.proceed, e) => feed e rest

def atLimit (s : Session) : Bool :=
  match s.limit with
  | none => false
  | some limit => limit ≤ s.engine.beats

/--
One turn. Lines are taken first, and without a limit the session ends when there can be no more.
Then the time passes. A frame is drawn if there was a line or a beat, and after that the session ends
if it has reached its limit.
-/
def turn (s : Session) (t : Turn) : Except ClockError TurnResult :=
  match feed s.engine t.lines with
  | (.exit, e) => .ok ⟨{ s with engine := e }, [], true⟩
  | (.proceed, e) =>
    if t.closed && s.limit.isNone then
      .ok ⟨{ s with engine := e }, [], true⟩
    else
      match e.update t.elapsed with
      | .error error => .error error
      | .ok (ticked, e) =>
        let s := { s with engine := e }
        let announced := if ticked then [beatLine (e.beats - 1)] else []
        let drawn := if ticked || !t.lines.isEmpty then [s.drawing] else []
        .ok ⟨s, announced ++ drawn, s.atLimit⟩

/--
The lines that are written in a list of turns, up to the turn that finishes the session.
-/
def runTurns (s : Session) : List Turn → Except ClockError (List String)
  | [] => .ok []
  | t :: rest =>
    match s.turn t with
    | .error error => .error error
    | .ok r =>
      if r.finished then
        .ok r.output
      else
        match r.session.runTurns rest with
        | .error error => .error error
        | .ok output => .ok (r.output ++ output)

/--
The lines that are written in a session: the frame at its start, and what the turns add.
-/
def run (s : Session) (turns : List Turn) : Except ClockError (List String) :=
  match s.runTurns turns with
  | .error error => .error error
  | .ok output => .ok (s.drawing :: output)

end Session

end SignalBoard
