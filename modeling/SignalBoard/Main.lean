import SignalBoard.CommandLine.Launch

/-!
This module contains the program: it connects a session to the command line, the clock, and the
standard input and output.
-/

namespace SignalBoard

namespace Program

/--
The lines that have come in and were not taken yet, and whether no more can come.
-/
structure Inbox where
  lines : List String
  closed : Bool

/--
Put lines of input into the inbox until there are no more.
-/
partial def readLines (inbox : IO.Ref Inbox) (input : IO.FS.Stream) : IO Unit := do
  let line ← try input.getLine catch _ => pure ""
  if line.isEmpty then
    inbox.modify fun box => { box with closed := true }
  else
    inbox.modify fun box => { box with lines := box.lines ++ [typedLine line] }
    readLines inbox input

/--
Take all lines out of the inbox.
-/
def takeLines (inbox : IO.Ref Inbox) : IO Inbox :=
  inbox.modifyGet fun box => (box, { box with lines := [] })

/--
Play turns until the session is finished.
-/
partial def play (session : Session) (inbox : IO.Ref Inbox) (output : IO.FS.Stream) (pause last : Nat)
    : IO UInt32 := do
  let box ← takeLines inbox
  let now ← IO.monoNanosNow
  match Duration.ofNanoseconds? (now - last) with
  | none => return 1
  | some elapsed =>
    match session.turn ⟨box.lines, box.closed, elapsed⟩ with
    | .error error =>
      IO.eprintln error.message
      return 101
    | .ok result =>
      for line in result.output do
        output.putStrLn line
      output.flush
      if result.finished then
        return 0
      else
        IO.sleep pause.toUInt32
        play result.session inbox output pause now

/--
Draw the first frame of a session and play it.
-/
def start (config : SessionConfig) : IO UInt32 := do
  let session := Session.start config
  let output ← IO.getStdout
  output.putStrLn session.drawing
  output.flush
  let inbox ← IO.mkRef (⟨[], false⟩ : Inbox)
  let input ← IO.getStdin
  let _ ← IO.asTask (readLines inbox input) .dedicated
  play session inbox output (1000 / config.fps) (← IO.monoNanosNow)

/--
The reason that the system gives for a file that it does not open.
-/
def openError : IO.Error → OpenError
  | .noFileOrDirectory .. => .notFound
  | .permissionDenied .. => .permissionDenied
  | .inappropriateType .. => .notDirectory
  | .invalidArgument _ 36 _ => .nameTooLong
  | error => .other error.toString

/--
Open a file and read it to its end.
-/
def openFile (path : String) : IO (Except OpenError Opened) := do
  match Path.error? path with
  | some error => return .error error
  | none =>
    match ← (IO.FS.Handle.mk path .read).toBaseIO with
    | .error error => return .error (openError error)
    | .ok handle =>
      match ← handle.readToEnd.toBaseIO with
      | .error _ => return .ok .unreadable
      | .ok content => return .ok (.text content)

/--
What is opened at the paths that a command line names.
-/
def openFiles (arguments : List String) : IO Options.Files := do
  let opened ← (Options.namedFiles arguments).mapM fun path => do
    return (path, ← openFile path)
  return fun path => (opened.lookup path).getD (.error .notFound)

/--
Do what a command line asks for. The result is the exit code.
-/
def run (arguments : List String) : IO UInt32 := do
  match Launch.ofCommandLine (← openFiles arguments) arguments with
  | .inform text =>
    IO.println text
    return 0
  | .fail message =>
    IO.eprintln message
    return 1
  | .session config => start config

end Program

end SignalBoard

def main (arguments : List String) : IO UInt32 :=
  SignalBoard.Program.run arguments
