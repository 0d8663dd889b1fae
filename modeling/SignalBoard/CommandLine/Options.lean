import SignalBoard.CommandLine.Arguments
import SignalBoard.FileTree
import SignalBoard.Session
import SignalBoard.Settings.Reader
import SignalBoard.Time.Seconds

/-!
This module contains the options of the command line, which are the values of its arguments, and the
session that they describe.
-/

namespace SignalBoard

inductive Shell where
  | zsh
  | bash
  | fish
  | powershell
  | elvish
deriving DecidableEq

namespace Shell

def all : List Shell := [.zsh, .bash, .fish, .powershell, .elvish]

def name : Shell → String
  | .zsh => "Zsh"
  | .bash => "Bash"
  | .fish => "Fish"
  | .powershell => "PowerShell"
  | .elvish => "Elvish"

def lowerAscii (text : String) : List Char :=
  text.toList.map Char.toLower

/--
Find the shell that is called `text`, where the case of ASCII letters does not matter.
-/
def ofName? (text : String) : Option Shell :=
  all.find? fun shell => lowerAscii shell.name = lowerAscii text

end Shell

/--
How much is reported about what goes on.
-/
inductive Level where
  | off
  | error
  | warn
  | info
  | debug
  | trace
deriving DecidableEq

namespace Level

def name : Level → String
  | .off => "OFF"
  | .error => "ERROR"
  | .warn => "WARN"
  | .info => "INFO"
  | .debug => "DEBUG"
  | .trace => "TRACE"

/--
The level for a number of requests to report more and one of requests to report less, both counted
modulo 256.
-/
def ofCounts (verbose quiet : Nat) : Level :=
  match quiet % 256 with
  | 0 =>
    match verbose % 256 with
    | 0 => .warn
    | 1 => .info
    | 2 => .debug
    | _ => .trace
  | 1 => .error
  | _ => .off

end Level

structure Options where
  size : Size
  step : Duration
  fps : Nat
  config : Option Settings
  ticks : Option Nat
  completions : Option Shell
  level : Level

namespace Options

/--
Files as far as they are known: what is opened at a path, or the reason why nothing is.
-/
abbrev Files := String → Except OpenError Opened

/--
Blame a parameter for a value that cannot be read.
-/
def validated {α : Type} (p : Parameter) (result : Except String α) : Except ArgumentError α :=
  result.mapError (.valueValidation p)

def readSize (text : String) : Except ArgumentError Size :=
  validated .size ((Size.read text).mapError (·.message))

def readStep (text : String) : Except ArgumentError Duration :=
  validated .step ((Duration.readSeconds text).mapError (·.message))

def readNumber (p : Parameter) (limit : Nat) (text : String) : Except ArgumentError Nat :=
  validated p ((Numeral.read limit text.toList).mapError (·.message))

def readConfig (files : Files) (path : String) : Except ArgumentError Settings :=
  validated .config <|
    match files path with
    | .error error => .error s!"Failed to open config file: {error.message}"
    | .ok .unreadable => .error "Failed to parse config file: nothing to read"
    | .ok (.text text) =>
      match Settings.read? text with
      | none => .error "Failed to parse config file: not a document with settings"
      | some settings => .ok settings

def readShell (text : String) : Except ArgumentError Shell :=
  match Shell.ofName? text with
  | none => .error .invalidValue
  | some shell => .ok shell

/--
Read all values of a parameter, and take its only one. The parameter must not be named twice, and must
have a value if it is named.
-/
def single {α : Type} (a : Arguments) (p : Parameter) (read : String → Except ArgumentError α)
    : Except ArgumentError (Option α) := do
  if a.count p = 0 then
    return none
  else
    let values ← (a.valuesOf p).mapM read
    if values.isEmpty then
      throw .emptyValue
    else if 1 < a.count p then
      throw .unexpectedMultipleUsage
    else
      return values.head?

/--
Read the only value of a parameter, which has a default for when it is given none.
-/
def singleOr {α : Type} (a : Arguments) (p : Parameter) (default : String)
    (read : String → Except ArgumentError α) : Except ArgumentError α := do
  let given := a.valuesOf p
  let values ← (if given.isEmpty then [default] else given).mapM read
  if 1 < a.count p then
    throw .unexpectedMultipleUsage
  else
    match values with
    | value :: _ => return value
    | [] => throw .emptyValue

def maxFps : Nat := UInt32.size - 1

/--
The largest number of beats that can be asked for.
-/
def maxTicks : Nat := UInt64.size - 1

/--
Whether a parameter is the last thing that was named, and neither has a value nor a default.
-/
def lacksValue (a : Arguments) : Bool :=
  match a.pending with
  | none => false
  | some p => (p = .config ∨ p = .ticks ∨ p = .completions) ∧ a.valuesOf p = []

def ofArguments (files : Files) (a : Arguments) : Except ArgumentError Options := do
  if lacksValue a then
    throw .emptyValue
  if a.verbose ≠ 0 ∧ a.quiet ≠ 0 then
    throw .argumentConflict
  let size ← singleOr a .size "20x12" readSize
  let step ← singleOr a .step "0.2" readStep
  let fps ← singleOr a .fps "25" (readNumber .fps maxFps)
  let config ← single a .config (readConfig files)
  let ticks ← single a .ticks (readNumber .ticks maxTicks)
  let completions ← single a .completions readShell
  return {
    size := size
    step := step
    fps := fps
    config := config
    ticks := ticks
    completions := completions
    level := .ofCounts a.verbose a.quiet
  }

def read (files : Files) (arguments : List String) : Except ArgumentError Options := do
  ofArguments files (← Arguments.read arguments)

/--
The files that a command line names, whatever else may be wrong with it.
-/
def namedFiles (arguments : List String) : List String :=
  match Arguments.read arguments with
  | .error _ => []
  | .ok a => a.valuesOf .config

end Options

structure SessionConfig where
  size : Size
  step : Duration
  fps : Nat
  ticks : Option Nat
  settings : Settings

inductive ConfigError where
  | noFrames
deriving DecidableEq

def ConfigError.message : ConfigError → String
  | .noFrames => "fps must be at least 1"

def Options.sessionConfig (o : Options) : Except ConfigError SessionConfig :=
  if o.fps = 0 then
    .error .noFrames
  else
    .ok {
      size := o.size
      step := o.step
      fps := o.fps
      ticks := o.ticks
      settings := o.config.getD .default
    }

def Session.start (config : SessionConfig) : Session where
  engine := .new config.size config.step config.settings
  limit := config.ticks

end SignalBoard
