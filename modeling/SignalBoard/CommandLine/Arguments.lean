/-!
This module reads the arguments of the command line into the flags and parameters that they give,
without looking at the values. Arguments are read from left to right, and the first one that cannot be
read refuses them all.
-/

namespace SignalBoard

/--
What can be asked for without a value.
-/
inductive Flag where
  | verbose
  | quiet
  | help
  | version
deriving DecidableEq

/--
What can be given a value.
-/
inductive Parameter where
  | size
  | step
  | fps
  | config
  | ticks
  | completions
deriving DecidableEq

def Parameter.name : Parameter → String
  | .size => "size"
  | .step => "step"
  | .fps => "fps"
  | .config => "config"
  | .ticks => "ticks"
  | .completions => "completions"

/--
Why a command line is refused, or not carried out because it asks for information.
-/
inductive ArgumentError where
  | unknownArgument
  | emptyValue
  | argumentConflict
  | invalidValue
  | valueValidation (parameter : Parameter) (reason : String)
  | unexpectedMultipleUsage
  | helpDisplayed
  | versionDisplayed
deriving DecidableEq

def ArgumentError.message : ArgumentError → String
  | .unknownArgument => "error: Found an argument which was not expected"
  | .emptyValue => "error: An argument requires a value but none was supplied"
  | .argumentConflict => "error: Two arguments cannot be used together"
  | .invalidValue => "error: A value is not one of the possible values"
  | .valueValidation parameter reason =>
    s!"error: Invalid value for '--{parameter.name} <{parameter.name}>': {reason}"
  | .unexpectedMultipleUsage => "error: An argument was provided more than once"
  | .helpDisplayed => "The help text was asked for"
  | .versionDisplayed => "The version was asked for"

inductive Item where
  | flag (flag : Flag)
  | parameter (parameter : Parameter)

/--
Find what is named behind two dashes.
-/
def Item.ofLong? : String → Option Item
  | "verbose" => some (.flag .verbose)
  | "quiet" => some (.flag .quiet)
  | "help" => some (.flag .help)
  | "version" => some (.flag .version)
  | "size" => some (.parameter .size)
  | "step" => some (.parameter .step)
  | "fps" => some (.parameter .fps)
  | "config" => some (.parameter .config)
  | "ticks" => some (.parameter .ticks)
  | "completions" => some (.parameter .completions)
  | _ => none

/--
Find what is named by a letter behind one dash.
-/
def Item.ofShort? : Char → Option Item
  | 'v' => some (.flag .verbose)
  | 'q' => some (.flag .quiet)
  | 'h' => some (.flag .help)
  | 'V' => some (.flag .version)
  | 's' => some (.parameter .size)
  | 'c' => some (.parameter .config)
  | 't' => some (.parameter .ticks)
  | _ => none

/--
What the arguments so far have given.
-/
structure Arguments where
  verbose : Nat
  quiet : Nat
  /-- The parameters that were named, once for every time. -/
  named : List Parameter
  /-- The values that were given, in order. -/
  values : List (Parameter × String)
  /-- The parameter that the next argument can be the value of. -/
  pending : Option Parameter
  /-- Whether the argument `--` has ended the flags and parameters. -/
  ended : Bool

namespace Arguments

def empty : Arguments where
  verbose := 0
  quiet := 0
  named := []
  values := []
  pending := none
  ended := false

def flag (a : Arguments) : Flag → Except ArgumentError Arguments
  | .verbose => .ok { a with verbose := a.verbose + 1 }
  | .quiet => .ok { a with quiet := a.quiet + 1 }
  | .help => .error .helpDisplayed
  | .version => .error .versionDisplayed

/--
Name a parameter, with its value if the same argument holds it. Equality signs in front of the value
are dropped.
-/
def parameter (a : Arguments) (p : Parameter) (value : Option (List Char)) : Arguments :=
  match value with
  | none => { a with named := a.named ++ [p], pending := some p }
  | some cs =>
    { a with
      named := a.named ++ [p]
      values := a.values ++ [(p, String.ofList (cs.dropWhile (· = '=')))] }

/--
Read what stands behind two dashes: a name, or a name and a value with an equality sign between them.
A flag ignores the value.
-/
def long (a : Arguments) (cs : List Char) : Except ArgumentError Arguments :=
  let name := cs.takeWhile (· ≠ '=')
  let rest := cs.dropWhile (· ≠ '=')
  match Item.ofLong? (String.ofList name) with
  | none => .error .unknownArgument
  | some (.flag f) => a.flag f
  | some (.parameter p) => .ok (a.parameter p (if rest.isEmpty then none else some rest))

/--
Read the letters behind one dash. The rest behind the letter of a parameter is its value.
-/
def short (a : Arguments) : List Char → Except ArgumentError Arguments
  | [] => .ok a
  | c :: cs =>
    match Item.ofShort? c with
    | none => .error .unknownArgument
    | some (.flag f) =>
      match a.flag f with
      | .error error => .error error
      | .ok a => a.short cs
    | some (.parameter p) => .ok (a.parameter p (if cs.isEmpty then none else some cs))

/--
Read one argument. A single dash is no different from a word: both can only be the value of a
parameter that is waiting for one.
-/
def feed (a : Arguments) (argument : String) : Except ArgumentError Arguments :=
  if a.ended then
    .error .unknownArgument
  else
    match argument.toList with
    | ['-', '-'] => .ok { a with ended := true }
    | '-' :: '-' :: cs => { a with pending := none }.long (cs.dropWhile (· = '-'))
    | '-' :: c :: cs => { a with pending := none }.short (c :: cs)
    | _ =>
      match a.pending with
      | none => .error .unknownArgument
      | some p => .ok { a with values := a.values ++ [(p, argument)], pending := none }

def read (arguments : List String) : Except ArgumentError Arguments :=
  arguments.foldlM feed empty

def valuesOf (a : Arguments) (p : Parameter) : List String :=
  (a.values.filter (·.1 = p)).map Prod.snd

def count (a : Arguments) (p : Parameter) : Nat :=
  a.named.count p

end Arguments

end SignalBoard
