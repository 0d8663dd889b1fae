import SignalBoard.CommandLine.Options

/-!
This module decides what the program does when it is started with a command line.
-/

namespace SignalBoard

inductive Launch where
  | inform (text : String)
  | fail (message : String)
  | session (config : SessionConfig)

namespace Launch

def versionText : String := "ilokalama 0.1.0"

def helpText : String :=
  "\n".intercalate [
    versionText,
    "Route pulses across a board of signal modules",
    "",
    "    -s, --size <size>                  Board size in modules [default: 20x12]",
    "        --step <step>                  Seconds per beat [default: 0.2]",
    "        --fps <fps>                    Loop iterations per second [default: 25]",
    "    -c, --config <config>              JSON settings file",
    "    -t, --ticks <ticks>                Stop after n beats",
    "        --completions <completions>    Name a shell for completions and exit",
    "    -q, --quiet                        Report less",
    "    -v, --verbose                      Report more",
    "    -h, --help                         Prints help information",
    "    -V, --version                      Prints version information"
  ]

/--
What to do for a command line. Asking for completions comes before everything else that the options
describe.
-/
def ofCommandLine (files : Options.Files) (arguments : List String) : Launch :=
  match Options.read files arguments with
  | .error .helpDisplayed => .inform helpText
  | .error .versionDisplayed => .inform versionText
  | .error error => .fail error.message
  | .ok options =>
    match options.completions with
    | some shell => .inform s!"# no completions for {shell.name}"
    | none =>
      match options.sessionConfig with
      | .error error => .fail error.message
      | .ok config => .session config

end Launch

end SignalBoard
