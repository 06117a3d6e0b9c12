import BenchHarness.CommandLine.Colour
import BenchHarness.Manifest

/-!
# Options of the command line

Every option with its spellings, the environment variable it falls back to, and what is said about
it. Reading arguments and printing help both work from this table.
-/

namespace BenchHarness

/-- An option of the command line. -/
inductive Flag where
  | root
  | configFile
  | messageFormat
  | verbose
  | colour
  | help
  | version
  deriving DecidableEq, Repr

namespace Flag

/-- All options, in the order in which they are shown. -/
def all : List Flag := [.root, .configFile, .messageFormat, .verbose, .colour, .help, .version]

/-- The name of an option, without its dashes. -/
def long : Flag → String
  | .root => "root"
  | .configFile => "config-file"
  | .messageFormat => "message-format"
  | .verbose => "verbose"
  | .colour => "color"
  | .help => "help"
  | .version => "version"

/-- The letter of an option. -/
def short? : Flag → Option Char
  | .verbose => some 'v'
  | .help => some 'h'
  | .version => some 'V'
  | _ => none

/-- What the value of an option is called, if it takes one. -/
def placeholder? : Flag → Option String
  | .root => some "DIR"
  | .configFile => some "PATH"
  | .messageFormat => some "FMT"
  | .colour => some "WHEN"
  | _ => none

/-- The environment variable that gives the value of an option that is missing. -/
def variableName? : Flag → Option String
  | .root => some "SIMTEST_ROOT"
  | .verbose => some "SIMTEST_VERBOSE"
  | .colour => some "CARGO_TERM_COLOR"
  | _ => none

/-- The value of an option as it is shown after a blank, if it takes one. -/
def shownValue? (f : Flag) : Option String := f.placeholder?.map fun name => "<" ++ name ++ ">"

/-- An option as it is shown. -/
def shown (f : Flag) : String :=
  "--" ++ f.long ++ (match f.shownValue? with
    | some value => " " ++ value
    | none => "")

/-- What an option is for. With `full`, as it is said in the full help. -/
def purpose (full : Bool) : Flag → String
  | .root => "Directory to search for tests [default: parent of the current directory]"
  | .configFile => "Config file [default: <root>/.config/simtest.toml]"
  | .messageFormat => "Output format for \x60list\x60 [default: plain]"
  | .verbose => "Verbose output"
  | .colour => "Produce color output: auto, always, never"
  | .help =>
    if full then "Print help (see a summary with \x27-h\x27)"
    else "Print help (see more with \x27--help\x27)"
  | .version => "Print version"

/-- What is added to the purpose of an option: where a missing value comes from, and what it may
be. -/
def remarks (environment : List (String × String)) (f : Flag) : List String :=
  (match f.variableName? with
    | some name => ["[env: " ++ name ++ "=" ++ (environment.lookup name).getD "" ++ "]"]
    | none => []) ++
  (match f with
    | .colour => ["[default: auto]"]
    | .messageFormat => ["[possible values: plain, json, json-pretty]"]
    | _ => [])

/-- Whether a text can be the value of an option. -/
def accepts : Flag → String → Bool
  | .messageFormat, value => (ListFormat.ofName? value).isSome
  | .colour, value => (ColourChoice.ofName? value).isSome
  | .verbose, value => value = "true" || value = "false"
  | _, _ => true

end Flag

end BenchHarness
