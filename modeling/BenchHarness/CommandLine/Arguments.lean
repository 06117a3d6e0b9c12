import BenchHarness.CommandLine.Option
import BenchHarness.Selection

/-!
# Arguments

The arguments of the command line are read from left to right. A value that stands in an argument of
its own is looked at when the next option or word comes, so an unknown option is complained about
before it. Options that are missing are taken from the environment.
-/

namespace BenchHarness

/-- Why arguments are refused. -/
inductive UsageError where
  | unknownArgument (argument : String)
  | missingValue (f : Flag)
  | invalidValue (f : Flag) (value : String)
  | unwantedValue (f : Flag) (value : String)
  | repeated (f : Flag)
  deriving DecidableEq, Repr

namespace UsageError

/-- The wording of an error. -/
def message : UsageError → Styled
  | .unknownArgument argument =>
    [.plain "unexpected argument \x27", ⟨Palette.wrong, argument⟩, .plain "\x27 found"]
  | .missingValue f =>
    [.plain "a value is required for \x27", ⟨Palette.wrong, f.shown⟩,
      .plain "\x27 but none was supplied"]
  | .invalidValue f value =>
    [.plain "invalid value \x27", ⟨Palette.wrong, value⟩, .plain "\x27 for \x27",
      ⟨Palette.literal, f.shown⟩, .plain "\x27"]
  | .unwantedValue f value =>
    [.plain "unexpected value \x27", ⟨Palette.wrong, value⟩, .plain "\x27 for \x27",
      ⟨Palette.literal, f.shown⟩, .plain "\x27 found; no more were expected"]
  | .repeated f =>
    [.plain "the argument \x27", ⟨Palette.wrong, f.shown⟩,
      .plain "\x27 cannot be used multiple times"]

/-- A complaint about an error. -/
def complaint (e : UsageError) : Styled :=
  [⟨Palette.error, "error:"⟩, .plain " "] ++ e.message ++ [.plain "\n"]

end UsageError

/-- What reading arguments comes to when it does not come to an end. -/
inductive Detour where
  | refused (e : UsageError)
  | help (full : Bool)
  | version
  deriving DecidableEq, Repr

/-- What the arguments say. -/
structure Arguments where
  mode : Option String
  root : Option String
  configFile : Option String
  format : Option ListFormat
  verbose : Bool
  colour : ColourChoice
  deriving DecidableEq, Repr

namespace Arguments

/-- What has been read so far. -/
structure Progress where
  mode : Option String
  /-- The options with their values. -/
  given : List (Flag × String)
  /-- An option that may still get its value, or whose value has not been looked at. -/
  pending : Option (Flag × Option String)
  deriving DecidableEq, Repr

namespace Progress

/-- Nothing read yet. -/
def start : Progress := ⟨none, [], none⟩

/-- Accepts the value of an option. -/
def accept (p : Progress) (f : Flag) (value : String) : Except Detour Progress :=
  if p.given.any (·.1 = f) then .error (.refused (.repeated f))
  else if f.accepts value then .ok { p with given := p.given ++ [(f, value)] }
  else if value = "" then .error (.refused (.missingValue f))
  else .error (.refused (.invalidValue f value))

/-- Looks at the pending option. -/
def settle (p : Progress) : Except Detour Progress :=
  match p.pending with
  | none => .ok p
  | some (f, none) => .error (.refused (.missingValue f))
  | some (f, some value) => { p with pending := none }.accept f value

/-- Takes an option without a value. -/
def takeFlag (p : Progress) (full : Bool) (f : Flag) : Except Detour Progress := do
  let p ← p.settle
  match f with
  | .help => throw (.help full)
  | .version => throw .version
  | f => p.accept f "true"

/-- Takes letters after a single dash. -/
def takeLetters (p : Progress) : List Char → Except Detour Progress
  | [] => .ok p
  | c :: rest =>
    match Flag.all.find? (·.short? = some c) with
    | none => .error (.refused (.unknownArgument (String.ofList ['-', c])))
    | some f => do (← p.takeFlag false f).takeLetters rest

/-- Takes an option given by name, with the value after an equals sign if there is one. -/
def takeLong (p : Progress) (name : String) (value : Option String) : Except Detour Progress :=
  match Flag.all.find? (·.long = name), value with
  | none, _ => .error (.refused (.unknownArgument ("--" ++ name)))
  | some f, value =>
    match f.placeholder?, value with
    | none, some value => .error (.refused (.unwantedValue f value))
    | none, none => p.takeFlag true f
    | some _, some value => do (← p.settle).accept f value
    | some _, none => do pure { ← p.settle with pending := some (f, none) }

/-- Takes a word, which is the mode. -/
def takeWord (p : Progress) (word : String) : Except Detour Progress :=
  match p.mode with
  | some _ => .error (.refused (.unknownArgument word))
  | none => do pure { ← p.settle with mode := some word }

/-- Takes an argument before any `--`. -/
def take (p : Progress) (word : String) : Except Detour Progress :=
  match word.toList with
  | '-' :: '-' :: rest =>
    let name := String.ofList (rest.takeWhile (· ≠ '='))
    match rest.dropWhile (· ≠ '=') with
    | _ :: value => p.takeLong name (some (String.ofList value))
    | [] => p.takeLong name none
  | '-' :: c :: rest => p.takeLetters (c :: rest)
  | _ =>
    match p.pending with
    | some (f, none) => .ok { p with pending := some (f, some word) }
    | _ => p.takeWord word

/-- Takes all arguments. After `--` every one of them is a word. -/
def takeAll (p : Progress) : List String → Except Detour Progress
  | [] => p.settle
  | "--" :: rest => do (← rest.foldlM takeWord p).settle
  | word :: rest => do takeAll (← p.take word) rest

/-- Takes an option that is missing from the environment. -/
def takeVariable (environment : List (String × String)) (p : Progress) (f : Flag) :
    Except Detour Progress :=
  match f.variableName?.bind fun name => environment.lookup name with
  | some value => if p.given.any (·.1 = f) then .ok p else p.accept f value
  | none => .ok p

/-- The arguments that have been read. -/
def arguments (p : Progress) : Arguments where
  mode := p.mode
  root := p.given.lookup .root
  configFile := p.given.lookup .configFile
  format := (p.given.lookup .messageFormat).bind ListFormat.ofName?
  verbose := p.given.lookup .verbose = some "true"
  colour := ((p.given.lookup .colour).bind ColourChoice.ofName?).getD .auto

end Progress

/-- Reads the arguments of the command line. -/
def parse (environment : List (String × String)) (words : List String) :
    Except Detour Arguments := do
  let p ← Progress.start.takeAll words
  let p ← Flag.all.foldlM (Progress.takeVariable environment) p
  pure p.arguments

/-- What is to be done. -/
def action (a : Arguments) : Action := Action.ofMode a.mode

end Arguments

end BenchHarness
