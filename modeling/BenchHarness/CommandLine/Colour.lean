import BenchHarness.Log
import BenchHarness.Text.Search
import BenchHarness.Text.Styled
import BenchHarness.Text.Utf8

/-!
# Colour on the command line

When output is coloured, and how notes look on standard error.
-/

namespace BenchHarness

/-- When to use colour. -/
inductive ColourChoice where
  /-- As the environment has it. -/
  | auto
  | always
  | never
  deriving DecidableEq, Repr

namespace ColourChoice

/-- The name of a choice. -/
def name : ColourChoice → String
  | .auto => "auto"
  | .always => "always"
  | .never => "never"

/-- The choice of a name. -/
def ofName? (name : String) : Option ColourChoice :=
  [ColourChoice.auto, .always, .never].find? (·.name = name)

/-- A whole number below `2 ^ 64`, with or without a plus sign. -/
def wholeNumber? (s : String) : Option Nat :=
  let digits : List Char := match s.toList with
    | '+' :: rest => rest
    | cs => cs
  let n : Nat := digits.foldl (fun (n : Nat) c => n * 10 + (c.toNat - 48)) 0
  if digits ≠ [] ∧ digits.all Char.isDigit ∧ n < Nat.pow 2 64 then some n else none

/-- Whether the environment asks for colour on every output. -/
def isForced (environment : List (String × String)) : Bool :=
  match environment.lookup "FORCE_COLOR", environment.lookup "CLICOLOR_FORCE" with
  | some force, _ => force ≠ "false" && wholeNumber? force ≠ some 0
  | none, some force => force ≠ "0"
  | none, none => false

/-- Whether the environment rules colour out, unless it is asked for everywhere. The output is no
terminal here, so it is ruled out if that counts. -/
def isRuledOut (environment : List (String × String)) : Bool :=
  (environment.lookup "NO_COLOR").any (· ≠ "0") || environment.lookup "TERM" = some "dumb" ||
    ! (environment.lookup "IGNORE_IS_TERMINAL").any (· ≠ "0")

/-- The beginnings of the names of terminals that have colours. -/
def colourTerminals : List String := ["screen", "xterm", "vt100", "vt220", "rxvt"]

/-- What the names of other terminals that have colours contain. -/
def colourTerminalParts : List String := ["color", "ansi", "cygwin", "linux"]

/-- The ends of the names of terminals that have many colours. -/
def richTerminals : List String := ["direct", "truecolor", "256", "256color"]

/-- Whether a terminal of some name has colours. -/
def hasColours (terminal : String) : Bool :=
  colourTerminals.any (fun start => start.toList.isPrefixOf terminal.toList) ||
    colourTerminalParts.any (Text.contains · terminal) ||
    richTerminals.any fun ending => ending.toList.isSuffixOf terminal.toList

/-- Programs whose terminals have colours. -/
def terminalPrograms : List String := ["iTerm.app", "Apple_Terminal"]

/-- Variables that are set where builds run unattended, but their output is looked at. -/
def buildServices : List String := ["CI_NAME", "GITHUB_ACTION", "GITLAB_CI", "NETLIFY", "TRAVIS",
  "CODEBUILD_SRC_DIR", "BUILDER_OUTPUT", "GITLAB_DEPLOYMENT", "NOW_GITHUB_DEPLOYMENT",
  "NOW_BUILDER", "BITBUCKET_DEPLOYMENT", "GERRIT_PROJECT", "SYSTEM_TEAMFOUNDATIONCOLLECTIONURI",
  "BITRISE_IO", "BUDDY_WORKSPACE_ID", "BUILDKITE", "CIRRUS_CI", "APPVEYOR", "CIRCLECI",
  "SEMAPHORE", "DRONE", "DSARI", "TDDIUM", "STRIDER", "TASKCLUSTER_ROOT_URL", "JENKINS_URL",
  "bamboo.buildKey", "GO_PIPELINE_NAME", "HUDSON_URL", "WERCKER", "MAGNUM", "NEVERCODE", "RENDER",
  "SAIL_CI", "SHIPPABLE"]

/-- Whether the harness runs in an unattended build. -/
def isBuild (environment : List (String × String)) : Bool :=
  (environment.lookup "CI").any (["true", "1", "woodpecker"].contains ·) ||
    buildServices.any (fun name => (environment.lookup name).isSome) ||
    (environment.lookup "NODE").any fun path =>
      "//heroku/node/bin/node".toList.isSuffixOf path.toList

/-- Whether the environment has colours where they are not ruled out. -/
def isOffered (environment : List (String × String)) : Bool :=
  (environment.lookup "COLORTERM").isSome || (environment.lookup "TERM").any hasColours ||
    (environment.lookup "TERM_PROGRAM").any (terminalPrograms.contains ·) ||
    (environment.lookup "CLICOLOR").any (· ≠ "0") || isBuild environment

/-- Whether output is coloured if nothing is chosen. -/
def isOnByDefault (environment : List (String × String)) : Bool :=
  isForced environment || (! isRuledOut environment && isOffered environment)

/-- Whether a choice means colour. -/
def isOn (choice : ColourChoice) (environment : List (String × String)) : Bool :=
  match choice with
  | .auto => isOnByDefault environment
  | .always => true
  | .never => false

end ColourChoice

/-! ## Help and complaints about arguments -/

namespace Palette

/-- Whether help and complaints about arguments are coloured. -/
def isOn (environment : List (String × String)) : Bool :=
  let isSet (name : String) : Bool := (environment.lookup name).any (· ≠ "")
  ! isSet "NO_COLOR" && isSet "CLICOLOR_FORCE"

/-- Headings. -/
def heading : Style := ⟨[[1], [32]]⟩

/-- What is typed as it stands. -/
def literal : Style := ⟨[[1], [36]]⟩

/-- What something is to be put in place of. -/
def placeholder : Style := ⟨[[36]]⟩

/-- The word before a complaint. -/
def error : Style := ⟨[[1], [31]]⟩

/-- What is wrong. -/
def wrong : Style := ⟨[[33]]⟩

end Palette

namespace LogRecord

/-- The word before a note of some level. -/
def heading : Level → String
  | .error => "error"
  | .warn => "warning"
  | .info => "info"
  | .debug => "debug"
  | .trace => "trace"

/-- The style of that word. -/
def headingStyle (colour : Bool) : Level → Style
  | .error => if colour then .boldRed else .plain
  | .warn => if colour then .boldYellow else .plain
  | _ => if colour then .bold else .plain

/-- A note as a line; a cause has no heading. -/
def line (colour : Bool) (r : LogRecord) : Bytes :=
  let start : Styled :=
    if r.topic = .cause then []
    else [⟨headingStyle colour r.level, heading r.level⟩, .plain ": "]
  Utf8.encode (Styled.render (start ++ [.plain (r.message ++ "\n")]))

end LogRecord

end BenchHarness
