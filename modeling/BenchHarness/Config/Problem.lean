import BenchHarness.Words

/-!
# What is wrong with a configuration
-/

namespace BenchHarness

/-- Why a configuration is refused. -/
inductive ConfigProblem where
  /-- The named file cannot be used. -/
  | unusable (message : String)
  /-- The file is not TOML. -/
  | notToml
  /-- A setting that must be a text cannot become one. -/
  | notText (found key : String) (source : Option String)
  /-- A setting that must be there is not. -/
  | missing (key : String)
  /-- A setting has the wrong shape in another way. -/
  | wrongShape (message key : String)
  /-- A text that must not be empty is empty. -/
  | emptyValue (key : String)
  /-- The launcher has a quote that is not closed. -/
  | badLauncher (launcher : String)
  deriving DecidableEq, Repr

namespace ConfigProblem

/-- The wording of a problem. -/
def message : ConfigProblem → String
  | .unusable message => message
  | .notToml => "the file is not TOML"
  | .notText found key source =>
    "invalid type: " ++ found ++ ", expected a string for key \x60" ++ key ++ "\x60" ++
      (match source with
        | some source => " in " ++ source
        | none => "")
  | .missing key => "missing configuration field \x22" ++ key ++ "\x22"
  | .wrongShape message key => message ++ " for key \x60" ++ key ++ "\x60"
  | .emptyValue key => "\x60" ++ key ++ "\x60 must not be empty"
  | .badLauncher launcher => "failed to split launcher \x60" ++ launcher ++ "\x60 into arguments"

/-- What caused a problem, if there is more to say. -/
def causes : ConfigProblem → List String
  | .badLauncher _ => [Words.unclosedQuote]
  | _ => []

end ConfigProblem

/-- A problem and the file in which it was found. -/
structure ConfigError where
  file : String
  problem : ConfigProblem
  deriving DecidableEq, Repr

/-- The wording of the error itself. -/
def ConfigError.message (e : ConfigError) : String :=
  "failed to parse simtest config at \x60" ++ e.file ++ "\x60"

end BenchHarness
