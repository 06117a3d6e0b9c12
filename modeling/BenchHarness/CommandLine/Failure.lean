import BenchHarness.Config.Problem
import BenchHarness.Discovery.Basic
import BenchHarness.Manifest
import BenchHarness.Run.Runner

/-!
# Failures of a command

Why a command does not succeed, how that is worded, and with which exit code it ends.
-/

namespace BenchHarness

/-- Why a command failed. -/
inductive CommandFailure where
  /-- The working directory has no path. -/
  | noCurrentDir (cause : IoError)
  /-- The path of the working directory is no text. -/
  | currentDirNotUtf8 (path : Bytes)
  /-- The working directory has no directory around it to search. -/
  | noDefaultRoot (currentDir : String)
  /-- An output format was given for something that is no list. -/
  | formatWithoutList (format : ListFormat)
  | config (e : ConfigError)
  | discovery (e : DiscoveryError)
  | runner (e : RunnerError)
  | output (e : WriteError)
  /-- Some test failed. -/
  | testsFailed
  deriving DecidableEq, Repr

namespace CommandFailure

/-- The first line about a failure, with names and paths in a style. -/
def heading (bold : Style) : CommandFailure → Styled
  | .noCurrentDir _ => [.plain "could not read current directory"]
  | .currentDirNotUtf8 _ => [.plain "current directory is not valid UTF-8"]
  | .noDefaultRoot dir =>
    [.plain "current directory \x60", ⟨bold, dir⟩,
      .plain "\x60 has no parent to search for tests in (hint: pass in --root)"]
  | .formatWithoutList format =>
    [.plain "--message-format ", ⟨bold, format.name⟩, .plain " is only supported with \x60",
      ⟨bold, listMode⟩, .plain "\x60"]
  | .config e =>
    [.plain "failed to parse simtest config at \x60", ⟨bold, e.file⟩, .plain "\x60"]
  | .discovery e => [.plain e.message]
  | .runner _ => [.plain "failed to build test runner"]
  | .output _ => [.plain "failed to write output"]
  | .testsFailed => [.plain "test run failed"]

/-- What caused a failure, the outermost cause first. -/
def causes : CommandFailure → List String
  | .noCurrentDir cause => cause.chain
  | .currentDirNotUtf8 path =>
    ["PathBuf contains invalid UTF-8: " ++ Utf8.decodeLossy path, "Path contains invalid UTF-8"]
  | .config e => e.problem.message :: e.problem.causes
  | .discovery e => e.causes.flatMap (·.chain)
  | .runner e => e.message :: e.causes
  | .output e => e.message :: e.cause.chain
  | .noDefaultRoot _ | .formatWithoutList _ | .testsFailed => []

/-- The exit code after a failure of the harness itself. -/
def setupCode : Nat := 1

/-- The exit code after a run in which a test failed. -/
def testsFailedCode : Nat := 1

/-- The exit code of a failure. -/
def exitCode : CommandFailure → Nat
  | .testsFailed => testsFailedCode
  | _ => setupCode

/-- What is noted about a failure. -/
def notes (bold : Style) (f : CommandFailure) : List LogRecord :=
  ⟨.error, .failure, (f.heading bold).render⟩ ::
    f.causes.map fun cause => ⟨.error, .cause, "\nCaused by:\n  " ++ cause⟩

end CommandFailure

end BenchHarness
