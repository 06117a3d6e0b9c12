import BenchHarness.CommandLine.Arguments
import BenchHarness.CommandLine.Failure
import BenchHarness.CommandLine.Help
import BenchHarness.CommandLine.LogFilter
import BenchHarness.Config.Sources
import BenchHarness.Output.Buffered
import BenchHarness.Run.Runner

/-!
# The command line

What the arguments make the harness do: print help, list the tests, or run them. Everything that
reaches standard output goes through a buffer which is flushed after every event, so the output of
the tests stands where it belongs.
-/

namespace BenchHarness

/-- Whether each of the two streams is coloured. -/
structure Colours where
  stdout : Bool
  stderr : Bool
  deriving DecidableEq, Repr

namespace CommandLine

/-- The absolute path of the directory to search: the given one as seen from the working directory,
or else the one around the working directory. -/
def resolveRoot (m : Machine) (root : Option String) : Except CommandFailure String :=
  match m.currentDir with
  | .error e => .error (.noCurrentDir e)
  | .ok path =>
    match Utf8.decode? path, root with
    | none, _ => .error (.currentDirNotUtf8 path)
    | some current, some root => .ok (Path.join current root)
    | some current, none =>
      match Path.parent? current with
      | some parent => .ok parent
      | none => .error (.noDefaultRoot current)

/-- Writes through a buffer and gives it up. -/
def writeOut (write : Buffered → Option WriteError × Buffered) (console : Console) :
    Option WriteError × Console :=
  match write (.ofConsole console) with
  | (some e, b) => (some e, b.close)
  | (none, b) =>
    let (error, b) := b.flush
    (error.map .io, b.close)

/-- Turns the result of writing into that of a command. -/
def afterWriting (w : World) (result : Option WriteError × Console) :
    Except CommandFailure Nat × World :=
  let (error, console) := result
  (match error with
    | none => .ok 0
    | some e => .error (.output e), { w with console := console })

/-- Prints the list of modes. -/
def showModes (colours : Colours) (w : World) : Except CommandFailure Nat × World :=
  let text := Utf8.encode (Help.modeList colours.stdout).render
  let write (b : Buffered) : Option WriteError × Buffered :=
    let (error, b) := b.write text
    (error.map .io, b)
  afterWriting w (writeOut write w.console)

/-- Lists tests. -/
def listTests (colours : Colours) (format : ListFormat) (tests : TestList) (w : World) :
    Except CommandFailure Nat × World :=
  let theme := Theme.ofColour colours.stdout
  afterWriting w (writeOut (tests.write Buffered.put theme format) w.console)

/-- Writes the text of every event through a buffer and flushes it. -/
def reporter (theme : Theme) : Follower WriteError Bytes := fun e (console, pending) =>
  let (error, b) := Report.writeEvent Buffered.put theme e ⟨console, pending⟩
  match error with
  | some e => ((b.console, b.pending), some e)
  | none =>
    let (error, b) := b.flush
    ((b.console, b.pending), error.map .io)

/-- Runs the tests of a selection, if a runner can be made. -/
def runTests (launch : Launch) (colours : Colours) (made : Except RunnerError Runner)
    (selection : Selection) (w : World) : Except CommandFailure Nat × World :=
  let w := { w with console := w.console.noteAll selection.notes }
  match made with
  | .error e => (.error (.runner e), w)
  | .ok runner =>
    let (result, state) :=
      runner.tryExecute launch (reporter (.ofColour colours.stdout)) selection ⟨w, []⟩
    let w := { state.world with console := Buffered.close ⟨state.world.console, state.follower⟩ }
    match result with
    | .error e => (.error (.output e), w)
    | .ok summary => (if summary.isSuccess then .ok summary.exitCode else .error .testsFailed, w)

/-- The configuration and the discovered tests of a command, with the notes made on the way. -/
def prepare (a : Arguments) (w : World) :
    Except (CommandFailure × World) (Config × TestList × World) := do
  let root ← (resolveRoot w.machine a.root).mapError (·, w)
  let config ← (Config.fromSources w.machine.files w.machine.cwd root a.configFile).mapError
    (.config ·, w)
  let noted (notes : List LogRecord) : World := { w with console := w.console.noteAll notes }
  let view := w.machine.files.rootView w.machine.cwd root
  let (tests, notes) ← (TestList.discover config.rule.classifier root view).mapError
    fun failed => (.discovery failed.1, noted failed.2)
  pure (config, tests, (noted notes).note .debug .commandLine
    ("discovered " ++ toString tests.entries.length ++ " tests under \x60" ++ root ++ "\x60"))

/-- Does what the arguments say, and gives the exit code. -/
def execute (engine : Engine) (launch : Launch) (a : Arguments) (colours : Colours) (w : World) :
    Except CommandFailure Nat × World :=
  match a.action, a.format with
  | .showHelp, _ => showModes colours w
  | .runAll, some format => (.error (.formatWithoutList format), w)
  | .runFiltered _, some format => (.error (.formatWithoutList format), w)
  | action, format =>
    match prepare a w with
    | .error (e, w) => (.error e, w)
    | .ok (config, tests, w) =>
      match action with
      | .listOnly => listTests colours (format.getD .plain) tests w
      | action => runTests launch colours (config.makeRunner engine) (.ofAction tests action) w

/-- Notes a failure and gives the exit code. -/
def conclude (colours : Colours) (result : Except CommandFailure Nat × World) : Nat × World :=
  match result with
  | (.ok code, w) => (code, w)
  | (.error e, w) =>
    let bold := if colours.stderr then Style.bold else .plain
    (e.exitCode, { w with console := w.console.noteAll (e.notes bold) })

/-! ## The whole program -/

/-- The exit code for arguments that are refused. -/
def usageCode : Nat := 2

/-- The exit code for a log filter that cannot be read. -/
def brokenFilterCode : Nat := 101

/-- The variable that holds the log filter. -/
def filterVariable : String := "SIMTEST_LOG"

/-- The filter for notes: the one in the environment if there is one, otherwise everything up to
info, or up to debug if asked for. -/
def filterFor (environment : List (String × String)) (verbose : Bool) : Option LogFilter :=
  let text := (environment.lookup filterVariable).getD ""
  if text = "" then some (.upTo (if verbose then .debug else .info)) else LogFilter.parse text

/-- Writes help or a complaint to a stream; nothing can be done about it if that fails. Without
colour all control sequences are taken out, also those that an argument brought in. -/
def say (stream : Stream) (text : Styled) (w : World) : World :=
  let bytes := Utf8.encode text.render
  let shown := if Palette.isOn w.machine.environment then bytes else Escapes.strip bytes
  { w with console := (w.console.write stream shown).2 }

/-- Runs the command line with some arguments, and gives the exit code. -/
def run (engine : Engine) (launch : Launch) (words : List String) (w : World) : Nat × World :=
  let environment := w.machine.environment
  match Arguments.parse environment words with
  | .error (.help full) => (0, say .stdout (Help.text environment full) w)
  | .error .version => (0, say .stdout [.plain Help.version] w)
  | .error (.refused e) => (usageCode, say .stderr e.complaint w)
  | .ok a =>
    match filterFor environment a.verbose with
    | none => (brokenFilterCode, w)
    | some filter =>
      let colour := a.colour.isOn environment
      let shown (r : LogRecord) : Option Bytes :=
        if filter.admits r then some (r.line colour) else none
      let colours : Colours := ⟨colour, colour⟩
      conclude colours
        (execute engine launch a colours { w with console := { w.console with shown := shown } })

end CommandLine

end BenchHarness
