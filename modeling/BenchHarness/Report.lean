import BenchHarness.Decimal.Fixed
import BenchHarness.Event
import BenchHarness.Output.Sink

/-!
# Reports

How events and test lists are shown to a reader. The text is built as styled spans; a theme says
which style each kind of span has, so the plain and the coloured report differ in decoration only.
-/

namespace BenchHarness

/-- The styles of a report. -/
structure Theme where
  header : Style
  path : Style
  count : Style
  pass : Style
  fail : Style
  deriving DecidableEq, Repr

namespace Theme

/-- No decoration. -/
def plain : Theme := ⟨.plain, .plain, .plain, .plain, .plain⟩

/-- Colours for a terminal. -/
def coloured : Theme := ⟨.bold, .boldBlue, .bold, .boldGreen, .boldRed⟩

/-- The theme for a choice of colour. -/
def ofColour (colour : Bool) : Theme := if colour then coloured else plain

end Theme

namespace Report

/-! ## Parts of a report -/

/-- One line per entry. -/
def entryLines (theme : Theme) (entries : List Entry) : Styled :=
  entries.flatMap fun e => [.plain "  --> ", ⟨theme.path, e.path⟩, .plain "\n"]

/-- A head word, aligned to twelve columns. -/
def head (style : Style) (word : String) : Styled :=
  [⟨style, Text.alignRight 12 word⟩, .plain " "]

/-- How many there are of something. -/
def count (style : Style) (n : Nat) : Span := ⟨style, toString n⟩

/-- The plain list of tests. -/
def testList (theme : Theme) (list : TestList) : Styled :=
  [.plain "\n", ⟨theme.header, "All tests found:"⟩, .plain "\n\n"] ++
    entryLines theme list.entries

/-- What is going to run and why; nothing for actions that run no tests. -/
def selectionHeader (theme : Theme) (s : Selection) : Styled :=
  match s.action with
  | .runFiltered substring =>
    [.plain "\n", count theme.count s.entries.length, .plain " tests with ",
      ⟨theme.header, substring⟩, .plain " were found:\n\n"] ++
      entryLines theme s.entries ++ [.plain "\n"]
  | .runAll =>
    [.plain "\n", ⟨theme.header, "Running all tests:"⟩, .plain "\n\n"] ++
      entryLines theme s.entries ++ [.plain "\n"]
  | .showHelp | .listOnly => []

/-- How often the success marker was found. -/
def markerCount (theme : Theme) (n : Nat) : Styled :=
  [.plain "success marker found ", count (if 0 < n then theme.pass else theme.fail) n,
    .plain (if n = 1 then " time" else " times")]

/-- A failure, and one line for each of its causes. -/
def failureLines (theme : Theme) (message : String) (causes : List String) : Styled :=
  [⟨theme.fail, message⟩, .plain "\n"] ++ causes.flatMap fun cause =>
    [⟨theme.fail, Text.alignRight 12 "caused by:"⟩, .plain (" " ++ cause ++ "\n")]

/-- How a test ended. -/
def verdict (theme : Theme) (o : Outcome) : Styled :=
  match o.failure with
  | some failure => failureLines theme failure.message failure.causes
  | none =>
    markerCount theme o.markers ++
      [.plain (match o.exitCode with
        | some code => ", exit code " ++ toString code ++ "\n"
        | none => ", no exit code\n")]

/-- A failed directory; the root is shown as a dot. -/
def failedDir (theme : Theme) (dir : String) : Styled :=
  [.plain "  --> ", ⟨theme.fail, if dir = "" then "." else dir⟩, .plain "\n"]

/-- Whether a test passed, how long it took and which one it was. -/
def finishedHead (theme : Theme) (o : Outcome) : Styled :=
  (if o.passed then head theme.pass "PASS" else head theme.fail "FAIL") ++
    [.plain (Duration.text o.elapsed), ⟨theme.path, o.entry.path⟩, .plain ": "]

/-! ## Events -/

/-- The text of an event. -/
def event (theme : Theme) : Event → Styled
  | .runStarted s =>
    selectionHeader theme s ++ head theme.pass "Starting" ++
      [count theme.count s.entries.length, .plain (" tests under " ++ s.root ++ "\n")]
  | .testStarted entry workingDir =>
    [⟨theme.pass, Text.alignRight 12 "START"⟩, .plain ("".pushn ' ' 13),
      ⟨theme.path, entry.path⟩, .plain (" (cd to " ++ workingDir ++ ")\n")]
  | .testFinished o => finishedHead theme o ++ verdict theme o
  | .runFinished s elapsed =>
    [.plain "------------\n"] ++
      head (if s.isSuccess then theme.pass else theme.fail) "Summary" ++
      [.plain (Duration.text elapsed), count theme.count s.total, .plain " tests run: ",
        count theme.count s.passed, .plain " ", ⟨theme.pass, "passed"⟩, .plain ", ",
        count theme.count s.failed, .plain " ", ⟨theme.fail, "failed"⟩, .plain "\n"] ++
      (if s.isSuccess then [.plain "\n", ⟨theme.pass, "All Tests Passed"⟩, .plain "\n"]
       else
        [.plain "\n", ⟨theme.fail, "List of failed tests:"⟩, .plain "\n\n"] ++
          s.failedDirs.flatMap (failedDir theme))

/-! ## Writing -/

variable {σ : Type}

/-- Writes styled text span by span. -/
def write (put : Put σ) (text : Styled) (s : σ) : Option WriteError × σ :=
  let (error, s) := Put.all put (text.map fun span => Utf8.encode span.render) s
  (error.map .io, s)

/-- Writes the text of an event. -/
def writeEvent (put : Put σ) (theme : Theme) (e : Event) (s : σ) : Option WriteError × σ :=
  write put (event theme e) s

end Report

end BenchHarness
