import BenchHarness.CommandLine.Option
import BenchHarness.Selection
import BenchHarness.Text.Wrapped

/-!
# Help

The summary of the options, the full help, and the list of modes.
-/

namespace BenchHarness.Help

/-- How many columns a line has where the environment does not say. -/
def usualColumns : Nat := 100

/-- How many columns a line has. -/
def columns (environment : List (String × String)) : Nat :=
  ((environment.lookup "COLUMNS").bind ColourChoice.wholeNumber?).getD usualColumns

/-! ## Entries -/

/-- What help says about an argument. -/
structure Entry where
  /-- The spellings of the argument, all of them. -/
  spelling : Styled
  /-- How many columns the part takes up that entries are aligned by. -/
  size : Nat
  /-- How many columns there are before that part. -/
  offset : Nat
  purpose : String
  remarks : List String

namespace Entry

/-- The mode. -/
def mode : Entry where
  spelling := [⟨Palette.placeholder, "[MODE]"⟩]
  size := 6
  offset := 0
  purpose := "\x60help\x60, \x60list\x60, or a substring that selects the tests to run " ++
    "[default: run all tests]"
  remarks := []

/-- The spellings of an option. -/
def spellingOf (f : Flag) : Styled :=
  (match f.short? with
    | some c => [⟨Palette.literal, String.ofList ['-', c]⟩, .plain ", "]
    | none => [.plain "    "]) ++
  [⟨Palette.literal, "--" ++ f.long⟩] ++
  (match f.shownValue? with
    | some value => [⟨Palette.placeholder, " "⟩, ⟨Palette.placeholder, value⟩]
    | none => [])

/-- An option. With `full`, as the full help has it. -/
def ofFlag (environment : List (String × String)) (full : Bool) (f : Flag) : Entry where
  spelling := spellingOf f
  size := f.shown.length
  offset := 4
  purpose := f.purpose full
  remarks := f.remarks environment

/-- Whether what is said about an argument is too long to stand beside it, the widest one having
some size: the room beside it must be scarce, and not be enough. -/
def isTooLong (columns longest : Nat) (e : Entry) : Bool :=
  let taken := longest + e.offset + 4
  let size := Text.columns e.purpose.toList + Text.columns (" ".intercalate e.remarks).toList
  taken ≤ columns && columns * 2 < taken * 5 && columns - taken < size

/-- What is said about an argument. -/
def comment (full : Bool) (e : Entry) : String :=
  if e.remarks = [] then e.purpose
  else if full then e.purpose ++ "\n\n" ++ "\n".intercalate e.remarks
  else " ".intercalate (e.purpose :: e.remarks)

/-- An entry. With `below`, what is said about an argument stands below it, otherwise beside it. -/
def text (columns longest : Nat) (full below : Bool) (e : Entry) : Styled :=
  let margin := if below then 10 else longest + e.offset + 4
  let gap :=
    if below then "\n" ++ "".pushn ' ' margin else "".pushn ' ' (longest + 2 - e.size)
  [.plain "  "] ++ e.spelling ++
    [.plain (gap ++ Text.indent margin (Text.wrap (columns - margin) (e.comment full)))]

/-- The entries of a section, below its heading. -/
def section_ (columns : Nat) (full : Bool) (heading : String) (entries : List Entry) : Styled :=
  let longest := entries.foldl (fun n e => max n e.size) 0
  let below := full || entries.any (isTooLong columns longest)
  let gap := if full then "\n\n" else "\n"
  [⟨Palette.heading, heading⟩, .plain "\n"] ++
    [Span.plain gap].intercalate (entries.map (text columns longest full below))

end Entry

/-! ## Help -/

/-- What the program does. -/
def about : String := "Finds simulation test benches in a directory tree and runs them"

/-- What the program does, and what a test is. -/
def explanation : String :=
  about ++ ".\n\nEvery file named after the entry point (by default \x60go.sh\x60) below a " ++
    "\x60sim\x60 directory is a test. Each test runs in its own directory and passes if it " ++
    "prints the success marker."

/-- How the program is called. -/
def usage : Styled :=
  [⟨Palette.heading, "Usage:"⟩, .plain " ", ⟨Palette.literal, "simtest"⟩, .plain " ",
    ⟨Palette.placeholder, "[OPTIONS]"⟩, .plain " ", ⟨Palette.placeholder, "[MODE]"⟩, .plain "\n"]

/-- Help: the summary of the options, or the full help. -/
def text (environment : List (String × String)) (full : Bool) : Styled :=
  let columns := columns environment
  [.plain (Text.wrap columns (if full then explanation else about) ++ "\n\n")] ++ usage ++
    [.plain "\n"] ++ Entry.section_ columns full "Arguments:" [.mode] ++ [.plain "\n\n"] ++
    Entry.section_ columns full "Options:" (Flag.all.map (.ofFlag environment full)) ++
    [.plain "\n"]

/-- The name and version of the program. -/
def version : String := "simtest 0.1.0\n"

/-! ## Modes -/

/-- The modes and what they do. -/
def modes : List (String × String) :=
  [("(none)", "run every test under the root"), (helpMode, "print this message"),
    (listMode, "list every test without running it"),
    ("<substring>", "run the tests whose path contains <substring>")]

/-- The list of modes. -/
def modeList (colour : Bool) : Styled :=
  let literal := if colour then Style.boldCyan else .plain
  [.plain (usage.bare ++ "\nModes:\n")] ++
    modes.flatMap (fun (mode, purpose) =>
      [.plain "  ", ⟨literal, Text.alignLeft 13 mode⟩, .plain (" " ++ purpose ++ "\n")]) ++
    [.plain "\nSee \x60simtest --help\x60 for options.\n"]

end BenchHarness.Help
