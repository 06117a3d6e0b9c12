import BenchHarness.Entry
import BenchHarness.Log
import BenchHarness.Text.Search

/-!
# Selections

The mode word of the command line decides what is done and to which of the discovered tests.
-/

namespace BenchHarness

/-- The mode that prints usage. -/
def helpMode : String := "help"

/-- The mode that lists tests. -/
def listMode : String := "list"

/-- What is to be done. -/
inductive Action where
  /-- Print usage. -/
  | showHelp
  /-- Print the discovered tests. -/
  | listOnly
  /-- Run every discovered test. -/
  | runAll
  /-- Run the tests whose path contains the text. -/
  | runFiltered (substring : String)
  deriving DecidableEq, Repr

namespace Action

/-- The action of a mode word, if one is given. -/
def ofMode : Option String → Action
  | none => .runAll
  | some mode =>
    if mode = helpMode then .showHelp
    else if mode = listMode then .listOnly
    else .runFiltered mode

/-- Whether an action runs tests. -/
def runsTests : Action → Bool
  | .showHelp | .listOnly => false
  | .runAll | .runFiltered _ => true

/-- The tests of a list that an action is about. -/
def pick (action : Action) (entries : List Entry) : List Entry :=
  match action with
  | .showHelp => []
  | .listOnly | .runAll => entries
  | .runFiltered substring => entries.filter fun e => Text.contains substring e.path

end Action

/-- The tests picked for an action, in discovery order. -/
structure Selection where
  root : String
  action : Action
  entries : List Entry
  deriving DecidableEq, Repr

namespace Selection

/-- Selects the tests of a list that an action is about. -/
def ofAction (list : TestList) (action : Action) : Selection :=
  ⟨list.root, action, action.pick list.entries⟩

/-- Selects tests by a mode word. -/
def ofMode (list : TestList) (mode : Option String) : Selection :=
  ofAction list (Action.ofMode mode)

/-- What is noted about a selection: a filter that matches nothing is worth a warning. -/
def notes (s : Selection) : List LogRecord :=
  match s.action, s.entries with
  | .runFiltered substring, [] =>
    [⟨.warn, .selection, "no tests matched \x60" ++ substring ++ "\x60"⟩]
  | _, _ => []

end Selection

end BenchHarness
