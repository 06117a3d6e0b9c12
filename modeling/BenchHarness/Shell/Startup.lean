import BenchHarness.Shell.Program
import BenchHarness.Shell.Reader

/-!
# Startup

What a shell does before it runs its script: it reads its arguments, finds the script, and learns
from its environment what its variables are and where it is.
-/

namespace BenchHarness.Shell

/-- The first place of a script. -/
def Cursor.start (source : Octets) : Cursor := ⟨source, 1, 0⟩

/-- Why a file cannot be opened, as a redirection says it. -/
def openingProblem (making : Bool) (path : Octets) (e : IoError) : Octets :=
  let what := if making then "cannot create " else "cannot open "
  let why := match e with
    | .system .noEntry => if making then "Directory nonexistent" else "No such file"
    | .system e => e.text
    | e => e.message
  what.toList ++ path ++ ": ".toList ++ why.toList

/-- The options and operands of a shell. -/
structure ShellLine where
  letters : List Char
  operands : List Octets

/-- Reads the arguments of a shell: options up to the first operand, where `-o` is followed by the
name of an option. -/
def ShellLine.read : List Octets → Act ShellLine
  | ['-', '-'] :: rest => pure ⟨[], rest⟩
  | ['-'] :: rest => pure ⟨[], rest⟩
  | ['-', 'o'] :: name :: rest => do
    Builtin.setNamed true name
    read rest
  | ('-' :: c :: more) :: rest => do
    Builtin.setLetters true ((c :: more).filter fun c => ! ['c', 'l', 'p'].contains c)
    let line ← read rest
    pure ⟨c :: more ++ line.letters, line.operands⟩
  | ('+' :: c :: more) :: rest => do
    Builtin.setLetters false (c :: more)
    read rest
  | operands => pure ⟨[], operands⟩

/-- The script that a shell runs, its name and its arguments. -/
structure Script where
  source : Octets
  name : Octets
  arguments : List Octets

/-- Finds the script of a shell that was called by a name; ends the process if it cannot be read. -/
def scriptOf (shell : Octets) (line : ShellLine) : Act Script := do
  if line.letters.contains 'c' then
    Act.modifyProcess ({ · with showsLines := false })
    match line.operands with
    | [] => Act.abort "-c requires an argument".toList
    | [source] => pure ⟨source, shell, []⟩
    | source :: name :: arguments => pure ⟨source, name, arguments⟩
  else if line.letters.contains 's' then
    pure ⟨(← Act.readAll 0).filter (· ≠ '\x00'), shell, line.operands⟩
  else
    match line.operands with
    | [] => do pure ⟨(← Act.readAll 0).filter (· ≠ '\x00'), shell, []⟩
    | path :: arguments =>
      match (← Act.files).contentAt (← Act.process).cwd (Octets.toBytes path) with
      | .ok content => pure ⟨(Octets.ofBytes content).filter (· ≠ '\x00'), path, arguments⟩
      | .error (.system .isDirectory) => pure ⟨[], path, arguments⟩
      | .error e => Act.abort (openingProblem false path e)

/-- Variables that a shell knows from its start, unless its environment has them. -/
def usualVariables : List (String × String) :=
  [("PATH", searchPath), ("OPTIND", "1"), ("PS1", "# "), ("PS2", "> "), ("PS4", "+ ")]

/-- The process of a shell that starts: it knows the variables of its environment and where it
is. -/
def startShell (name : Octets) : Act Unit := do
  let pid := (← Act.host).nextPid
  Act.modifyHost fun h => { h with nextPid := pid + 1 }
  let known := (← Act.environment).filter (Word.isName ·.1)
  let usual := (usualVariables.map fun (name, value) => (name.toList, value.toList)).filter
    fun v => (known.lookup v.1).isNone
  let parent := (← Act.process).pid
  let special := [("IFS".toList, [' ', '\t', '\n']), ("PPID".toList, Octets.ofNat parent)]
  Act.modifyProcess fun p => { p with
    name := name
    arguments := []
    bindings := special ++ known.filter (fun v => (special.lookup v.1).isNone) ++ usual
    exported := known.map (·.1)
    fixed := []
    functions := []
    line := 0
    speaker := none
    status := 0
    outputStatus := 0
    pid := pid
    around := p.pid :: p.around
    lastJob := none
    exitOnError := false
    trace := false
    showsLines := false
    readsOnly := false
    strict := false
    keepsPatterns := false
    tested := false
    loops := 0
    traps := []
    pending := []
    depth := 0
    shadowed := [] }
  let cwd := (← Act.process).cwd
  let files ← Act.files
  let given := known.lookup "PWD".toList
  let isRight (path : Octets) : Bool := path.head? = some '/' &&
    match files.findDirectory 0 (Octets.toBytes path) with
    | .ok id => id = cwd
    | .error _ => false
  if ! given.any isRight then
    match files.pathOf cwd with
    | .ok path => Act.putVariable "PWD".toList (Octets.ofBytes path)
    | .error e => do
      Act.dropVariable "PWD".toList
      Act.complain ("getcwd() failed: ".toList ++ Tool.reason e)

end BenchHarness.Shell
