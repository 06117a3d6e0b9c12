import BenchHarness.Shell.Builtin

/-!
# Finding programs

A command word with a separator is the path of a program; any other one is looked for in the
directories of a search path. A file that starts with `#!` names the program that interprets it.
-/

namespace BenchHarness.Shell

/-- A program of the system that is to be run, with its arguments; the first one is its name. -/
structure Invocation where
  program : String
  arguments : List Octets

namespace Invocation

/-- The interpreter that the first line of a file names, with an argument for it. -/
def interpreter? (content : Octets) : Option (Octets × Option Octets) :=
  match content with
  | '#' :: '!' :: rest =>
    let line := (rest.takeWhile (· ≠ '\n')).dropWhile Word.isBlank
    let line := (line.reverse.dropWhile Word.isBlank).reverse
    let name := line.takeWhile (! Word.isBlank ·)
    let argument := (line.drop name.length).dropWhile Word.isBlank
    if name = [] then none else some (name, if argument = [] then none else some argument)
  | _ => none

/-- Whether some content can be a script: there is no control character in its first line. -/
def isText (content : Octets) : Bool :=
  let isControl (c : Char) : Bool := (c.toNat < 32 && ! ('\t' ≤ c && c ≤ '\x0d')) || c = '\x7f'
  ! (content.takeWhile (· ≠ '\n')).any isControl

/-- How deep interpreters may be interpreted themselves. -/
def maxInterpreters : Nat := 4

/-- The program that executing a path runs. -/
def ofPath (files : Files) (base : DirId) : Nat → Octets → List Octets → Except IoError Invocation
  | 0, _, _ => .error (.system .tooManyLinks)
  | depth + 1, path, arguments => do
    match ← files.findNode true base (Octets.toBytes path) with
    | .program name => pure ⟨name, arguments⟩
    | .file mode content =>
      if mode &&& 0o111 = 0 then throw (.system .accessDenied)
      else
        match interpreter? (Octets.ofBytes content) with
        | none => throw (.system .execFormat)
        | some (name, argument) =>
          ofPath files base depth name (name :: argument.toList ++ path :: arguments.drop 1)
    | _ => throw (.system .accessDenied)

/-- The first of several paths that can be executed, and what it runs. One that may not be executed
is only the answer if nothing else is found; then the path is the command word. -/
def firstOf (files : Files) (base : DirId) (word : Octets) (arguments : List Octets) :
    (found : IoError) → List Octets → Octets × Except IoError Invocation
  | found, [] => (word, .error found)
  | found, path :: rest =>
    match ofPath files base maxInterpreters path arguments with
    | .error (.system .noEntry) => firstOf files base word arguments found rest
    | .error (.system .notDirectory) => firstOf files base word arguments found rest
    | .error (.system .accessDenied) =>
      firstOf files base word arguments (.system .accessDenied) rest
    | result => (path, result)

/-- The path that a command word stands for, and the program it runs. -/
def find (files : Files) (base : DirId) (search : Octets) (word : Octets)
    (arguments : List Octets) : Octets × Except IoError Invocation :=
  if word.contains '/' then (word, ofPath files base maxInterpreters word arguments)
  else if word = [] then (word, .error (.system .noEntry))
  else
    let directories := (Pieces.split ':' search).map fun d => if d = [] then ['.'] else d
    firstOf files base word arguments (.system .noEntry) (directories.map (· ++ '/' :: word))

end Invocation

end BenchHarness.Shell
