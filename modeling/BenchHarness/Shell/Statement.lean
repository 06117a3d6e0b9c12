import BenchHarness.Shell.Word

/-!
# Statements of a script

The statements that a script is made of, as they are read: commands with their assignments and
redirections, and the ways to put statements together.
-/

namespace BenchHarness.Shell

/-- What a redirection does with its descriptor. -/
inductive RedirectKind where
  /-- Reads from a file. -/
  | input
  /-- Writes to a file, which is emptied. -/
  | output
  /-- Writes at the end of a file. -/
  | append
  /-- Reads and writes a file. -/
  | both
  /-- Becomes the same as another descriptor, or is closed. -/
  | duplicate
  /-- Reads a text of the script. -/
  | document
  deriving DecidableEq, Repr

/-- A redirection. -/
structure Redirect where
  descriptor : Nat
  kind : RedirectKind
  target : Word
  deriving DecidableEq, Repr

/-- A statement. -/
inductive Statement where
  /-- No statement at all. -/
  | nothing
  /-- A command of words, with the line it stands on. -/
  | simple (line : Nat) (assignments : List (Octets × Word)) (words : List Word)
      (redirects : List Redirect)
  /-- The second statement reads what the first one writes. -/
  | pipe (first second : Statement)
  /-- The statement with its verdict turned around. -/
  | negated (body : Statement)
  /-- The second statement, if the first one succeeds. -/
  | both (first second : Statement)
  /-- The second statement, if the first one fails. -/
  | either (first second : Statement)
  | sequence (first second : Statement)
  /-- A statement that is not waited for. -/
  | background (body : Statement)
  /-- A statement in a process of its own. -/
  | subshell (body : Statement)
  /-- A statement with redirections, and the line it starts on. -/
  | redirected (line : Nat) (body : Statement) (redirects : List Redirect)
  | conditional (condition yes no : Statement)
  /-- The body, as long as the condition has the verdict `wanted`. -/
  | loop (wanted : Bool) (condition body : Statement)
  /-- The body, with a variable set to each of some words; without words, to each argument. -/
  | each (name : Octets) (words : Option (List Word)) (body : Statement)
  /-- The first of several statements with a pattern that matches the subject. -/
  | choice (subject : Word) (arms : List (List Word × Statement))
  /-- Gives a function its body. -/
  | definition (name : Octets) (body : Statement)

/-- A statement and what comes after it, if anything does. -/
def Statement.andThen : Statement → Statement → Statement
  | s, .nothing => s
  | .nothing, s => s
  | s, t => .sequence s t

end BenchHarness.Shell
