import BenchHarness.Log
import BenchHarness.Text.Pieces
import BenchHarness.Text.Search

/-!
# Log filters

A filter says which notes are shown. It is a set of directives, each with the most detailed level it
lets through, for all notes or for those whose topic starts with a name. The most specific directive
that is about a note decides; a note that none is about is not shown.
-/

namespace BenchHarness

/-- One rule of a filter. -/
structure Directive where
  /-- What the names of the topics start with that it is about; all of them without one. -/
  target : Option String
  /-- The values a note must carry. -/
  fields : List String
  /-- The most detailed level that is shown; nothing without one. -/
  level : Option Level
  deriving DecidableEq, Repr

/-- The rules of a filter, the most specific first. -/
abbrev LogFilter := List Directive

namespace Directive

/-- The only value that notes carry. -/
def messageField : String := "message"

/-- Whether a directive is about a note. -/
def isAbout (d : Directive) (r : LogRecord) : Bool :=
  (match d.target with
    | some target => Text.startsWith r.topic.target target
    | none => true) && d.fields.all (· = messageField)

/-- How specific a directive is: first whether it names topics and how long the name is, then how
many values it asks for. -/
def specificity (d : Directive) : Nat × Nat :=
  (match d.target with
    | some target => target.utf8ByteSize + 1
    | none => 0, d.fields.length)

/-- Whether a directive comes before another one. -/
def isBefore (d e : Directive) : Bool :=
  let (a, b) := d.specificity
  let (a', b') := e.specificity
  a' < a || (a = a' && b' < b)

/-- Whether two directives are about the same notes. -/
def sameScope (d e : Directive) : Bool := d.target = e.target && d.fields = e.fields

/-! ## Reading -/

/-- The text in lower case, as far as it is ASCII. -/
def lower (s : String) : String := String.ofList (s.toList.map Char.toLower)

/-- A level given by name or number; an empty text stands for errors. The inner `none` is no level
at all. -/
def level? (s : String) : Option (Option Level) :=
  let digits := match s.toList with
    | '+' :: rest => rest
    | cs => cs
  if digits ≠ [] ∧ digits.all Char.isDigit then
    [none, some Level.error, some .warn, some .info, some .debug, some .trace][
      digits.foldl (fun n c => n * 10 + (c.toNat - 48)) 0]?
  else
    [("", some Level.error), ("error", some .error), ("warn", some .warn), ("info", some .info),
      ("debug", some .debug), ("trace", some .trace), ("off", none)].lookup (lower s)

/-- Splits a text at every occurrence of two characters. -/
def splitPair (a b : Char) : List Char → List (List Char)
  | [] => [[]]
  | [c] => [[c]]
  | c :: d :: rest =>
    if c = a ∧ d = b then [] :: splitPair a b rest
    else
      match splitPair a b (d :: rest) with
      | [] => [[c]]
      | first :: more => (c :: first) :: more

/-- Drops a closing pair from the end of a text, as often as it stands there. -/
def dropClosing : List Char → List Char
  | ']' :: '\x7d' :: rest => dropClosing rest
  | cs => cs

/-- The topics and values that the part before a level names. -/
def scope? (s : List Char) : Option (String × List String) :=
  match splitPair '[' '\x7b' s with
  | [target] => some (String.ofList target, [])
  | [target, fields] =>
    match fields.reverse with
    | ']' :: '\x7d' :: _ =>
      let names := Pieces.split ',' (dropClosing fields.reverse).reverse
      some (String.ofList target, (names.filter (· ≠ [])).map String.ofList)
    | _ => none
  | _ => none

/-- Reads a directive: `level`, `target`, or `target=level`. -/
def parse (s : List Char) : Option Directive :=
  match Pieces.split '=' s with
  | [text] =>
    match level? (String.ofList text) with
    | some level => some ⟨none, [], level⟩
    | none => some ⟨some (String.ofList text), [], some .trace⟩
  | [text, level] => do
    let (target, fields) ← scope? text
    pure ⟨some target, fields, ← level? (String.ofList level)⟩
  | _ => none

end Directive

namespace LogFilter

/-- The filter that shows notes up to a level. -/
def upTo (level : Level) : LogFilter := [⟨none, [], some level⟩]

/-- Puts a directive in its place. -/
def place (d : Directive) : LogFilter → LogFilter
  | [] => [d]
  | e :: rest => if d.isBefore e then d :: e :: rest else e :: place d rest

/-- Adds a directive, which takes the place of one about the same notes. -/
def add (f : LogFilter) (d : Directive) : LogFilter := place d (f.filter (! d.sameScope ·))

/-- Reads directives separated by commas. -/
def parse (s : String) : Option LogFilter := do
  let directives ← (Pieces.split ',' s.toList).mapM Directive.parse
  pure (directives.foldl add [])

/-- Whether a note is shown. -/
def admits (f : LogFilter) (r : LogRecord) : Bool :=
  match f.find? (·.isAbout r) with
  | some d => d.level.any (r.level.rank ≤ ·.rank)
  | none => false

end LogFilter

end BenchHarness
