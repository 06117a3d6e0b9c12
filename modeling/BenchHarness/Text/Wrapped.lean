import BenchHarness.Text.Escapes

/-!
# Wrapped text

A text is broken at blanks so that its lines fit a width, where that can be done: the first word of
a line is never moved to the next one. A line that is broken goes on below its first word, so the
blanks before that word are repeated. Control sequences take up no room.
-/

namespace BenchHarness.Text

/-- Whether a character is white space. -/
def isSpace (c : Char) : Bool :=
  let n := c.toNat
  (0x09 ≤ n && n ≤ 0x0d) || n = 0x20 || n = 0x85 || n = 0xa0 || n = 0x1680 ||
    (0x2000 ≤ n && n ≤ 0x200a) || n = 0x2028 || n = 0x2029 || n = 0x202f || n = 0x205f ||
    n = 0x3000

/-- A text without the white space at its end. -/
def trimEnd (s : List Char) : List Char := (s.reverse.dropWhile isSpace).reverse

/-- How many bytes the characters of a text have. -/
def byteSize (s : List Char) : Nat := (String.ofList s).utf8ByteSize

/-- How many columns a text takes up. Nothing counts from a control character to the next `m`; the
first argument says whether that is so from the start. -/
def columnsFrom : Bool → List Char → Nat
  | _, [] => 0
  | isHidden, c :: rest =>
    if c.toNat < 0x20 ∨ c.toNat = 0x7f then columnsFrom true rest
    else if isHidden then columnsFrom (c ≠ 'm') rest
    else 1 + columnsFrom false rest

/-- How many columns a text takes up. -/
def columns (s : List Char) : Nat := columnsFrom false s

/-- The words of a text, each with the blanks after it. -/
def words (s : List Char) : List (List Char) := s.splitBy fun a b => a ≠ ' ' || b = ' '

/-- The lines of a text, each with its end. -/
def lines (s : List Char) : List (List Char) := s.splitBy fun a _ => a ≠ '\n'

/-- A line that is being filled. -/
structure Filling where
  /-- How many columns are taken. -/
  taken : Nat
  /-- What the line goes on with when it is broken, once something stands on it. -/
  margin : Option (List Char)
  deriving DecidableEq, Repr

namespace Filling

/-- An empty line. -/
def empty : Filling := ⟨0, none⟩

/-- Adds words to a line. `mayBreak` says whether the line may be broken before a word, and `done`
holds what was written for the words before, the latest first. -/
def addWords (width : Nat) :
    (mayBreak : Bool) → Filling → (done : List (List Char)) → List (List Char) →
      Filling × List Char
  | _, f, done, [] => (f, done.reverse.flatten)
  | mayBreak, f, done, word :: rest =>
    let text := trimEnd word
    let size := columns text
    let blanks := byteSize word - byteSize text
    if ! mayBreak && 0 < size then
      addWords width true { f with taken := f.taken + size + blanks } (word :: done) rest
    else if width < f.taken + size then
      let before := match done with
        | last :: others => trimEnd last :: others
        | [] => []
      let margin := f.margin.getD []
      addWords width mayBreak { f with taken := byteSize margin + size + blanks }
        (word :: margin :: ['\n'] :: before) rest
    else
      addWords width mayBreak { f with taken := f.taken + size + blanks } (word :: done) rest

/-- Adds a text without line ends to a line. -/
def add (width : Nat) (f : Filling) (text : List Char) : Filling × List Char :=
  let ws := words text
  match f.margin, ws with
  | none, word :: _ =>
    addWords width false { f with margin := some (if trimEnd word = [] then word else []) } [] ws
  | none, [] => (f, [])
  | some _, _ => addWords width true f [] ws

/-- Adds lines, each of them but the first one to a line of its own. -/
def addLines (width : Nat) (f : Filling) : List (List Char) → Filling × List Char
  | [] => (f, [])
  | line :: rest =>
    let (f, text) := f.add width line
    rest.foldl (fun (_, text) line =>
      let (f, more) := empty.add width line
      (f, text ++ more)) (f, text)

end Filling

/-- A text with line ends in place of blanks, so that no line is wider than the width, where
possible. -/
def wrap (width : Nat) (s : String) : String :=
  let (_, text) := (Escapes.parts s).foldl (fun (f, text) (shown, part) =>
    if shown then
      let (f, more) := f.addLines width (lines part.toList)
      (f, text ++ more)
    else (f, text ++ part.toList)) (Filling.empty, [])
  String.ofList (trimEnd text)

/-- A text in which every line but the first one starts with some blanks. -/
def indent (size : Nat) (s : String) : String :=
  String.ofList (s.toList.flatMap fun c => if c = '\n' then c :: List.replicate size ' ' else [c])

end BenchHarness.Text
