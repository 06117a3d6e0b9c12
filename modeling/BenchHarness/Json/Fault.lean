import BenchHarness.Text.Utf8

/-!
# What is wrong with a JSON text

Reading fails at a place in the text. A fault keeps the bytes that had not been passed when it was
found; its line and column follow from them and the whole text.
-/

namespace BenchHarness.Json

/-- What can be wrong. -/
inductive Problem where
  | eofInArray
  | eofInObject
  | eofInString
  | eofInValue
  | expectedColon
  | expectedArrayEnd
  | expectedObjectEnd
  | expectedWord
  | expectedValue
  | expectedName
  | invalidEscape
  | invalidNumber
  | numberOutOfRange
  | controlCharacter
  | loneSurrogate
  | unfinishedSurrogate
  | trailingComma
  | trailingCharacters
  /-- The text is JSON, but not of the wanted shape. -/
  | unwanted (message : String)
  deriving DecidableEq, Repr

/-- The kind of a problem. -/
inductive Category where
  | grammar
  | shape
  | endOfText
  deriving DecidableEq, Repr

namespace Problem

def category : Problem → Category
  | eofInArray | eofInObject | eofInString | eofInValue => .endOfText
  | unwanted _ => .shape
  | _ => .grammar

/-- The wording of a problem. -/
def message : Problem → String
  | eofInArray => "EOF while parsing a list"
  | eofInObject => "EOF while parsing an object"
  | eofInString => "EOF while parsing a string"
  | eofInValue => "EOF while parsing a value"
  | expectedColon => "expected \x60:\x60"
  | expectedArrayEnd => "expected \x60,\x60 or \x60]\x60"
  | expectedObjectEnd => "expected \x60,\x60 or \x60\x7d\x60"
  | expectedWord => "expected ident"
  | expectedValue => "expected value"
  | expectedName => "key must be a string"
  | invalidEscape => "invalid escape"
  | invalidNumber => "invalid number"
  | numberOutOfRange => "number out of range"
  | controlCharacter => "control character (\\u0000-\\u001F) found while parsing a string"
  | loneSurrogate => "lone leading surrogate in hex escape"
  | unfinishedSurrogate => "unexpected end of hex escape"
  | trailingComma => "trailing comma"
  | trailingCharacters => "trailing characters"
  | unwanted message => message

end Problem

/-- A problem and the bytes after the place where it was found. -/
structure Fault where
  problem : Problem
  rest : Bytes
  deriving DecidableEq, Repr

/-- A reader takes a value off the front of a text. -/
abbrev Reader (α : Type) := Bytes → Except Fault (α × Bytes)

/-- A fault found at the next byte, which is counted as passed. -/
def atNext (problem : Problem) (s : Bytes) : Fault := ⟨problem, s.tail⟩

/-- The line of a place and the number of bytes before it on that line. -/
def position (before : Bytes) : Nat × Nat :=
  (before.count 0x0a + 1, (before.reverse.takeWhile (· ≠ 0x0a)).length)

/-- The message of a fault in a text. -/
def Fault.message (f : Fault) (text : Bytes) : String :=
  let (line, column) := position (text.take (text.length - f.rest.length))
  f.problem.message ++ " at line " ++ toString line ++ " column " ++ toString column

end BenchHarness.Json
