/-!
# Writing JSON

Objects and arrays are written in one of two layouts: compact, without any blanks, or indented, one
member or element a line. Strings are quoted the same way in both.
-/

namespace BenchHarness.Json

/-- The hexadecimal digit of a number below sixteen. -/
def hexDigit (n : Nat) : Char := if n < 10 then Char.ofNat (48 + n) else Char.ofNat (87 + n)

/-- A character inside a quoted string: quotes, backslashes and control characters are escaped. -/
def escape (c : Char) : List Char :=
  if c = '\x22' then ['\\', '\x22']
  else if c = '\\' then ['\\', '\\']
  else if c = '\x08' then ['\\', 'b']
  else if c = '\x09' then ['\\', 't']
  else if c = '\x0a' then ['\\', 'n']
  else if c = '\x0c' then ['\\', 'f']
  else if c = '\x0d' then ['\\', 'r']
  else if c.toNat < 0x20 then
    ['\\', 'u', '0', '0', hexDigit (c.toNat / 16), hexDigit (c.toNat % 16)]
  else [c]

/-- A quoted string. -/
def quote (s : String) : String :=
  String.ofList ('\x22' :: (s.toList.flatMap escape ++ ['\x22']))

/-- How objects and arrays are laid out. -/
structure Layout where
  /-- What stands before a member or element, or before the closing bracket, at a depth. -/
  line : Nat → String
  /-- What stands between a name and its value. -/
  colon : String

namespace Layout

/-- No blanks at all. -/
def compact : Layout := ⟨fun _ => "", ":"⟩

/-- One member or element a line, indented by two blanks for each level. -/
def indented : Layout := ⟨fun depth => "\n" ++ "".pushn ' ' (2 * depth), ": "⟩

/-- Written items, one after the other, for a body at a depth. -/
def items (l : Layout) (depth : Nat) (texts : List String) : String :=
  ",".intercalate (texts.map (l.line depth ++ ·))

/-- An array of written elements, whose closing bracket stands at `depth`. -/
def array (l : Layout) (depth : Nat) (elements : List String) : String :=
  if elements.isEmpty then "[]"
  else "[" ++ l.items (depth + 1) elements ++ l.line depth ++ "]"

/-- A non-empty object of names and written values, whose closing brace stands at `depth`. -/
def object (l : Layout) (depth : Nat) (members : List (String × String)) : String :=
  "\x7b" ++ l.items (depth + 1) (members.map fun (name, value) => quote name ++ l.colon ++ value) ++
    l.line depth ++ "\x7d"

end Layout

end BenchHarness.Json
