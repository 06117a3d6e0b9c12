import BenchHarness.Text.Octets

/-!
# Names in messages

How tools show names and arguments in what they say. A name is quoted as a shell would read it,
always or only if it has to be; another argument stands in quotes with escapes in it.
-/

namespace BenchHarness.Shell.Quotation

/-- Whether a character is shown as it is. -/
def isPrintable (c : Char) : Bool := ' ' ≤ c && c ≤ '~'

/-- The letter that stands for a control character after a backslash. -/
def controlLetter? : Char → Option Char
  | '\x07' => some 'a'
  | '\x08' => some 'b'
  | '\t' => some 't'
  | '\n' => some 'n'
  | '\x0b' => some 'v'
  | '\x0c' => some 'f'
  | '\x0d' => some 'r'
  | _ => none

/-- A character that is not shown as it is: its letter or its three octal digits. -/
def escape (c : Char) : Octets :=
  match controlLetter? c with
  | some letter => ['\\', letter]
  | none =>
    let digit (n : Nat) : Char := Char.ofNat ('0'.toNat + n % 8)
    ['\\', digit (c.toNat / 64), digit (c.toNat / 8), digit c.toNat]

/-- An argument in quotes, with escapes in it. -/
def escaped (s : Octets) : Octets :=
  let shown (c : Char) : Octets :=
    if c = '\x27' || c = '\\' then ['\\', c] else if isPrintable c then [c] else escape c
  '\x27' :: s.flatMap shown ++ ['\x27']

/-- Whether a character means the same in either kind of quotes. -/
def isPlain (c : Char) : Bool := c.isAlphanum || " '%+,-./:]_".toList.contains c

/-- The inside of a name in single quotes. Characters that are not shown as they are stand in quotes
of their own with a dollar sign, which are open if `dollar`. -/
def inside (dollar : Bool) : Octets → Octets
  | [] => []
  | c :: rest =>
    if c = '\x27' then "\x27\\\x27\x27".toList ++ inside false rest
    else if isPrintable c then
      (if dollar then ['\x27', '\x27'] else []) ++ c :: inside false rest
    else (if dollar then [] else ['\x27', '$', '\x27']) ++ escape c ++ inside true rest

/-- A name in quotes. -/
def always (s : Octets) : Octets :=
  if s.contains '\x27' && s.all isPlain then '\x22' :: s ++ ['\x22']
  else '\x27' :: inside false s ++ ['\x27']

/-- Whether a name would be read as something else without quotes. -/
def needsQuotes (s : Octets) : Bool :=
  let isSpecial (c : Char) : Bool :=
    ! isPrintable c || " !\x22$&\x27()*:;<=>?[\\^\x60|".toList.contains c
  s = [] || s.any isSpecial || s.head? = some '#' || s.head? = some '~' ||
    s = ['\x7b'] || s = ['\x7d']

/-- A name, in quotes if it needs them. -/
def ifNeeded (s : Octets) : Octets := if needsQuotes s then always s else s

end BenchHarness.Shell.Quotation
