import BenchHarness.Decimal.Shortest
import BenchHarness.Text.Octets

/-!
# Numerals in formats

Numbers with a fraction, as arguments give them and as directives write them: with a fixed number of
places, with an exponent, or in the shorter of the two ways. Every number is rounded from its exact
value, a tie going to the even last digit.
-/

namespace BenchHarness.Shell

/-- A number with its sign, or something that is none. -/
inductive Numeral where
  | finite (negative : Bool) (magnitude : Ratio)
  | infinite (negative : Bool)
  | notNumber (negative : Bool)
  deriving DecidableEq, Repr

namespace Numeral

/-- Whether there is a sign in front. -/
def isNegative : Numeral → Bool
  | .finite negative _ | .infinite negative | .notNumber negative => negative

/-- Whether it is a number. -/
def isFinite : Numeral → Bool
  | .finite _ _ => true
  | _ => false

/-- Whether it is too great for a number. -/
def isInfinite : Numeral → Bool
  | .infinite _ => true
  | _ => false

/-- The nearest double. -/
def rounded : Numeral → Numeral
  | .finite negative r =>
    match (Binary64.ofRatio r).toRatio? with
    | some r => .finite negative r
    | none => .infinite negative
  | x => x

/-! ## Reading -/

/-- The greatest exponent that makes a difference. -/
def maxExponent : Nat := 6000

/-- The exponent at the start of a text, if there is one, and what follows it. -/
def exponent (s : Octets) : Int × Octets :=
  let take (negative : Bool) (digits : Octets) : Option (Int × Octets) :=
    (Octets.toNat? (digits.takeWhile Char.isDigit)).map fun n =>
      let n : Int := min n maxExponent
      (if negative then -n else n, digits.dropWhile Char.isDigit)
  let found := match s with
    | e :: '-' :: rest => if e.toLower = 'e' then take true rest else none
    | e :: '+' :: rest => if e.toLower = 'e' then take false rest else none
    | e :: rest => if e.toLower = 'e' then take false rest else none
    | [] => none
  found.getD (0, s)

/-- The number without a sign at the start of a text, and what follows it. -/
def readMagnitude (negative : Bool) (s : Octets) : Option (Numeral × Octets) :=
  let starts (word : String) : Bool := word.toList.isPrefixOf (s.map Char.toLower)
  if starts "infinity" then some (.infinite negative, s.drop 8)
  else if starts "inf" then some (.infinite negative, s.drop 3)
  else if starts "nan" then some (.notNumber negative, s.drop 3)
  else
    let whole := s.takeWhile Char.isDigit
    let after := s.drop whole.length
    let (places, after) := match after with
      | '.' :: rest => (rest.takeWhile Char.isDigit, rest.dropWhile Char.isDigit)
      | rest => ([], rest)
    match Octets.toNat? (whole ++ places) with
    | none => none
    | some n =>
      let (e, rest) := exponent after
      some (.finite negative (Ratio.scale10 ⟨n, 1⟩ (e - places.length)), rest)

/-- The number at the start of a text, after white space and a sign, and what follows it. -/
def read (s : Octets) : Option (Numeral × Octets) :=
  let isSpace (c : Char) : Bool := c = ' ' || ('\t' ≤ c && c ≤ '\x0d')
  match s.dropWhile isSpace with
  | '-' :: rest => readMagnitude true rest
  | '+' :: rest => readMagnitude false rest
  | rest => readMagnitude false rest

/-! ## Writing -/

/-- Digits with a point before the last `places` of them. A point at the end is left out unless it
is `kept`. -/
def pointed (places : Nat) (kept : Bool) (n : Nat) : Octets :=
  let digits := Nat.toDigits 10 n
  let digits := List.replicate (places + 1 - digits.length) '0' ++ digits
  let whole := digits.take (digits.length - places)
  if places = 0 then (if kept then whole ++ ['.'] else whole)
  else whole ++ '.' :: digits.drop whole.length

/-- A fraction with a fixed number of places. -/
def fixed (places : Nat) (kept : Bool) (r : Ratio) : Octets :=
  pointed places kept (r.scale10 places).roundEven

/-- The decimal exponent of the first digit of a fraction, and its first `places + 1` digits. -/
def leading (places : Nat) (r : Ratio) : Int × Nat :=
  if r.num = 0 then (0, 0)
  else
    let lead := Binary64.magnitude r - 1
    let n := (r.scale10 (places - lead)).roundEven
    if n = Nat.pow 10 (places + 1) then (lead + 1, Nat.pow 10 places) else (lead, n)

/-- An exponent with a sign and at least two digits. -/
def exponentText (e : Int) : Octets :=
  let digits := Octets.ofNat e.natAbs
  'e' :: (if e < 0 then '-' else '+') :: (List.replicate (2 - digits.length) '0' ++ digits)

/-- A text without the zeros at the end of its places. -/
def trimmed (s : Octets) : Octets :=
  if s.contains '.' then
    let s := s.reverse.dropWhile (· = '0')
    (if s.head? = some '.' then s.drop 1 else s).reverse
  else s

/-- A number without its sign, as a letter wants it: `f`, `e` or `g`. With `kept` nothing is left
out. -/
def text (letter : Char) (places : Nat) (kept : Bool) : Numeral → Octets
  | .infinite _ => "inf".toList
  | .notNumber _ => "nan".toList
  | .finite _ r =>
    if letter = 'f' then fixed places kept r
    else if letter = 'e' then
      let (e, n) := leading places r
      pointed places kept n ++ exponentText e
    else
      let size := max places 1
      let (e, n) := leading (size - 1) r
      let trim (s : Octets) : Octets := if kept then s else trimmed s
      if e < -4 || (size : Int) ≤ e then trim (pointed (size - 1) kept n) ++ exponentText e
      else trim (fixed ((size : Int) - 1 - e).toNat kept r)

end Numeral

end BenchHarness.Shell
