import BenchHarness.Toml.Value
import BenchHarness.Decimal.Fixed

/-!
# TOML words

Booleans, numbers, dates and times are written as plain words. Each kind has its own form; a word of
no kind is an error.
-/

namespace BenchHarness.Toml

/-! ## Numbers -/

/-- The value of a digit in a base. -/
def digitValue? (base : Nat) (c : Char) : Option Nat :=
  let n :=
    if '0' ≤ c ∧ c ≤ '9' then c.toNat - 48
    else if 'a' ≤ c ∧ c ≤ 'f' then c.toNat - 87
    else if 'A' ≤ c ∧ c ≤ 'F' then c.toNat - 55
    else base
  if n < base then some n else none

/-- Digits with single underscores between them; `after` tells whether a digit came before. -/
def readDigits (base : Nat) (value : Nat) (after : Bool) : List Char → Option Nat
  | [] => if after then some value else none
  | c :: rest =>
    if c = '_' then if after then readDigits base value false rest else none
    else
      match digitValue? base c with
      | some d => readDigits base (value * base + d) true rest
      | none => none

/-- A non-empty run of digits. -/
def digits? (base : Nat) (s : List Char) : Option Nat := readDigits base 0 false s

/-- Decimal digits without a superfluous leading zero. -/
def wholeDigits? (s : List Char) : Option Nat :=
  match s with
  | '0' :: _ :: _ => none
  | _ => digits? 10 s

/-- The sign of a number and what follows it. -/
def takeSign : List Char → Bool × List Char
  | '-' :: rest => (true, rest)
  | '+' :: rest => (false, rest)
  | s => (false, s)

/-- A whole number that fits 64 bits. -/
def integer? (s : List Char) : Option Int :=
  let limit : Int := Nat.pow 2 63
  let fits (n : Int) : Option Int := if -limit ≤ n ∧ n < limit then some n else none
  match s with
  | '0' :: 'x' :: rest => (digits? 16 rest).bind fun n => fits n
  | '0' :: 'o' :: rest => (digits? 8 rest).bind fun n => fits n
  | '0' :: 'b' :: rest => (digits? 2 rest).bind fun n => fits n
  | _ =>
    let (isNegative, rest) := takeSign s
    (wholeDigits? rest).bind fun n => fits (if isNegative then -n else n)

/-- The parts of a word before and after the first character that satisfies a test. -/
def cutAt (p : Char → Bool) (s : List Char) : List Char × Option (List Char) :=
  match s.dropWhile (! p ·) with
  | [] => (s, none)
  | _ :: rest => (s.takeWhile (! p ·), some rest)

/-- Decimal exponents past this bound make any number zero or infinite. -/
def exponentBound : Nat := 20000

/-- The double nearest to `significand * 10 ^ exponent`; none if it is too large. -/
def decimal? (significand : Nat) (exponent : Int) : Option Binary64 :=
  let bounded : Int := max (-exponentBound) (min exponentBound exponent)
  if significand = 0 then some (.finite 0 0)
  else
    match Binary64.ofRatio (Ratio.scale10 ⟨significand, 1⟩ bounded) with
    | .infinite => none
    | x => some x

/-- A number with decimals, an exponent or both. -/
def float? (s : List Char) : Option Float64 :=
  let (isNegative, rest) := takeSign s
  if rest = ['i', 'n', 'f'] then some (.infinite isNegative)
  else if rest = ['n', 'a', 'n'] then some .notANumber
  else
    let (mantissa, exponent) := cutAt (fun c => c = 'e' || c = 'E') rest
    let (whole, decimals) := cutAt (· = '.') mantissa
    if exponent.isNone && decimals.isNone then none
    else do
      let w ← wholeDigits? whole
      let d ← match decimals with
        | some d => digits? 10 d
        | none => some 0
      let places := (decimals.getD []).filter (· ≠ '_') |>.length
      let e : Int ← match exponent with
        | some e =>
          let (down, e) := takeSign e
          (digits? 10 e).map fun n => if down then -(n : Int) else n
        | none => some 0
      let x ← decimal? (w * Nat.pow 10 places + d) (e - places)
      some (.finite isNegative x)

/-! ## Dates and times -/

/-- A number of exactly `width` digits at the front, within bounds. -/
def takeField (width low high : Nat) (s : List Char) : Option (Nat × List Char) :=
  let front := s.take width
  if front.length = width ∧ front.all Char.isDigit then
    let n := front.foldl (fun n c => n * 10 + (c.toNat - 48)) 0
    if low ≤ n ∧ n ≤ high then some (n, s.drop width) else none
  else none

/-- The rest after a given character. -/
def takeChar (c : Char) : List Char → Option (List Char)
  | d :: rest => if d = c then some rest else none
  | [] => none

/-- How many days a month has. -/
def daysInMonth (year month : Nat) : Nat :=
  if month = 2 then
    if year % 4 = 0 ∧ (year % 100 ≠ 0 ∨ year % 400 = 0) then 29 else 28
  else if month = 4 ∨ month = 6 ∨ month = 9 ∨ month = 11 then 30
  else 31

/-- A date at the front, written out. -/
def takeDate (s : List Char) : Option (String × List Char) := do
  let (year, s) ← takeField 4 0 9999 s
  let s ← takeChar '-' s
  let (month, s) ← takeField 2 1 12 s
  let s ← takeChar '-' s
  let (day, s) ← takeField 2 1 (daysInMonth year month) s
  some (paddedDigits 4 year ++ "-" ++ paddedDigits 2 month ++ "-" ++ paddedDigits 2 day, s)

/-- The fraction of a second: nine digits at most count, and zeros at the end are dropped. -/
def fractionText (digits : List Char) : String :=
  let kept := ((digits.take 9).reverse.dropWhile (· = '0')).reverse
  if kept = [] then ".0" else "." ++ String.ofList kept

/-- Seconds at the front, with a fraction if there is one. -/
def takeSeconds (s : List Char) : Option (String × List Char) := do
  let (second, s) ← takeField 2 0 60 s
  let text := ":" ++ paddedDigits 2 second
  match s with
  | '.' :: rest =>
    let digits := rest.takeWhile Char.isDigit
    if digits = [] then none else some (text ++ fractionText digits, rest.dropWhile Char.isDigit)
  | _ => some (text, s)

/-- A time of day at the front, written out; the seconds may be left out. -/
def takeTime (s : List Char) : Option (String × List Char) := do
  let (hour, s) ← takeField 2 0 23 s
  let s ← takeChar ':' s
  let (minute, s) ← takeField 2 0 59 s
  let text := paddedDigits 2 hour ++ ":" ++ paddedDigits 2 minute
  match s with
  | ':' :: rest => (takeSeconds rest).map fun (seconds, rest) => (text ++ seconds, rest)
  | _ => some (text, s)

/-- A time zone: `Z` or a signed distance. -/
def offset? (s : List Char) : Option String :=
  match s with
  | [] => some ""
  | ['Z'] => some "Z"
  | ['z'] => some "Z"
  | sign :: rest => do
    if sign ≠ '+' ∧ sign ≠ '-' then none
    let (hour, rest) ← takeField 2 0 23 rest
    let rest ← takeChar ':' rest
    let (minute, rest) ← takeField 2 0 59 rest
    if rest ≠ [] then none
    let shown := if sign = '-' ∧ hour + minute ≠ 0 then "-" else "+"
    some (shown ++ paddedDigits 2 hour ++ ":" ++ paddedDigits 2 minute)

/-- A date, a time, or both with or without a time zone. -/
def moment? (s : List Char) : Option String :=
  match takeDate s with
  | some (date, []) => some date
  | some (date, mark :: rest) =>
    if mark = 'T' ∨ mark = 't' ∨ mark = ' ' then do
      let (time, rest) ← takeTime rest
      let zone ← offset? rest
      some (date ++ "T" ++ time ++ zone)
    else none
  | none =>
    match takeTime s with
    | some (time, []) => some time
    | _ => none

/-! ## Words -/

/-- The value of a plain word. -/
def scalar? (s : List Char) : Option Value :=
  if s = ['t', 'r', 'u', 'e'] then some (.boolean true)
  else if s = ['f', 'a', 'l', 's', 'e'] then some (.boolean false)
  else
    match integer? s with
    | some n => some (.integer n)
    | none =>
      match float? s with
      | some x => some (.float x)
      | none => (moment? s).map .moment

/-- Whether a character may be part of a plain word. -/
def isWordChar (c : Char) : Bool :=
  c.isAlphanum || c = '_' || c = '+' || c = '-' || c = '.' || c = ':'

/-- A plain word at the front. A date may be followed by a blank and a time, which belong to it. -/
def takeWord (s : List Char) : List Char × List Char :=
  let word := s.takeWhile isWordChar
  let rest := s.dropWhile isWordChar
  match rest with
  | ' ' :: more =>
    match takeDate word, takeTime more with
    | some (_, []), some _ => (word ++ ' ' :: more.takeWhile isWordChar, more.dropWhile isWordChar)
    | _, _ => (word, rest)
  | _ => (word, rest)

end BenchHarness.Toml
