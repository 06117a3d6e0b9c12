import BenchHarness.Decimal.Shortest
import BenchHarness.Json.Fault

/-!
# Scanning JSON

The parts of a JSON text: blanks, quoted strings, numbers, words, and whole values that are passed
over without being kept. Every scanner takes its part off the front of the bytes and gives the rest.
-/

namespace BenchHarness.Json

/-- Whether a byte may stand between the parts of a text. -/
def isBlank (b : UInt8) : Bool := b = 0x20 || b = 0x0a || b = 0x09 || b = 0x0d

/-- Drops the blanks at the front. -/
def skipBlank (s : Bytes) : Bytes := s.dropWhile isBlank

/-! ## Strings -/

/-- The value of a hexadecimal digit. -/
def hexValue? (b : UInt8) : Option Nat :=
  if 0x30 ≤ b ∧ b ≤ 0x39 then some (b.toNat - 0x30)
  else if 0x41 ≤ b ∧ b ≤ 0x46 then some (b.toNat - 0x37)
  else if 0x61 ≤ b ∧ b ≤ 0x66 then some (b.toNat - 0x57)
  else none

/-- Four hexadecimal digits. -/
def scanHex : Reader Nat
  | a :: b :: c :: d :: rest =>
    match hexValue? a, hexValue? b, hexValue? c, hexValue? d with
    | some a, some b, some c, some d => .ok (((a * 16 + b) * 16 + c) * 16 + d, rest)
    | _, _, _, _ => .error ⟨.invalidEscape, rest⟩
  | _ => .error ⟨.eofInString, []⟩

/-- The character that a one-letter escape stands for. -/
def escapeByte? (b : UInt8) : Option UInt8 :=
  if b = 0x22 ∨ b = 0x5c ∨ b = 0x2f then some b
  else if b = 0x62 then some 0x08
  else if b = 0x66 then some 0x0c
  else if b = 0x6e then some 0x0a
  else if b = 0x72 then some 0x0d
  else if b = 0x74 then some 0x09
  else none

/-- The bytes of a code point. -/
def codePoint (n : Nat) : Bytes := String.utf8EncodeChar (Char.ofNat n)

/-- The second half of a surrogate pair, after the first half. -/
def scanLowSurrogate (high : Nat) : Reader Bytes
  | [] => .error ⟨.eofInString, []⟩
  | b :: rest =>
    if b ≠ 0x5c then .error ⟨.unfinishedSurrogate, rest⟩
    else
      match rest with
      | [] => .error ⟨.eofInString, []⟩
      | b :: rest =>
        if b ≠ 0x75 then .error ⟨.unfinishedSurrogate, rest⟩
        else do
          let (low, rest) ← scanHex rest
          if low < 0xdc00 ∨ 0xdfff < low then throw ⟨.loneSurrogate, rest⟩
          pure (codePoint (0x10000 + (high - 0xd800) * 0x400 + (low - 0xdc00)), rest)

/-- The bytes that an escape stands for, after its backslash. -/
def scanEscape : Reader Bytes
  | [] => .error ⟨.eofInString, []⟩
  | b :: rest =>
    match escapeByte? b with
    | some c => .ok ([c], rest)
    | none =>
      if b ≠ 0x75 then .error ⟨.invalidEscape, rest⟩
      else do
        let (n, rest) ← scanHex rest
        if 0xdc00 ≤ n ∧ n ≤ 0xdfff then throw ⟨.loneSurrogate, rest⟩
        if 0xd800 ≤ n ∧ n ≤ 0xdbff then scanLowSurrogate n rest
        else pure (codePoint n, rest)

/-- The bytes of a quoted string after its opening quote. -/
def scanString : (fuel : Nat) → Reader Bytes
  | 0, s => .error ⟨.eofInString, s⟩
  | _ + 1, [] => .error ⟨.eofInString, []⟩
  | fuel + 1, b :: rest =>
    if b = 0x22 then .ok ([], rest)
    else if b = 0x5c then do
      let (bytes, rest) ← scanEscape rest
      let (more, rest) ← scanString fuel rest
      pure (bytes ++ more, rest)
    else if b < 0x20 then .error ⟨.controlCharacter, rest⟩
    else do
      let (more, rest) ← scanString fuel rest
      pure (b :: more, rest)

/-- The text of a quoted string after its opening quote. -/
def readString : Reader String := fun s => do
  let (bytes, rest) ← scanString (s.length + 1) s
  pure (Utf8.decodeLossy bytes, rest)

/-- Passes over a quoted string after its opening quote; halves of surrogate pairs may stand
alone. -/
def skipString : (fuel : Nat) → Reader Unit
  | 0, s => .error ⟨.eofInString, s⟩
  | _ + 1, [] => .error ⟨.eofInString, []⟩
  | fuel + 1, b :: rest =>
    if b = 0x22 then .ok ((), rest)
    else if b = 0x5c then
      match rest with
      | [] => .error ⟨.eofInString, []⟩
      | c :: rest =>
        if (escapeByte? c).isSome then skipString fuel rest
        else if c ≠ 0x75 then .error ⟨.invalidEscape, rest⟩
        else do
          let (_, rest) ← scanHex rest
          skipString fuel rest
    else if b < 0x20 then .error ⟨.controlCharacter, b :: rest⟩
    else skipString fuel rest

/-! ## Words -/

/-- The rest of a word such as `null`, byte by byte. -/
def scanWord : List UInt8 → Reader Unit
  | [], s => .ok ((), s)
  | _ :: _, [] => .error ⟨.eofInValue, []⟩
  | expected :: more, b :: rest =>
    if b = expected then scanWord more rest else .error ⟨.expectedWord, rest⟩

/-! ## Numbers -/

/-- A number as it is read: whole numbers that fit 64 bits are exact, all others become doubles. -/
inductive Number where
  | natural (n : Nat)
  | negative (magnitude : Nat)
  | double (negative : Bool) (magnitude : Binary64)
  deriving DecidableEq, Repr

/-- Whether a byte is a decimal digit. -/
def isDigit (b : UInt8) : Bool := 0x30 ≤ b && b ≤ 0x39

/-- Whether a byte starts an exponent. -/
def isExponentMark (b : UInt8) : Bool := b = 0x65 || b = 0x45

/-- The value of a digit. -/
def digitValue (b : UInt8) : Nat := b.toNat - 0x30

/-- The greatest 64-bit whole number. -/
def maxWord : Nat := Nat.pow 2 64 - 1

/-- The greatest value an exponent is counted up to. -/
def maxExponent : Nat := Nat.pow 2 31 - 1

/-- Digits appended to a significand as long as it fits 64 bits: the significand, how many digits
were taken, and the rest. -/
def takeDigits (significand taken : Nat) : Bytes → Nat × Nat × Bytes
  | [] => (significand, taken, [])
  | b :: rest =>
    if isDigit b ∧ significand * 10 + digitValue b ≤ maxWord then
      takeDigits (significand * 10 + digitValue b) (taken + 1) rest
    else (significand, taken, b :: rest)

/-- The double `significand * 10 ^ exponent`, scaled by at most `10 ^ 308` at a time and rounded
after each step; `none` if it is too large. -/
def scaleBy : (fuel : Nat) → Binary64 → Int → Option Binary64
  | 0, _, _ => none
  | fuel + 1, x, exponent =>
    let power (k : Nat) : Binary64 := .ofRatio ⟨Nat.pow 10 k, 1⟩
    if exponent.natAbs ≤ 308 then
      if 0 ≤ exponent then
        match x.mul (power exponent.natAbs) with
        | .infinite => none
        | y => some y
      else some (x.div (power exponent.natAbs))
    else if x = .finite 0 0 then some x
    else if 0 ≤ exponent then none
    else scaleBy fuel (x.div (power 308)) (exponent + 308)

/-- A double made of its decimal parts. A significand below `2 ^ 64` vanishes within a few scaling
steps, so a handful of them decide every exponent. -/
def makeDouble (negative : Bool) (significand : Nat) (exponent : Int) : Reader Number := fun rest =>
  match scaleBy 8 (.ofRatio ⟨significand, 1⟩) exponent with
  | some x => .ok (.double negative x, rest)
  | none => .error ⟨.numberOutOfRange, rest⟩

/-- Digits of an exponent, counted up to `maxExponent`: its value, or `none` past that, and the rest
from the digit that was too much. -/
def takeExponent (value : Nat) : Bytes → Option Nat × Bytes
  | [] => (some value, [])
  | b :: rest =>
    if isDigit b then
      if value * 10 + digitValue b ≤ maxExponent then
        takeExponent (value * 10 + digitValue b) rest
      else (none, rest)
    else (some value, b :: rest)

/-- The exponent after its mark, for a number whose significand is scaled by `start` already. -/
def scanExponent (negative : Bool) (significand : Nat) (start : Int) : Reader Number := fun s =>
  let (down, s) := match s with
    | b :: rest => if b = 0x2b then (false, rest) else if b = 0x2d then (true, rest) else (false, s)
    | [] => (false, [])
  match s with
  | [] => .error ⟨.eofInValue, []⟩
  | b :: rest =>
    if isDigit b then
      match takeExponent (digitValue b) rest with
      | (some e, rest) =>
        makeDouble negative significand (if down then start - e else start + e) rest
      | (none, rest) =>
        if significand ≠ 0 ∧ ! down then .error ⟨.numberOutOfRange, rest⟩
        else .ok (.double negative (.finite 0 0), rest.dropWhile isDigit)
    else .error ⟨.invalidNumber, rest⟩

/-- What follows the digits of a number that is a double already. -/
def scanDoubleEnd (negative : Bool) (significand : Nat) (exponent : Int) : Reader Number := fun s =>
  match s with
  | b :: rest =>
    if isExponentMark b then scanExponent negative significand exponent rest
    else makeDouble negative significand exponent s
  | [] => makeDouble negative significand exponent s

/-- The decimals after a point, for a number whose significand is scaled by `start` already. -/
def scanDecimals (negative : Bool) (significand : Nat) (start : Int) : Reader Number := fun s =>
  let (significand, taken, rest) := takeDigits significand 0 s
  match rest with
  | b :: _ =>
    if isDigit b then
      scanDoubleEnd negative significand (start - taken) (rest.dropWhile isDigit)
    else if taken = 0 then .error (atNext .invalidNumber rest)
    else scanDoubleEnd negative significand (start - taken) rest
  | [] =>
    if taken = 0 then .error (atNext .eofInValue rest)
    else scanDoubleEnd negative significand (start - taken) rest

/-- What follows the whole digits of a number. -/
def scanFraction (negative : Bool) (significand : Nat) : Reader Number := fun s =>
  let whole : Except Fault (Number × Bytes) :=
    if ! negative then .ok (.natural significand, s)
    else if significand = 0 ∨ Nat.pow 2 63 < significand then
      .ok (.double true (.ofRatio ⟨significand, 1⟩), s)
    else .ok (.negative significand, s)
  match s with
  | b :: rest =>
    if b = 0x2e then scanDecimals negative significand 0 rest
    else if isExponentMark b then scanExponent negative significand 0 rest
    else whole
  | [] => whole

/-- Whole digits past the 64-bit range only scale the number. -/
def scanLong (negative : Bool) (significand : Nat) : Reader Number := fun s =>
  let digits := s.takeWhile isDigit
  let exponent : Int := digits.length
  match s.dropWhile isDigit with
  | b :: rest =>
    if b = 0x2e then scanDecimals negative significand exponent rest
    else scanDoubleEnd negative significand exponent (b :: rest)
  | [] => scanDoubleEnd negative significand exponent []

/-- A number after its sign. -/
def scanNumber (negative : Bool) : Reader Number
  | [] => .error ⟨.eofInValue, []⟩
  | b :: rest =>
    if b = 0x30 then
      match rest with
      | c :: _ =>
        if isDigit c then .error (atNext .invalidNumber rest) else scanFraction negative 0 rest
      | [] => scanFraction negative 0 rest
    else if isDigit b then
      let (significand, _, rest) := takeDigits (digitValue b) 0 rest
      match rest with
      | c :: _ =>
        if isDigit c then scanLong negative significand rest
        else scanFraction negative significand rest
      | [] => scanFraction negative significand rest
    else .error ⟨.invalidNumber, rest⟩

/-! ## Values that are not kept -/

/-- Passes over the digits of an exponent after its mark. -/
def skipExponent : Reader Unit := fun s =>
  let s := match s with
    | b :: rest => if b = 0x2b ∨ b = 0x2d then rest else s
    | [] => []
  match s with
  | b :: rest =>
    if isDigit b then .ok ((), rest.dropWhile isDigit) else .error ⟨.invalidNumber, rest⟩
  | [] => .error ⟨.invalidNumber, []⟩

/-- Passes over the decimals and the exponent of a number after its whole digits. -/
def skipFraction : Reader Unit
  | [] => .ok ((), [])
  | b :: rest =>
    if b = 0x2e then
      match rest with
      | c :: _ =>
        if isDigit c then
          match rest.dropWhile isDigit with
          | m :: more => if isExponentMark m then skipExponent more else .ok ((), m :: more)
          | [] => .ok ((), [])
        else .error (atNext .invalidNumber rest)
      | [] => .error (atNext .invalidNumber rest)
    else if isExponentMark b then skipExponent rest
    else .ok ((), b :: rest)

/-- Passes over a number after its sign. -/
def skipNumber : Reader Unit
  | [] => .error ⟨.invalidNumber, []⟩
  | b :: rest =>
    if b = 0x30 then
      match rest with
      | c :: _ => if isDigit c then .error (atNext .invalidNumber rest) else skipFraction rest
      | [] => .ok ((), [])
    else if isDigit b then skipFraction (rest.dropWhile isDigit)
    else .error ⟨.invalidNumber, rest⟩

/-- Passes over a quoted member name, if there is one. -/
def skipName : Reader Unit := fun s =>
  match skipBlank s with
  | [] => .error (atNext .eofInObject [])
  | b :: rest =>
    if b = 0x22 then skipString (rest.length + 1) rest
    else .error (atNext .expectedName (b :: rest))

/-- Passes over the colon between a name and its value. -/
def skipColon : Reader Unit := fun s =>
  match skipBlank s with
  | [] => .error (atNext .eofInObject [])
  | b :: rest => if b = 0x3a then .ok ((), rest) else .error (atNext .expectedColon (b :: rest))

mutual

/-- Passes over a value of any kind. -/
def skipValue : (fuel : Nat) → Reader Unit
  | 0, s => .error ⟨.eofInValue, s⟩
  | fuel + 1, s =>
    match skipBlank s with
    | [] => .error (atNext .eofInValue [])
    | b :: rest =>
      if b = 0x6e then scanWord [0x75, 0x6c, 0x6c] rest
      else if b = 0x74 then scanWord [0x72, 0x75, 0x65] rest
      else if b = 0x66 then scanWord [0x61, 0x6c, 0x73, 0x65] rest
      else if b = 0x2d then skipNumber rest
      else if isDigit b then skipNumber (b :: rest)
      else if b = 0x22 then skipString (rest.length + 1) rest
      else if b = 0x5b then
        match skipBlank rest with
        | [] => .error (atNext .eofInArray [])
        | c :: more => if c = 0x5d then .ok ((), more) else skipElements fuel (c :: more)
      else if b = 0x7b then
        match skipBlank rest with
        | [] => .error (atNext .eofInObject [])
        | c :: more => if c = 0x7d then .ok ((), more) else skipMembers fuel (c :: more)
      else .error (atNext .expectedValue (b :: rest))

/-- Passes over the elements of an array, of which there is at least one, and its end. -/
def skipElements : (fuel : Nat) → Reader Unit
  | 0, s => .error ⟨.eofInArray, s⟩
  | fuel + 1, s => do
    let (_, rest) ← skipValue fuel s
    match skipBlank rest with
    | [] => throw (atNext .eofInArray [])
    | b :: rest =>
      if b = 0x2c then skipElements fuel rest
      else if b = 0x5d then pure ((), rest)
      else throw (atNext .expectedArrayEnd (b :: rest))

/-- Passes over the members of an object, of which there is at least one, and its end. -/
def skipMembers : (fuel : Nat) → Reader Unit
  | 0, s => .error ⟨.eofInObject, s⟩
  | fuel + 1, s => do
    let (_, rest) ← skipName s
    let (_, rest) ← skipColon rest
    let (_, rest) ← skipValue fuel rest
    match skipBlank rest with
    | [] => throw (atNext .eofInObject [])
    | b :: rest =>
      if b = 0x2c then skipMembers fuel rest
      else if b = 0x7d then pure ((), rest)
      else throw (atNext .expectedObjectEnd (b :: rest))

end

/-- Passes over a value; each level of nesting takes at least one byte, so the fuel suffices. -/
def skipAny : Reader Unit := fun s => skipValue (2 * s.length + 2) s

end BenchHarness.Json
