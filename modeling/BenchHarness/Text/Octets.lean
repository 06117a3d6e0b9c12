import BenchHarness.Text.Utf8

/-!
# Octets

A byte run read as text in which every character stands for one byte: the character whose code point
is the byte. Scripts are scanned in this form, so that bytes which are no UTF-8 text pass through
unchanged.
-/

namespace BenchHarness

/-- Text in which every character stands for one byte. -/
abbrev Octets := List Char

namespace Octets

/-- The octets of a byte run. -/
def ofBytes (bytes : Bytes) : Octets := bytes.map fun b => Char.ofNat b.toNat

/-- The bytes of some octets. -/
def toBytes (s : Octets) : Bytes := s.map fun c => UInt8.ofNat c.toNat

/-- The octets of a text: one for each byte of its encoding. -/
def ofString (s : String) : Octets := ofBytes (Utf8.encode s)

/-- The octets of a number in decimal notation. -/
def ofNat (n : Nat) : Octets := (toString n).toList

/-- The octets of an integer in decimal notation. -/
def ofInt (n : Int) : Octets := if n < 0 then '-' :: ofNat n.natAbs else ofNat n.natAbs

/-- The value of some decimal digits, if there is at least one and nothing else. -/
def toNat? (s : Octets) : Option Nat :=
  if s ≠ [] ∧ s.all Char.isDigit then some (s.foldl (fun n c => n * 10 + (c.toNat - 48)) 0)
  else none

/-- The value of decimal digits after an optional sign. -/
def toInt? : Octets → Option Int
  | '-' :: s => (toNat? s).map fun n => - (n : Int)
  | '+' :: s => (toNat? s).map Int.ofNat
  | s => (toNat? s).map Int.ofNat

end Octets

end BenchHarness
