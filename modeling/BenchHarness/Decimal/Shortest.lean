import BenchHarness.Decimal.Binary64
import BenchHarness.Text.Styled

/-!
# Shortest decimals

The decimal with the fewest digits that reads back as a given double, the nearest one if several
have that many. `DecimalStyle` says how such a decimal is laid out, and which one it is if two are
equally near.
-/

namespace BenchHarness

/-- A decimal `digits * 10 ^ exponent`. -/
structure ShortDecimal where
  digits : Nat
  exponent : Int
  deriving DecidableEq, Repr

/-- Which of two equally near decimals is taken: the greater one, or the one whose last digit is
even. -/
inductive Tie where
  | up
  | even
  deriving DecidableEq, Repr

namespace Binary64

/-- The number of decimal digits of a positive number. -/
def decimalLength (n : Nat) : Nat := (Nat.toDigits 10 n).length

/-- The exponent `k` with `10 ^ (k - 1) ≤ r < 10 ^ k`, for a positive fraction. -/
def magnitude (r : Ratio) : Int :=
  let guess : Int := (decimalLength r.num : Int) - decimalLength r.den
  if (Ratio.scale10 ⟨1, 1⟩ guess).le r then guess + 1 else guess

/-- The fractions that round to a double, as the ends of an interval. Below a power of two the gap
to the next smaller double is half as wide. -/
def interval (m : Nat) (e : Int) : Ratio × Ratio :=
  let low := if m = Nat.pow 2 52 ∧ minExponent < e then 4 * m - 1 else 4 * m - 2
  (Ratio.scale2 ⟨low, 1⟩ (e - 2), Ratio.scale2 ⟨4 * m + 2, 1⟩ (e - 2))

/-- Whether a fraction rounds to the double `m * 2 ^ e`: the ends of the interval do if the mantissa
is even. -/
def roundsTo (m : Nat) (e : Int) (r : Ratio) : Bool :=
  let (low, high) := interval m e
  if m % 2 = 0 then low.le r && r.le high else low.lt r && r.lt high

/-- The nearer of the two neighbours of a double on the grid of multiples of `10 ^ k`, if one of
them reads back as the double. -/
def neighbour? (tie : Tie) (m : Nat) (e : Int) (value : Ratio) (k : Int) : Option ShortDecimal :=
  let scaled := value.scale10 (-k)
  let below := scaled.num / scaled.den
  let point (n : Nat) : Ratio := Ratio.scale10 ⟨n, 1⟩ k
  let hit (n : Nat) : Bool := n ≠ 0 && roundsTo m e (point n)
  let toBelow := (point below).distance value
  let toAbove := (point (below + 1)).distance value
  let prefersBelow := toBelow.lt toAbove || (toBelow.le toAbove && tie = .even && below % 2 = 0)
  if hit below && (prefersBelow || ! hit (below + 1)) then some ⟨below, k⟩
  else if hit (below + 1) then some ⟨below + 1, k⟩
  else none

/-- The shortest decimal of a positive double. Seventeen digits always suffice. -/
def shortest (tie : Tie) (m : Nat) (e : Int) : ShortDecimal :=
  let value := Ratio.scale2 ⟨m, 1⟩ e
  let top := magnitude value
  let grids := (List.range 17).map fun n => top - (n + 1 : Nat)
  (grids.findSome? (neighbour? tie m e value)).getD ⟨m, 0⟩

end Binary64

/-- How a decimal is laid out. -/
structure DecimalStyle where
  /-- The least decimal exponent of the first digit that is written without an exponent. -/
  lowest : Option Int
  /-- The greatest decimal exponent of the first digit that is written without an exponent. -/
  highest : Option Int
  /-- Whether whole numbers end in a point and a zero. -/
  keepPoint : Bool
  /-- Which of two equally near decimals is written. -/
  tie : Tie
  deriving DecidableEq, Repr

namespace DecimalStyle

/-- Every digit is written out, and whole numbers have no point. -/
def positional : DecimalStyle := ⟨none, none, false, .up⟩

/-- Every digit is written out, and whole numbers end in `.0`. -/
def pointed : DecimalStyle := ⟨none, none, true, .up⟩

/-- Numbers far from one have a signed exponent, and whole numbers end in `.0`. -/
def scientific : DecimalStyle := ⟨some (-5), some 15, true, .even⟩

/-- Digits written out around a decimal point, the first digit having weight `10 ^ lead`. -/
def plainText (s : DecimalStyle) (digits : String) (lead : Int) : String :=
  match lead with
  | .negSucc n => "0." ++ "".pushn '0' n ++ digits
  | .ofNat n =>
    if digits.length ≤ n + 1 then
      digits ++ "".pushn '0' (n + 1 - digits.length) ++ (if s.keepPoint then ".0" else "")
    else
      String.ofList (digits.toList.take (n + 1)) ++ "." ++
        String.ofList (digits.toList.drop (n + 1))

/-- Digits with an exponent. -/
def exponentText (digits : String) (lead : Int) : String :=
  let mantissa := match digits.toList with
    | [] => ""
    | [d] => String.ofList [d]
    | d :: rest => String.ofList (d :: '.' :: rest)
  mantissa ++ (if lead < 0 then "e-" else "e+") ++ toString lead.natAbs

/-- A decimal with at least one digit other than zero. -/
def digitsText (s : DecimalStyle) (d : ShortDecimal) : String :=
  let kept := (Nat.toDigits 10 d.digits).reverse.dropWhile (· = '0') |>.reverse
  let lead : Int := d.exponent + (Nat.toDigits 10 d.digits).length - 1
  let digits := String.ofList kept
  if s.lowest.any (lead < ·) || s.highest.any (· < lead) then exponentText digits lead
  else s.plainText digits lead

/-- A double with its sign. -/
def text (s : DecimalStyle) (negative : Bool) (x : Binary64) : String :=
  (if negative then "-" else "") ++
    match x with
    | .infinite => "inf"
    | .finite 0 _ => if s.keepPoint then "0.0" else "0"
    | .finite m e => s.digitsText (Binary64.shortest s.tie m e)

end DecimalStyle

end BenchHarness
