/-!
# Double precision magnitudes

The non-negative values of a 64-bit float, as `mantissa * 2 ^ exponent`, and rounding to them in
exact arithmetic: to the nearest, a tie going to the even mantissa.
-/

namespace BenchHarness

/-- A fraction of natural numbers. -/
structure Ratio where
  num : Nat
  den : Nat
  deriving DecidableEq, Repr

namespace Ratio

/-- `num / den * 2 ^ k`. -/
def scale2 (r : Ratio) (k : Int) : Ratio :=
  match k with
  | .ofNat n => ⟨r.num * Nat.pow 2 n, r.den⟩
  | .negSucc n => ⟨r.num, r.den * Nat.pow 2 (n + 1)⟩

/-- `num / den * 10 ^ k`. -/
def scale10 (r : Ratio) (k : Int) : Ratio :=
  match k with
  | .ofNat n => ⟨r.num * Nat.pow 10 n, r.den⟩
  | .negSucc n => ⟨r.num, r.den * Nat.pow 10 (n + 1)⟩

/-- The nearest whole number, the even one of two equally near. -/
def roundEven (r : Ratio) : Nat :=
  let q := r.num / r.den
  let rest := r.num % r.den
  if r.den < 2 * rest ∨ (2 * rest = r.den ∧ q % 2 = 1) then q + 1 else q

def add (r s : Ratio) : Ratio := ⟨r.num * s.den + s.num * r.den, r.den * s.den⟩
def mul (r s : Ratio) : Ratio := ⟨r.num * s.num, r.den * s.den⟩
def div (r s : Ratio) : Ratio := ⟨r.num * s.den, r.den * s.num⟩

/-- Whether one fraction is at most another. -/
def le (r s : Ratio) : Bool := r.num * s.den ≤ s.num * r.den

/-- Whether one fraction is less than another. -/
def lt (r s : Ratio) : Bool := r.num * s.den < s.num * r.den

/-- How far apart two fractions are. -/
def distance (r s : Ratio) : Ratio :=
  let a := r.num * s.den
  let b := s.num * r.den
  ⟨if a ≤ b then b - a else a - b, r.den * s.den⟩

end Ratio

/-- A non-negative double: `mantissa * 2 ^ exponent`, or infinity. -/
inductive Binary64 where
  | finite (mantissa : Nat) (exponent : Int)
  | infinite
  deriving DecidableEq, Repr

namespace Binary64

/-- The least exponent of a double's last bit. -/
def minExponent : Int := -1074

/-- The greatest exponent of a double's last bit. -/
def maxExponent : Int := 971

/-- The exponent of the last bit when a positive fraction is rounded: it leaves 53 bits, unless the
value is too small for that. -/
def lastBit (r : Ratio) : Int :=
  let guess : Int := (r.num.log2 : Int) - r.den.log2 - 53
  let scaled := r.scale2 (-guess)
  let exact := if Nat.pow 2 53 * scaled.den ≤ scaled.num then guess + 1 else guess
  max exact minExponent

/-- The double nearest to a fraction. -/
def ofRatio (r : Ratio) : Binary64 :=
  if r.num = 0 then .finite 0 0
  else
    let e := lastBit r
    let m := (r.scale2 (-e)).roundEven
    let (m, e) := if m = Nat.pow 2 53 then (Nat.pow 2 52, e + 1) else (m, e)
    if maxExponent < e then .infinite else .finite m e

/-- The exact value of a double; infinity has none. -/
def toRatio? : Binary64 → Option Ratio
  | .finite m e => some (Ratio.scale2 ⟨m, 1⟩ e)
  | .infinite => none

/-- A double operation: the exact result, rounded. Infinity stays infinity. -/
def lift₂ (op : Ratio → Ratio → Ratio) (x y : Binary64) : Binary64 :=
  match x.toRatio?, y.toRatio? with
  | some r, some s => ofRatio (op r s)
  | _, _ => .infinite

def add : Binary64 → Binary64 → Binary64 := lift₂ Ratio.add
def mul : Binary64 → Binary64 → Binary64 := lift₂ Ratio.mul
def div : Binary64 → Binary64 → Binary64 := lift₂ Ratio.div

end Binary64

end BenchHarness
