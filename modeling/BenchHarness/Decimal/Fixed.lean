import BenchHarness.Decimal.Binary64
import BenchHarness.Text.Styled

/-!
# Fixed decimals

A double written with a fixed number of decimals, its exact value rounded to the nearest, a tie
going to the even last digit; and durations shown in seconds that way.
-/

namespace BenchHarness

/-- The digits of a number, padded on the left with zeros. -/
def paddedDigits (width n : Nat) : String :=
  let digits := toString n
  "".pushn '0' (width - digits.length) ++ digits

/-- A double with a given number of decimals. -/
def Binary64.fixed (places : Nat) (x : Binary64) : String :=
  match x.toRatio? with
  | none => "inf"
  | some r =>
    let scaled := (r.scale10 places).roundEven
    toString (scaled / Nat.pow 10 places) ++
      (if places = 0 then "" else "." ++ paddedDigits places (scaled % Nat.pow 10 places))

namespace Duration

/-- A duration in nanoseconds as a double of seconds: the whole seconds and the rest are rounded one
by one, then their sum. -/
def seconds (nanoseconds : Nat) : Binary64 :=
  (Binary64.ofRatio ⟨nanoseconds / Nat.pow 10 9, 1⟩).add
    (Binary64.ofRatio ⟨nanoseconds % Nat.pow 10 9, Nat.pow 10 9⟩)

/-- A duration in brackets, three decimals, aligned to eight columns. -/
def text (nanoseconds : Nat) : String :=
  "[" ++ Text.alignRight 8 ((seconds nanoseconds).fixed 3) ++ "s] "

end Duration

end BenchHarness
