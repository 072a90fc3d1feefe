import Mustache.Decimal.Binary

/-!
The fewest decimal digits that read back as a given float. The search looks at
grids of one digit, two digits and so on; on each it tries the two neighbours of
the value, in exact arithmetic.
-/

namespace Mustache.Decimal

/-- The value `digits * 10 ^ exponent`. -/
structure Scaled where
  digits : Nat
  exponent : Int
deriving DecidableEq, Repr

/-- Which of two equally near decimals is taken. -/
inductive Tie where
  | toEven
  | upward
deriving DecidableEq, Repr

/-- Compares `a * 10 ^ i` with `b * 2 ^ j`. -/
def compareScaled (a : Nat) (i : Int) (b : Nat) (j : Int) : Ordering :=
  compare (a * Nat.pow 10 i.toNat * Nat.pow 2 (-j).toNat)
    (b * Nat.pow 2 j.toNat * Nat.pow 10 (-i).toNat)

namespace Binary

/-- The decimal lies among the reals that round to the value: not beyond the
midpoints to its neighbours, which belong to an even significand. -/
def readsBack (x : Binary) (d : Scaled) : Bool :=
  let even := x.significand % 2 == 0
  let low := 4 * x.significand - if x.narrow then 1 else 2
  let high := 4 * x.significand + 2
  let atLow := compareScaled d.digits d.exponent low (x.exponent - 2)
  let atHigh := compareScaled d.digits d.exponent high (x.exponent - 2)
  (atLow == .gt || (even && atLow == .eq)) && (atHigh == .lt || (even && atHigh == .eq))

/-- The least power of ten above the value. The first estimate is never too large,
and at most two too small. -/
def magnitude (x : Binary) : Int :=
  let bits : Int := Nat.log2 x.significand + x.exponent
  let estimate := (bits * 30103).fdiv 100000
  let above (k : Int) : Bool := compareScaled 1 k x.significand x.exponent == .gt
  if above estimate then estimate
  else if above (estimate + 1) then estimate + 1
  else estimate + 2

/-- The neighbour of the value on the grid `10 ^ exponent` that reads back, the
nearer one if both do. -/
def onGrid? (x : Binary) (tie : Tie) (exponent : Int) : Option Scaled :=
  let numerator := x.significand * Nat.pow 2 x.exponent.toNat * Nat.pow 10 (-exponent).toNat
  let denominator := Nat.pow 2 (-x.exponent).toNat * Nat.pow 10 exponent.toNat
  let below := numerator / denominator
  let lower : Scaled := ⟨below, exponent⟩
  let upper : Scaled := ⟨below + 1, exponent⟩
  match x.readsBack lower, x.readsBack upper with
  | false, false => none
  | true, false => some lower
  | false, true => some upper
  | true, true =>
    match compare (2 * numerator) ((2 * below + 1) * denominator), tie with
    | .lt, _ => some lower
    | .gt, _ => some upper
    | .eq, .toEven => if below % 2 == 0 then some lower else some upper
    | .eq, .upward => some upper

def exact (x : Binary) : Scaled :=
  if 0 ≤ x.exponent then ⟨x.significand * Nat.pow 2 x.exponent.toNat, 0⟩
  else ⟨x.significand * Nat.pow 5 (-x.exponent).toNat, x.exponent⟩

end Binary

namespace Scaled

/-- Moves up to the given number of trailing zeros into the exponent. -/
def strip : Nat → Scaled → Scaled
  | 0, d => d
  | n + 1, d => if d.digits % 10 == 0 then strip n ⟨d.digits / 10, d.exponent + 1⟩ else d

end Scaled

/-- The shortest decimal that reads back as the value; seventeen digits suffice. -/
def shortest (x : Binary) (tie : Tie) : Scaled :=
  let top := x.magnitude
  let hit := (List.range 17).findSome? fun (n : Nat) => x.onGrid? tie (top - 1 - n)
  (hit.getD x.exact).strip 20

end Mustache.Decimal
