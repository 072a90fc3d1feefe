import Mustache.Decimal.Shortest

namespace Mustache.Decimal

structure Style where
  /-- The powers of ten of the leading digit that are written without an exponent. -/
  plain : Int → Bool
  /-- A whole number written without an exponent ends in `.0`. -/
  pointZero : Bool
  /-- A positive exponent has a sign. -/
  plusSign : Bool
  tie : Tie
  nan : String
  infinity : String

namespace Style

/-- Writes digits whose first one counts `10 ^ leading`. -/
def layout (style : Style) (digits : List Char) (leading : Int) : List Char :=
  if style.plain leading then
    if leading < 0 then
      '0' :: '.' :: List.replicate (-leading - 1).toNat '0' ++ digits
    else
      let whole := leading.toNat + 1
      if digits.length ≤ whole then
        digits ++ List.replicate (whole - digits.length) '0' ++
          if style.pointZero then ['.', '0'] else []
      else
        digits.take whole ++ '.' :: digits.drop whole
  else
    let mark := if leading < 0 then ['e', '-'] else if style.plusSign then ['e', '+'] else ['e']
    let fraction := match digits.drop 1 with
      | [] => []
      | rest => '.' :: rest
    digits.take 1 ++ fraction ++ mark ++ Nat.toDigits 10 leading.natAbs

/-- The text of a float: a sign, then the shortest digits that read back. -/
def render (style : Style) (x : Float) : String :=
  let signed (negative : Bool) (text : List Char) : String :=
    String.ofList (if negative then '-' :: text else text)
  match Reading.ofFloat x with
  | .nan => style.nan
  | .infinite negative => signed negative style.infinity.toList
  | .zero negative => signed negative (style.layout ['0'] 0)
  | .finite negative magnitude =>
    let d := shortest magnitude style.tie
    let digits := Nat.toDigits 10 d.digits
    signed negative (style.layout digits (d.exponent + digits.length - 1))

end Style

end Mustache.Decimal
