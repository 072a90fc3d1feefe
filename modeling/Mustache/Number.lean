import Mustache.Decimal.Style

namespace Mustache

inductive Number where
  | integer (n : Int)
  | float (x : Float)
deriving Repr, Inhabited

namespace Number

/-- Integers equal integers only; floats compare as floats do. -/
def beq : Number → Number → Bool
  | integer a, integer b => a == b
  | float a, float b => a == b
  | _, _ => false

instance : BEq Number := ⟨beq⟩

/-- Numbers in JSON text: magnitudes from `0.00001` up to `10 ^ 16` are written
plainly, with at least one decimal; all others with a signed exponent. -/
def jsonStyle : Decimal.Style where
  plain e := -5 ≤ e && e < 16
  pointZero := true
  plusSign := true
  tie := .toEven
  nan := "null"
  infinity := "null"

/-- Numbers in YAML text: as in JSON, with no sign on a positive exponent and with
names for the values that are not finite. -/
def yamlStyle : Decimal.Style where
  plain e := -5 ≤ e && e < 16
  pointZero := true
  plusSign := false
  tie := .toEven
  nan := ".nan"
  infinity := ".inf"

/-- A float that belongs to no data format: never an exponent, no decimals on a
whole number. -/
def plainStyle : Decimal.Style where
  plain _ := true
  pointZero := false
  plusSign := false
  tie := .upward
  nan := "NaN"
  infinity := "inf"

def render (style : Decimal.Style) : Number → String
  | integer n => toString n
  | float x => style.render x

end Number

end Mustache
