import Mustache.Number

/-!
Reading numbers. A `Literal` is a number as the JSON grammar spells it; its value
is exact for integers of 64 bits and otherwise a float. The float is found by
keeping as many leading digits as 64 bits hold and scaling by a power of ten, so it
may be off by a unit in the last place; `Number.exactFloat?` reads a float's text
with correct rounding.
-/

namespace Mustache

structure Literal where
  negative : Bool
  whole : List Char
  /-- The digits after the point; a literal without a point has none. -/
  fraction : List Char
  /-- The exponent's sign and digits. -/
  power : Option (Bool × List Char)
deriving DecidableEq, Repr

namespace Literal

def digitsValue (digits : List Char) : Nat :=
  digits.foldl (fun n d => 10 * n + (d.toNat - '0'.toNat)) 0

/-- The digits before the point: a lone zero, or digits that do not start with one. -/
def readWhole? (s : List Char) : Option (List Char × List Char) :=
  match s with
  | '0' :: rest => some (['0'], rest)
  | _ =>
    match s.takeWhile Char.isDigit with
    | [] => none
    | digits => some (digits, s.dropWhile Char.isDigit)

/-- A point and the digits after it, of which there is at least one. -/
def readFraction? (s : List Char) : Option (List Char × List Char) :=
  match s with
  | '.' :: rest =>
    match rest.takeWhile Char.isDigit with
    | [] => none
    | digits => some (digits, rest.dropWhile Char.isDigit)
  | _ => some ([], s)

/-- An exponent mark, a sign and digits, of which there is at least one. -/
def readPower? (s : List Char) : Option (Option (Bool × List Char) × List Char) :=
  let signed (negative : Bool) (s : List Char) :=
    match s.takeWhile Char.isDigit with
    | [] => none
    | digits => some (some (negative, digits), s.dropWhile Char.isDigit)
  let unsigned (s : List Char) :=
    match s with
    | '-' :: rest => signed true rest
    | '+' :: rest => signed false rest
    | _ => signed false s
  match s with
  | 'e' :: rest => unsigned rest
  | 'E' :: rest => unsigned rest
  | _ => some (none, s)

/-- The literal at the start of a text, and what follows it. -/
def read? (s : List Char) : Option (Literal × List Char) := do
  let (negative, rest) := match s with
    | '-' :: rest => (true, rest)
    | _ => (false, s)
  let (whole, rest) ← readWhole? rest
  let (fraction, rest) ← readFraction? rest
  let (power, rest) ← readPower? rest
  some (⟨negative, whole, fraction, power⟩, rest)

/-- Takes digits into a significand while it fits into 64 bits. The rest of the
digits is returned with it. -/
def absorb (significand : Nat) : List Char → Nat × List Char
  | [] => (significand, [])
  | d :: digits =>
    let longer := 10 * significand + (d.toNat - '0'.toNat)
    if longer < Nat.pow 2 64 then absorb longer digits else (significand, d :: digits)

/-- The float nearest to a power of ten. -/
def powerOfTen (n : Nat) : Float :=
  Float.ofScientific 1 false n

/-- Divides by a power of ten, in steps that are floats themselves. -/
def scaleDown (x : Float) (n : Nat) : Float :=
  if n ≤ 308 then x / powerOfTen n
  else if x == 0 then x
  else scaleDown (x / powerOfTen 308) (n - 308)
termination_by n

/-- The float `significand * 10 ^ exponent`; none when it is too large. -/
def scale? (significand : Nat) (exponent : Int) : Option Float :=
  let x := Float.ofNat significand
  if exponent < 0 then some (scaleDown x exponent.natAbs)
  else if exponent ≤ 308 then
    let scaled := x * powerOfTen exponent.natAbs
    if scaled.isInf then none else some scaled
  else if x == 0 then some x
  else none

/-- Scales the digits that fit: a digit dropped before the point counts as a power
of ten, and one dropped after it does not count. -/
def float? (l : Literal) : Option Float :=
  let (whole, droppedWhole) := absorb 0 l.whole
  let (significand, droppedFraction) := absorb whole l.fraction
  let power : Int := match l.power with
    | none => 0
    | some (negative, digits) =>
      if negative then -(digitsValue digits : Int) else digitsValue digits
  let kept : Int := l.fraction.length - droppedFraction.length
  (scale? significand (droppedWhole.length - kept + power)).map fun x =>
    if l.negative then -x else x

/-- The literal's number: an integer when it is written as one, is not `-0` and fits
into 64 bits, with or without a sign; else a float, when one is large enough. -/
def number? (l : Literal) : Option Number :=
  let n := digitsValue l.whole
  if l.fraction.isEmpty && l.power.isNone then
    if !l.negative && n < Nat.pow 2 64 then some (.integer n)
    else if l.negative && 0 < n && n ≤ Nat.pow 2 63 then some (.integer (-n))
    else l.float?.map .float
  else l.float?.map .float

end Literal

namespace Number

/-- The number that a text spells as a whole. -/
def read? (s : List Char) : Option Number :=
  match Literal.read? s with
  | some (l, []) => l.number?
  | _ => none

/-- Reads the digits of a float's text: digits with at most one point among them,
then perhaps an exponent. The float nearest to the spelled value is taken. -/
private def unsignedFloat? (s : List Char) : Option Float := do
  let whole := s.takeWhile Char.isDigit
  let rest := s.dropWhile Char.isDigit
  let (fraction, rest) := match rest with
    | '.' :: rest => (rest.takeWhile Char.isDigit, rest.dropWhile Char.isDigit)
    | _ => ([], rest)
  if whole.isEmpty && fraction.isEmpty then none
  let (power, rest) ← Literal.readPower? rest
  if !rest.isEmpty then none
  let exponent : Int := match power with
    | none => 0
    | some (negative, digits) =>
      let n : Int := Literal.digitsValue digits
      if negative then -n else n
  let significand := Literal.digitsValue (whole ++ fraction)
  let exponent := exponent - fraction.length
  let reach : Int := exponent + (whole ++ fraction).length
  if significand == 0 || reach < -400 then some 0
  else if exponent > 400 then some (1 / 0)
  else some (Float.ofScientific significand (decide (exponent < 0)) exponent.natAbs)

/-- The float that a text spells, correctly rounded. Not-a-number and the infinities
have names, whose letters may be large or small. -/
def exactFloat? (s : List Char) : Option Float :=
  let (negative, rest) := match s with
    | '-' :: rest => (true, rest)
    | '+' :: rest => (false, rest)
    | _ => (false, s)
  let magnitude := match String.ofList (rest.map Char.toLower) with
    | "nan" => some (0 / 0)
    | "inf" => some (1 / 0)
    | "infinity" => some (1 / 0)
    | _ => unsignedFloat? rest
  magnitude.map fun x => if negative then -x else x

end Number

end Mustache
