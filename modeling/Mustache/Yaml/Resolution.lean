import Mustache.Number.Literal
import Mustache.Text.Hex

/-!
What plain text stands for. Text without quotes may be read as null, as a truth value
or as a number; a string that looks like one of them cannot do without quotes.
-/

namespace Mustache.Yaml

/-- A text without its sign, and whether the sign is a minus. -/
def withoutSign : List Char → Bool × List Char
  | '+' :: rest => (false, rest)
  | '-' :: rest => (true, rest)
  | s => (false, s)

/-- The value of one digit or more in a radix. -/
def digitsIn? (radix : Nat) (digits : List Char) : Option Nat :=
  if digits.isEmpty then none
  else digits.foldlM (fun n c =>
    match Text.hexValue? c with
    | some d => if d < radix then some (radix * n + d) else none
    | none => none) 0

/-- The magnitude of an integer that starts with the mark of its radix. -/
def markedInteger? : List Char → Option Nat
  | '0' :: 'x' :: digits => digitsIn? 16 digits
  | '0' :: 'o' :: digits => digitsIn? 8 digits
  | '0' :: 'b' :: digits => digitsIn? 2 digits
  | _ => none

/-- Integers with a radix mark are read while 128 bits hold them, a negative one with
its sign. -/
def isMarkedInteger (s : List Char) : Bool :=
  let (negative, rest) := withoutSign s
  (markedInteger? rest).any fun n => if negative then n ≤ Nat.pow 2 127 else n < Nat.pow 2 128

/-- Digits that start with a zero and go on. They are no number, but other readers take
them for one. -/
def isZeroPadded (s : List Char) : Bool :=
  match (withoutSign s).2 with
  | '0' :: d :: digits => (d :: digits).all Char.isDigit
  | _ => false

/-- Decimal digits, perhaps with a point or an exponent, that spell a finite number. -/
def isDecimal (s : List Char) : Bool :=
  let rest := (withoutSign s).2
  rest.head?.any (fun c => c.isDigit || c == '.') &&
    (Number.exactFloat? rest).any Float.isFinite

/-- The spellings of null, of the truth values and of what is no finite number. -/
def reservedWords : List String :=
  ["", "~", "null", "Null", "NULL", "true", "True", "TRUE", "false", "False", "FALSE",
    ".nan", ".NaN", ".NAN", ".inf", ".Inf", ".INF", "+.inf", "+.Inf", "+.INF",
    "-.inf", "-.Inf", "-.INF"]

/-- Whether plain text would be read as something else than a string. -/
def isAmbiguous (s : List Char) : Bool :=
  reservedWords.contains (String.ofList s) || isMarkedInteger s || isZeroPadded s || isDecimal s

end Mustache.Yaml
