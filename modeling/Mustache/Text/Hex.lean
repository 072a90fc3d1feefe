namespace Mustache.Text

def hexValue? (c : Char) : Option Nat :=
  if c.isDigit then some (c.toNat - '0'.toNat)
  else if 'a' ≤ c && c ≤ 'f' then some (c.toNat - 'a'.toNat + 10)
  else if 'A' ≤ c && c ≤ 'F' then some (c.toNat - 'A'.toNat + 10)
  else none

def hexDigit (n : Nat) : Char :=
  Nat.digitChar n

/-- The last digits of a number, in capital letters and as many as asked for. -/
def capitalHex : Nat → Nat → List Char
  | 0, _ => []
  | width + 1, n => capitalHex width (n / 16) ++ [(hexDigit (n % 16)).toUpper]

theorem length_capitalHex (width n : Nat) : (capitalHex width n).length = width := by
  induction width generalizing n with
  | zero => rfl
  | succ width ih => simp [capitalHex, ih]

end Mustache.Text
