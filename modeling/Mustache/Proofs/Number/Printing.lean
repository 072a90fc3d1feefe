import Mathlib.Algebra.Group.Int.Defs
import Mathlib.Algebra.Group.Nat.Defs
import Mustache.Proofs.Number.Spelling

namespace Mustache

namespace Literal

private theorem digitsValue_toDigits (n : Nat) : digitsValue (Nat.toDigits 10 n) = n := by
  have value := Nat.ofDigitChars_ten_toDigits (n := n)
  rwa [Nat.ofDigitChars_eq_foldl] at value

private theorem head?_toDigits_ne {n : Nat} (positive : 0 < n) :
    (Nat.toDigits 10 n).head? ≠ some '0' := by
  induction n using Nat.strongRecOn with
  | ind n ih =>
    by_cases small : n < 10
    · have digits : ∀ d < 10, 0 < d → Nat.digitChar d ≠ '0' := by decide
      rw [Nat.toDigits_of_lt_base small]
      intro zero
      exact digits n small positive (Option.some.inj zero)
    · rw [Nat.toDigits_of_base_le (by decide) (by omega)]
      obtain ⟨c, rest, same⟩ := List.exists_cons_of_ne_nil (Nat.toDigits_ne_nil (n := n / 10) (b := 10))
      have shorter := ih (n / 10) (by omega) (by omega)
      rw [same] at shorter ⊢
      exact shorter

private theorem isWhole_toDigits (n : Nat) : IsWhole (Nat.toDigits 10 n) := by
  refine ⟨⟨Nat.toDigits_ne_nil, ?_⟩, ?_⟩
  · intro c member
    exact Nat.isDigit_of_mem_toDigits (by decide) (by decide) member
  · intro zero
    rcases Nat.eq_zero_or_pos n with rfl | positive
    · rfl
    · exact absurd zero (head?_toDigits_ne positive)

def ofInt (n : Int) : Literal :=
  ⟨decide (n < 0), Nat.toDigits 10 n.natAbs, [], none⟩

private theorem ofInt_spells (n : Int) : (ofInt n).Spells (toString n).toList := by
  refine ⟨isWhole_toDigits _, [], [], .absent, .absent, ?_⟩
  cases n with
  | ofNat m =>
    have text : (toString (Int.ofNat m)).toList = Nat.toDigits 10 m := Nat.toList_repr
    have unsigned : ¬ (m : Int) < 0 := by omega
    rw [text]
    simp [ofInt, unsigned]
  | negSucc m =>
    have text : (toString (Int.negSucc m)).toList = '-' :: Nat.toDigits 10 (m + 1) := by
      change ("-" ++ Nat.repr (m + 1)).toList = _
      rw [String.toList_append, Nat.toList_repr]
      rfl
    rw [text]
    simp [ofInt]

private theorem number?_ofInt {n : Int} (low : -2 ^ 63 ≤ n) (high : n < 2 ^ 64) :
    (ofInt n).number? = some (.integer n) := by
  unfold number? ofInt
  simp only [digitsValue_toDigits, List.isEmpty_nil, Option.isNone_none, Bool.and_true, if_true]
  by_cases negative : n < 0
  · rw [if_neg (by simp [negative]), if_pos (by simp; omega)]
    congr 2
    omega
  · rw [if_pos (by simp; omega)]
    congr 2
    omega

/-- An integer that was read fits into 64 bits. -/
theorem bounds_of_number? {l : Literal} {n : Int} (read : l.number? = some (.integer n)) :
    -2 ^ 63 ≤ n ∧ n < 2 ^ 64 := by
  have float (is : l.float?.map Number.float = some (.integer n)) : False := by
    obtain ⟨x, -, same⟩ := Option.map_eq_some_iff.mp is
    cases same
  unfold number? at read
  dsimp only at read
  split at read
  · split at read
    · rename_i small
      obtain rfl := Number.integer.inj (Option.some.inj read)
      simp at small
      omega
    · split at read
      · rename_i small
        obtain rfl := Number.integer.inj (Option.some.inj read)
        simp at small
        omega
      · exact (float read).elim
  · exact (float read).elim

end Literal

namespace Number

/-- The JSON text of the number is read as an equal number. -/
def readsBack (n : Number) : Bool :=
  (read? (n.render jsonStyle).toList).any (· == n)

theorem readsBack_iff {n : Number} :
    n.readsBack = true ↔
      ∃ m, read? (n.render jsonStyle).toList = some m ∧ (m == n) = true := by
  simp [readsBack, Option.any_eq_true]

theorem readsBack_integer {n : Int} (low : -2 ^ 63 ≤ n) (high : n < 2 ^ 64) :
    (integer n).readsBack = true := by
  rw [readsBack_iff]
  refine ⟨integer n, ?_, beq_self_eq_true n⟩
  exact read?_eq_some_iff.mpr ⟨_, Literal.ofInt_spells n, Literal.number?_ofInt low high⟩

end Number

end Mustache
