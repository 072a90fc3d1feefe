import Mustache.Proofs.Number.Powers

/-!
A number that was read equals itself: no step of reading a float yields not-a-number, which
is the only value that equals nothing.
-/

namespace Mustache

open Float.Model (Format UnpackedFloat)
open Float.Model.UnpackedFloat

namespace Number

private theorem isNaN_dite {p : Prop} [Decidable p] {u : p → UnpackedFloat}
    {v : ¬ p → UnpackedFloat} (first : ∀ h, (u h).isNaN = false)
    (second : ∀ h, (v h).isNaN = false) : (dite p u v).isNaN = false := by
  by_cases h : p
  · rw [dif_pos h]
    exact first h
  · rw [dif_neg h]
    exact second h

private theorem isNaN_ite {p : Prop} [Decidable p] {u v : UnpackedFloat}
    (first : u.isNaN = false) (second : v.isNaN = false) : (ite p u v).isNaN = false := by
  by_cases h : p
  · rwa [if_pos h]
  · rwa [if_neg h]

private theorem isNaN_unpack_components (sign : Sign) (e : BitVec 11) (m : BitVec 52)
    (allowed : e = -1#11 → m = 0#52) :
    (UnpackedFloat.unpack .binary64 (packComponents .binary64 sign e m)).isNaN = false := by
  unfold UnpackedFloat.unpack
  dsimp only
  by_cases top : e = -1#11
  · rw [if_pos, if_pos]
    · rfl
    · rw [unpackMantissa_packComponents]
      exact allowed top
    · rw [unpackExponent_packComponents]
      exact top
  · rw [if_neg]
    · exact isNaN_ite (isNaN_dite (fun _ => rfl) fun _ => rfl) rfl
    · rw [unpackExponent_packComponents]
      exact top

private theorem isNaN_pack {u : UnpackedFloat} (number : u.isNaN = false) :
    (Float.Model.pack u).isNaN = false := by
  cases u with
  | notANumber => exact absurd number (by decide)
  | infinity sign => exact isNaN_unpack_components _ _ _ fun _ => rfl
  | zero sign => exact isNaN_unpack_components _ _ _ fun _ => rfl
  | finite sign m e positive =>
    unfold Float.Model.isNaN Float.Model.pack Float.Model.unpack UnpackedFloat.pack
    dsimp only
    split
    · exact isNaN_unpack_components _ _ _ fun _ => rfl
    · rename_i small
      split
      · refine isNaN_unpack_components _ _ _ fun top => ?_
        have value := congrArg BitVec.toNat top
        simp at value small
        omega
      · exact isNaN_unpack_components _ _ _ fun top => absurd top (by decide)

private theorem isNaN_round (spec : Format) (sign : Sign) (m : Nat) (e : Int) (a : Accuracy) :
    (roundWithAccuracy spec sign m e a).isNaN = false := by
  unfold roundWithAccuracy
  dsimp only
  exact isNaN_dite (fun _ => rfl) fun _ => rfl

private theorem isNaN_normalize (spec : Format) (m e : Int) (sign : Sign) :
    (UnpackedFloat.normalize spec m e sign).isNaN = false := by
  unfold UnpackedFloat.normalize
  split
  · exact isNaN_round ..
  · rfl
  · exact isNaN_round ..

private theorem isNaN_of_cases {f : UnpackedFloat → UnpackedFloat} {u : UnpackedFloat}
    (number : u.isNaN = false) (infinity : ∀ sign, (f (.infinity sign)).isNaN = false)
    (zero : ∀ sign, (f (.zero sign)).isNaN = false)
    (finite : ∀ sign m e positive, (f (.finite sign m e positive)).isNaN = false) :
    (f u).isNaN = false := by
  cases u with
  | notANumber => exact absurd number (by decide)
  | infinity sign => exact infinity sign
  | zero sign => exact zero sign
  | finite sign m e positive => exact finite sign m e positive

private theorem exists_parts {x : Float} (proper : isProper x = true) :
    ∃ sign m e positive, x.toModel.unpack = .finite sign m e positive := by
  cases parts : x.toModel.unpack with
  | finite sign m e positive => exact ⟨sign, m, e, positive, rfl⟩
  | notANumber | infinity _ | zero _ =>
    rw [isProper, parts] at proper
    exact absurd proper Bool.false_ne_true

private theorem isNaN_mul {x y : Float} (number : x.isNaN = false) (proper : isProper y = true) :
    (x * y).isNaN = false := by
  obtain ⟨sign, m, e, positive, parts⟩ := exists_parts proper
  have product : (UnpackedFloat.mul .binary64 x.toModel.unpack y.toModel.unpack).isNaN = false := by
    rw [parts]
    exact isNaN_of_cases (f := fun u => UnpackedFloat.mul .binary64 u _) number (fun _ => rfl)
      (fun _ => rfl) fun _ _ _ _ => isNaN_round ..
  exact isNaN_pack product

private theorem isNaN_div {x y : Float} (number : x.isNaN = false) (proper : isProper y = true) :
    (x / y).isNaN = false := by
  obtain ⟨sign, m, e, positive, parts⟩ := exists_parts proper
  have quotient : (UnpackedFloat.div .binary64 x.toModel.unpack y.toModel.unpack).isNaN = false := by
    rw [parts]
    exact isNaN_of_cases (f := fun u => UnpackedFloat.div .binary64 u _) number (fun _ => rfl)
      (fun _ => rfl) fun _ _ _ _ => isNaN_round ..
  exact isNaN_pack quotient

private theorem isNaN_neg {x : Float} (number : x.isNaN = false) : (-x).isNaN = false :=
  isNaN_pack (isNaN_of_cases (f := UnpackedFloat.neg) number (fun _ => rfl) (fun _ => rfl)
    fun _ _ _ _ => rfl)

private theorem isNaN_ofScientific (spec : Format) (m : Nat) (e : Int) :
    (UnpackedFloat.ofScientific spec m e).isNaN = false := by
  unfold UnpackedFloat.ofScientific
  refine isNaN_dite (fun _ => rfl) fun _ => isNaN_ite rfl (isNaN_ite rfl (isNaN_ite ?_ ?_))
  · exact isNaN_round ..
  · exact isNaN_round ..

private theorem isNaN_ofNat (n : Nat) : (Float.ofNat n).isNaN = false := by
  change (Float.ofScientific n false 0).isNaN = false
  unfold Float.ofScientific
  split
  · refine isNaN_mul (isNaN_pack (isNaN_normalize ..)) ?_
    change isProper (Float.ofBits 0x3FF0000000000000) = true
    decide +kernel
  · exact isNaN_pack (isNaN_ofScientific ..)

private theorem float_beq_self {x : Float} (number : x.isNaN = false) : (x == x) = true := by
  change (x.toModel.unpack.compare x.toModel.unpack == some .eq) = true
  change x.toModel.unpack.isNaN = false at number
  cases parts : x.toModel.unpack with
  | notANumber =>
    rw [parts] at number
    exact absurd number (by decide)
  | infinity sign => cases sign <;> rfl
  | zero sign => rfl
  | finite sign m e positive =>
    have digits : (compare e e).then (compare m m) = .eq := by simp
    cases sign with
    | positive =>
      change (some ((compare e e).then (compare m m)) == some Ordering.eq) = true
      rw [digits]
      rfl
    | negative =>
      change (some ((compare e e).then (compare m m)).swap == some Ordering.eq) = true
      rw [digits]
      rfl

end Number

namespace Literal

open Number

private theorem isNaN_scaleDown {x : Float} (number : x.isNaN = false) (n : Nat) :
    (scaleDown x n).isNaN = false := by
  fun_induction scaleDown x n with
  | case1 x n small => exact isNaN_div number (isProper_powerOfTen small)
  | case2 => exact number
  | case3 x n _ _ ih => exact ih (isNaN_div number (isProper_powerOfTen (Nat.le_refl 308)))

private theorem isNaN_of_scale? {significand : Nat} {exponent : Int} {x : Float}
    (scaled : scale? significand exponent = some x) : x.isNaN = false := by
  have start := isNaN_ofNat significand
  unfold scale? at scaled
  dsimp only at scaled
  split at scaled
  · obtain rfl := Option.some.inj scaled
    exact isNaN_scaleDown start _
  · split at scaled
    · split at scaled
      · simp at scaled
      · obtain rfl := Option.some.inj scaled
        exact isNaN_mul start (isProper_powerOfTen (by omega))
    · split at scaled
      · obtain rfl := Option.some.inj scaled
        exact start
      · simp at scaled

private theorem isNaN_of_float? {l : Literal} {x : Float} (read : l.float? = some x) :
    x.isNaN = false := by
  unfold float? at read
  dsimp only at read
  obtain ⟨y, scaled, rfl⟩ := Option.map_eq_some_iff.mp read
  have number := isNaN_of_scale? scaled
  split
  · exact isNaN_neg number
  · exact number

end Literal

namespace Number

theorem beq_self_of_number? {l : Literal} {n : Number} (read : l.number? = some n) :
    (n == n) = true := by
  have float (is : l.float?.map Number.float = some n) : (n == n) = true := by
    obtain ⟨x, spelled, rfl⟩ := Option.map_eq_some_iff.mp is
    exact float_beq_self (Literal.isNaN_of_float? spelled)
  have integer (k : Int) : (Number.integer k == Number.integer k) = true :=
    beq_self_eq_true k
  unfold Literal.number? at read
  dsimp only at read
  split at read
  · split at read
    · obtain rfl := Option.some.inj read
      exact integer _
    · split at read
      · obtain rfl := Option.some.inj read
        exact integer _
      · exact float read
  · exact float read

end Number

end Mustache
