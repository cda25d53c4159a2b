import DocPath.Binary64.Basic
import Mathlib.Data.Rat.Floor

/-!
# The exact value of a floating-point number

A finite number is a rational number (`Binary64.toRat?`). The arithmetic on natural numbers by
which its integer part and its natural value are found (`truncate?`, `toNat?`) gives what the
rational number says: it is truncated toward zero, and it is natural or not.
-/

namespace DocPath

/-- The integer that is left of a rational number without its fraction. -/
def towardZero (q : Rat) : Int :=
  if 0 ≤ q then ⌊q⌋ else ⌈q⌉

@[simp] theorem towardZero_intCast (n : Int) : towardZero n = n := by
  unfold towardZero
  split
  · exact Int.floor_intCast n
  · exact Int.ceil_intCast n

@[simp] theorem towardZero_natCast (n : Nat) : towardZero n = n :=
  towardZero_intCast n

theorem towardZero_neg {q : Rat} (h : 0 ≤ q) : towardZero (-q) = -⌊q⌋ := by
  unfold towardZero
  split
  · have hq : q = 0 := by linarith
    rw [hq]
    simp
  · exact Int.ceil_neg

namespace Dyadic

def toRat (x : Dyadic) : Rat :=
  x.significand * 2 ^ x.scale

theorem toRat_eq_div (x : Dyadic) : x.toRat = x.num / x.den := by
  obtain ⟨significand, scale⟩ := x
  rcases Int.le_total 0 scale with h | h
  · obtain ⟨k, rfl⟩ := Int.eq_ofNat_of_zero_le h
    have hden : (-(k : Int)).toNat = 0 := by omega
    simp [toRat, num, den, hden]
  · obtain ⟨k, hk⟩ := Int.eq_ofNat_of_zero_le (Int.neg_nonneg_of_nonpos h)
    obtain rfl : scale = -(k : Int) := by omega
    have hnum : (-(k : Int)).toNat = 0 := by omega
    simp [toRat, num, den, hnum, div_eq_mul_inv]

theorem den_pos (x : Dyadic) : 0 < x.den :=
  Nat.pow_pos (by decide)

theorem toRat_nonneg (x : Dyadic) : 0 ≤ x.toRat := by
  rw [toRat_eq_div]
  positivity

theorem floor_toRat (x : Dyadic) : ⌊x.toRat⌋ = x.floor := by
  rw [toRat_eq_div, Rat.floor_natCast_div_natCast]
  rfl

theorem toRat_eq_zero_iff (x : Dyadic) : x.toRat = 0 ↔ x.significand = 0 := by
  have hpow : (2 : Rat) ^ x.scale ≠ 0 := zpow_ne_zero _ two_ne_zero
  simp [toRat, hpow]

theorem toRat_eq_natCast_iff (x : Dyadic) (n : Nat) :
    x.toRat = n ↔ x.isIntegral = true ∧ x.floor = n := by
  have hden : (x.den : Rat) ≠ 0 := by exact_mod_cast x.den_pos.ne'
  rw [toRat_eq_div, div_eq_iff hden]
  norm_cast
  simp only [isIntegral, floor, decide_eq_true_eq]
  constructor
  · intro h
    rw [h]
    exact ⟨Nat.mul_mod_left n x.den, Nat.mul_div_cancel n x.den_pos⟩
  · rintro ⟨hrest, rfl⟩
    exact (Nat.div_mul_cancel (Nat.dvd_of_mod_eq_zero hrest)).symm

end Dyadic

namespace Binary64

/-- The exact value of a finite number. -/
def toRat? : Binary64 → Option Rat
  | .finite negative exponent fraction =>
    let q := (magnitude exponent fraction).toRat
    some (if negative then -q else q)
  | _ => none

theorem toRat?_isSome (x : Binary64) : x.toRat?.isSome = x.isFinite := by
  cases x <;> rfl

theorem significand_eq_zero_iff (negative : Bool) (exponent : Fin 2047) (fraction : Fin fractions) :
    (magnitude exponent fraction).significand = 0 ↔ (finite negative exponent fraction).isZero = true := by
  unfold magnitude isZero
  split <;> simp [*]

theorem toRat?_eq_zero_iff {x : Binary64} : x.toRat? = some 0 ↔ x.isZero = true := by
  cases x with
  | finite negative exponent fraction =>
      rw [← significand_eq_zero_iff, ← Dyadic.toRat_eq_zero_iff]
      cases negative <;> simp [toRat?]
  | _ => simp [toRat?, isZero]

/-- The integer part is the exact value truncated toward zero. -/
theorem truncate?_eq (x : Binary64) : x.truncate? = x.toRat?.map towardZero := by
  cases x with
  | finite negative exponent fraction =>
      have hnonneg := (magnitude exponent fraction).toRat_nonneg
      have hfloor := (magnitude exponent fraction).floor_toRat
      cases negative with
      | false => simp [truncate?, toRat?, towardZero, hnonneg, hfloor]
      | true => simp [truncate?, toRat?, towardZero_neg hnonneg, hfloor]
  | _ => rfl

/-- The natural value is the exact value, if that is a natural number. -/
theorem toNat?_eq_some_iff {x : Binary64} {n : Nat} : x.toNat? = some n ↔ x.toRat? = some ↑n := by
  cases x with
  | finite negative exponent fraction =>
      have hnatural := (magnitude exponent fraction).toRat_eq_natCast_iff
      cases negative with
      | false => simp [toNat?, toRat?, hnatural]
      | true =>
          have hzero := (magnitude exponent fraction).toRat_eq_zero_iff
          have hnonneg := (magnitude exponent fraction).toRat_nonneg
          by_cases h : (magnitude exponent fraction).significand = 0
          · -- the negative zero is a natural number too
            obtain ⟨hintegral, hfloor⟩ := (hnatural 0).mp (by exact_mod_cast hzero.mpr h)
            simp [toNat?, toRat?, h, hintegral, hfloor, hzero.mpr h, eq_comm]
          · have hpos : 0 < (magnitude exponent fraction).toRat :=
              lt_of_le_of_ne hnonneg (Ne.symm (mt hzero.mp h))
            have hne : -(magnitude exponent fraction).toRat ≠ n := by
              have hn : (0 : Rat) ≤ n := n.cast_nonneg
              linarith
            simp [toNat?, toRat?, h, hne]
  | _ => simp [toNat?, toRat?]

end Binary64

end DocPath
