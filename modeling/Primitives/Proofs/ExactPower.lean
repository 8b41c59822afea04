import Mathlib.Algebra.Order.Field.Power
import Mathlib.Data.Rat.Floor
import Primitives.Proofs.Power

/-!
Powers are exact. A power with an exponent from 0 on is returned if it lies in the integer range, and is an overflow
otherwise (`powerInRange_of_nonneg`). With a negative exponent the power is a fraction, of which the part after the
point is cut off (`reciprocalPower_eq`); only zero has no such power.
-/
namespace Primitives.Arithmetic

/-- The integer part of a fraction: the next integer in the direction of zero. -/
def truncated (q : ℚ) : Int := if q < 0 then ⌈q⌉ else ⌊q⌋

theorem truncated_intCast (n : Int) : truncated n = n := by
  unfold truncated
  split
  · exact Int.ceil_intCast n
  · exact Int.floor_intCast n

/-- Nothing but the part after the point is there between -1 and 1. -/
theorem truncated_of_abs_lt_one {q : ℚ} (small : |q| < 1) : truncated q = 0 := by
  obtain ⟨above, below⟩ := abs_lt.mp small
  unfold truncated
  split
  · next negative =>
    rw [Int.ceil_eq_zero_iff]
    exact ⟨above, negative.le⟩
  · next nonneg =>
    rw [Int.floor_eq_zero_iff]
    exact ⟨not_lt.mp nonneg, below⟩

/-- The negative powers of a base beyond 1 and -1 lie between these. -/
theorem abs_zpow_lt_one {base exponent : Int} (large : 1 < |base|) (negative : exponent < 0) :
    |(base : ℚ) ^ exponent| < 1 := by
  have larger : 1 < |(base : ℚ)| := by
    rw [← Int.cast_abs]
    exact_mod_cast large
  rw [abs_zpow]
  exact zpow_lt_one_of_neg₀ larger negative

theorem neg_one_zpow_eq (exponent : Int) : (-1 : ℚ) ^ exponent = (if exponent % 2 = 0 then 1 else -1 : Int) := by
  split
  · next even => rw [Even.neg_one_zpow (Int.even_iff.mpr even), Int.cast_one]
  · next notEven =>
    have odd : Odd exponent := Int.odd_iff.mpr (by omega)
    rw [odd.neg_one_zpow, Int.cast_neg, Int.cast_one]

/-- A power with a negative exponent is the rational one, truncated toward zero. -/
theorem reciprocalPower_eq {base exponent : Int} (nonzero : base ≠ 0) (negative : exponent < 0) :
    reciprocalPower base exponent = .ok (truncated ((base : ℚ) ^ exponent)) := by
  unfold reciprocalPower
  rw [if_neg nonzero]
  by_cases one : base = 1
  · subst one
    rw [if_pos rfl, Int.cast_one, one_zpow]
    exact congrArg _ (truncated_intCast 1).symm
  · rw [if_neg one]
    by_cases minusOne : base = -1
    · subst minusOne
      rw [if_pos rfl, Int.cast_neg, Int.cast_one, neg_one_zpow_eq, truncated_intCast]
    · have large : 1 < |base| := by
        rcases abs_cases base with ⟨same, _⟩ | ⟨opposite, _⟩ <;> omega
      rw [if_neg minusOne, truncated_of_abs_lt_one (abs_zpow_lt_one large negative)]

theorem power_integer {base exponent : Int} (baseInside : InRange base) (exponentInside : InRange exponent) :
    power (.integer base) (.integer exponent) = powerInRange base exponent := by
  simp only [power, operand_integer "pow" baseInside, operand_integer "pow" exponentInside, ok_bind]

/-- Powers are exact. With an exponent from 0 on, where the power of 0 to 0 is 1, a power of the range is returned
    and any other one is an overflow. With a negative exponent zero alone has no power, and that of any other base is
    the rational power truncated toward zero. -/
theorem power_exact (base exponent : Int) (baseInside : InRange base) (exponentInside : InRange exponent) :
    (0 ≤ exponent →
      (InRange (base ^ exponent.toNat) →
        power (.integer base) (.integer exponent) = .ok (base ^ exponent.toNat)) ∧
      (¬ InRange (base ^ exponent.toNat) →
        ∃ fault, power (.integer base) (.integer exponent) = .error fault ∧ IsOverflow "pow" fault)) ∧
    (exponent < 0 →
      ((∃ fault, power (.integer base) (.integer exponent) = .error fault ∧ fault.errorClass = .domain) ↔ base = 0) ∧
      (base ≠ 0 → power (.integer base) (.integer exponent) = .ok (truncated ((base : ℚ) ^ exponent)))) := by
  rw [power_integer baseInside exponentInside]
  constructor
  · intro nonneg
    rcases powerInRange_of_nonneg baseInside nonneg with ⟨inside, returned⟩ | ⟨outside, overflow⟩
    · exact ⟨fun _ => returned, fun outside => absurd inside outside⟩
    · exact ⟨fun inside => absurd inside outside, fun _ => overflow⟩
  · intro negative
    have reciprocal : powerInRange base exponent = reciprocalPower base exponent := if_pos negative
    rw [reciprocal]
    refine ⟨⟨?_, ?_⟩, fun nonzero => reciprocalPower_eq nonzero negative⟩
    · rintro ⟨fault, failed, _⟩
      by_contra nonzero
      rw [reciprocalPower_eq nonzero negative] at failed
      cases failed
    · rintro rfl
      exact ⟨.zeroToNegativePower, rfl, rfl⟩

/-- The least integer of the range is a power of -2; its opposite, the same power of 2, lies just outside. The negative
    powers of 2 have no integer part. -/
theorem power_exact_at_the_ends :
    power (.integer (-2)) (.integer 31) = .ok leastInteger ∧
    (∃ fault, power (.integer 2) (.integer 31) = .error fault ∧ IsOverflow "pow" fault) ∧
    power (.integer 2) (.integer (-1)) = .ok 0 := by
  have half : truncated ((2 : Int) ^ (-1 : Int) : ℚ) = 0 := truncated_of_abs_lt_one (by norm_num)
  refine ⟨((power_exact (-2) 31 (by decide) (by decide)).1 (by decide)).1 (by decide),
    ((power_exact 2 31 (by decide) (by decide)).1 (by decide)).2 (by decide), ?_⟩
  rw [← half]
  exact ((power_exact 2 (-1) (by decide) (by decide)).2 (by decide)).2 (by decide)

end Primitives.Arithmetic
