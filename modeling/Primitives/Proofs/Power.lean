import Mathlib.Tactic.Ring
import Primitives.Proofs.Arithmetic

/-!
Powers by repeated squaring are exact. The rounds keep `result * factor ^ remaining` at the power sought, the
result in the integer range and the factor small; a round that gives up has found out that the power lies outside
the range (`Squaring.step_cases`). Hence a power with an exponent from 0 on is returned exactly when it lies in
the range (`powerInRange_of_nonneg`).
-/
namespace Primitives.Arithmetic

namespace Squaring

/-- The power that the rounds are on the way to. -/
def value (s : Squaring) : Int := s.result * s.factor ^ s.remaining

/-- What the rounds keep. A result of zero comes from a factor of zero only. -/
structure Invariant (s : Squaring) : Prop where
  resultInRange : InRange s.result
  factorSmall : |s.factor| ≤ 2 ^ 31
  zeroFactor : s.result = 0 → s.factor = 0

/-- A power as a power of the square. -/
theorem pow_eq_square_pow (factor : Int) (n : Nat) :
    factor ^ n = factor ^ (n % 2) * (factor * factor) ^ (n / 2) := by
  rw [← pow_two, ← pow_mul, ← pow_add, Nat.mod_add_div]

theorem one_le_square_pow {factor : Int} (nonzero : factor ≠ 0) (n : Nat) : 1 ≤ (factor * factor) ^ n :=
  one_le_pow₀ (Int.add_one_le_iff.mpr (mul_self_pos.mpr nonzero))

/-- The power sought, once the least binary digit of the exponent is used up. -/
theorem value_eq (s : Squaring) :
    s.value = s.result * s.factor ^ (s.remaining % 2) * (s.factor * s.factor) ^ (s.remaining / 2) := by
  rw [value, pow_eq_square_pow, mul_assoc]

/-- The rounds begin with a result of 1 and the base as the factor. -/
theorem invariant_start {base : Int} (inside : InRange base) (remaining : Nat) : Invariant ⟨1, base, remaining⟩ := by
  refine ⟨(by decide : InRange 1), ?_, fun zero => absurd zero one_ne_zero⟩
  rw [inRange_iff] at inside
  rw [abs_le]
  constructor <;> dsimp only <;> omega

theorem value_start (base : Int) (remaining : Nat) : value ⟨1, base, remaining⟩ = base ^ remaining := by simp [value]

/-- The product of two numbers of the size of factors. -/
theorem abs_mul_le_of_abs_le {m n : Int} (first : |m| ≤ 2 ^ 31) (second : |n| ≤ 2 ^ 31) : |m * n| ≤ 2 ^ 62 := by
  calc |m * n| = |m| * |n| := abs_mul _ _
    _ ≤ 2 ^ 31 * 2 ^ 31 := mul_le_mul first second (abs_nonneg _) (by norm_num)
    _ = 2 ^ 62 := by norm_num

theorem Invariant.product_small {s : Squaring} (inv : s.Invariant) : |s.result * s.factor| ≤ 2 ^ 62 := by
  have result : |s.result| ≤ 2 ^ 31 := by
    have inside := inRange_iff.mp inv.resultInRange
    rw [abs_le]
    omega
  exact abs_mul_le_of_abs_le result inv.factorSmall

/-- A multiplication gives a result in the range, or finds out that the power lies outside it. -/
theorem multiplied_cases {s : Squaring} (inv : s.Invariant) :
    (∃ result, s.multiplied = .ok result ∧ InRange result ∧ (result = 0 → s.factor = 0) ∧
      s.value = result * (s.factor * s.factor) ^ (s.remaining / 2)) ∨
    (∃ fault, s.multiplied = .error fault ∧ IsOverflow "pow" fault ∧ ¬ InRange s.value) := by
  have value := value_eq s
  rcases Nat.mod_two_eq_zero_or_one s.remaining with even | odd
  · left
    refine ⟨s.result, by simp [multiplied, even], inv.resultInRange, inv.zeroFactor, ?_⟩
    simpa [even] using value
  · rw [odd, pow_one] at value
    by_cases inside : InRange (s.result * s.factor)
    · left
      refine ⟨s.result * s.factor, by simp [multiplied, odd, checked_of_inRange "pow" inside], inside, ?_, value⟩
      intro zero
      rcases mul_eq_zero.mp zero with result | factor
      · exact inv.zeroFactor result
      · exact factor
    · right
      have writable := writable_of_abs_le (inv.product_small.trans (by norm_num))
      obtain ⟨fault, failed, overflow⟩ := checked_of_outside "pow" inside writable
      refine ⟨fault, by simp [multiplied, odd, failed], overflow, fun within => inside ?_⟩
      -- zero lies in the range, so that the factor is not zero and the rest of the power is at least 1
      have nonzero : s.factor ≠ 0 := by
        intro zero
        rw [zero, mul_zero] at inside
        exact inside (by decide)
      rw [value] at within
      exact inRange_of_mul (one_le_square_pow nonzero _) within

/-- A power with a factor above 2^31 in it lies outside the range. -/
theorem not_inRange_of_large {result factor : Int} {n : Nat} (nonzero : result ≠ 0) (left : n ≠ 0)
    (large : 2147483647 + 1 < factor) : ¬ InRange (result * factor ^ n) := by
  intro inside
  have power : factor ≤ factor ^ n := le_self_pow₀ (by omega) left
  have magnitude : factor ≤ |result * factor ^ n| := by
    rw [abs_mul, abs_of_nonneg (by omega : 0 ≤ factor ^ n)]
    have one : 1 ≤ |result| := Int.one_le_abs nonzero
    nlinarith
  have bounded : |result * factor ^ n| ≤ 2147483648 := by
    rw [inRange_iff] at inside
    rw [abs_le]
    omega
  omega

/-- What a round does: it keeps the invariant and the power sought, or it finds out that the power lies outside
    the range. -/
theorem step_cases {s : Squaring} (inv : s.Invariant) (base exponent : Int) :
    (∃ t, s.step base exponent = .ok t ∧ t.Invariant ∧ t.value = s.value) ∨
    (∃ fault, s.step base exponent = .error fault ∧ IsOverflow "pow" fault ∧ ¬ InRange s.value) := by
  rcases multiplied_cases inv with ⟨result, done, inside, zero, value⟩ | ⟨fault, failed, overflow, outside⟩
  · by_cases last : s.remaining / 2 = 0
    · left
      refine ⟨⟨result, s.factor, 0⟩, by simp [step, done, last], ⟨inside, inv.factorSmall, zero⟩, ?_⟩
      rw [value, last]
      simp [Squaring.value]
    · by_cases large : greatestInteger + 1 < s.factor * s.factor
      · right
        refine ⟨.powerOutsideRange base exponent, by simp [step, done, last, large], ⟨rfl, rfl⟩, ?_⟩
        have nonzero : result ≠ 0 := by
          intro isZero
          rw [zero isZero] at large
          exact absurd large (by decide)
        rw [value]
        exact not_inRange_of_large nonzero last large
      · left
        refine ⟨⟨result, s.factor * s.factor, s.remaining / 2⟩,
          by simp [step, done, last, large], ⟨inside, ?_, ?_⟩, value.symm⟩
        · change |s.factor * s.factor| ≤ 2 ^ 31
          rw [abs_of_nonneg (mul_self_nonneg _)]
          simp only [greatestInteger] at large
          omega
        · intro isZero
          simp [zero isZero]
  · right
    exact ⟨fault, by simp [step, failed], overflow, outside⟩

/-- The rounds end in the power sought if that lies in the range, and in an overflow otherwise. -/
theorem run_cases {s : Squaring} (inv : s.Invariant) (base exponent : Int) :
    (InRange s.value ∧ s.run base exponent = .ok s.value) ∨
    (¬ InRange s.value ∧ ∃ fault, s.run base exponent = .error fault ∧ IsOverflow "pow" fault) := by
  -- the induction follows the rounds; the step lemma hands the invariant on
  fun_induction run base exponent s with
  | case1 s done =>
    have value : s.value = s.result := by simp [Squaring.value, done]
    rw [value]
    exact .inl ⟨inv.resultInRange, rfl⟩
  | case2 s left fault stepped =>
    rcases step_cases inv base exponent with ⟨t, next, _⟩ | ⟨cause, failed, overflow, outside⟩
    · rw [next] at stepped
      cases stepped
    · rw [failed] at stepped
      cases stepped
      exact .inr ⟨outside, fault, rfl, overflow⟩
  | case3 s left t stepped shorter ih =>
    rcases step_cases inv base exponent with ⟨u, next, kept, same⟩ | ⟨cause, failed, _⟩
    · rw [next] at stepped
      cases stepped
      rw [← same]
      exact ih kept
    · rw [failed] at stepped
      cases stepped

end Squaring

/-- A power with an exponent from 0 on is exact, and an overflow if it lies outside the range. -/
theorem powerInRange_of_nonneg {base exponent : Int} (baseInside : InRange base) (nonneg : 0 ≤ exponent) :
    (InRange (base ^ exponent.toNat) ∧ powerInRange base exponent = .ok (base ^ exponent.toNat)) ∨
    (¬ InRange (base ^ exponent.toNat) ∧
      ∃ fault, powerInRange base exponent = .error fault ∧ IsOverflow "pow" fault) := by
  have notNegative : ¬ exponent < 0 := by omega
  simpa only [powerInRange, notNegative, if_false, Squaring.value_start] using
    Squaring.run_cases (Squaring.invariant_start baseInside exponent.toNat) base exponent

/-- A power with a negative exponent is 1, -1 or 0, unless the base is zero. -/
theorem powerInRange_of_neg (base : Int) {exponent : Int} (negative : exponent < 0) :
    (base = 0 ∧ powerInRange base exponent = .error .zeroToNegativePower) ∨
    (base ≠ 0 ∧ ∃ power ∈ [1, -1, 0], powerInRange base exponent = .ok power) := by
  simp only [powerInRange, negative, if_true, reciprocalPower]
  split
  · next zero => exact .inl ⟨zero, rfl⟩
  · next nonzero =>
    refine .inr ⟨nonzero, ?_⟩
    split
    · exact ⟨1, by simp, rfl⟩
    · split
      · split
        · exact ⟨1, by simp, rfl⟩
        · exact ⟨-1, by simp, rfl⟩
      · exact ⟨0, by simp, rfl⟩

end Primitives.Arithmetic
