import Mathlib.Data.Int.Sqrt
import Primitives.Proofs.ExactPower

/-!
Roots and squares. The root that is found digit by digit is the greatest number whose square is not above the
radicand (`root_eq_sqrt`), and a square lies in the range exactly up to the root of the greatest integer
(`inRange_mul_self_iff`). So the root of a square is the absolute value of what was squared.
-/
namespace Primitives.Arithmetic

/-! ### Roots -/

/-- The number after the root has a square above the radicand. -/
theorem lt_root_succ_mul_self (n : Nat) : n < (root n + 1) * (root n + 1) := by
  fun_induction root n with
  | case1 => simp
  | case2 n positive r fits ih =>
    -- the digits before the last one are the root of a quarter of the radicand
    have quarter : (r + 1 + 1) * (r + 1 + 1) = 4 * ((root (n / 4) + 1) * (root (n / 4) + 1)) := by
      simp only [r]
      ring
    omega
  | case3 n positive r fits ih => omega

theorem root_eq_sqrt (n : Nat) : root n = Nat.sqrt n :=
  Nat.eq_sqrt.mpr ⟨root_mul_self_le n, lt_root_succ_mul_self n⟩

theorem squareRoot_of_nonneg {x : Int} (nonneg : 0 ≤ x) (fits : x ≤ greatestInteger) :
    squareRoot (.integer x) = .ok (Int.sqrt x) := by
  have inside : InRange x := ⟨Int.le_trans (by decide) nonneg, fits⟩
  rw [squareRoot_integer inside, if_neg (Int.not_lt.mpr nonneg), root_eq_sqrt, Int.sqrt]

theorem sqrt_mul_self_le {x : Int} (nonneg : 0 ≤ x) : Int.sqrt x * Int.sqrt x ≤ x := by
  obtain ⟨n, rfl⟩ := Int.eq_ofNat_of_zero_le nonneg
  rw [Int.sqrt_natCast]
  exact_mod_cast Nat.sqrt_le n

theorem lt_sqrt_succ_mul_self {x : Int} (nonneg : 0 ≤ x) : x < (Int.sqrt x + 1) * (Int.sqrt x + 1) := by
  obtain ⟨n, rfl⟩ := Int.eq_ofNat_of_zero_le nonneg
  rw [Int.sqrt_natCast]
  exact_mod_cast Nat.lt_succ_sqrt n

theorem sqrt_mono {x y : Int} (ordered : x ≤ y) : Int.sqrt x ≤ Int.sqrt y :=
  Int.ofNat_le.mpr (Nat.sqrt_le_sqrt (Int.toNat_le_toNat ordered))

/-! ### Squares -/

theorem abs_le_sqrt_iff {b x : Int} (nonneg : 0 ≤ x) : |b| ≤ Int.sqrt x ↔ b * b ≤ x := by
  obtain ⟨n, rfl⟩ := Int.eq_ofNat_of_zero_le nonneg
  rw [Int.sqrt_natCast, Int.abs_eq_natAbs, Int.ofNat_le, Nat.le_sqrt, ← Int.natAbs_mul_self, Int.ofNat_le]

/-- The squares of the range are those of the numbers up to the root of the greatest integer. -/
theorem inRange_mul_self_iff {b : Int} : InRange (b * b) ↔ |b| ≤ Int.sqrt greatestInteger := by
  rw [abs_le_sqrt_iff (by decide)]
  have nonneg := mul_self_nonneg b
  constructor
  · intro inside
    exact inside.2
  · intro fits
    exact ⟨Int.le_trans (by decide) nonneg, fits⟩

theorem power_two_cases {b : Int} (inside : InRange b) :
    (|b| ≤ Int.sqrt greatestInteger ∧ power (.integer b) (.integer 2) = .ok (b * b)) ∨
    (Int.sqrt greatestInteger < |b| ∧
      ∃ fault, power (.integer b) (.integer 2) = .error fault ∧ IsOverflow "pow" fault) := by
  have square : b ^ (2 : Int).toNat = b * b := pow_two b
  have cases_ := powerInRange_of_nonneg inside (show (0 : Int) ≤ 2 by decide)
  rw [square, inRange_mul_self_iff, not_le] at cases_
  rw [power_integer inside (by decide)]
  exact cases_

/-- The square of a root is never an overflow. -/
theorem power_two_sqrt {x : Int} (nonneg : 0 ≤ x) (fits : x ≤ greatestInteger) :
    power (.integer (Int.sqrt x)) (.integer 2) = .ok (Int.sqrt x * Int.sqrt x) := by
  have inside : InRange (Int.sqrt x) := by
    have root := inRange_root ⟨Int.le_trans (by decide) nonneg, fits⟩
    rwa [root_eq_sqrt] at root
  rcases power_two_cases inside with ⟨_, returned⟩ | ⟨large, _⟩
  · exact returned
  · rw [abs_of_nonneg (Int.sqrt_nonneg x)] at large
    exact absurd (sqrt_mono fits) (not_le.mpr large)

/-- Where a square can be formed there is an absolute value. -/
theorem absoluteValue_of_small {b : Int} (inside : InRange b) (small : |b| ≤ Int.sqrt greatestInteger) :
    absoluteValue (.integer b) = .ok (.integer |b|) := by
  have other : b ≠ leastInteger := by
    rintro rfl
    rw [abs_le_sqrt_iff (by decide)] at small
    exact absurd small (by decide)
  rw [absoluteValue_integer inside, if_neg other]

/-- Roots and squares fit together. The root of a number of the range brackets it, and can be squared. Squares are
    returned up to the root of the greatest integer and are overflows beyond it; the root of a square that is returned
    is the absolute value of what was squared. Roots keep the order. -/
theorem root_of_square :
    (∀ x, 0 ≤ x → x ≤ greatestInteger →
      ∃ r, squareRoot (.integer x) = .ok r ∧ 0 ≤ r ∧ r * r ≤ x ∧ x < (r + 1) * (r + 1) ∧
        power (.integer r) (.integer 2) = .ok (r * r)) ∧
    (∀ b s, InRange b → power (.integer b) (.integer 2) = .ok s →
      ∃ r, squareRoot (.integer s) = .ok r ∧ absoluteValue (.integer b) = .ok (.integer r)) ∧
    (∃ limit, squareRoot (.integer greatestInteger) = .ok limit ∧ ∀ b, InRange b →
      (|b| ≤ limit → power (.integer b) (.integer 2) = .ok (b * b)) ∧
      ((∃ fault, power (.integer b) (.integer 2) = .error fault ∧ IsOverflow "pow" fault) ↔ limit < |b|)) ∧
    (∀ x y, 0 ≤ x → x ≤ y → y ≤ greatestInteger →
      ∃ r s, squareRoot (.integer x) = .ok r ∧ squareRoot (.integer y) = .ok s ∧ r ≤ s) := by
  refine ⟨?_, ?_, ⟨Int.sqrt greatestInteger, squareRoot_of_nonneg (by decide) le_rfl, ?_⟩, ?_⟩
  · intro x nonneg fits
    exact ⟨Int.sqrt x, squareRoot_of_nonneg nonneg fits, Int.sqrt_nonneg x, sqrt_mul_self_le nonneg,
      lt_sqrt_succ_mul_self nonneg, power_two_sqrt nonneg fits⟩
  · intro b s inside squared
    rcases power_two_cases inside with ⟨small, returned⟩ | ⟨_, fault, failed, _⟩
    · rw [returned] at squared
      cases squared
      have fits := (inRange_mul_self_iff.mpr small).2
      refine ⟨Int.sqrt (b * b), squareRoot_of_nonneg (mul_self_nonneg b) fits, ?_⟩
      rw [absoluteValue_of_small inside small, Int.sqrt_eq, Int.abs_eq_natAbs]
    · rw [failed] at squared
      cases squared
  · intro b inside
    rcases power_two_cases inside with ⟨small, returned⟩ | ⟨large, overflow⟩
    · refine ⟨fun _ => returned, ?_, fun large => absurd small (not_le.mpr large)⟩
      rintro ⟨fault, failed, _⟩
      rw [returned] at failed
      cases failed
    · exact ⟨fun small => absurd small (not_le.mpr large), fun _ => large, fun _ => overflow⟩
  · intro x y nonneg ordered fits
    exact ⟨_, _, squareRoot_of_nonneg nonneg (ordered.trans fits), squareRoot_of_nonneg (nonneg.trans ordered) fits,
      sqrt_mono ordered⟩

/-- The root of the greatest integer is 46340. Its opposite can be squared, the next number cannot, and neither can the
    least integer, which has no absolute value either. -/
theorem root_of_square_at_the_ends :
    squareRoot (.integer greatestInteger) = .ok 46340 ∧
    (∃ r, squareRoot (.integer 2147395600) = .ok r ∧ absoluteValue (.integer (-46340)) = .ok (.integer r)) ∧
    (∃ fault, power (.integer 46341) (.integer 2) = .error fault ∧ IsOverflow "pow" fault) ∧
    (∃ fault, power (.integer leastInteger) (.integer 2) = .error fault ∧ IsOverflow "pow" fault) := by
  obtain ⟨_, back, ⟨limit, found, squares⟩, _⟩ := root_of_square
  have greatest : squareRoot (.integer greatestInteger) = .ok 46340 := by
    rw [squareRoot_of_nonneg (by decide) le_rfl]
    decide +kernel
  rw [greatest] at found
  cases found
  have squared : power (.integer (-46340)) (.integer 2) = .ok 2147395600 := (squares (-46340) (by decide)).1 (by decide)
  exact ⟨greatest, back (-46340) 2147395600 (by decide) squared, (squares 46341 (by decide)).2.mpr (by decide),
    (squares leastInteger (by decide)).2.mpr (by decide)⟩

end Primitives.Arithmetic
