import Mathlib.Algebra.Order.Group.Unbundled.Int
import Mathlib.Tactic.Ring
import Primitives.Proofs.Output

/-!
Rounding to a number of significant binary digits. What is rounded to is the nearest of all numbers that have no more
digits, and of two nearest ones the even one (`Twister.rounded_nearestEven`); there is only one such number
(`Twister.NearestEven.unique`). Between two neighbours among the multiples of the last digit's unit there is no number
of so few digits (`Twister.IsShort.beside`).
-/
namespace Primitives.Twister

/-- A number with at most `p` significant binary digits. -/
def IsShort (p m : Nat) : Prop := ∃ digits exponent, digits < 2 ^ p ∧ m = digits * 2 ^ exponent

/-- `r` is the number with at most `p` significant digits that is nearest to `n`. If another one is as near, `r` is an
    even multiple of the distance between the two. -/
structure NearestEven (p n r : Nat) : Prop where
  short : IsShort p r
  nearest : ∀ m, IsShort p m → |(r : Int) - n| ≤ |(m : Int) - n|
  even : ∀ m, IsShort p m → m ≠ r → |(m : Int) - n| = |(r : Int) - n| → 2 * |(m : Int) - r| ∣ r

/-- There is only one number to round to. -/
theorem NearestEven.unique {p n r s : Nat} (first : NearestEven p n r) (second : NearestEven p n s) : r = s := by
  by_contra apart
  have near : |(s : Int) - n| = |(r : Int) - n| :=
    le_antisymm (second.nearest r first.short) (first.nearest s second.short)
  have positive : 0 < |(s : Int) - r| := abs_pos.mpr (by omega)
  -- the distance would be an even multiple of itself
  have dividesR := first.even s second.short (Ne.symm apart) near
  have dividesS := second.even r first.short apart near.symm
  rw [abs_sub_comm] at dividesS
  have divides : 2 * |(s : Int) - r| ∣ |(s : Int) - r| := (dvd_abs _ _).mpr (dvd_sub dividesS dividesR)
  have bounded := Int.le_of_dvd positive divides
  omega

section

variable {p n : Nat}

/-- The unit of the last of `p` significant digits of a number. -/
def lastUnit (p n : Nat) : Nat := 2 ^ (bitLength n - p)

theorem lastUnit_pos (p n : Nat) : 0 < lastUnit p n := Nat.two_pow_pos _

theorem quotient_lt (p n : Nat) : n / lastUnit p n < 2 ^ p := by
  apply Nat.div_lt_of_lt_mul
  calc n < 2 ^ bitLength n := lt_two_pow_bitLength n
    _ ≤ 2 ^ (bitLength n - p + p) := Nat.pow_le_pow_right (by decide) (by omega)
    _ = lastUnit p n * 2 ^ p := pow_add _ _ _

/-- A number with more than `p` digits has a first digit of 1 among the first `p`. -/
theorem le_quotient_mul (positive : 0 < p) (long : p < bitLength n) :
    2 ^ (bitLength n - 1) ≤ n / lastUnit p n * lastUnit p n := by
  have nonzero : 0 < n := by
    by_contra zero
    rw [Nat.eq_zero_of_not_pos zero] at long
    exact absurd long (Nat.not_lt_zero p)
  have leading : 2 ^ (bitLength n - 1) ≤ n := by
    have twice := two_pow_bitLength_le nonzero
    rw [show bitLength n = bitLength n - 1 + 1 by omega, pow_succ] at twice
    omega
  have whole : 2 ^ (bitLength n - 1) = 2 ^ (p - 1) * lastUnit p n := by
    rw [lastUnit, ← pow_add]
    congr 1
    omega
  rw [whole] at leading ⊢
  exact Nat.mul_le_mul_right _ ((Nat.le_div_iff_mul_le (lastUnit_pos p n)).mpr leading)

/-- No number of at most `p` digits lies between the two multiples of the last unit next to a number. -/
theorem IsShort.beside {m : Nat} (positive : 0 < p) (short : IsShort p m) :
    m ≤ n / lastUnit p n * lastUnit p n ∨ (n / lastUnit p n + 1) * lastUnit p n ≤ m := by
  obtain ⟨digits, exponent, few, rfl⟩ := short
  by_cases coarse : bitLength n - p ≤ exponent
  · -- the number is a multiple of the last unit
    have multiple : digits * 2 ^ exponent = digits * 2 ^ (exponent - (bitLength n - p)) * lastUnit p n := by
      rw [lastUnit, mul_assoc, ← pow_add, Nat.sub_add_cancel coarse]
    rw [multiple]
    rcases Nat.lt_or_ge (n / lastUnit p n) (digits * 2 ^ (exponent - (bitLength n - p))) with above | below
    · exact .inr (Nat.mul_le_mul_right _ above)
    · exact .inl (Nat.mul_le_mul_right _ below)
  · -- the number has fewer digits than `n`
    left
    calc digits * 2 ^ exponent ≤ 2 ^ p * 2 ^ exponent := Nat.mul_le_mul_right _ few.le
      _ = 2 ^ (p + exponent) := (pow_add _ _ _).symm
      _ ≤ 2 ^ (bitLength n - 1) := Nat.pow_le_pow_right (by decide) (by omega)
      _ ≤ n / lastUnit p n * lastUnit p n := le_quotient_mul positive (by omega)

/-- A number stands between two multiples of the last unit. -/
theorem lastUnit_split (p n : Nat) :
    n / lastUnit p n * lastUnit p n + n % lastUnit p n = n ∧ n % lastUnit p n < lastUnit p n ∧
    (n / lastUnit p n + 1) * lastUnit p n = n / lastUnit p n * lastUnit p n + lastUnit p n := by
  refine ⟨?_, Nat.mod_lt _ (lastUnit_pos p n), by ring⟩
  rw [Nat.mul_comm]
  exact Nat.div_add_mod _ _

/-- A multiple of the last unit next to a number has at most `p` digits. -/
theorem isShort_neighbour (positive : 0 < p) {q : Nat} (neighbour : q = n / lastUnit p n ∨ q = n / lastUnit p n + 1) :
    IsShort p (q * lastUnit p n) := by
  have bounded := quotient_lt p n
  by_cases carries : q = 2 ^ p
  · refine ⟨1, p + (bitLength n - p), Nat.one_lt_two_pow (by omega), ?_⟩
    rw [carries, lastUnit, one_mul, pow_add]
  · exact ⟨q, _, by omega, rfl⟩

/-- A multiple of the last unit next to a number is nearest to it, if it is no farther than half a unit and is even in
    the middle between two. -/
theorem nearestEven_neighbour (positive : 0 < p) {q : Nat} (neighbour : q = n / lastUnit p n ∨ q = n / lastUnit p n + 1)
    (near : 2 * |((q * lastUnit p n : Nat) : Int) - n| ≤ lastUnit p n)
    (even : 2 * |((q * lastUnit p n : Nat) : Int) - n| = lastUnit p n → q % 2 = 0) :
    NearestEven p n (q * lastUnit p n) := by
  obtain ⟨whole, rest, upper⟩ := lastUnit_split p n
  have place : q * lastUnit p n = n / lastUnit p n * lastUnit p n ∨
      q * lastUnit p n = n / lastUnit p n * lastUnit p n + lastUnit p n := by
    rcases neighbour with rfl | rfl
    · exact .inl rfl
    · exact .inr upper
  simp only [Int.abs_eq_natAbs] at near even
  refine ⟨isShort_neighbour positive neighbour, ?_, ?_⟩
  · intro m short
    have beside := short.beside (n := n) positive
    simp only [Int.abs_eq_natAbs]
    omega
  · intro m short other tied
    have beside := short.beside (n := n) positive
    simp only [Int.abs_eq_natAbs] at tied ⊢
    -- the other one is the neighbour on the other side, and the number stands in the middle
    have apart : ((m : Int) - (q * lastUnit p n : Nat)).natAbs = lastUnit p n := by omega
    obtain ⟨half, twice⟩ : ∃ half, q = 2 * half := ⟨q / 2, by omega⟩
    rw [apart, twice]
    exact ⟨half, by push_cast; ring⟩

/-- Rounding gives the nearest number of at most `p` digits, and of two nearest ones the even one. -/
theorem rounded_nearestEven (positive : 0 < p) (n : Nat) : NearestEven p n (rounded p n) := by
  obtain ⟨whole, rest, upper⟩ := lastUnit_split p n
  change NearestEven p n (if 2 * (n % lastUnit p n) < lastUnit p n ∨
    (2 * (n % lastUnit p n) = lastUnit p n ∧ n / lastUnit p n % 2 = 0) then n / lastUnit p n * lastUnit p n
    else (n / lastUnit p n + 1) * lastUnit p n)
  split
  · next low =>
    refine nearestEven_neighbour positive (.inl rfl) ?_ ?_
    · rw [Int.abs_eq_natAbs]
      omega
    · rw [Int.abs_eq_natAbs]
      omega
  · next high =>
    refine nearestEven_neighbour positive (.inr rfl) ?_ ?_
    · rw [Int.abs_eq_natAbs]
      omega
    · rw [Int.abs_eq_natAbs]
      omega

end

end Primitives.Twister
