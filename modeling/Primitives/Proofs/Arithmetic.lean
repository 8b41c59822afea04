import Mathlib.Algebra.Order.Ring.Abs
import Mathlib.Algebra.Order.Ring.Int
import Mathlib.Tactic.Linarith
import Primitives.Arithmetic
import Primitives.Proofs.Effect
import Primitives.Proofs.Numeral

/-!
Checked arithmetic on numbers of the range. Numbers of the range have numerals, so that a number outside it is an
overflow fault unless it has too many digits. Roots lie below their squares, and an extremum is one of the values
compared.
-/
namespace Primitives.Arithmetic

theorem inRange_iff {n : Int} : InRange n ↔ -2147483648 ≤ n ∧ n ≤ 2147483647 := Iff.rfl

/-- The range as messages show it. -/
theorem rangeText_eq : Fault.rangeText = "[-2147483648, 2147483647]" := by decide

/-- Numbers of up to 64 binary digits have numerals. -/
theorem writable_of_abs_le {n : Int} (small : |n| ≤ 2 ^ 64) : Numeral.Writable n := by
  rw [Numeral.writable_iff]
  have magnitude : n.natAbs ≤ 2 ^ 64 := by
    rw [Int.abs_eq_natAbs] at small
    exact_mod_cast small
  calc n.natAbs ≤ 2 ^ 64 := magnitude
    _ < 10 ^ 20 := by norm_num
    _ ≤ 10 ^ Numeral.digitLimit := Nat.pow_le_pow_right (by decide) (by decide)

theorem writable_of_inRange {n : Int} (inside : InRange n) : Numeral.Writable n := by
  apply writable_of_abs_le
  rw [inRange_iff] at inside
  rw [abs_le]
  omega

theorem showing_of_writable {n : Int} (writable : Numeral.Writable n) (fault : Fault) : Fault.showing n fault = fault :=
  if_pos writable

/-- A multiple of a number outside the range lies outside the range. -/
theorem inRange_of_mul {n k : Int} (positive : 1 ≤ k) (inside : InRange (n * k)) : InRange n := by
  rw [inRange_iff] at inside ⊢
  constructor <;> nlinarith

/-- A fault of the class of overflows, filed under the given operation. -/
def IsOverflow (function : String) (fault : Fault) : Prop :=
  fault.errorClass = .integerOverflow ∧ fault.report.function = some function

theorem checked_of_inRange {n : Int} (function : String) (inside : InRange n) : checked function n = .ok n := by
  simp [checked, inside]

theorem checked_of_outside {n : Int} (function : String) (outside : ¬ InRange n) (writable : Numeral.Writable n) :
    ∃ fault, checked function n = .error fault ∧ IsOverflow function fault := by
  refine ⟨.outsideRange function n, ?_, rfl, rfl⟩
  rw [checked, if_neg outside, showing_of_writable writable]

theorem operand_integer {n : Int} (function : String) (inside : InRange n) : operand function (.integer n) = .ok n :=
  checked_of_inRange function inside

/-- A root is not above what its square is not above. -/
theorem root_mul_self_le (n : Nat) : root n * root n ≤ n := by
  fun_induction root n with
  | case1 => simp
  | case2 n positive r fits ih => exact fits
  | case3 n positive r fits ih =>
    have quarter : r * r = 4 * (root (n / 4) * root (n / 4)) := by
      simp only [r]
      rw [Nat.mul_mul_mul_comm]
    omega

theorem inRange_root {x : Int} (inside : InRange x) : InRange (root x.toNat) := by
  have square := root_mul_self_le x.toNat
  have below : root x.toNat ≤ x.toNat := (Nat.le_mul_self _).trans square
  rw [inRange_iff] at inside ⊢
  omega

theorem squareRoot_integer {x : Int} (inside : InRange x) :
    squareRoot (.integer x) = if x < 0 then .error (.negativeRoot x) else .ok (root x.toNat) := by
  simp only [squareRoot, operand_integer "sqrt" inside, ok_bind]

theorem absoluteValue_integer {x : Int} (inside : InRange x) :
    absoluteValue (.integer x) =
      if x = leastInteger then .error (.absoluteValue x) else .ok (.integer |x|) := by
  simp only [absoluteValue, operand_integer "abs" inside, ok_bind]
  by_cases least : x = leastInteger
  · simp only [least, if_true]
  · by_cases negative : x < 0
    · simp only [least, negative, if_true, if_false, abs_of_neg]
    · simp only [least, negative, if_false, abs_of_nonneg (not_lt.mp negative)]

theorem inRange_abs {x : Int} (inside : InRange x) (other : x ≠ leastInteger) : InRange |x| := by
  rw [inRange_iff] at inside ⊢
  rw [leastInteger] at other
  rcases abs_choice x with same | opposite
  · omega
  · omega

/-- Choosing between two members over and over gives a member. -/
theorem foldl_choice_mem {α : Type} (better : α → α → Bool) (first : α) (rest : List α) :
    rest.foldl (fun best new => if better new best then new else best) first ∈ first :: rest := by
  induction rest generalizing first with
  | nil => simp
  | cons next rest ih =>
    rw [List.foldl_cons]
    by_cases new : better next first = true
    · rw [if_pos new]
      exact List.mem_cons_of_mem _ (ih next)
    · rw [if_neg new]
      rcases List.mem_cons.mp (ih first) with same | later
      · rw [same]
        exact List.mem_cons_self
      · exact List.mem_cons_of_mem _ (List.mem_cons_of_mem _ later)

/-- An extremum of values of the range is one of them. -/
theorem extremum_mem (precedes : Int → Int → Bool) (function : String) {vs : List Value} (given : vs ≠ [])
    (inside : ∀ v ∈ vs, ∃ n, operand function v = .ok n) :
    ∃ v ∈ vs, extremum precedes function vs = .ok v := by
  have each : ∀ v ∈ vs, ∃ pair : Value × Int, (do return (v, ← operand function v) : Except Fault _) = .ok pair := by
    intro v member
    obtain ⟨n, number⟩ := inside v member
    exact ⟨(v, n), by rw [number]; rfl⟩
  obtain ⟨numbered, done, pairs⟩ := exists_mapM_ok each
  have values : numbered.map Prod.fst = vs := by
    clear done given each inside
    induction pairs with
    | nil => rfl
    | @cons v pair vs numbered first _ ih =>
      cases number : operand function v <;> rw [number] at first <;> cases first
      rw [List.map_cons, ih]
  cases numbered with
  | nil => exact absurd values.symm given
  | cons first rest =>
    have chosen := foldl_choice_mem (fun new best : Value × Int => precedes new.2 best.2) first rest
    refine ⟨_, values ▸ List.mem_map_of_mem chosen, ?_⟩
    rw [extremum, done]
    rfl

end Primitives.Arithmetic
