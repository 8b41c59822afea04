import Primitives.Operation
import Primitives.Proofs.Arithmetic

/-!
Operands outside the range. A numeric operation checks its operands from left to right before it does anything else
(`Operation.apply_of_operands`), so that the first one outside the range decides how a call ends. It is an overflow of
that operation, unless it has too many digits to be shown.
-/
namespace Primitives

open Arithmetic

section Traversal

variable {ε α β : Type} {f : α → Except ε β} {a : α} {as before after : List α} {error : ε}

theorem error_of_mapM_cons (failed : (a :: as).mapM f = .error error) :
    f a = .error error ∨ ∃ b, f a = .ok b ∧ as.mapM f = .error error := by
  rw [List.mapM_cons] at failed
  cases first : f a with
  | error cause =>
    rw [first, error_bind] at failed
    cases failed
    exact .inl rfl
  | ok b =>
    rw [first, ok_bind] at failed
    cases rest : as.mapM f with
    | error cause =>
      rw [rest, error_bind] at failed
      cases failed
      exact .inr ⟨b, rfl, rfl⟩
    | ok bs =>
      rw [rest] at failed
      cases failed

/-- A traversal ends with the first error. -/
theorem mapM_of_first_error (passed : ∀ c ∈ before, ∃ b, f c = .ok b) (failed : f a = .error error) :
    (before ++ a :: after).mapM f = .error error := by
  induction before with
  | nil => rw [List.nil_append, List.mapM_cons, failed, error_bind]
  | cons c before ih =>
    obtain ⟨b, fine⟩ := passed c List.mem_cons_self
    have later := ih fun d member => passed d (List.mem_cons_of_mem c member)
    rw [List.cons_append, List.mapM_cons, fine, ok_bind, later, error_bind]

end Traversal

namespace Operation

/-- The numeric operations, with the names that they are reported under and the lists of arguments that they take. -/
inductive Numeric : Operation → String → List Value → Prop
  | squareRoot (v : Value) : Numeric .squareRoot "sqrt" [v]
  | power (v w : Value) : Numeric .power "pow" [v, w]
  | absoluteValue (v : Value) : Numeric .absoluteValue "abs" [v]
  | maximum {vs : List Value} : vs ≠ [] → Numeric .maximum "max" vs
  | minimum {vs : List Value} : vs ≠ [] → Numeric .minimum "min" vs

variable {operation : Operation} {function : String} {args before after : List Value} {fault : Fault} {n : Int}

/-! ### The check of the operands -/

theorem operand_of_singleton {v : Value} (failed : [v].mapM (operand function) = .error fault) :
    operand function v = .error fault := by
  rcases error_of_mapM_cons failed with first | ⟨_, _, later⟩
  · exact first
  · cases later

theorem extremum_of_operands (precedes : Int → Int → Bool) (failed : args.mapM (operand function) = .error fault) :
    extremum precedes function args = .error fault := by
  have numbered : (args.mapM fun v => do return (v, ← operand function v)) = .error fault := by
    induction args with
    | nil => cases failed
    | cons v args ih =>
      rcases error_of_mapM_cons failed with first | ⟨m, first, later⟩
      · rw [List.mapM_cons, first, error_bind, error_bind]
      · rw [List.mapM_cons, first, ok_bind, pure_eq_ok, ok_bind, ih later, error_bind]
  rw [extremum, numbered, error_bind]

/-- Whatever an operation does, it checks its operands first. -/
theorem apply_of_operands (numeric : Numeric operation function args)
    (failed : args.mapM (operand function) = .error fault) : operation.apply args = .error fault := by
  cases numeric with
  | squareRoot v =>
    rw [apply, Arithmetic.squareRoot, operand_of_singleton failed]
    rfl
  | power v w =>
    rw [apply, Arithmetic.power]
    rcases error_of_mapM_cons failed with first | ⟨base, first, later⟩
    · rw [first]
      rfl
    · rw [first, ok_bind, operand_of_singleton later]
      rfl
  | absoluteValue v =>
    rw [apply, Arithmetic.absoluteValue, operand_of_singleton failed]
    rfl
  | maximum given =>
    rw [apply, Arithmetic.maximum]
    exact extremum_of_operands _ failed
  | minimum given =>
    rw [apply, Arithmetic.minimum]
    exact extremum_of_operands _ failed

/-! ### The first operand outside the range -/

/-- A number that lies in the range. -/
def InBounds (v : Value) : Prop := ∃ m, v.number? = some m ∧ InRange m

theorem operand_of_inBounds {v : Value} (inside : InBounds v) : ∃ m, operand function v = .ok m := by
  obtain ⟨m, number, inside⟩ := inside
  exact ⟨m, by rw [operand, number]; exact checked_of_inRange function inside⟩

/-- A Boolean counts as 0 or 1, so that a number outside the range is an integer. -/
theorem exists_integer_of_not_inBounds {v : Value} {m : Int} (number : v.number? = some m) (outside : ¬ InBounds v) :
    v = .integer m ∧ ¬ InRange m := by
  have outsideRange : ¬ InRange m := fun inside => outside ⟨m, number, inside⟩
  cases v with
  | integer k =>
    cases number
    exact ⟨rfl, outsideRange⟩
  | boolean b =>
    cases number
    cases b <;> exact absurd (by decide) outsideRange
  | text s | nothing | foreign object => cases number

/-- The first operand outside the range is the fault of the call. -/
theorem apply_of_first_outside (numeric : Numeric operation function (before ++ .integer n :: after))
    (inside : ∀ v ∈ before, InBounds v) (outside : ¬ InRange n) :
    operation.apply (before ++ .integer n :: after) = .error (Fault.showing n (.outsideRange function n)) := by
  refine apply_of_operands numeric (mapM_of_first_error (fun v member => operand_of_inBounds (inside v member)) ?_)
  simp only [operand, Value.number?, checked, if_neg outside]

theorem exists_first_outside (numbers : ∀ v ∈ args, ∃ m, v.number? = some m) (outside : ∃ v ∈ args, ¬ InBounds v) :
    ∃ before n after, args = before ++ .integer n :: after ∧ (∀ v ∈ before, InBounds v) ∧ ¬ InRange n := by
  induction args with
  | nil => simp at outside
  | cons first rest ih =>
    by_cases inside : InBounds first
    · have later : ∃ v ∈ rest, ¬ InBounds v := by simpa [inside] using outside
      obtain ⟨before, n, after, rfl, earlier, isOutside⟩ := ih (fun v member => numbers v (by simp [member])) later
      exact ⟨first :: before, n, after, rfl, by simpa [inside] using earlier, isOutside⟩
    · obtain ⟨m, number⟩ := numbers first List.mem_cons_self
      obtain ⟨rfl, isOutside⟩ := exists_integer_of_not_inBounds number inside
      exact ⟨[], m, rest, rfl, by simp, isOutside⟩

/-- A numeric operation refuses every operand outside the range. The first such operand is reported as an overflow,
    under the name of the operation, if it can be shown at all; an integer of too many digits cannot. -/
theorem apply_refuses_outside (numeric : Numeric operation function args)
    (numbers : ∀ v ∈ args, ∃ m, v.number? = some m)
    (outside : ∃ v ∈ args, ∃ m, v.number? = some m ∧ ¬ InRange m) :
    ∃ before n after fault, args = before ++ .integer n :: after ∧
      (∀ v ∈ before, ∃ m, v.number? = some m ∧ InRange m) ∧ ¬ InRange n ∧ operation.apply args = .error fault ∧
      ((Nat.toDigits 10 n.natAbs).length ≤ Numeral.digitLimit →
        fault.report = ⟨.integerOverflow, "value " ++ Numeral.write n ++ " is outside the integer range " ++
          "[-2147483648, 2147483647]", some function⟩) ∧
      (Numeral.digitLimit < (Nat.toDigits 10 n.natAbs).length →
        fault.errorClass = .value ∧ fault.report.function = none) := by
  have notInBounds : ∃ v ∈ args, ¬ InBounds v := by
    obtain ⟨v, member, m, number, isOutside⟩ := outside
    refine ⟨v, member, ?_⟩
    rintro ⟨k, same, inside⟩
    rw [number, Option.some.injEq] at same
    exact isOutside (same ▸ inside)
  obtain ⟨before, n, after, rfl, inside, isOutside⟩ := exists_first_outside numbers notInBounds
  refine ⟨before, n, after, _, rfl, inside, isOutside, apply_of_first_outside numeric inside isOutside, ?_, ?_⟩
  · intro short
    rw [showing_of_writable (Numeral.writable_iff_length.mpr short), Fault.report, rangeText_eq]
  · intro long
    rw [Fault.showing, if_neg (by rw [Numeral.writable_iff_length]; exact Nat.not_le.mpr long)]
    exact ⟨rfl, rfl⟩

/-- Zero to a negative power, but the exponent is outside the range. -/
theorem apply_refuses_far_exponent :
    ∃ fault, Operation.apply .power [.boolean false, .integer (-2147483649)] = .error fault ∧
      fault.report = ⟨.integerOverflow, "value -2147483649 is outside the integer range [-2147483648, 2147483647]",
        some "pow"⟩ := by
  have numbers : ∀ v ∈ [Value.boolean false, .integer (-2147483649)], ∃ m, v.number? = some m := by
    simp [Value.number?]
  obtain ⟨before, n, after, fault, parted, _, _, failed, shown, _⟩ :=
    apply_refuses_outside (.power _ _) numbers ⟨.integer (-2147483649), by simp, _, rfl, by decide⟩
  have member : Value.integer n ∈ [Value.boolean false, .integer (-2147483649)] := by rw [parted]; simp
  obtain rfl : n = -2147483649 := by simpa using member
  exact ⟨fault, failed, shown (by decide)⟩

/-- The square root of the least number with too many digits is not reported as an overflow. -/
theorem squareRoot_too_many_digits :
    ¬ InRange (10 ^ Numeral.digitLimit) ∧
    Operation.apply .squareRoot [.integer (10 ^ Numeral.digitLimit)] = .error .tooManyDigits ∧
    Fault.errorClass .tooManyDigits = .value := by
  have far : (10 : Int) ^ 10 ≤ 10 ^ Numeral.digitLimit := pow_le_pow_right₀ (by decide) (by decide)
  have outside : ¬ InRange (10 ^ Numeral.digitLimit) := by
    rw [inRange_iff]
    omega
  have refused : Operation.apply .squareRoot ([] ++ .integer (10 ^ Numeral.digitLimit) :: []) = .error _ :=
    apply_of_first_outside (.squareRoot _) (by simp) outside
  rw [Fault.showing, if_neg Numeral.not_writable_ten_pow] at refused
  exact ⟨outside, refused, rfl⟩

end Operation

end Primitives
