import Primitives.Fault

/-!
Checked arithmetic on the integers from -2^31 to 2^31 - 1. Operands outside the range and results that leave
it are overflow faults, never wrapped. Powers are formed by repeated squaring (`Squaring`), and the root is
the integer part of the square root.
-/
namespace Primitives.Arithmetic

def InRange (n : Int) : Prop := leastInteger ≤ n ∧ n ≤ greatestInteger

instance (n : Int) : Decidable (InRange n) := inferInstanceAs (Decidable (_ ∧ _))

/-- The number itself if it lies in the range. -/
def checked (function : String) (n : Int) : Except Fault Int :=
  if InRange n then .ok n else .error (Fault.showing n (.outsideRange function n))

/-- The number that a value counts as, if there is one and it lies in the range. -/
def operand (function : String) (v : Value) : Except Fault Int :=
  match v.number? with
  | none => .error .mistyped
  | some n => checked function n

/-- The integer part of the square root: one more binary digit for every two digits of the number. -/
def root (n : Nat) : Nat :=
  if h : n = 0 then 0
  else
    let r := 2 * root (n / 4)
    if (r + 1) * (r + 1) ≤ n then r + 1 else r
termination_by n
decreasing_by omega

/-- The integer part of the square root of a number of the range. -/
def squareRoot (v : Value) : Except Fault Int := do
  let x ← operand "sqrt" v
  if x < 0 then .error (.negativeRoot x) else .ok (root x.toNat)

/-- The work left in raising a base to a power: `result * factor ^ remaining` is the power sought. -/
structure Squaring where
  result : Int
  factor : Int
  remaining : Nat
deriving DecidableEq, Repr

namespace Squaring

/-- The result after the least binary digit of the remaining exponent. -/
def multiplied (s : Squaring) : Except Fault Int :=
  if s.remaining % 2 = 1 then checked "pow" (s.result * s.factor) else .ok s.result

/-- One round: the least binary digit of the remaining exponent is used up and, if others are left, the
    factor is squared. A factor above 2^31 cannot lead back into the range. -/
def step (base exponent : Int) (s : Squaring) : Except Fault Squaring := do
  let result ← s.multiplied
  let remaining := s.remaining / 2
  if remaining = 0 then .ok ⟨result, s.factor, 0⟩
  else
    let factor := s.factor * s.factor
    if factor > greatestInteger + 1 then .error (.powerOutsideRange base exponent)
    else .ok ⟨result, factor, remaining⟩

/-- A round uses up part of the remaining exponent. -/
theorem remaining_step_lt {base exponent : Int} {s t : Squaring} (left : s.remaining ≠ 0)
    (stepped : s.step base exponent = .ok t) : t.remaining < s.remaining := by
  unfold step at stepped
  cases multiplied : s.multiplied with
  | error fault => simp [multiplied, bind, Except.bind] at stepped
  | ok result =>
    simp only [multiplied, bind, Except.bind] at stepped
    split at stepped
    · cases stepped; simp only; omega
    · split at stepped
      · cases stepped
      · cases stepped; simp only; omega

/-- The rounds until nothing of the exponent is left. -/
def run (base exponent : Int) (s : Squaring) : Except Fault Int :=
  if left : s.remaining = 0 then .ok s.result
  else
    match stepped : s.step base exponent with
    | .error fault => .error fault
    | .ok t =>
      have : t.remaining < s.remaining := remaining_step_lt left stepped
      run base exponent t
termination_by s.remaining

end Squaring

/-- A power with a negative exponent, truncated toward zero. -/
def reciprocalPower (base exponent : Int) : Except Fault Int :=
  if base = 0 then .error .zeroToNegativePower
  else if base = 1 then .ok 1
  else if base = -1 then .ok (if exponent % 2 = 0 then 1 else -1)
  else .ok 0

/-- A power with numbers of the range as base and exponent. -/
def powerInRange (base exponent : Int) : Except Fault Int :=
  if exponent < 0 then reciprocalPower base exponent
  else Squaring.run base exponent ⟨1, base, exponent.toNat⟩

/-- The power of two numbers of the range; the base is checked first. -/
def power (base exponent : Value) : Except Fault Int := do
  let base ← operand "pow" base
  let exponent ← operand "pow" exponent
  powerInRange base exponent

/-- The absolute value of a number of the range; a value that is not negative is kept as it is. -/
def absoluteValue (v : Value) : Except Fault Value := do
  let x ← operand "abs" v
  if x = leastInteger then .error (.absoluteValue x)
  else if x < 0 then .ok (.integer (-x))
  else .ok v

/-- The first of the values that none of the others precedes in the given order of numbers. -/
def extremum (precedes : Int → Int → Bool) (function : String) (vs : List Value) : Except Fault Value := do
  let numbered ← vs.mapM fun v => do return (v, ← operand function v)
  match numbered with
  | [] => .error (.noOperands function)
  | first :: rest => return (rest.foldl (fun best new => if precedes new.2 best.2 then new else best) first).1

def maximum (vs : List Value) : Except Fault Value := extremum (fun m n => n < m) "max" vs

def minimum (vs : List Value) : Except Fault Value := extremum (fun m n => m < n) "min" vs

end Primitives.Arithmetic
