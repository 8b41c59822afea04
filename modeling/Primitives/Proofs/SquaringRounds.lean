import Mathlib.Data.List.Chain
import Primitives.Proofs.ExactPower

/-!
The rounds of a power by repeated squaring, written down. A record holds the states in which it is asked whether something
of the exponent is left, every product that is formed, and the way the rounds end (`Squaring.record`). Writing it does not
change the rounds (`Squaring.ending_record`, `Squaring.tells_record`). Nothing in it is large, however large the power is
(`Squaring.small_record`): the rounds give up before a factor above 2^31 is multiplied again, and each of them uses up a
binary digit of the exponent.
-/
namespace Primitives.Arithmetic

namespace Squaring

/-- The products formed for the result of a round, and the result. -/
def recordMultiplied (s : Squaring) : List Int × Except Fault Int :=
  if s.remaining % 2 = 1 then
    let product := s.result * s.factor
    ([product], checked "pow" product)
  else ([], .ok s.result)

/-- The products formed in a round, and the state that it leads to. -/
def recordStep (base exponent : Int) (s : Squaring) : List Int × Except Fault Squaring :=
  match s.recordMultiplied with
  | (products, .error fault) => (products, .error fault)
  | (products, .ok result) =>
    let remaining := s.remaining / 2
    if remaining = 0 then (products, .ok ⟨result, s.factor, 0⟩)
    else
      let factor := s.factor * s.factor
      (products ++ [factor],
        if factor > greatestInteger + 1 then .error (.powerOutsideRange base exponent)
        else .ok ⟨result, factor, remaining⟩)

theorem recordMultiplied_snd (s : Squaring) : s.recordMultiplied.2 = s.multiplied := by
  unfold recordMultiplied multiplied
  split <;> rfl

theorem recordStep_snd (base exponent : Int) (s : Squaring) :
    (s.recordStep base exponent).2 = s.step base exponent := by
  rw [step, ← recordMultiplied_snd, recordStep]
  rcases s.recordMultiplied with ⟨products, fault | result⟩
  · rfl
  · simp only [ok_bind]
    split <;> rfl

/-- What is written down about the rounds: the states in which it is asked whether something of the exponent is left, the
    products formed, and the way the rounds end. -/
structure Record where
  tests : List Squaring
  products : List Int
  ending : Except Fault Int

/-- The number of rounds that are begun, one for each time that something is left. -/
def Record.rounds (r : Record) : Nat := r.tests.countP (·.remaining ≠ 0)

/-- The rounds until nothing of the exponent is left, written down. -/
def record (base exponent : Int) (s : Squaring) : Record :=
  if left : s.remaining = 0 then ⟨[s], [], .ok s.result⟩
  else
    match stepped : s.recordStep base exponent with
    | (products, .error fault) => ⟨[s], products, .error fault⟩
    | (products, .ok t) =>
      have : t.remaining < s.remaining :=
        remaining_step_lt left (by rw [← recordStep_snd base exponent, stepped])
      let later := record base exponent t
      ⟨s :: later.tests, products ++ later.products, later.ending⟩
termination_by s.remaining

theorem run_eq (base exponent : Int) (s : Squaring) :
    s.run base exponent = if s.remaining = 0 then .ok s.result else s.step base exponent >>= run base exponent := by
  rw [run]
  split
  · rfl
  · split
    · next fault failed => rw [failed]; rfl
    · next t next => simp only [next, ok_bind]

/-- Writing the rounds down does not change how they end. -/
theorem ending_record (base exponent : Int) (s : Squaring) :
    (s.record base exponent).ending = s.run base exponent := by
  fun_induction record base exponent s with
  | case1 s done => rw [run_eq, if_pos done]
  | case2 s left products fault stepped =>
    have failed : s.step base exponent = .error fault := by rw [← recordStep_snd, stepped]
    rw [run_eq, if_neg left, failed]
    rfl
  | case3 s left products t stepped shorter later ih =>
    have next : s.step base exponent = .ok t := by rw [← recordStep_snd, stepped]
    rw [run_eq, if_neg left, next]
    exact ih

/-- The record is that of the rounds from a state on. Each state but the last leads to the next one by a round; in the
    last one nothing is left, or the round from there fails. -/
structure Record.Tells (r : Record) (base exponent : Int) (s : Squaring) : Prop where
  first : r.tests.head? = some s
  next : r.tests.IsChain fun t u => t.remaining ≠ 0 ∧ t.step base exponent = .ok u
  last : ∃ t, r.tests.getLast? = some t ∧
    (t.remaining = 0 ∧ r.ending = .ok t.result ∨
      t.remaining ≠ 0 ∧ ∃ fault, t.step base exponent = .error fault ∧ r.ending = .error fault)
  products : r.products = (r.tests.filter (·.remaining ≠ 0)).flatMap fun t => (t.recordStep base exponent).1

theorem tells_record (base exponent : Int) (s : Squaring) :
    (s.record base exponent).Tells base exponent s := by
  fun_induction record base exponent s with
  | case1 s done => exact ⟨rfl, List.isChain_singleton s, ⟨s, rfl, .inl ⟨done, rfl⟩⟩, by simp [done]⟩
  | case2 s left products fault stepped =>
    have failed : s.step base exponent = .error fault := by rw [← recordStep_snd, stepped]
    exact ⟨rfl, List.isChain_singleton s, ⟨s, rfl, .inr ⟨left, fault, failed, rfl⟩⟩, by simp [left, stepped]⟩
  | case3 s left products t stepped shorter later ih =>
    obtain ⟨first, next, ⟨u, last, ends⟩, formed⟩ := ih
    refine ⟨rfl, List.isChain_cons.mpr ⟨fun v second => ⟨left, ?_⟩, next⟩, ⟨u, ?_, ends⟩, ?_⟩
    · rw [Option.mem_def, first, Option.some.injEq] at second
      rw [← second, ← recordStep_snd, stepped]
    · rw [List.getLast?_cons, last, Option.getD_some]
    · rw [List.filter_cons_of_pos (by simpa using left), List.flatMap_cons, stepped, formed]

/-! ### A round -/

/-- The products of a round are among the two that its state allows for. -/
theorem eq_of_mem_recordStep {base exponent : Int} {s : Squaring} {product : Int}
    (formed : product ∈ (s.recordStep base exponent).1) :
    product = s.result * s.factor ∨ product = s.factor * s.factor := by
  have multiplied {product : Int} (formed : product ∈ s.recordMultiplied.1) : product = s.result * s.factor := by
    unfold recordMultiplied at formed
    split at formed
    · simpa using formed
    · cases formed
  rw [recordStep] at formed
  rcases written : s.recordMultiplied with ⟨products, fault | result⟩
  · simp only [written] at formed multiplied
    exact .inl (multiplied formed)
  · simp only [written] at formed multiplied
    split at formed
    · exact .inl (multiplied formed)
    · rcases List.mem_append.mp formed with early | late
      · exact .inl (multiplied early)
      · exact .inr (List.mem_singleton.mp late)

theorem Invariant.products_small {s : Squaring} (inv : s.Invariant) (base exponent : Int) :
    ∀ product ∈ (s.recordStep base exponent).1, |product| ≤ 2 ^ 62 := by
  intro product formed
  rcases eq_of_mem_recordStep formed with rfl | rfl
  · exact inv.product_small
  · exact abs_mul_le_of_abs_le inv.factorSmall inv.factorSmall

/-- A round uses up the least binary digit of what is left of the exponent. -/
theorem remaining_step {base exponent : Int} {s t : Squaring} (stepped : s.step base exponent = .ok t) :
    t.remaining = s.remaining / 2 := by
  obtain ⟨result, _, stepped⟩ := exists_of_bind_ok stepped
  dsimp only at stepped
  split at stepped
  · next last => cases stepped; exact last.symm
  · split at stepped
    · cases stepped
    · cases stepped; rfl

/-- A number that has a binary digit left has one digit less after halving. -/
theorem exists_fewer_digits {n limit : Nat} (left : n ≠ 0) (short : n < 2 ^ limit) :
    ∃ fewer, limit = fewer + 1 ∧ n / 2 < 2 ^ fewer := by
  cases limit with
  | zero =>
    rw [pow_zero] at short
    omega
  | succ fewer =>
    rw [pow_succ] at short
    exact ⟨fewer, rfl, by omega⟩

/-! ### All rounds -/

/-- All states on record keep the invariant and are on the way to the power, no product is large, and there are not too
    many rounds. -/
structure Record.Small (r : Record) (power : Int) (limit : Nat) : Prop where
  tests : ∀ t ∈ r.tests, t.Invariant ∧ t.value = power
  products : ∀ product ∈ r.products, |product| ≤ 2 ^ 62
  rounds : r.rounds ≤ limit

theorem small_record {s : Squaring} (inv : s.Invariant) (base exponent : Int) {limit : Nat}
    (short : s.remaining < 2 ^ limit) : (s.record base exponent).Small s.value limit := by
  -- the induction follows the rounds; each halves what is left, and so takes one off the limit
  fun_induction record base exponent s generalizing limit with
  | case1 s done => exact ⟨by simpa using inv, by simp, by simp [Record.rounds, done]⟩
  | case2 s left products fault stepped =>
    obtain ⟨fewer, rfl, _⟩ := exists_fewer_digits left short
    refine ⟨by simpa using inv, fun product member => ?_, by simp [Record.rounds, left]⟩
    exact inv.products_small base exponent product (by rwa [stepped])
  | case3 s left products t stepped shorter later ih =>
    obtain ⟨fewer, rfl, half⟩ := exists_fewer_digits left short
    have next : s.step base exponent = .ok t := by rw [← recordStep_snd, stepped]
    rw [← remaining_step next] at half
    rcases step_cases inv base exponent with ⟨u, again, kept, same⟩ | ⟨cause, failed, _⟩
    · rw [next] at again
      cases again
      have rest := ih kept half
      rw [same] at rest
      refine ⟨fun test member => ?_, fun product member => ?_, ?_⟩
      · rcases List.mem_cons.mp member with rfl | afterwards
        · exact ⟨inv, rfl⟩
        · exact rest.tests test afterwards
      · rcases List.mem_append.mp member with now | afterwards
        · exact inv.products_small base exponent product (by rwa [stepped])
        · exact rest.products product afterwards
      · rw [Record.rounds, List.countP_cons_of_pos (by simpa using left)]
        exact Nat.succ_le_succ rest.rounds
    · rw [failed] at next
      cases next

end Squaring

/-- The rounds of a power stay small. Whenever it is asked whether something of the exponent is left, result, factor
    and rest of the exponent make up the power sought, the result lies in the range and the factor is at most 2^31 in
    magnitude. No product on the way is above 2^62, and there are at most 31 rounds, whatever the size of the power. -/
theorem power_stays_small (base exponent : Int) (baseInside : InRange base) (exponentInside : InRange exponent)
    (nonneg : 0 ≤ exponent) :
    let written := Squaring.record base exponent ⟨1, base, exponent.toNat⟩
    written.ending = power (.integer base) (.integer exponent) ∧
    written.Tells base exponent ⟨1, base, exponent.toNat⟩ ∧
    (∀ s ∈ written.tests, s.result * s.factor ^ s.remaining = base ^ exponent.toNat ∧ InRange s.result ∧
      |s.factor| ≤ 2 ^ 31) ∧
    (∀ product ∈ written.products, |product| ≤ 2 ^ 62) ∧
    written.rounds ≤ 31 := by
  intro written
  have short : exponent.toNat < 2 ^ 31 := by
    rw [inRange_iff] at exponentInside
    omega
  have small := Squaring.small_record (Squaring.invariant_start baseInside exponent.toNat) base exponent short
  rw [Squaring.value_start] at small
  refine ⟨?_, Squaring.tells_record base exponent _, fun s member => ?_, small.products, small.rounds⟩
  · rw [Squaring.ending_record, power_integer baseInside exponentInside, powerInRange, if_neg (by omega)]
  · obtain ⟨inv, same⟩ := small.tests s member
    exact ⟨same, inv.resultInRange, inv.factorSmall⟩

/-- The power of 3 to a thousand million has more than 400 million digits, but no product on the way has more than 19. -/
theorem power_stays_small_far_outside :
    let written := Squaring.record 3 1000000000 ⟨1, 3, 1000000000⟩
    InRange 3 ∧ InRange 1000000000 ∧ written.ending = power (.integer 3) (.integer 1000000000) ∧
    (∀ product ∈ written.products, |product| ≤ 2 ^ 62) ∧ written.rounds ≤ 31 := by
  obtain ⟨ending, _, _, products, rounds⟩ := power_stays_small 3 1000000000 (by decide) (by decide) (by decide)
  exact ⟨by decide, by decide, ending, products, rounds⟩

end Primitives.Arithmetic
