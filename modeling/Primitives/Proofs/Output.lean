import Mathlib.Algebra.BigOperators.Intervals
import Mathlib.Algebra.BigOperators.Ring.Finset
import Mathlib.Logic.Function.Iterate
import Mathlib.Tactic.Ring
import Primitives.Proofs.Operation

/-!
The outputs of a generator, and the words that are put together from them. A generator gives its outputs one after
the other (`Twister.output`). A word of `k` bits takes as many of them as have room for `k` bits, the least
significant one first, and of the last one only its upper bits (`Twister.bits_eq`); it has no more than `k` bits
(`Twister.bits_lt`). A draw in a context depends on the generator there and replaces it by the one it leaves
(`Task.drawn_of_there`).
-/
namespace Primitives

namespace Twister

/-! ### Binary digits -/

theorem lt_two_pow_bitLength (n : Nat) : n < 2 ^ bitLength n := by
  unfold bitLength
  split
  · next zero => simp [zero]
  · exact Nat.lt_log2_self

theorem two_pow_bitLength_le {n : Nat} (positive : 0 < n) : 2 ^ bitLength n ≤ 2 * n := by
  have nonzero : n ≠ 0 := by omega
  have leading := Nat.log2_self_le nonzero
  rw [bitLength, if_neg nonzero, pow_succ]
  omega

/-! ### Outputs -/

/-- The generator after a number of outputs. -/
def after (g : Twister) (count : Nat) : Twister := (fun g => g.next.2)^[count] g

/-- The outputs to come, counted from 0. -/
def output (g : Twister) (i : Nat) : UInt32 := (g.after i).next.1

variable (g : Twister)

@[simp] theorem after_zero : g.after 0 = g := rfl

theorem after_after (first second : Nat) : (g.after first).after second = g.after (first + second) := by
  rw [Nat.add_comm]
  exact (Function.iterate_add_apply (fun g : Twister => g.next.2) second first g).symm

theorem output_after (count i : Nat) : (g.after count).output i = g.output (count + i) := by
  rw [output, after_after, output]

/-! ### Words -/

theorem bits_of_le {k : Nat} (short : k ≤ 32) : g.bits k = ((g.output 0).toNat >>> (32 - k), g.after 1) := by
  rw [bits, if_pos short]
  rfl

theorem bits_add {k : Nat} (positive : 0 < k) :
    g.bits (k + 32) = ((g.output 0).toNat + 2 ^ 32 * ((g.after 1).bits k).1, ((g.after 1).bits k).2) := by
  have long : ¬ k + 32 ≤ 32 := by omega
  rw [bits, if_neg long, Nat.add_sub_cancel]
  rfl

/-- A word of `k` bits has no more than `k` bits. -/
theorem bits_lt (k : Nat) : (g.bits k).1 < 2 ^ k := by
  induction k using Nat.strongRecOn generalizing g with
  | ind k ih =>
    by_cases short : k ≤ 32
    · rw [bits_of_le g short, Nat.shiftRight_eq_div_pow]
      apply Nat.div_lt_of_lt_mul
      rw [← pow_add, Nat.sub_add_cancel short]
      exact (g.output 0).toNat_lt
    · obtain ⟨rest, rfl⟩ : ∃ rest, k = rest + 32 := ⟨k - 32, by omega⟩
      have high := ih rest (by omega) (g.after 1)
      have low : (g.output 0).toNat < 2 ^ 32 := (g.output 0).toNat_lt
      rw [bits_add g (by omega)]
      calc (g.output 0).toNat + 2 ^ 32 * ((g.after 1).bits rest).1
          < 2 ^ 32 + 2 ^ 32 * ((g.after 1).bits rest).1 := by omega
        _ = 2 ^ 32 * (((g.after 1).bits rest).1 + 1) := by ring
        _ ≤ 2 ^ 32 * 2 ^ rest := Nat.mul_le_mul_left _ high
        _ = 2 ^ (rest + 32) := by ring

/-- A number by its digits to the base 2^32, the least significant one apart. -/
theorem sum_digits_succ (count : Nat) (digit : Nat → Nat) :
    ∑ i ∈ Finset.range (count + 1), digit i * 2 ^ (32 * i) =
      digit 0 + 2 ^ 32 * ∑ i ∈ Finset.range count, digit (i + 1) * 2 ^ (32 * i) := by
  rw [Finset.sum_range_succ', Finset.mul_sum, Nat.add_comm]
  refine congrArg₂ _ (by simp) (Finset.sum_congr rfl fun i _ => ?_)
  ring

/-- A word is put together from outputs as digits to the base 2^32. Of the last output only the upper bits are taken,
    as many as are missing. -/
theorem bits_eq (digits : Nat) {last : Nat} (some_missing : 0 < last) (short : last ≤ 32) :
    g.bits (32 * digits + last) =
      (∑ i ∈ Finset.range digits, (g.output i).toNat * 2 ^ (32 * i) +
        ((g.output digits).toNat >>> (32 - last)) * 2 ^ (32 * digits),
      g.after (digits + 1)) := by
  induction digits generalizing g with
  | zero => simpa using bits_of_le g short
  | succ digits ih =>
    have shifted : ∀ i, (g.after 1).output i = g.output (i + 1) := by
      intro i
      rw [output_after, Nat.add_comm]
    rw [show 32 * (digits + 1) + last = 32 * digits + last + 32 by ring, bits_add g (by omega), ih (g.after 1)]
    refine Prod.ext ?_ ?_
    · simp only [shifted]
      rw [sum_digits_succ digits fun i => (g.output i).toNat]
      ring
    · change (g.after 1).after (digits + 1) = g.after (digits + 1 + 1)
      rw [after_after, Nat.add_comm 1]

/-- The generator after a number of words of `k` bits. -/
def afterWords (g : Twister) (k count : Nat) : Twister := (fun g => (g.bits k).2)^[count] g

/-- The words of `k` bits to come, counted from 0. -/
def word (g : Twister) (k i : Nat) : Nat := ((g.afterWords k i).bits k).1

theorem word_zero (k : Nat) : g.word k 0 = (g.bits k).1 := rfl

theorem word_succ (k i : Nat) : g.word k (i + 1) = (g.bits k).2.word k i := rfl

end Twister

/-! ### Generators of contexts -/

/-- The host with another generator in a context. -/
def Host.withGenerator (host : Host) (handle : Handle) (g : Twister) : Host :=
  host.modifyContext handle fun c => { c with generator := g }

theorem Task.drawn_of_there {α : Type} {host : Host} {handle : Handle} {c : Context}
    (there : host.contexts[handle]? = some c) (value : α → Value) (draws : Twister → α × Twister) :
    Task.act.drawn handle host value draws =
      (value (draws c.generator).1, host.withGenerator handle (draws c.generator).2) := by
  simp only [Task.act.drawn, there, Option.map_some, Option.getD_some, Host.withGenerator]

end Primitives
