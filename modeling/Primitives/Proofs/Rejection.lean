import Mathlib.Data.Fintype.BigOperators
import Mathlib.Data.Fintype.Pigeonhole
import Primitives.Proofs.Output

/-!
Numbers are drawn by rejection: words of as many bits as the size of the range has are drawn until one lies below that
size. A search through as many words as there are states has seen all words to come (`Twister.exists_afterWords_eq`),
so that it finds the first word below the size whenever there is one (`Twister.below_of_first`). Each number of the
range stands for one of the words that are accepted, which are at least half of all.
-/
namespace Primitives

namespace Twister

/-! ### States -/

/-- The words of a state, and how many of them are used. -/
def parts (g : Twister) : (Fin 624 → Fin UInt32.size) × Fin 625 := (fun i => g.words[i].toFin, g.used)

theorem parts_injective : Function.Injective parts := by
  rintro ⟨words, used⟩ ⟨words', used'⟩ same
  obtain ⟨sameWords, sameUsed⟩ := Prod.ext_iff.mp same
  have equal : words = words' := by
    apply Vector.ext
    intro i inside
    exact UInt32.toFin_inj.mp (congrFun sameWords ⟨i, inside⟩)
  exact Twister.mk.injEq _ _ _ _ ▸ ⟨equal, sameUsed⟩

theorem card_lt_two_pow {size extra : Nat} (count width digits : Nat) {exponent : Nat} (narrow : size ≤ 2 ^ width)
    (few : extra ≤ 2 ^ digits) (large : width * count + digits < exponent) :
    Fintype.card ((Fin count → Fin size) × Fin extra) < Nat.pow 2 exponent := by
  rw [Fintype.card_prod, Fintype.card_pi_const, Fintype.card_fin, Fintype.card_fin]
  calc size ^ count * extra ≤ (2 ^ width) ^ count * 2 ^ digits := Nat.mul_le_mul (Nat.pow_le_pow_left narrow count) few
    _ = 2 ^ (width * count + digits) := by rw [← pow_mul, ← pow_add]
    _ < 2 ^ exponent := Nat.pow_lt_pow_right (by decide) large

/-- There are fewer states than the bound says. -/
theorem card_parts_lt : Fintype.card ((Fin 624 → Fin UInt32.size) × Fin 625) < stateBound :=
  card_lt_two_pow 624 32 10 (by decide) (by decide) (by decide)

/-- Among more states than there are, two are the same. -/
theorem exists_repetition {bound : Nat} (large : Fintype.card ((Fin 624 → Fin UInt32.size) × Fin 625) < bound)
    (states : Nat → Twister) : ∃ i j, i < j ∧ j < bound ∧ states i = states j := by
  have crowded : Fintype.card ((Fin 624 → Fin UInt32.size) × Fin 625) < Fintype.card (Fin bound) := by
    rwa [Fintype.card_fin]
  obtain ⟨i, j, apart, same⟩ := Fintype.exists_ne_map_eq_of_card_lt (fun i : Fin bound => (states i).parts) crowded
  have equal : states i = states j := parts_injective same
  rcases Nat.lt_or_gt_of_ne (Fin.val_ne_of_ne apart) with before | behind
  · exact ⟨i, j, before, j.isLt, equal⟩
  · exact ⟨j, i, behind, i.isLt, equal.symm⟩

variable (g : Twister)

/-- Every state to come is among the first ones. -/
theorem exists_afterWords_eq {bound : Nat}
    (large : Fintype.card ((Fin 624 → Fin UInt32.size) × Fin 625) < bound) (k i : Nat) :
    ∃ j < bound, g.afterWords k j = g.afterWords k i := by
  obtain ⟨x, y, before, bounded, same⟩ := exists_repetition large fun i => g.afterWords k i
  induction i using Nat.strongRecOn with
  | ind i ih =>
    by_cases early : i < bound
    · exact ⟨i, early, rfl⟩
    · -- the way from `y` on to `i` leads from `x` on to the same state, but earlier
      have earlier : g.afterWords k (i - y + x) = g.afterWords k i := by
        have shifted := congrArg (fun h : Twister => h.afterWords k (i - y)) same
        simp only [afterWords, ← Function.iterate_add_apply] at shifted ⊢
        rw [shifted, Nat.sub_add_cancel (by omega)]
      obtain ⟨j, inside, equal⟩ := ih (i - y + x) (by omega)
      exact ⟨j, inside, equal.trans earlier⟩

/-! ### The search -/

/-- The word at place `t` is the first one below `n`. -/
def IsFirstBelow (n k t : Nat) : Prop := (∀ i < t, n ≤ g.word k i) ∧ g.word k t < n

variable {g} {n k : Nat}

theorem exists_isFirstBelow {i : Nat} (below : g.word k i < n) : ∃ t, g.IsFirstBelow n k t := by
  classical
  have some_below : ∃ t, g.word k t < n := ⟨i, below⟩
  refine ⟨Nat.find some_below, fun j earlier => ?_, Nat.find_spec some_below⟩
  exact Nat.not_lt.mp (Nat.find_min some_below earlier)

theorem firstBelow?_of_first {t tries : Nat} (first : g.IsFirstBelow n k t) (enough : t < tries) :
    firstBelow? n k tries g = some (g.word k t, g.afterWords k (t + 1)) := by
  induction t generalizing g tries with
  | zero =>
    obtain ⟨tries, rfl⟩ : ∃ more, tries = more + 1 := ⟨tries - 1, by omega⟩
    have below : (g.bits k).1 < n := first.2
    simp only [firstBelow?, below, if_true]
    rfl
  | succ t ih =>
    obtain ⟨tries, rfl⟩ : ∃ more, tries = more + 1 := ⟨tries - 1, by omega⟩
    have rejected : ¬ (g.bits k).1 < n := Nat.not_lt.mpr (first.1 0 (Nat.succ_pos t))
    have later : (g.bits k).2.IsFirstBelow n k t := ⟨fun i before => first.1 (i + 1) (by omega), first.2⟩
    simp only [firstBelow?, rejected, if_false]
    exact ih later (by omega)

/-- The draw is the first word below the bound, and leaves the generator just past it. -/
theorem below_of_first {t : Nat} (first : g.IsFirstBelow n (bitLength n) t) :
    g.below n = (g.word (bitLength n) t, g.afterWords (bitLength n) (t + 1)) := by
  obtain ⟨j, inside, same⟩ := exists_afterWords_eq g card_parts_lt (bitLength n) t
  have reached : t < stateBound := by
    have below : g.word (bitLength n) j < n := by
      rw [word, same]
      exact first.2
    by_contra late
    exact absurd below (Nat.not_lt.mpr (first.1 j (by omega)))
  rw [below, firstBelow?_of_first first reached, Option.getD_some]

/-! ### The words that are accepted -/

/-- Of the words of as many bits as a number has, those below it are at least half. -/
theorem two_pow_bitLength_le_card (positive : 0 < n) :
    2 ^ bitLength n ≤ 2 * ((Finset.range (2 ^ bitLength n)).filter (· < n)).card := by
  have accepted : (Finset.range (2 ^ bitLength n)).filter (· < n) = Finset.range n := by
    ext word
    have bounded := lt_two_pow_bitLength n
    simp only [Finset.mem_filter, Finset.mem_range]
    omega
  rw [accepted, Finset.card_range]
  exact two_pow_bitLength_le positive

/-- Each number of a range stands for one of the words below its size. -/
theorem bijOn_words {low high : Int} (ordered : low ≤ high) :
    let n := (high - low + 1).toNat
    Set.BijOn (fun word : Nat => low + word) {word | word < 2 ^ bitLength n ∧ word < n}
      {number | low ≤ number ∧ number ≤ high} := by
  intro n
  have size : (n : Int) = high - low + 1 := Int.toNat_of_nonneg (by omega)
  refine ⟨?_, ?_, ?_⟩
  · rintro word ⟨_, below⟩
    simp only [Set.mem_ofPred_eq]
    omega
  · intro word _ word' _ same
    simp only at same
    omega
  · rintro number ⟨above, below⟩
    have bounded := lt_two_pow_bitLength n
    refine ⟨(number - low).toNat, ⟨?_, ?_⟩, ?_⟩
    · omega
    · omega
    · simp only
      omega

/-- Moving the bounds moves the number that is drawn, and nothing else. -/
theorem between_add (g : Twister) (low high d : Int) :
    g.between (low + d) (high + d) = ((g.between low high).1 + d, (g.between low high).2) := by
  have size : high + d - (low + d) + 1 = high - low + 1 := by ring
  simp only [between, size]
  exact Prod.ext (by ring) rfl

end Twister

namespace Random

section

variable {host found : Host} {context : Option Handle} {handle : Handle} {log : List Notice} {c : Context}
variable {low high : Int}

/-- What a draw of a number does in the context that it finds. -/
theorem integer_of_found (resolved : Context.resolve context host = ⟨.ok handle, found, log⟩)
    (there : found.contexts[handle]? = some c) (ordered : low ≤ high) :
    integer (.integer low) (.integer high) context host =
      if greatestWidth < Twister.bitLength (high - low + 1).toNat then ⟨.error .rangeTooLarge, found, log⟩
      else ⟨.ok (.integer (c.generator.between low high).1),
        found.withGenerator handle (c.generator.between low high).2, log⟩ := by
  rw [integer_of_le ordered, Effect.bind_of_ok resolved]
  by_cases wide : greatestWidth < Twister.bitLength (high - low + 1).toNat
  · simp only [wide, if_true, Effect.fail_apply, List.append_nil]
  · simp only [wide, if_false, Task.run, Effect.modifyGet_apply, Task.act, Task.drawn_of_there there, List.append_nil]

/-- A draw of a number that ends well gives what the generator gives between the bounds. -/
theorem integer_returned (resolved : Context.resolve context host = ⟨.ok handle, found, log⟩)
    (there : found.contexts[handle]? = some c) (ordered : low ≤ high) {v : Value}
    (returned : (integer (.integer low) (.integer high) context host).result = .ok v) :
    ¬ greatestWidth < Twister.bitLength (high - low + 1).toNat ∧ v = .integer (c.generator.between low high).1 ∧
    (integer (.integer low) (.integer high) context host).host =
      found.withGenerator handle (c.generator.between low high).2 := by
  rw [integer_of_found resolved there ordered] at returned ⊢
  by_cases wide : greatestWidth < Twister.bitLength (high - low + 1).toNat
  · rw [if_pos wide] at returned
    cases returned
  · rw [if_neg wide] at returned ⊢
    cases returned
    exact ⟨wide, rfl, rfl⟩

end

/-- Numbers are drawn from their range without bias. A draw ends unless the size of the range has too many bits. The
    number drawn lies in the range; provided that the generator ever gives a word below the size, without which the
    search would not end, it is the lower bound and the first such word, and the generator is left just past that word.
    A word of any width has no more bits than that and is put together from outputs. The numbers of the range
    correspond to the words that are accepted, which are at least half of all. Moving both bounds moves the number. -/
theorem integer_unbiased (host found : Host) (context : Option Handle) (handle : Handle) (log : List Notice)
    (c : Context) (low high : Int) (resolved : Context.resolve context host = ⟨.ok handle, found, log⟩)
    (there : found.contexts[handle]? = some c) (ordered : low ≤ high) :
    let n := (high - low + 1).toNat
    let k := Twister.bitLength n
    let outcome := integer (.integer low) (.integer high) context host
    ((∃ v, outcome.result = .ok v) ↔ k ≤ greatestWidth) ∧
    (∀ v, outcome.result = .ok v → ∃ m, v = .integer m ∧ low ≤ m ∧ m ≤ high ∧
      ((∃ i, c.generator.word k i < n) → ∃ t, c.generator.IsFirstBelow n k t ∧
        m = low + c.generator.word k t ∧
        outcome.host = found.withGenerator handle (c.generator.afterWords k (t + 1)))) ∧
    (∀ (g : Twister) (width : Nat), (g.bits width).1 < 2 ^ width) ∧
    (∀ (g : Twister) (digits last : Nat), 0 < last → last ≤ 32 →
      g.bits (32 * digits + last) =
        (∑ i ∈ Finset.range digits, (g.output i).toNat * 2 ^ (32 * i) +
          ((g.output digits).toNat >>> (32 - last)) * 2 ^ (32 * digits), g.after (digits + 1))) ∧
    Set.BijOn (fun word : Nat => low + word) {word | word < 2 ^ k ∧ word < n}
      {number | low ≤ number ∧ number ≤ high} ∧
    2 ^ k ≤ 2 * ((Finset.range (2 ^ k)).filter (· < n)).card ∧
    (∀ d m, outcome.result = .ok (.integer m) →
      (integer (.integer (low + d)) (.integer (high + d)) context host).result = .ok (.integer (m + d)) ∧
      (integer (.integer (low + d)) (.integer (high + d)) context host).host = outcome.host) := by
  intro n k outcome
  refine ⟨⟨?_, ?_⟩, ?_, fun g width => g.bits_lt width, fun g digits last some_missing short =>
    g.bits_eq digits some_missing short, Twister.bijOn_words ordered,
    Twister.two_pow_bitLength_le_card (by omega), ?_⟩
  · rintro ⟨v, returned⟩
    exact Nat.not_lt.mp (integer_returned resolved there ordered returned).1
  · intro narrow
    refine ⟨.integer (c.generator.between low high).1, ?_⟩
    simp only [outcome, integer_of_found resolved there ordered]
    rw [if_neg (Nat.not_lt.mpr narrow)]
  · intro v returned
    obtain ⟨_, rfl, left⟩ := integer_returned resolved there ordered returned
    obtain ⟨above, below⟩ := Twister.between_mem ordered c.generator
    refine ⟨_, rfl, above, below, ?_⟩
    rintro ⟨i, accepted⟩
    obtain ⟨t, first⟩ := Twister.exists_isFirstBelow accepted
    have drawn : c.generator.between low high =
        (low + c.generator.word k t, c.generator.afterWords k (t + 1)) := by
      rw [Twister.between, Twister.below_of_first first]
    rw [drawn] at left
    exact ⟨t, first, by rw [drawn], left⟩
  · intro d m returned
    obtain ⟨narrow, same, left⟩ := integer_returned resolved there ordered returned
    have size : high + d - (low + d) + 1 = high - low + 1 := by ring
    rw [integer_of_found resolved there (Int.add_le_add_right ordered d), size, if_neg narrow, Twister.between_add]
    simp only [outcome, left, Value.integer.inj same, and_self]

/-- A number from -3 to 1 is drawn. The first word of three bits is 6 and rejected, the second one is 3. -/
theorem integer_unbiased_after_rejection :
    let g : Twister := ⟨Vector.ofFn fun i => if i.val = 0 then 0xC0000000 else 0xAAAAAAAA, 0⟩
    let host : Host := { Host.fresh none ⟨fun _ => [], 0⟩ "" with contexts := [⟨.integer 0, g, none, none⟩] }
    (integer (.integer (-3)) (.integer 1) (some 0) host).result = .ok (.integer 0) := by
  intro g host
  have rejected : g.word 3 0 = 6 := by
    rw [Twister.word_zero, Twister.bits_of_le g (by decide)]
    decide +kernel
  have accepted : g.word 3 1 = 3 := by
    rw [Twister.word_succ, Twister.word_zero, Twister.bits_of_le g (by decide), Twister.bits_of_le _ (by decide)]
    decide +kernel
  have size : (1 - -3 + 1 : Int).toNat = 5 := rfl
  have width : Twister.bitLength 5 = 3 := by decide
  obtain ⟨ends, drawn, _⟩ :=
    integer_unbiased host host (some 0) 0 [] ⟨.integer 0, g, none, none⟩ (-3) 1 rfl rfl (by decide)
  simp only [size, width] at ends drawn
  obtain ⟨v, returned⟩ := ends.mpr (by decide)
  obtain ⟨m, rfl, _, _, search⟩ := drawn v returned
  obtain ⟨t, ⟨earlier, below⟩, rfl, _⟩ := search ⟨1, accepted.trans_lt (by decide)⟩
  have second : t = 1 := by
    rcases Nat.lt_trichotomy t 1 with none_yet | here | later
    · rw [Nat.lt_one_iff.mp none_yet, rejected] at below
      exact absurd below (by decide)
    · exact here
    · exact absurd (accepted ▸ earlier 1 later) (by decide)
  rw [returned, second, accepted]
  rfl

end Random

end Primitives
