import Mathlib.Algebra.Order.Ring.Nat
import Mathlib.Data.List.Induction
import Mathlib.Data.Option.Basic
import Primitives.Literal

/-!
Numerals are read back as they were written: `read?_write`. Conversely only integers within the limit on digits
are read (`writable_of_read?`), so whatever was read can be written again. The same holds for literals: the word
of a value that has a kind stands for that value (`read_of_write?`).
-/
namespace Primitives

open Character

private theorem dropWhile_of_head? {α : Type} {p : α → Bool} {as : List α} {a : α} (first : as.head? = some a)
    (kept : p a = false) : as.dropWhile p = as := by
  cases as with
  | nil => rfl
  | cons b rest =>
    cases first
    simp [kept]

private theorem dropWhile_dropWhile_of_imp {α : Type} {p q : α → Bool} (wider : ∀ a, p a = true → q a = true)
    (as : List α) : (as.dropWhile p).dropWhile q = as.dropWhile q := by
  induction as with
  | nil => rfl
  | cons a rest ih =>
    by_cases held : p a = true
    · simp [held, wider a held, ih]
    · simp [held]

namespace Character

section Trim

variable {isTrimmed wide : Char → Bool} {cs : List Char} {first last : Char}

theorem trim_eq_self (begins : cs.head? = some first) (ends : cs.getLast? = some last)
    (firstKept : isTrimmed first = false) (lastKept : isTrimmed last = false) : trim isTrimmed cs = cs := by
  have back : cs.reverse.head? = some last := by rw [List.head?_reverse, ends]
  rw [trim, dropWhile_of_head? begins firstKept, dropWhile_of_head? back lastKept, List.reverse_reverse]

/-- A wider trim removes no more, if what a narrower one leaves has no end that it removes. -/
theorem trim_of_wider (wider : ∀ c, isTrimmed c = true → wide c = true)
    (begins : (trim isTrimmed cs).head? = some first) (ends : (trim isTrimmed cs).getLast? = some last)
    (firstKept : wide first = false) (lastKept : wide last = false) : trim wide cs = trim isTrimmed cs := by
  have beginning : (cs.dropWhile isTrimmed).head? = some first := by
    -- the narrower trim takes a part from the end of these characters only
    have parted : trim isTrimmed cs ++ ((cs.dropWhile isTrimmed).reverse.takeWhile isTrimmed).reverse =
        cs.dropWhile isTrimmed := by
      rw [trim, ← List.reverse_append, List.takeWhile_append_dropWhile, List.reverse_reverse]
    rw [← parted, List.head?_append, begins]
    rfl
  have front : cs.dropWhile wide = cs.dropWhile isTrimmed := by
    rw [← dropWhile_dropWhile_of_imp wider, dropWhile_of_head? beginning firstKept]
  have back : (cs.dropWhile isTrimmed).reverse.dropWhile wide =
      (cs.dropWhile isTrimmed).reverse.dropWhile isTrimmed := by
    rw [trim, List.getLast?_reverse] at ends
    rw [← dropWhile_dropWhile_of_imp wider, dropWhile_of_head? ends lastKept]
  rw [trim, front, back, trim]

end Trim

end Character

theorem Character.digitValue?_lt {c : Char} {value : Nat} (read : digitValue? c = some value) : value < 10 := by
  obtain ⟨start, _, found⟩ := List.exists_of_findSome?_eq_some read
  split at found
  · cases found; omega
  · cases found

private theorem digit_bounds {c : Char} (digit : c.isDigit = true) : 48 ≤ c.toNat ∧ c.toNat ≤ 57 := by
  simp only [Char.isDigit, Bool.and_eq_true, decide_eq_true_eq] at digit
  exact ⟨UInt32.le_iff_toNat_le.mp digit.1, UInt32.le_iff_toNat_le.mp digit.2⟩

/-- The zero of the first script in the table is the ASCII one. -/
theorem Character.digitValue?_of_isDigit {c : Char} (digit : c.isDigit = true) :
    digitValue? c = some (c.toNat - 48) := by
  obtain ⟨lower, upper⟩ := digit_bounds digit
  have inside : 48 ≤ c.toNat ∧ c.toNat < 48 + 10 := by omega
  simp [digitValue?, zeros, inside]

theorem Character.isDigit_of_ascii {c : Char} (digit : c.isDigit = true) : isDigit c = true := by
  rw [isDigit, digitValue?_of_isDigit digit]
  rfl

theorem Character.isOuterBlank_of_isDigit {c : Char} (digit : isDigit c = true) : isOuterBlank c = false := by
  have apart : ∀ start ∈ zeros, 0x20 < start ∧ (start + 9 < 0x85 ∨ 0xA0 < start) ∧
      (start + 9 < 0x1680 ∨ 0x1680 < start) ∧ (start + 9 < 0x2000 ∨ 0x205F < start) ∧
      (start + 9 < 0x3000 ∨ 0x3000 < start) := by decide
  obtain ⟨value, read⟩ := Option.isSome_iff_exists.mp digit
  obtain ⟨start, member, found⟩ := List.exists_of_findSome?_eq_some read
  split at found
  · next inside =>
    have clear := apart start member
    simp only [isOuterBlank, isBlank, isInformationSeparator, Bool.or_eq_false_iff, Bool.and_eq_false_iff,
      decide_eq_false_iff_not, beq_eq_false_iff_ne]
    omega
  · cases found

theorem Character.isBlank_of_not_isOuterBlank {c : Char} (kept : isOuterBlank c = false) : isBlank c = false :=
  (Bool.or_eq_false_iff.mp kept).1

namespace Numeral

/-- A row of ASCII digits has the values of its digits. -/
theorem digitValues?_of_isDigit {cs : List Char} (some_digit : cs ≠ []) (digits : ∀ c ∈ cs, c.isDigit = true) :
    digitValues? cs = some (cs.map fun c => c.toNat - 48) := by
  induction cs with
  | nil => exact absurd rfl some_digit
  | cons c rest ih =>
    have first := digitValue?_of_isDigit (digits c (by simp))
    cases rest with
    | nil => simp [digitValues?, first]
    | cons d rest =>
      have other : d ≠ '_' := by
        rintro rfl
        simpa using digits '_' (by simp)
      have later := ih (by simp) (fun e member => digits e (by simp [member]))
      simp [digitValues?, other, first, later]

theorem digitValues?_lt {cs : List Char} {values : List Nat} (read : digitValues? cs = some values) :
    ∀ value ∈ values, value < 10 := by
  fun_induction digitValues? cs generalizing values with
  | case1 => cases read
  | case2 c =>
    obtain ⟨value, digit, rfl⟩ := Option.map_eq_some_iff.mp read
    simpa using digitValue?_lt digit
  | case3 c rest ih | case4 c rest _ _ ih =>
    simp only [Option.pure_def, Option.bind_eq_bind, Option.bind_eq_some_iff, Option.some.injEq] at read
    obtain ⟨value, digit, others, later, rfl⟩ := read
    intro member isMember
    rcases List.mem_cons.mp isMember with rfl | isMember
    · exact digitValue?_lt digit
    · exact ih later member isMember

/-- The number of `k` digit values has at most `k` digits. -/
theorem ofDigitValues_lt {values : List Nat} (small : ∀ value ∈ values, value < 10) :
    ofDigitValues values < 10 ^ values.length := by
  induction values using List.reverseRecOn with
  | nil => simp [ofDigitValues]
  | append_singleton values last ih =>
    have before := ih (fun value member => small value (by simp [member]))
    have lastSmall : last < 10 := small last (by simp)
    simp only [ofDigitValues, List.foldl_append, List.foldl_cons, List.foldl_nil, List.length_append,
      List.length_singleton, Nat.pow_succ] at before ⊢
    omega

theorem writable_iff {n : Int} : Writable n ↔ n.natAbs < 10 ^ digitLimit := by
  rw [Writable, Nat.pow_eq]

theorem writable_iff_length {n : Int} : Writable n ↔ (Nat.toDigits 10 n.natAbs).length ≤ digitLimit := by
  rw [writable_iff, Nat.length_toDigits_le_iff (by decide) (by decide)]

/-- The least number of too many digits. -/
theorem not_writable_ten_pow : ¬ Writable (10 ^ digitLimit) := by
  have ten : (10 : Int).natAbs = 10 := rfl
  rw [writable_iff, Int.natAbs_pow, ten]
  exact Nat.lt_irrefl _

/-- The digits of a number within the limit are read as that number. -/
theorem readMagnitude?_toDigits {n : Nat} (within : n < 10 ^ digitLimit) :
    readMagnitude? (Nat.toDigits 10 n) = some n := by
  have isDigit : ∀ c ∈ Nat.toDigits 10 n, c.isDigit = true :=
    fun c member => Nat.isDigit_of_mem_toDigits (by decide) (by decide) member
  have values := digitValues?_of_isDigit Nat.toDigits_ne_nil isDigit
  have short : (Nat.toDigits 10 n).length ≤ digitLimit :=
    (Nat.length_toDigits_le_iff (by decide) (by decide)).mpr within
  have number : ofDigitValues ((Nat.toDigits 10 n).map fun c => c.toNat - 48) = n := by
    rw [ofDigitValues, List.foldl_map]
    exact Nat.ofDigitChars_ten_toDigits
  simp [readMagnitude?, values, short, number, guard]

theorem lt_of_readMagnitude? {cs : List Char} {n : Nat} (read : readMagnitude? cs = some n) :
    n < 10 ^ digitLimit := by
  simp only [readMagnitude?, Option.pure_def, Option.bind_eq_bind, Option.bind_eq_some_iff, Option.guard_eq_some',
    Option.some.injEq] at read
  obtain ⟨values, digits, _, short, rfl⟩ := read
  calc ofDigitValues values < 10 ^ values.length := ofDigitValues_lt (digitValues?_lt digits)
    _ ≤ 10 ^ digitLimit := Nat.pow_le_pow_right (by decide) short

theorem readSigned?_minus (cs : List Char) :
    readSigned? ('-' :: cs) = (readMagnitude? cs).map fun n : Nat => -(n : Int) := by
  rw [readSigned?]
  cases readMagnitude? cs <;> rfl

/-- A numeral is a magnitude, possibly after a sign. -/
theorem magnitude_of_readSigned? {cs : List Char} {n : Int} (read : readSigned? cs = some n) :
    ∃ rest, readMagnitude? rest = some n.natAbs ∧ (cs = rest ∨ cs = '-' :: rest ∨ cs = '+' :: rest) := by
  by_cases minus : cs.head? = some '-'
  · obtain ⟨rest, rfl⟩ := List.head?_eq_some_iff.mp minus
    rw [readSigned?_minus] at read
    obtain ⟨magnitude, digits, rfl⟩ := Option.map_eq_some_iff.mp read
    exact ⟨rest, by simpa using digits, .inr (.inl rfl)⟩
  · unfold readSigned? at read
    split at read
    · exact absurd rfl minus
    all_goals obtain ⟨magnitude, digits, rfl⟩ := Option.map_eq_some_iff.mp read
    · exact ⟨_, by simpa using digits, .inr (.inr rfl)⟩
    · exact ⟨_, by simpa using digits, .inl rfl⟩

/-- Only integers within the limit on digits are read. -/
theorem writable_of_read? {text : String} {n : Int} (read : read? text = some n) : Writable n := by
  obtain ⟨rest, digits, _⟩ := magnitude_of_readSigned? read
  exact writable_iff.mpr (lt_of_readMagnitude? digits)

/-- A row of digits begins and ends with one. -/
theorem ends_of_readMagnitude? {cs : List Char} {n : Nat} (read : readMagnitude? cs = some n) :
    (∃ first, cs.head? = some first ∧ isDigit first = true) ∧
    (∃ last, cs.getLast? = some last ∧ isDigit last = true) := by
  obtain ⟨values, digits, -⟩ := Option.bind_eq_some_iff.mp read
  clear read
  fun_induction digitValues? cs generalizing values with
  | case1 => cases digits
  | case2 c =>
    obtain ⟨value, digit, rfl⟩ := Option.map_eq_some_iff.mp digits
    have only : isDigit c = true := by rw [isDigit, digit]; rfl
    exact ⟨⟨c, rfl, only⟩, c, rfl, only⟩
  | case3 c rest ih | case4 c rest _ _ ih =>
    simp only [Option.pure_def, Option.bind_eq_bind, Option.bind_eq_some_iff, Option.some.injEq] at digits
    obtain ⟨value, digit, others, later, rfl⟩ := digits
    obtain ⟨_, last, ends, isLast⟩ := ih others later
    refine ⟨⟨c, rfl, by rw [isDigit, digit]; rfl⟩, last, ?_, isLast⟩
    simp [List.getLast?_cons, ends]

/-- A numeral begins with a sign or a digit and ends with a digit, so that no trim takes anything from it. -/
theorem ends_of_readSigned? {cs : List Char} {n : Int} (read : readSigned? cs = some n) :
    (∃ first, cs.head? = some first ∧ isOuterBlank first = false) ∧
    (∃ last, cs.getLast? = some last ∧ isOuterBlank last = false) := by
  obtain ⟨rest, digits, shape⟩ := magnitude_of_readSigned? read
  obtain ⟨⟨first, begins, isFirst⟩, last, ends, isLast⟩ := ends_of_readMagnitude? digits
  have firstKept := isOuterBlank_of_isDigit isFirst
  have lastKept := isOuterBlank_of_isDigit isLast
  rcases shape with rfl | rfl | rfl
  · exact ⟨⟨first, begins, firstKept⟩, last, ends, lastKept⟩
  · exact ⟨⟨'-', rfl, by decide⟩, last, by simp [List.getLast?_cons, ends], lastKept⟩
  · exact ⟨⟨'+', rfl, by decide⟩, last, by simp [List.getLast?_cons, ends], lastKept⟩

theorem read?_of_readSigned? {text : String} {n : Int} (read : readSigned? text.toList = some n) :
    read? text = some n := by
  obtain ⟨⟨first, begins, firstKept⟩, last, ends, lastKept⟩ := ends_of_readSigned? read
  rw [read?, trim_eq_self begins ends (isBlank_of_not_isOuterBlank firstKept) (isBlank_of_not_isOuterBlank lastKept),
    read]

/-- The characters of a numeral: its digits, after a minus sign if the integer is negative. -/
theorem toList_write (n : Int) :
    (write n).toList = if n < 0 then '-' :: Nat.toDigits 10 n.natAbs else Nat.toDigits 10 n.natAbs := by
  unfold write digits
  split <;> simp

theorem isDigit_of_mem_digits {n : Nat} {c : Char} (member : c ∈ Nat.toDigits 10 n) : c.isDigit = true :=
  Nat.isDigit_of_mem_toDigits (by decide) (by decide) member

theorem readSigned?_of_digits {cs : List Char} (digits : ∀ c ∈ cs, c.isDigit = true) :
    readSigned? cs = (readMagnitude? cs).map Int.ofNat := by
  unfold readSigned?
  split
  · simpa using digits '-' (by simp)
  · simpa using digits '+' (by simp)
  · rfl

/-- Reading undoes writing, within the limit on digits. -/
theorem read?_write {n : Int} (writable : Writable n) : read? (write n) = some n := by
  refine read?_of_readSigned? ?_
  rw [toList_write]
  split
  · next negative =>
    rw [readSigned?_minus, readMagnitude?_toDigits (writable_iff.mp writable)]
    simp only [Option.map_some, Option.some.injEq]
    omega
  · next nonnegative =>
    rw [readSigned?_of_digits fun c => isDigit_of_mem_digits, readMagnitude?_toDigits (writable_iff.mp writable)]
    simp only [Option.map_some, Option.some.injEq, Int.ofNat_eq_natCast]
    omega

end Numeral

/-- A value that has a kind and, if it is an integer, a numeral. -/
def Value.Writable : Value → Prop
  | .boolean _ => True
  | .integer n => Numeral.Writable n
  | .text _ => True
  | .nothing => False
  | .foreign _ => False

namespace Literal

theorem unquoted?_quoted (s : String) : unquoted? ("\"" ++ s ++ "\"") = some s := by
  simp [unquoted?]

theorem unquoted?_write (n : Int) : unquoted? (Numeral.write n) = none := by
  unfold unquoted?
  split
  · next rest quoted =>
    -- a numeral begins with a minus sign or a digit
    rw [Numeral.toList_write] at quoted
    split at quoted
    · cases quoted
    · have member : '"' ∈ Nat.toDigits 10 n.natAbs := by rw [quoted]; simp
      simpa using Numeral.isDigit_of_mem_digits member
  · rfl

/-- Only integers that have a numeral are read from words. -/
theorem writable_of_read {word : String} {n : Int} (number : read word = .integer n) : Numeral.Writable n := by
  unfold read at number
  split at number
  · cases number
  · split at number
    · cases number
    · split at number
      · cases number
      · split at number
        · next numeral =>
          cases number
          exact Numeral.writable_of_read? numeral
        · cases number

/-- The word for a value stands for that value. -/
theorem read_of_write? {v : Value} {word : String} (writable : v.Writable) (written : write? v = some word) :
    read word = v := by
  cases v with
  | boolean b => cases written; cases b <;> rfl
  | integer n =>
    cases written
    have number := Numeral.read?_write writable
    have noNumeral : ∀ word ∈ ["true", "false"], Numeral.read? word = none := by decide
    have noKeyword : ∀ word ∈ ["true", "false"], Numeral.write n ≠ word := by
      rintro word member rfl
      rw [noNumeral _ member] at number
      cases number
    simp [read, unquoted?_write, noKeyword "true" (by simp), noKeyword "false" (by simp), number]
  | text s => cases written; simp only [read, unquoted?_quoted]
  | nothing => cases written
  | foreign object => cases written

end Literal

end Primitives
