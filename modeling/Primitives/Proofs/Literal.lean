import Mathlib.Data.List.Forall2
import Mathlib.Data.List.TakeWhile
import Mathlib.Data.Nat.Digits.Defs
import Primitives.Proofs.Numeral

/-!
The grammar of literals. `Numeral.Denotes` says which texts are numerals and of which integers, without reading them:
a text that can be parted into trimmed characters, a sign and a row of digits. Reading accepts exactly these
(`Numeral.read?_eq_some_iff`). A word then stands for a quoted text, a Boolean, an integer or itself
(`Literal.read_cases`), and only one of the four applies (`Literal.fits_unique`).
-/
namespace Primitives

namespace Character

/-- A decimal digit of some script, with its value. -/
def DigitOf (c : Char) (value : Nat) : Prop := value < 10 ∧ ∃ start ∈ zeros, c.toNat = start + value

/-- A decimal digit of some script. -/
def Digit (c : Char) : Prop := ∃ value, DigitOf c value

/-- The digits of one script end before those of the next one begin. -/
theorem zeros_apart : zeros.Pairwise fun start next => start + 10 ≤ next := by decide

theorem digitValue?_eq_some_iff {c : Char} {value : Nat} : digitValue? c = some value ↔ DigitOf c value := by
  constructor
  · intro read
    refine ⟨digitValue?_lt read, ?_⟩
    obtain ⟨start, member, found⟩ := List.exists_of_findSome?_eq_some read
    split at found
    · next inside =>
      cases found
      exact ⟨start, member, by omega⟩
    · cases found
  · rintro ⟨small, start, member, place⟩
    obtain ⟨before, after, parted⟩ := List.append_of_mem member
    have apart := parted ▸ zeros_apart
    have notBefore : before.findSome? (fun start =>
        if start ≤ c.toNat ∧ c.toNat < start + 10 then some (c.toNat - start) else none) = none := by
      rw [List.findSome?_eq_none_iff]
      intro earlier isEarlier
      have clear : earlier + 10 ≤ start := (List.pairwise_append.mp apart).2.2 earlier isEarlier start (by simp)
      rw [if_neg (by omega)]
    have inside : start ≤ c.toNat ∧ c.toNat < start + 10 := by omega
    rw [digitValue?, parted, List.findSome?_append, notBefore, Option.none_or, List.findSome?_cons, if_pos inside, place,
      Nat.add_sub_cancel_left]

theorem digit_iff_isDigit {c : Char} : Digit c ↔ isDigit c = true := by
  simp only [Digit, ← digitValue?_eq_some_iff, isDigit, Option.isSome_iff_exists]

theorem Digit.ne_underscore {c : Char} (digit : Digit c) : c ≠ '_' := by
  rintro rfl
  have noDigit : isDigit '_' = false := by decide
  rw [digit_iff_isDigit, noDigit] at digit
  cases digit

/-! ### Trimming -/

section Trim

variable {isTrimmed : Char → Bool} {lead core trail : List Char} {first last : Char}

/-- A list is what a trim leaves of it, between characters that are trimmed. -/
theorem exists_around_trim (isTrimmed : Char → Bool) (cs : List Char) :
    ∃ lead trail, cs = lead ++ trim isTrimmed cs ++ trail ∧ (∀ c ∈ lead, isTrimmed c = true) ∧
      ∀ c ∈ trail, isTrimmed c = true := by
  refine ⟨cs.takeWhile isTrimmed, ((cs.dropWhile isTrimmed).reverse.takeWhile isTrimmed).reverse, ?_,
    fun c member => List.mem_takeWhile_imp member, fun c member => List.mem_takeWhile_imp (List.mem_reverse.mp member)⟩
  rw [trim, List.append_assoc, ← List.reverse_append, List.takeWhile_append_dropWhile, List.reverse_reverse,
    List.takeWhile_append_dropWhile]

theorem dropWhile_append_kept (trimmed : ∀ c ∈ lead, isTrimmed c = true) (begins : core.head? = some first)
    (kept : isTrimmed first = false) : (lead ++ core).dropWhile isTrimmed = core := by
  obtain ⟨rest, rfl⟩ := List.head?_eq_some_iff.mp begins
  rw [List.dropWhile_append_of_pos trimmed, List.dropWhile_cons_of_neg (by simp [kept])]

/-- A trim removes nothing but what is trimmed at both ends. -/
theorem trim_around (leadTrimmed : ∀ c ∈ lead, isTrimmed c = true) (trailTrimmed : ∀ c ∈ trail, isTrimmed c = true)
    (begins : core.head? = some first) (ends : core.getLast? = some last) (firstKept : isTrimmed first = false)
    (lastKept : isTrimmed last = false) : trim isTrimmed (lead ++ core ++ trail) = core := by
  have front : (lead ++ core ++ trail).dropWhile isTrimmed = core ++ trail := by
    rw [List.append_assoc]
    exact dropWhile_append_kept leadTrimmed (by rw [List.head?_append, begins, Option.some_or]) firstKept
  have back : (core ++ trail).reverse.dropWhile isTrimmed = core.reverse := by
    rw [List.reverse_append]
    exact dropWhile_append_kept (fun c member => trailTrimmed c (List.mem_reverse.mp member))
      (by rw [List.head?_reverse, ends]) lastKept
  rw [trim, front, back, List.reverse_reverse]

end Trim

end Character

open Character

namespace Numeral

/-! ### Rows of digits -/

/-- Digits, with underscores that each stand between two digits. -/
structure IsRow (cs : List Char) : Prop where
  given : cs ≠ []
  members : ∀ c ∈ cs, c = '_' ∨ Digit c
  between : ∀ front back, cs = front ++ '_' :: back → (∃ c ∈ front.getLast?, Digit c) ∧ ∃ c ∈ back.head?, Digit c

section Row

variable {c : Char} {rest front : List Char}

theorem exists_last_cons (ends : ∃ d ∈ front.getLast?, Digit d) : ∃ d ∈ (c :: front).getLast?, Digit d := by
  obtain ⟨d, last, digit⟩ := ends
  refine ⟨d, ?_, digit⟩
  rw [Option.mem_def] at last ⊢
  rw [List.getLast?_cons, last, Option.getD_some]

theorem exists_last_of_cons (given : front ≠ []) (ends : ∃ d ∈ (c :: front).getLast?, Digit d) :
    ∃ d ∈ front.getLast?, Digit d := by
  obtain ⟨x, front, rfl⟩ := List.exists_cons_of_ne_nil given
  rwa [List.getLast?_cons_cons] at ends

theorem IsRow.digit (row : IsRow (c :: rest)) : Digit c := by
  rcases row.members c List.mem_cons_self with rfl | digit
  · obtain ⟨⟨d, before, _⟩, _⟩ := row.between [] rest rfl
    cases before
  · exact digit

theorem isRow_singleton (digit : Digit c) : IsRow [c] := by
  refine ⟨List.cons_ne_nil _ _, by simpa using .inr digit, fun front back parted => ?_⟩
  have member : '_' ∈ [c] := parted ▸ by simp
  exact absurd (List.mem_singleton.mp member).symm digit.ne_underscore

theorem IsRow.cons (row : IsRow rest) (digit : Digit c) : IsRow (c :: rest) := by
  refine ⟨List.cons_ne_nil _ _, by simpa using ⟨.inr digit, row.members⟩, fun front back parted => ?_⟩
  rcases List.cons_eq_append_iff.mp parted with ⟨_, same⟩ | ⟨front, rfl, later⟩
  · exact absurd (List.cons.inj same).1.symm digit.ne_underscore
  · exact (row.between front back later).imp_left exists_last_cons

theorem IsRow.cons_underscore (row : IsRow rest) (digit : Digit c) : IsRow (c :: '_' :: rest) := by
  refine ⟨List.cons_ne_nil _ _, by simpa using ⟨.inr digit, row.members⟩, fun front back parted => ?_⟩
  rcases List.cons_eq_append_iff.mp parted with ⟨_, same⟩ | ⟨front, rfl, later⟩
  · exact absurd (List.cons.inj same).1.symm digit.ne_underscore
  · rcases List.cons_eq_append_iff.mp later with ⟨rfl, same⟩ | ⟨front, rfl, inside⟩
    · -- this is the underscore in front of the row
      obtain ⟨_, rfl⟩ := List.cons.inj same
      obtain ⟨d, others, rfl⟩ := List.exists_cons_of_ne_nil row.given
      exact ⟨⟨c, rfl, digit⟩, d, rfl, row.digit⟩
    · exact (row.between front back inside).imp_left fun ends => exists_last_cons (exists_last_cons ends)

/-- What follows a digit of a row is a row, or an underscore and a row. -/
theorem IsRow.tail (row : IsRow (c :: rest)) (more : rest ≠ []) :
    IsRow rest ∨ ∃ later, rest = '_' :: later ∧ IsRow later := by
  obtain ⟨d, later, rfl⟩ := List.exists_cons_of_ne_nil more
  by_cases underscore : d = '_'
  · subst underscore
    obtain ⟨_, e, begins, digit⟩ := row.between [c] later rfl
    refine .inr ⟨later, rfl, ?_, fun x member => row.members x (by simp [member]), fun front back parted => ?_⟩
    · rintro rfl
      cases begins
    · have notFirst : front ≠ [] := by
        rintro rfl
        rw [parted] at begins
        exact digit.ne_underscore (Option.some.inj begins).symm
      have around := row.between (c :: '_' :: front) back (by rw [parted]; rfl)
      exact around.imp_left fun ends => exists_last_of_cons notFirst (exists_last_of_cons (by simp) ends)
  · refine .inl ⟨more, fun x member => row.members x (List.mem_cons_of_mem c member), fun front back parted => ?_⟩
    have notFirst : front ≠ [] := by
      rintro rfl
      exact underscore (List.cons.inj parted).1
    exact (row.between (c :: front) back (by rw [parted]; rfl)).imp_left (exists_last_of_cons notFirst)

end Row

/-! ### Magnitudes -/

/-- The characters are a row of digits of the given values. -/
def RowOf (cs : List Char) (values : List Nat) : Prop :=
  IsRow cs ∧ List.Forall₂ DigitOf (cs.filter (· ≠ '_')) values

/-- The characters are a row of digits within the limit, of the given decimal value. -/
def Magnitude (cs : List Char) (n : Nat) : Prop :=
  ∃ values, RowOf cs values ∧ values.length ≤ digitLimit ∧ n = Nat.ofDigits 10 values.reverse

section Magnitude

variable {c : Char} {cs rest : List Char} {values : List Nat} {n : Nat}

theorem digits_cons (digit : Digit c) : (c :: rest).filter (· ≠ '_') = c :: rest.filter (· ≠ '_') :=
  List.filter_cons_of_pos (by simpa using digit.ne_underscore)

theorem digits_underscore : ('_' :: rest).filter (· ≠ '_') = rest.filter (· ≠ '_') :=
  List.filter_cons_of_neg (by simp)

theorem rowOf_singleton {value : Nat} (digit : DigitOf c value) : RowOf [c] [value] := by
  have isDigit : Digit c := ⟨value, digit⟩
  refine ⟨isRow_singleton isDigit, ?_⟩
  rw [digits_cons isDigit]
  exact .cons digit .nil

theorem RowOf.cons {value : Nat} (row : RowOf rest values) (digit : DigitOf c value) :
    RowOf (c :: rest) (value :: values) := by
  have isDigit : Digit c := ⟨value, digit⟩
  refine ⟨row.1.cons isDigit, ?_⟩
  rw [digits_cons isDigit]
  exact .cons digit row.2

theorem RowOf.cons_underscore {value : Nat} (row : RowOf rest values) (digit : DigitOf c value) :
    RowOf (c :: '_' :: rest) (value :: values) := by
  have isDigit : Digit c := ⟨value, digit⟩
  refine ⟨row.1.cons_underscore isDigit, ?_⟩
  rw [digits_cons isDigit, digits_underscore]
  exact .cons digit row.2

theorem RowOf.uncons (row : RowOf (c :: rest) values) :
    ∃ value others, DigitOf c value ∧ values = value :: others ∧
      (rest = [] ∧ others = [] ∨ RowOf rest others ∨ ∃ later, rest = '_' :: later ∧ RowOf later others) := by
  obtain ⟨row, all⟩ := row
  rw [digits_cons row.digit] at all
  obtain ⟨value, others, digit, digits, rfl⟩ := List.forall₂_cons_left_iff.mp all
  refine ⟨value, others, digit, rfl, ?_⟩
  by_cases more : rest = []
  · subst more
    exact .inl ⟨rfl, List.forall₂_nil_left_iff.mp digits⟩
  · rcases row.tail more with later | ⟨later, rfl, isRow⟩
    · exact .inr (.inl ⟨later, digits⟩)
    · rw [digits_underscore] at digits
      exact .inr (.inr ⟨later, rfl, isRow, digits⟩)

theorem not_rowOf_underscore : ¬ RowOf ('_' :: rest) values := fun row => row.1.digit.ne_underscore rfl

/-- Reading the digit values accepts exactly the rows. -/
theorem digitValues?_eq_some_iff : digitValues? cs = some values ↔ RowOf cs values := by
  -- The reader looks one character ahead for an underscore; a row is taken apart in the same way.
  fun_induction digitValues? cs generalizing values with
  | case1 =>
    constructor
    · intro read
      cases read
    · intro row
      exact absurd rfl row.1.given
  | case2 c =>
    simp only [Option.map_eq_some_iff, digitValue?_eq_some_iff]
    constructor
    · rintro ⟨value, digit, rfl⟩
      exact rowOf_singleton digit
    · intro row
      obtain ⟨value, others, digit, rfl, ⟨_, rfl⟩ | later | ⟨later, same, _⟩⟩ := row.uncons
      · exact ⟨value, digit, rfl⟩
      · exact absurd rfl later.1.given
      · cases same
  | case3 c rest ih =>
    simp only [Option.pure_def, Option.bind_eq_bind, Option.bind_eq_some_iff, Option.some.injEq, digitValue?_eq_some_iff, ih]
    constructor
    · rintro ⟨value, digit, others, row, rfl⟩
      exact row.cons_underscore digit
    · intro row
      obtain ⟨value, others, digit, rfl, ⟨same, _⟩ | later | ⟨later, same, row⟩⟩ := row.uncons
      · cases same
      · exact absurd later not_rowOf_underscore
      · cases same
        exact ⟨value, digit, others, row, rfl⟩
  | case4 c rest more other ih =>
    simp only [Option.pure_def, Option.bind_eq_bind, Option.bind_eq_some_iff, Option.some.injEq, digitValue?_eq_some_iff, ih]
    constructor
    · rintro ⟨value, digit, others, row, rfl⟩
      exact row.cons digit
    · intro row
      obtain ⟨value, others, digit, rfl, ⟨same, _⟩ | later | ⟨later, same, row⟩⟩ := row.uncons
      · exact absurd same more
      · exact ⟨value, digit, others, later, rfl⟩
      · exact absurd same (other later)

theorem ofDigitValues_eq (values : List Nat) : ofDigitValues values = Nat.ofDigits 10 values.reverse := by
  rw [Nat.ofDigits_eq_foldr, List.foldr_reverse, ofDigitValues]
  simp only [Nat.cast_id, Nat.add_comm]

theorem readMagnitude?_eq_some_iff : readMagnitude? cs = some n ↔ Magnitude cs n := by
  simp only [readMagnitude?, Option.pure_def, Option.bind_eq_bind, Option.bind_eq_some_iff, Option.guard_eq_some',
    Option.some.injEq, digitValues?_eq_some_iff, ofDigitValues_eq]
  constructor
  · rintro ⟨values, row, _, short, rfl⟩
    exact ⟨values, row, short, rfl⟩
  · rintro ⟨values, row, short, rfl⟩
    exact ⟨values, row, (), short, rfl⟩

end Magnitude

/-! ### Signs -/

/-- What may stand in front of the digits. -/
inductive Sign where
  | none
  | plus
  | minus
deriving DecidableEq, Repr

namespace Sign

def symbols : Sign → List Char
  | none => []
  | plus => ['+']
  | minus => ['-']

/-- The integer of a magnitude with the sign. -/
def apply : Sign → Nat → Int
  | none, n => n
  | plus, n => n
  | minus, n => -n

end Sign

/-- A magnitude begins with a digit, which is no sign. -/
theorem readSigned?_of_magnitude {cs : List Char} {n : Nat} (magnitude : Magnitude cs n) :
    readSigned? cs = some (n : Int) := by
  have read := readMagnitude?_eq_some_iff.mpr magnitude
  obtain ⟨⟨first, begins, digit⟩, _⟩ := ends_of_readMagnitude? read
  unfold readSigned?
  split
  · cases begins
    exact absurd digit (by decide)
  · cases begins
    exact absurd digit (by decide)
  · rw [read]
    rfl

theorem readSigned?_plus (cs : List Char) : readSigned? ('+' :: cs) = (readMagnitude? cs).map Int.ofNat := rfl

theorem readSigned?_eq_some_iff {cs : List Char} {n : Int} :
    readSigned? cs = some n ↔ ∃ sign row m, cs = Sign.symbols sign ++ row ∧ Magnitude row m ∧ n = sign.apply m := by
  constructor
  · intro read
    obtain ⟨row, magnitude, shape⟩ := magnitude_of_readSigned? read
    rw [readMagnitude?_eq_some_iff] at magnitude
    rcases shape with rfl | rfl | rfl
    · rw [readSigned?_of_magnitude magnitude] at read
      exact ⟨.none, cs, _, rfl, magnitude, (Option.some.inj read).symm⟩
    · rw [readSigned?_minus, readMagnitude?_eq_some_iff.mpr magnitude] at read
      exact ⟨.minus, row, _, rfl, magnitude, (Option.some.inj read).symm⟩
    · rw [readSigned?_plus, readMagnitude?_eq_some_iff.mpr magnitude] at read
      exact ⟨.plus, row, _, rfl, magnitude, (Option.some.inj read).symm⟩
  · rintro ⟨sign, row, m, rfl, magnitude, rfl⟩
    cases sign with
    | none => exact readSigned?_of_magnitude magnitude
    | plus =>
      rw [Sign.symbols, List.singleton_append, readSigned?_plus, readMagnitude?_eq_some_iff.mpr magnitude]
      rfl
    | minus =>
      rw [Sign.symbols, List.singleton_append, readSigned?_minus, readMagnitude?_eq_some_iff.mpr magnitude]
      rfl

/-! ### Numerals -/

/-- The text is a numeral of the integer: between characters that are trimmed, it has an optional sign and a row of
    digits within the limit. -/
def Denotes (isTrimmed : Char → Bool) (text : String) (n : Int) : Prop :=
  ∃ lead sign row m trail, text.toList = lead ++ (Sign.symbols sign ++ row) ++ trail ∧
    (∀ c ∈ lead, isTrimmed c = true) ∧ (∀ c ∈ trail, isTrimmed c = true) ∧ Magnitude row m ∧ n = sign.apply m

/-- Reading accepts exactly the numerals between blanks. -/
theorem read?_eq_some_iff {text : String} {n : Int} : read? text = some n ↔ Denotes isBlank text n := by
  constructor
  · intro read
    obtain ⟨sign, row, m, trimmed, magnitude, value⟩ := readSigned?_eq_some_iff.mp read
    obtain ⟨lead, trail, parted, leadBlank, trailBlank⟩ := exists_around_trim isBlank text.toList
    exact ⟨lead, sign, row, m, trail, trimmed ▸ parted, leadBlank, trailBlank, magnitude, value⟩
  · rintro ⟨lead, sign, row, m, trail, parted, leadBlank, trailBlank, magnitude, value⟩
    have read : readSigned? (Sign.symbols sign ++ row) = some n :=
      readSigned?_eq_some_iff.mpr ⟨sign, row, m, rfl, magnitude, value⟩
    obtain ⟨⟨first, begins, firstKept⟩, last, ends, lastKept⟩ := ends_of_readSigned? read
    rw [read?, parted, trim_around leadBlank trailBlank begins ends (isBlank_of_not_isOuterBlank firstKept)
      (isBlank_of_not_isOuterBlank lastKept), read]

/-- A numeral begins with a character that is trimmed, a sign or a digit. -/
theorem Denotes.head {isTrimmed : Char → Bool} {text : String} {n : Int} (numeral : Denotes isTrimmed text n) :
    ∃ c, text.toList.head? = some c ∧ (isTrimmed c = true ∨ c = '+' ∨ c = '-' ∨ Digit c) := by
  obtain ⟨lead, sign, row, m, trail, parted, leadTrimmed, _, ⟨_, ⟨isRow, _⟩, _⟩, _⟩ := numeral
  rw [parted]
  cases lead with
  | cons c lead => exact ⟨c, rfl, .inl (leadTrimmed c List.mem_cons_self)⟩
  | nil =>
    cases sign with
    | none =>
      obtain ⟨c, rest, rfl⟩ := List.exists_cons_of_ne_nil isRow.given
      exact ⟨c, rfl, .inr (.inr (.inr isRow.digit))⟩
    | plus => exact ⟨'+', rfl, .inr (.inl rfl)⟩
    | minus => exact ⟨'-', rfl, .inr (.inr (.inl rfl))⟩

end Numeral

/-! ### Words -/

namespace Literal

/-- The word of a Boolean. -/
def keyword : Bool → String
  | true => "true"
  | false => "false"

/-- The word has at least two characters, and the first and the last one are double quotes. -/
def IsQuoted (word : String) : Prop :=
  2 ≤ word.length ∧ word.toList.head? = some '"' ∧ word.toList.getLast? = some '"'

/-- The word without its first and its last character. -/
def interior (word : String) : String := String.ofList word.toList.tail.dropLast

/-- The four ways to look at a word. -/
inductive Form where
  | quoted
  | keyword
  | numeral
  | bare
deriving DecidableEq, Repr

/-- Whether a word has a form; the bare words are those that have no other one. -/
def Form.Fits (word : String) : Form → Prop
  | .quoted => IsQuoted word
  | .keyword => ∃ b, word = Literal.keyword b
  | .numeral => ∃ n, Numeral.Denotes isBlank word n
  | .bare => ¬ IsQuoted word ∧ (∀ b, word ≠ Literal.keyword b) ∧ ∀ n, ¬ Numeral.Denotes isBlank word n

section Word

variable {word : String}

theorem unquoted?_of_isQuoted (quoted : IsQuoted word) : unquoted? word = some (interior word) := by
  obtain ⟨long, begins, ends⟩ := quoted
  obtain ⟨rest, whole⟩ := List.head?_eq_some_iff.mp begins
  rw [← String.length_toList, whole] at long
  rw [whole] at ends
  obtain ⟨c, rest, rfl⟩ := List.exists_cons_of_length_pos (Nat.lt_of_succ_lt_succ long)
  rw [List.getLast?_cons_cons] at ends
  simp only [unquoted?, whole, ends, if_true, interior, List.tail_cons]

theorem isQuoted_of_unquoted? {inner : String} (unquoted : unquoted? word = some inner) : IsQuoted word := by
  unfold unquoted? at unquoted
  split at unquoted
  · next rest whole =>
    split at unquoted
    · next ends =>
      obtain ⟨c, rest, rfl⟩ : ∃ c tail, rest = c :: tail := List.exists_cons_of_ne_nil (by rintro rfl; cases ends)
      refine ⟨?_, by rw [whole]; rfl, by rw [whole, List.getLast?_cons_cons, ends]⟩
      rw [← String.length_toList, whole]
      simp
    · cases unquoted
  · cases unquoted

theorem unquoted?_of_not_isQuoted (unquoted : ¬ IsQuoted word) : unquoted? word = none :=
  Option.eq_none_iff_forall_ne_some.mpr fun _ found => unquoted (isQuoted_of_unquoted? found)

/-- A word with a first character is longer than its interior. -/
theorem interior_ne (given : word ≠ "") : interior word ≠ word := by
  intro same
  have length := congrArg String.length same
  rw [interior, String.length_ofList, List.length_dropLast, List.length_tail, String.length_toList] at length
  have none_left : word.length = 0 := by omega
  exact given (String.length_eq_zero_iff.mp none_left)

/-! Only one form fits. -/

theorem not_isQuoted_keyword (b : Bool) : ¬ IsQuoted (keyword b) := by
  rintro ⟨_, begins, _⟩
  cases b <;> simp [keyword] at begins

theorem not_denotes_keyword (b : Bool) (n : Int) : ¬ Numeral.Denotes isBlank (keyword b) n := by
  rw [← Numeral.read?_eq_some_iff]
  have none_read : ∀ b, Numeral.read? (keyword b) = none := by decide
  rw [none_read b]
  exact fun read => by cases read

theorem not_isQuoted_of_denotes {n : Int} (numeral : Numeral.Denotes isBlank word n) : ¬ IsQuoted word := by
  rintro ⟨_, begins, _⟩
  obtain ⟨c, first, kind⟩ := numeral.head
  obtain rfl : '"' = c := Option.some.inj (begins.symm.trans first)
  rw [digit_iff_isDigit] at kind
  exact absurd kind (by decide)

theorem fits_unique : ∀ {form other : Form}, form.Fits word → other.Fits word → form = other
  | .quoted, .quoted, _, _ | .keyword, .keyword, _, _ | .numeral, .numeral, _, _ | .bare, .bare, _, _ => rfl
  | .quoted, .keyword, quoted, ⟨b, same⟩ | .keyword, .quoted, ⟨b, same⟩, quoted =>
    absurd (same ▸ quoted) (not_isQuoted_keyword b)
  | .quoted, .numeral, quoted, ⟨_, numeral⟩ | .numeral, .quoted, ⟨_, numeral⟩, quoted =>
    absurd quoted (not_isQuoted_of_denotes numeral)
  | .keyword, .numeral, ⟨b, same⟩, ⟨n, numeral⟩ | .numeral, .keyword, ⟨n, numeral⟩, ⟨b, same⟩ =>
    absurd (same ▸ numeral) (not_denotes_keyword b n)
  | .quoted, .bare, quoted, bare | .bare, .quoted, bare, quoted => absurd quoted bare.1
  | .keyword, .bare, ⟨b, same⟩, bare | .bare, .keyword, bare, ⟨b, same⟩ => absurd same (bare.2.1 b)
  | .numeral, .bare, ⟨n, numeral⟩, bare | .bare, .numeral, bare, ⟨n, numeral⟩ => absurd numeral (bare.2.2 n)

/-! What each form stands for. -/

theorem read_of_isQuoted (quoted : IsQuoted word) : read word = .text (interior word) := by
  rw [read, unquoted?_of_isQuoted quoted]

theorem read_keyword (b : Bool) : read (keyword b) = .boolean b := by cases b <;> rfl

theorem read_of_other (unquoted : ¬ IsQuoted word) (other : ∀ b, word ≠ keyword b) :
    read word = (Numeral.read? word).elim (.text word) .integer := by
  have notTrue : word ≠ "true" := other true
  have notFalse : word ≠ "false" := other false
  rw [read, unquoted?_of_not_isQuoted unquoted]
  simp only [if_neg notTrue, if_neg notFalse]
  cases Numeral.read? word <;> rfl

theorem read_of_denotes {n : Int} (numeral : Numeral.Denotes isBlank word n) : read word = .integer n := by
  have other : ∀ b, word ≠ keyword b := by
    rintro b rfl
    exact not_denotes_keyword b n numeral
  rw [read_of_other (not_isQuoted_of_denotes numeral) other, Numeral.read?_eq_some_iff.mpr numeral, Option.elim_some]

theorem read_of_bare (bare : Form.bare.Fits word) : read word = .text word := by
  obtain ⟨unquoted, other, noNumeral⟩ := bare
  have noneRead : Numeral.read? word = none :=
    Option.eq_none_iff_forall_ne_some.mpr fun n read => noNumeral n (Numeral.read?_eq_some_iff.mp read)
  rw [read_of_other unquoted other, noneRead, Option.elim_none]

/-- A word has a form, which tells its value. -/
theorem read_cases (word : String) :
    (IsQuoted word ∧ read word = .text (interior word)) ∨ (∃ b, word = keyword b ∧ read word = .boolean b) ∨
      (∃ n, Numeral.Denotes isBlank word n ∧ read word = .integer n) ∨
      (Form.bare.Fits word ∧ read word = .text word) := by
  by_cases quoted : IsQuoted word
  · exact .inl ⟨quoted, read_of_isQuoted quoted⟩
  · by_cases isKeyword : ∃ b, word = keyword b
    · obtain ⟨b, rfl⟩ := isKeyword
      exact .inr (.inl ⟨b, rfl, read_keyword b⟩)
    · by_cases isNumeral : ∃ n, Numeral.Denotes isBlank word n
      · obtain ⟨n, numeral⟩ := isNumeral
        exact .inr (.inr (.inl ⟨n, numeral, read_of_denotes numeral⟩))
      · have bare : Form.bare.Fits word := ⟨quoted, not_exists.mp isKeyword, not_exists.mp isNumeral⟩
        exact .inr (.inr (.inr ⟨bare, read_of_bare bare⟩))

theorem exists_form (word : String) : ∃ form : Form, form.Fits word := by
  rcases read_cases word with ⟨quoted, _⟩ | ⟨b, same, _⟩ | ⟨n, numeral, _⟩ | ⟨bare, _⟩
  · exact ⟨.quoted, quoted⟩
  · exact ⟨.keyword, b, same⟩
  · exact ⟨.numeral, n, numeral⟩
  · exact ⟨.bare, bare⟩

/-- A text comes from a quoted word or is the word itself. -/
theorem eq_of_read_text {s : String} (given : read word = .text s) :
    IsQuoted word ∧ s = interior word ∨ Form.bare.Fits word ∧ s = word := by
  rcases read_cases word with ⟨quoted, value⟩ | ⟨b, _, value⟩ | ⟨n, _, value⟩ | ⟨bare, value⟩
  all_goals rw [value] at given; cases given
  · exact .inl ⟨quoted, rfl⟩
  · exact .inr ⟨bare, rfl⟩

theorem eq_keyword_of_read {b : Bool} (given : read word = .boolean b) : word = keyword b := by
  rcases read_cases word with ⟨_, value⟩ | ⟨c, same, value⟩ | ⟨n, _, value⟩ | ⟨_, value⟩
  all_goals rw [value] at given; cases given
  exact same

theorem denotes_of_read {n : Int} (given : read word = .integer n) : Numeral.Denotes isBlank word n := by
  rcases read_cases word with ⟨_, value⟩ | ⟨b, _, value⟩ | ⟨m, numeral, value⟩ | ⟨_, value⟩
  all_goals rw [value] at given; cases given
  exact numeral

end Word

/-- A word has exactly one form, and its form tells what it stands for. A quoted word stands for what is between the
    quotes, a keyword for a Boolean, a numeral between blanks for its integer, and every other word for itself. (The
    empty word is its own interior, but it is not quoted.) -/
theorem read_classifies (word : String) :
    (∃! form : Form, form.Fits word) ∧
    (IsQuoted word ↔ word ≠ "" ∧ read word = .text (interior word)) ∧
    (∀ b, read word = .boolean b ↔ word = keyword b) ∧
    (∀ n, read word = .integer n ↔ Numeral.Denotes isBlank word n) ∧
    (read word = .text word ↔ Form.bare.Fits word) := by
  have notEmpty (quoted : IsQuoted word) : word ≠ "" := by
    rintro rfl
    exact absurd quoted.1 (by decide)
  refine ⟨?_, ⟨fun quoted => ⟨notEmpty quoted, read_of_isQuoted quoted⟩, ?_⟩, fun b => ⟨eq_keyword_of_read, ?_⟩,
    fun n => ⟨denotes_of_read, read_of_denotes⟩, ?_, read_of_bare⟩
  · obtain ⟨form, fits⟩ := exists_form word
    exact ⟨form, fits, fun other fitsToo => fits_unique fitsToo fits⟩
  · rintro ⟨given, value⟩
    rcases eq_of_read_text value with ⟨quoted, _⟩ | ⟨_, same⟩
    · exact quoted
    · exact absurd same (interior_ne given)
  · rintro rfl
    exact read_keyword b
  · intro value
    rcases eq_of_read_text value with ⟨quoted, same⟩ | ⟨bare, _⟩
    · exact absurd same.symm (interior_ne (notEmpty quoted))
    · exact bare

/-- Blanks of two kinds around a sign, two underscores and digits of three scripts. -/
theorem read_classifies_mixed_digits :
    Numeral.Denotes isBlank "\u2003+0_\u0663\u096d_1\n" 371 ∧ read "\u2003+0_\u0663\u096d_1\n" = .integer 371 := by
  have digit {c : Char} {value : Nat} (read : digitValue? c = some value) : DigitOf c value :=
    digitValue?_eq_some_iff.mp read
  have row : Numeral.RowOf ['0', '_', '\u0663', '\u096d', '_', '1'] [0, 3, 7, 1] :=
    (((Numeral.rowOf_singleton (digit (by decide))).cons_underscore (digit (by decide))).cons
      (digit (by decide))).cons_underscore (digit (by decide))
  have numeral : Numeral.Denotes isBlank "\u2003+0_\u0663\u096d_1\n" 371 :=
    ⟨['\u2003'], .plus, _, 371, ['\n'], by decide, List.forall_mem_singleton.mpr (by decide),
      List.forall_mem_singleton.mpr (by decide), ⟨_, row, by decide, by decide⟩, rfl⟩
  exact ⟨numeral, ((read_classifies _).2.2.2.1 371).mpr numeral⟩

/-- The information separators, which an outer trim counts as blanks, are no blanks around a numeral. -/
theorem separator_keeps_word :
    Numeral.Denotes isOuterBlank "\x1c5" 5 ∧ read "\x1c5" = .text "\x1c5" ∧
    ¬ ∀ (word : String) (n : Int), read word = .integer n ↔ Numeral.Denotes isOuterBlank word n := by
  have five : Numeral.Magnitude ['5'] 5 := Numeral.readMagnitude?_eq_some_iff.mp (by decide)
  have numeral : Numeral.Denotes isOuterBlank "\x1c5" 5 :=
    ⟨['\x1c'], .none, ['5'], 5, [], by decide, List.forall_mem_singleton.mpr (by decide), List.forall_mem_nil _, five, rfl⟩
  have word : read "\x1c5" = .text "\x1c5" := by decide
  refine ⟨numeral, word, fun every => ?_⟩
  have number := (every "\x1c5" 5).mpr numeral
  rw [word] at number
  cases number

end Literal

end Primitives
