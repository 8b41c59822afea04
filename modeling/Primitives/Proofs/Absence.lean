import Primitives.Text
import Primitives.Proofs.Numeral

/-!
Texts that do not hold a character. Texts are joined from parts, so that what all of the parts lack, the whole lacks too
(`lacks_append`, `lacks_join`, `lacks_intercalate`). Numerals hold nothing but digits and a minus sign, and the text
form of a value lacks what the value itself lacks (`lacks_ofValue`).
-/
namespace Primitives.Text

/-- The character does not stand in the text. -/
def Lacks (c : Char) (s : String) : Prop := c ∉ s.toList

instance (c : Char) (s : String) : Decidable (Lacks c s) := inferInstanceAs (Decidable (c ∉ s.toList))

variable {c : Char}

@[simp] theorem lacks_append {s t : String} : Lacks c (s ++ t) ↔ Lacks c s ∧ Lacks c t := by
  simp [Lacks]

@[simp] theorem lacks_ofList {cs : List Char} : Lacks c (String.ofList cs) ↔ c ∉ cs := by
  simp [Lacks]

@[simp] theorem lacks_join {parts : List String} : Lacks c (String.join parts) ↔ ∀ s ∈ parts, Lacks c s := by
  simp [Lacks, List.mem_flatMap]

theorem lacks_intercalate {separator : String} {parts : List String} (between : Lacks c separator)
    (inside : ∀ s ∈ parts, Lacks c s) : Lacks c (separator.intercalate parts) := by
  rw [Lacks, String.toList_intercalate]
  induction parts with
  | nil => simp
  | cons first rest ih =>
    have later := ih fun s member => inside s (List.mem_cons_of_mem first member)
    have now : c ∉ first.toList := inside first List.mem_cons_self
    cases rest with
    | nil => simpa [List.intercalate] using now
    | cons second rest =>
      simp only [List.intercalate, List.map_cons, List.intersperse_cons_cons, List.flatten_cons, List.mem_append,
        not_or] at later ⊢
      exact ⟨now, between, later⟩

/-- A text is split at the first place where the character stands. -/
theorem splitOn_append_cons {cs : List Char} (clean : c ∉ cs) (rest : List Char) :
    (cs ++ c :: rest).splitOn c = cs :: rest.splitOn c := by
  simp only [List.splitOn_eq_splitOnP]
  apply List.splitOnP_append_cons_of_forall_mem
  · intro other member
    rw [beq_eq_false_iff_ne]
    rintro rfl
    exact clean member
  · exact beq_self_eq_true c

/-- The parts before and after the first place of a character are told by the whole. -/
theorem append_cons_unique {cs ds rest others : List Char} (clean : c ∉ cs) (cleanToo : c ∉ ds)
    (same : cs ++ c :: rest = ds ++ c :: others) : cs = ds ∧ rest = others := by
  have split := congrArg (List.splitOn c) same
  rw [splitOn_append_cons clean, splitOn_append_cons cleanToo] at split
  have front : cs = ds := List.head_eq_of_cons_eq split
  subst front
  exact ⟨rfl, List.tail_eq_of_cons_eq (List.append_cancel_left same)⟩

theorem lacks_digits (notDigit : c.isDigit = false) (n : Nat) : Lacks c (Numeral.digits n) := by
  rw [Numeral.digits, lacks_ofList]
  intro member
  rw [Numeral.isDigit_of_mem_digits member] at notDigit
  cases notDigit

theorem lacks_write (notDigit : c.isDigit = false) (notMinus : c ≠ '-') (n : Int) : Lacks c (Numeral.write n) := by
  have minus : Lacks c "-" := by simpa [Lacks] using notMinus
  unfold Numeral.write
  split
  · exact lacks_append.mpr ⟨minus, lacks_digits notDigit _⟩
  · exact lacks_digits notDigit _

/-- If the value is a text, the character does not stand in it. -/
def LackedBy (c : Char) (v : Value) : Prop := ∀ s, v = .text s → Lacks c s

/-- The character stands in no numeral and in no name of a Boolean. -/
def Unusual (c : Char) : Prop := c.isDigit = false ∧ c ≠ '-' ∧ Lacks c "true" ∧ Lacks c "false"

instance (c : Char) : Decidable (Unusual c) := inferInstanceAs (Decidable (_ ∧ _ ∧ _ ∧ _))

theorem lacks_ofValue {v : Value} {s : String} (unusual : Unusual c) (lacked : LackedBy c v)
    (shown : ofValue v = .ok s) : Lacks c s := by
  obtain ⟨notDigit, notMinus, notTrue, notFalse⟩ := unusual
  cases v with
  | boolean b =>
    cases shown
    cases b
    · exact notFalse
    · exact notTrue
  | integer n =>
    rw [ofValue] at shown
    split at shown
    · cases shown
      exact lacks_write notDigit notMinus n
    · cases shown
  | text t =>
    cases shown
    exact lacked _ rfl
  | nothing => cases shown
  | foreign object => cases shown

end Primitives.Text
