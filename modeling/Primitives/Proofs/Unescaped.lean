import Primitives.Proofs.Absence
import Primitives.Proofs.Soundness

/-!
Plain texts, which hold no escape character. Quoted texts are plain whatever they quote (`Quoted.plain_write`), and the
text of a fault is plain if the names in it are (`Fault.plain_text`). What a computation ends with is judged by `Ends`,
which is carried through sequences. Operations without side effects make plain values of plain ones, and their faults are
plain (`plainly_apply`).
-/
namespace Primitives

/-! ### Texts -/

namespace Text

/-- The text holds no escape character. -/
abbrev Plain (s : String) : Prop := Lacks '\x1b' s

/-- A literal is the text of its letters, which can be looked through. -/
theorem plain_literal {letters : List Char} (absent : '\x1b' ∉ letters := by decide) : Plain (String.ofList letters) :=
  lacks_ofList.mpr absent

theorem plain_digits (n : Nat) : Plain (Numeral.digits n) := lacks_digits (by decide) n

theorem plain_write (n : Int) : Plain (Numeral.write n) := lacks_write (by decide) (by decide) n

theorem toLower_ne {c : Char} (other : c ≠ '\x1b') : c.toLower ≠ '\x1b' := by
  unfold Char.toLower
  split
  · next upper =>
    intro same
    have code := congrArg (fun d : Char => d.val.toNat) same
    have bounds : 65 ≤ c.toNat ∧ c.toNat ≤ 90 :=
      ⟨UInt32.le_iff_toNat_le.mp upper.1, UInt32.le_iff_toNat_le.mp upper.2⟩
    simp [UInt32.toNat_add] at code
    omega
  · exact other

theorem toUpper_ne {c : Char} (other : c ≠ '\x1b') : c.toUpper ≠ '\x1b' := by
  unfold Char.toUpper
  split
  · next lower =>
    intro same
    have code := congrArg (fun d : Char => d.val.toNat) same
    have bounds : 97 ≤ c.toNat ∧ c.toNat ≤ 122 :=
      ⟨UInt32.le_iff_toNat_le.mp lower.1, UInt32.le_iff_toNat_le.mp lower.2⟩
    simp [UInt32.toNat_add] at code
    omega
  · exact other

theorem plain_map {f : Char → Char} (keeps : ∀ c, c ≠ '\x1b' → f c ≠ '\x1b') {s : String} (plain : Plain s) :
    Plain (s.map f) := by
  rw [Plain, Lacks, String.toList_map, List.mem_map]
  rintro ⟨c, member, same⟩
  refine keeps c ?_ same
  rintro rfl
  exact plain member

end Text

namespace Quoted

theorem digitChar_ne : ∀ n < 16, Nat.digitChar n ≠ '\x1b' := by decide

theorem notMem_toDigits (n : Nat) : '\x1b' ∉ Nat.toDigits 16 n := by
  induction n using Nat.strongRecOn with
  | ind n ih =>
    rw [Nat.toDigits_eq_if (by decide)]
    split
    · next small => simp [(digitChar_ne n small).symm]
    · simp [ih (n / 16) (by omega), (digitChar_ne (n % 16) (by omega)).symm]

theorem notMem_hex (width n : Nat) : '\x1b' ∉ hex width n := by
  simp [hex, notMem_toDigits]

theorem notMem_character {quote : Char} (c : Char) (usual : quote ≠ '\x1b') : '\x1b' ∉ character quote c := by
  unfold character
  split
  · next special =>
    have other : c ≠ '\x1b' := by
      rintro rfl
      simp [Ne.symm usual] at special
    simpa using other.symm
  · repeat' split
    · decide
    · decide
    · decide
    · next printable =>
      have other : c ≠ '\x1b' := by
        rintro rfl
        exact absurd printable (by decide +kernel)
      simpa using other.symm
    · unfold escaped
      dsimp only
      split_ifs <;> simp [notMem_hex]

/-- Whatever is quoted, the escape character is escaped. -/
theorem plain_write (text : String) : Text.Plain (write text) := by
  have usual : quoteFor text.toList ≠ '\x1b' := by
    unfold quoteFor
    split <;> decide
  rw [write, Text.Plain, Text.lacks_ofList]
  simp only [List.cons_append, List.mem_cons, List.mem_append, List.mem_flatMap, List.not_mem_nil, or_false, not_or,
    not_exists, not_and]
  exact ⟨usual.symm, fun c _ => notMem_character c usual, usual.symm⟩

end Quoted

/-! ### Values and faults -/

/-- A value that has a kind or is nothing, and holds no escape character if it is a text. -/
def Value.Plain : Value → Prop
  | .text s => Text.Plain s
  | .foreign _ => False
  | _ => True

/-- The texts that the message of a fault shows as they are. -/
def Fault.parts : Fault → List String
  | .outsideRange function _ => [function]
  | .noOperands function => [function]
  | .emptyRange low high => [low, high]
  | .noTextForm typeName => [typeName]
  | .notFunction name => [name]
  | .tooFewArguments name _ _ => [name]
  | .tooManyArguments name _ _ => [name]
  | .wrongKind argument name _ got => [argument, name, got]
  | .argumentOutsideRange argument name _ => [argument, name]
  | .notMethod name owner => [name, owner]
  | .notProperty name owner => [name, owner]
  | _ => []

/-- What the fault shows as it is, is plain. -/
def Fault.Plain (fault : Fault) : Prop := ∀ part ∈ fault.parts, Text.Plain part

theorem Kind.plain_name (kind : Kind) : Text.Plain kind.name := by
  cases kind <;> exact Text.plain_literal

theorem Report.plain_text {report : Report} (message : Text.Plain report.message)
    (function : ∀ name, report.function = some name → Text.Plain name) : Text.Plain report.text := by
  unfold Report.text
  split
  · exact message
  · next name given =>
    split
    · exact message
    · simp only [Text.lacks_append]
      exact ⟨⟨⟨Text.plain_literal, function name given⟩, Text.plain_literal⟩, message⟩

theorem Fault.plain_rangeText : Text.Plain rangeText := by
  simp only [rangeText, Text.lacks_append]
  exact ⟨⟨⟨⟨Text.plain_literal, Text.plain_write _⟩, Text.plain_literal⟩, Text.plain_write _⟩, Text.plain_literal⟩

/-- The text of a fault is plain if what it shows as it is, is plain. -/
theorem Fault.plain_text {fault : Fault} (plain : fault.Plain) : Text.Plain fault.text := by
  have kinds (kinds : List Kind) : Text.Plain (" or ".intercalate (kinds.map Kind.name)) :=
    Text.lacks_intercalate Text.plain_literal (by simp [Kind.plain_name])
  apply Report.plain_text
  all_goals
    cases fault
    all_goals
      simp only [Plain, parts, List.forall_mem_cons, List.not_mem_nil, false_implies, implies_true, and_true] at plain
      simp [report, Text.plain_write, Text.plain_digits, Quoted.plain_write, plain_rangeText, kinds, plain] <;>
        and_intros <;> exact Text.plain_literal

/-! ### Results -/

theorem Fault.plain_of_parts {fault : Fault} (silent : fault.parts = []) : fault.Plain := by
  rw [Plain, silent]
  simp

section Results

variable {ε α β : Type} {good : α → Prop} {better : β → Prop} {fair : ε → Prop}

/-- A good value, or a fair error. -/
inductive Ends (good : α → Prop) (fair : ε → Prop) : Except ε α → Prop where
  | ok {a : α} (isGood : good a) : Ends good fair (.ok a)
  | error {e : ε} (isFair : fair e) : Ends good fair (.error e)

theorem Ends.bind {first : Except ε α} {next : α → Except ε β} (ends : Ends good fair first)
    (later : ∀ a, good a → Ends better fair (next a)) : Ends better fair (first >>= next) := by
  cases ends with
  | error isFair => exact .error isFair
  | ok isGood => exact later _ isGood

theorem Ends.map {result : Except ε α} {f : α → β} (ends : Ends good fair result)
    (kept : ∀ a, good a → better (f a)) : Ends better fair (result.map f) := by
  cases ends with
  | error isFair => exact .error isFair
  | ok isGood => exact .ok (kept _ isGood)

theorem ends_mapM {f : α → Except ε β} {as : List α} (each : ∀ a ∈ as, Ends better fair (f a)) :
    Ends (fun bs => ∀ b ∈ bs, better b) fair (as.mapM f) := by
  induction as with
  | nil => exact .ok (by simp)
  | cons a rest ih =>
    obtain ⟨first, later⟩ := List.forall_mem_cons.mp each
    rw [List.mapM_cons]
    refine first.bind fun b isGood => (ih later).bind fun bs areGood => ?_
    exact .ok (List.forall_mem_cons.mpr ⟨isGood, areGood⟩)

/-- A good value, or a plain fault. -/
abbrev Plainly (good : α → Prop) (result : Except Fault α) : Prop := Ends good Fault.Plain result

/-- A fault that shows no texts. -/
theorem Ends.silent {fault : Fault} (silent : fault.parts = []) : Plainly good (.error fault) :=
  .error (Fault.plain_of_parts silent)

end Results

theorem Fault.plain_showing {n : Int} {fault : Fault} (plain : fault.Plain) : (showing n fault).Plain := by
  unfold showing
  split
  · exact plain
  · exact plain_of_parts rfl

theorem Value.plain_described {v : Value} (plain : v.Plain) : Text.Plain v.described := by
  cases v with
  | boolean b | integer n | text s => exact Kind.plain_name _
  | nothing => exact Text.plain_literal
  | foreign object => cases plain

theorem Text.plainly_ofValue {v : Value} (plain : v.Plain) : Plainly Plain (ofValue v) := by
  cases v with
  | boolean b => cases b <;> exact .ok Text.plain_literal
  | integer n =>
    rw [ofValue]
    split
    · exact .ok (plain_write n)
    · exact .silent rfl
  | text s => exact .ok plain
  | nothing => exact .error (by simpa [Fault.Plain, Fault.parts] using Value.plain_described plain)
  | foreign object => cases plain

theorem Value.plainly_shown {v : Value} (plain : v.Plain) : Plainly Text.Plain v.shown := by
  cases v with
  | boolean b => cases b <;> exact .ok Text.plain_literal
  | integer n =>
    rw [shown]
    split
    · exact .ok (Text.plain_write n)
    · exact .silent rfl
  | text s => exact .ok plain
  | nothing => exact .ok Text.plain_literal
  | foreign object => cases plain

/-- A word stands for a part of itself at most. -/
theorem Literal.plain_read {word : String} (plain : Text.Plain word) : (Literal.read word).Plain := by
  unfold Literal.read
  split
  · next inner quoted =>
    unfold unquoted? at quoted
    split at quoted
    · next rest letters =>
      obtain ⟨_, same⟩ := Option.ite_none_right_eq_some.mp quoted
      cases same
      rw [Value.Plain, Text.Plain, Text.lacks_ofList]
      intro member
      refine plain ?_
      rw [letters]
      exact List.mem_cons_of_mem _ ((List.dropLast_subset _) member)
    · cases quoted
  · split_ifs
    · trivial
    · trivial
    · split
      · trivial
      · exact plain

/-! ### Operations -/

namespace Arithmetic

theorem plainly_checked {function : String} (plain : Text.Plain function) (n : Int) :
    Plainly (fun _ => True) (checked function n) := by
  unfold checked
  split
  · exact .ok trivial
  · exact .error (Fault.plain_showing (by simpa [Fault.Plain, Fault.parts] using plain))

theorem plainly_operand {function : String} (plain : Text.Plain function) (v : Value) :
    Plainly (fun _ => True) (operand function v) := by
  unfold operand
  split
  · exact .silent rfl
  · exact plainly_checked plain _

theorem plainly_squareRoot (v : Value) : Plainly (fun _ => True) (squareRoot v) := by
  refine (plainly_operand Text.plain_literal v).bind fun x _ => ?_
  split
  · exact .silent rfl
  · exact .ok trivial

theorem Squaring.plainly_step (base exponent : Int) (s : Squaring) :
    Plainly (fun _ => True) (s.step base exponent) := by
  have multiplied : Plainly (fun _ => True) s.multiplied := by
    unfold Squaring.multiplied
    split
    · exact plainly_checked Text.plain_literal _
    · exact .ok trivial
  refine multiplied.bind fun result _ => ?_
  dsimp only
  split_ifs
  · exact .ok trivial
  · exact .silent rfl
  · exact .ok trivial

theorem Squaring.plainly_run (base exponent : Int) (s : Squaring) : Plainly (fun _ => True) (s.run base exponent) := by
  fun_induction Squaring.run base exponent s with
  | case1 s done => exact .ok trivial
  | case2 s left fault stepped =>
    have plainly := plainly_step base exponent s
    rw [stepped] at plainly
    cases plainly with
    | error plain => exact .error plain
  | case3 s left t stepped _ ih => exact ih

theorem plainly_power (base exponent : Value) : Plainly (fun _ => True) (power base exponent) := by
  refine (plainly_operand Text.plain_literal base).bind fun m _ => ?_
  refine (plainly_operand Text.plain_literal exponent).bind fun n _ => ?_
  unfold powerInRange reciprocalPower
  split
  · split_ifs
    · exact .silent rfl
    all_goals exact .ok trivial
  · exact Squaring.plainly_run _ _ _

theorem plainly_absoluteValue {v : Value} (plain : v.Plain) : Plainly Value.Plain (absoluteValue v) := by
  refine (plainly_operand Text.plain_literal v).bind fun x _ => ?_
  split_ifs
  · exact .silent rfl
  · exact .ok trivial
  · exact .ok plain

theorem plainly_extremum (precedes : Int → Int → Bool) {function : String} (plainName : Text.Plain function)
    {vs : List Value} (plain : ∀ v ∈ vs, v.Plain) : Plainly Value.Plain (extremum precedes function vs) := by
  have numbered : ∀ v ∈ vs, Plainly (fun entry : Value × Int => entry.1.Plain)
      (do return (v, ← operand function v)) := fun v member =>
    (plainly_operand plainName v).bind fun n _ => .ok (plain v member)
  refine (ends_mapM numbered).bind fun entries plainEntries => ?_
  match entries, plainEntries with
  | [], _ => exact .error (by simpa [Fault.Plain, Fault.parts] using plainName)
  | first :: rest, plainEntries =>
    exact .ok (plainEntries _ (foldl_choice_mem (fun new best : Value × Int => precedes new.2 best.2) first rest))

end Arithmetic

namespace Operation

theorem plainly_textFault (v : Value) : Plainly Value.Plain (.error (textFault v)) := by
  unfold textFault
  split <;> exact .silent rfl

theorem plainly_mapText {f : String → String} (keeps : ∀ s, Text.Plain s → Text.Plain (f s)) {v : Value}
    (plain : v.Plain) : Plainly Value.Plain (mapText f v) := by
  cases v with
  | text s => exact .ok (keeps s plain)
  | boolean b | integer n | nothing | foreign object => exact plainly_textFault _

theorem plainly_testText (test : String → String → Bool) (v w : Value) :
    Plainly Value.Plain (testText test v w) := by
  unfold testText
  split
  · exact .ok trivial
  · exact .silent rfl
  · split
    · exact .ok trivial
    · exact plainly_textFault _

/-- Operations make plain values of plain ones, and their faults are plain. -/
theorem plainly_apply (operation : Operation) {args : List Value} (plain : ∀ v ∈ args, v.Plain) :
    Plainly Value.Plain (operation.apply args) := by
  unfold apply
  split
  · exact plainly_mapText (fun s => Text.plain_map fun c => Text.toLower_ne) (plain _ (by simp))
  · exact plainly_mapText (fun s => Text.plain_map fun c => Text.toUpper_ne) (plain _ (by simp))
  · next v =>
    cases v with
    | text s => exact .ok trivial
    | boolean b | integer n | nothing | foreign object => exact .silent rfl
  · exact plainly_testText _ _ _
  · exact plainly_testText _ _ _
  · next v w =>
    have isPlain : v.Plain := plain v (by simp)
    cases v with
    | text s =>
      cases w with
      | text t => exact .ok trivial
      | boolean b | integer n | nothing | foreign object => exact .silent rfl
    | foreign object => cases isPlain
    | boolean b | integer n | nothing => exact .silent rfl
  · exact (Text.plainly_ofValue (plain _ (by simp))).map fun s isPlain => isPlain
  · exact (Arithmetic.plainly_squareRoot _).map fun _ _ => trivial
  · exact (Arithmetic.plainly_power _ _).map fun _ _ => trivial
  · exact Arithmetic.plainly_absoluteValue (plain _ (by simp))
  · exact Arithmetic.plainly_extremum _ Text.plain_literal plain
  · exact Arithmetic.plainly_extremum _ Text.plain_literal plain
  · next v =>
    have isPlain : v.Plain := plain v (by simp)
    cases v with
    | boolean b | integer n | text s => exact .ok (Kind.plain_name _)
    | nothing => exact .ok trivial
    | foreign object => cases isPlain
  · next v =>
    have isPlain : v.Plain := plain v (by simp)
    cases v with
    | text word => exact .ok (Literal.plain_read isPlain)
    | foreign object => cases isPlain
    | boolean b | integer n | nothing => exact .silent rfl
  · exact .silent rfl

end Operation

end Primitives
