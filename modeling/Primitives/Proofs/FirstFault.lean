import Primitives.Proofs.Grammar

/-!
Why a call is rejected. `Signature.Rejection` lists the faults with the conditions that they are reported for. The number
of the arguments comes first; after it the first argument that its parameter refuses decides
(`Signature.checkFrom_of_firstRefused`), and what follows that argument does not matter (`Signature.validate_of_take`).
-/
namespace Primitives.Signature

open Arithmetic

/-- How messages name an argument: by the name of its parameter, or else by its position, counted from 1. -/
def IsLabel (p : Param) (index : Nat) (label : String) : Prop :=
  (∃ name, p.name = some name ∧ name ≠ "" ∧ label = name) ∨
    ((p.name = none ∨ p.name = some "") ∧ label = Numeral.digits (index + 1))

/-- The argument at a position is the first one that the parameter it belongs to refuses. -/
structure FirstRefused (params : List Param) (args : List Value) (index : Nat) (p : Param) (v : Value) : Prop where
  given : args[index]? = some v
  belongs : params[min index (params.length - 1)]? = some p
  refused : ¬ p.Accepts v
  before : ∀ i < index, ∀ w q, args[i]? = some w → params[min i (params.length - 1)]? = some q → q.Accepts w

/-- The number of the arguments lies within the bounds. -/
def Arity (params : List Param) (args : List Value) : Prop :=
  required params ≤ args.length ∧ (args.length ≤ params.length ∨ ∃ p, params.getLast? = some p ∧ p.variadic = true)

/-- The faults of a call, each under the condition that it is reported for, and with the error that it is shown as. -/
inductive Rejection (name : String) (params : List Param) (args : List Value) : Fault → Report → Prop
  /-- Fewer arguments than required parameters. -/
  | few : args.length < required params →
    Rejection name params args (.tooFewArguments name (required params) args.length)
      ⟨.invalidArgument, name ++ " expects at least " ++ Numeral.digits (required params) ++ " argument(s), got " ++
        Numeral.digits args.length, none⟩
  /-- More arguments than parameters, none of which takes the others. -/
  | many : required params ≤ args.length → (∀ p, params.getLast? = some p → p.variadic = false) →
    params.length < args.length →
    Rejection name params args (.tooManyArguments name params.length args.length)
      ⟨.invalidArgument, name ++ " expects at most " ++ Numeral.digits params.length ++ " argument(s), got " ++
        Numeral.digits args.length, none⟩
  /-- The first refused argument is of a kind that its parameter does not allow. -/
  | kind {index : Nat} {p : Param} {v : Value} {label : String} : Arity params args →
    FirstRefused params args index p v → p.allows v = false → IsLabel p index label →
    Rejection name params args (.wrongKind label name p.kinds v.described)
      ⟨.invalidArgument, "Argument " ++ label ++ " of " ++ name ++ " must be " ++
        " or ".intercalate (p.kinds.map Kind.name) ++ ", got " ++ v.described, none⟩
  /-- The first refused argument is an integer outside the range. -/
  | range {index : Nat} {p : Param} {n : Int} {label : String} : Arity params args →
    FirstRefused params args index p (.integer n) → p.allows (.integer n) = true → IsLabel p index label →
    (Nat.toDigits 10 n.natAbs).length ≤ Numeral.digitLimit →
    Rejection name params args (.argumentOutsideRange label name n)
      ⟨.invalidArgument, "Argument " ++ label ++ " of " ++ name ++ " must be Integer in range " ++
        "[-2147483648, 2147483647]" ++ ", got " ++ Numeral.write n, none⟩
  /-- The first refused argument is an integer of too many digits for a message. -/
  | unshown {index : Nat} {p : Param} {n : Int} : Arity params args →
    FirstRefused params args index p (.integer n) → p.allows (.integer n) = true →
    Numeral.digitLimit < (Nat.toDigits 10 n.natAbs).length →
    Rejection name params args .tooManyDigits
      ⟨.value, "Exceeds the limit (4300 digits) for integer string conversion; " ++
        "use sys.set_int_max_str_digits() to increase the limit", none⟩

variable {name : String} {params : List Param} {args others : List Value} {index : Nat} {p : Param} {v : Value}

/-! ### One argument -/

theorem isLabel_iff {label : String} : IsLabel p index label ↔ label = p.label index := by
  unfold IsLabel Param.label
  cases p.name with
  | none => simp
  | some name =>
    by_cases empty : name = ""
    · simp [empty]
    · have shown : (if name.isEmpty then Numeral.digits (index + 1) else name) = name := if_neg (by simpa using empty)
      simp only [shown, Option.some.injEq, exists_eq_left', ne_eq, empty, not_false_eq_true, true_and, reduceCtorEq,
        or_self, false_and, or_false]

theorem checkArgument_of_kind (other : p.allows v = false) :
    checkArgument name index p v = .error (.wrongKind (p.label index) name p.kinds v.described) := by
  simp [checkArgument, other]

/-- What a parameter refuses although it allows the kind is an integer outside the range. -/
theorem exists_integer_of_refused (refused : ¬ p.Accepts v) (allowed : p.allows v = true) :
    ∃ n, v = .integer n ∧ ¬ InRange n := by
  simpa [Param.Accepts, allowed] using refused

theorem checkArgument_of_range {n : Int} (refused : ¬ p.Accepts (.integer n)) (allowed : p.allows (.integer n) = true) :
    checkArgument name index p (.integer n) =
      .error (Fault.showing n (.argumentOutsideRange (p.label index) name n)) := by
  obtain ⟨m, same, outside⟩ := exists_integer_of_refused refused allowed
  cases same
  simp [checkArgument, allowed, outside]

/-! ### The first refused argument -/

theorem checkFrom_append {before rest : List Value} (accepted : checkFrom name params index before = .ok ()) :
    checkFrom name params index (before ++ rest) = checkFrom name params (index + before.length) rest := by
  induction before generalizing index with
  | nil => rfl
  | cons first before ih =>
    rw [checkFrom_cons] at accepted
    obtain ⟨_, fine, later⟩ := exists_of_bind_ok accepted
    rw [List.cons_append, checkFrom_cons, fine, ok_bind, ih later, List.length_cons, Nat.add_assoc, Nat.add_comm 1]

/-- The arguments in front of the first refused one pass, so that its fault is the fault of the call. -/
theorem checkFrom_of_firstRefused (first : FirstRefused params args index p v) {fault : Fault}
    (failed : checkArgument name index p v = .error fault) : checkFrom name params 0 args = .error fault := by
  obtain ⟨inside, there⟩ := List.getElem?_eq_some_iff.mp first.given
  have parted : args = args.take index ++ v :: args.drop (index + 1) := by
    rw [← there, List.getElem_cons_drop, List.take_append_drop]
  have passed : checkFrom name params 0 (args.take index) = .ok () := by
    rw [checkFrom_eq_ok_iff]
    intro i w q given belongs
    rw [List.getElem?_take] at given
    split at given
    · next earlier => exact first.before i earlier w q given (by rwa [← paramAt?_eq, ← Nat.zero_add i])
    · cases given
  have length : (args.take index).length = index := by
    rw [List.length_take]
    omega
  rw [parted, checkFrom_append passed, length, Nat.zero_add, checkFrom_cons, checkAt, paramAt?_eq, first.belongs]
  simp only [failed, error_bind]

/-- A check that fails has a first argument that is refused. -/
theorem exists_firstRefused {fault : Fault} (failed : checkFrom name params 0 args = .error fault) :
    ∃ index p v, FirstRefused params args index p v := by
  have some_refused : ∃ i, ∃ v p, args[i]? = some v ∧ params[min i (params.length - 1)]? = some p ∧ ¬ p.Accepts v := by
    by_contra none_refused
    have passed : checkFrom name params 0 args = .ok () := by
      rw [checkFrom_eq_ok_iff]
      intro i v p given belongs
      rw [Nat.zero_add, paramAt?_eq] at belongs
      by_contra refused
      exact none_refused ⟨i, v, p, given, belongs, refused⟩
    rw [passed] at failed
    cases failed
  classical
  obtain ⟨v, p, given, belongs, refused⟩ := Nat.find_spec some_refused
  refine ⟨Nat.find some_refused, p, v, given, belongs, refused, fun i earlier w q given belongs => ?_⟩
  by_contra refused
  exact Nat.find_min some_refused earlier ⟨w, q, given, belongs, refused⟩

/-- Only the arguments up to the first refused one decide which one that is. -/
theorem FirstRefused.of_take (first : FirstRefused params args index p v)
    (same : others.take (index + 1) = args.take (index + 1)) : FirstRefused params others index p v := by
  have agree : ∀ i ≤ index, others[i]? = args[i]? := by
    intro i early
    have at_i := congrArg (·[i]?) same
    simpa only [List.getElem?_take, Nat.lt_succ_of_le early, if_true] using at_i
  refine ⟨by rw [agree index (Nat.le_refl _), first.given], first.belongs, first.refused, fun i earlier w q given => ?_⟩
  rw [agree i (Nat.le_of_lt earlier)] at given
  exact first.before i earlier w q given

/-! ### Calls -/

variable {fault : Fault} {report : Report}

theorem isVariadic_iff : isVariadic params = true ↔ ∃ p, params.getLast? = some p ∧ p.variadic = true := by
  rw [isVariadic, Option.any_eq_true_iff_get]
  cases params.getLast? <;> simp

theorem not_isVariadic_iff : isVariadic params = false ↔ ∀ p, params.getLast? = some p → p.variadic = false := by
  rw [isVariadic]
  cases params.getLast? <;> simp

theorem validate_of_few (short : args.length < required params) :
    validate name args params = .error (.tooFewArguments name (required params) args.length) := by
  rw [validate, if_pos short]

theorem validate_of_many (enough : required params ≤ args.length) (fixed : isVariadic params = false)
    (long : params.length < args.length) :
    validate name args params = .error (.tooManyArguments name params.length args.length) := by
  rw [validate, if_neg (Nat.not_lt.mpr enough), if_pos (by simp [fixed, long])]

theorem validate_of_arity (fits : Arity params args) : validate name args params = checkFrom name params 0 args := by
  obtain ⟨enough, notMany⟩ := fits
  rw [← isVariadic_iff] at notMany
  rw [validate, if_neg (Nat.not_lt.mpr enough), if_neg]
  rcases notMany with short | variadic
  · simp [short]
  · simp [variadic]

theorem validate_of_rejection (rejection : Rejection name params args fault report) :
    validate name args params = .error fault ∧ fault.report = report := by
  cases rejection with
  | few short => exact ⟨validate_of_few short, rfl⟩
  | many enough fixed long => exact ⟨validate_of_many enough (not_isVariadic_iff.mpr fixed) long, rfl⟩
  | kind fits first other isLabel =>
    obtain rfl := isLabel_iff.mp isLabel
    rw [validate_of_arity fits, checkFrom_of_firstRefused first (checkArgument_of_kind other)]
    exact ⟨rfl, rfl⟩
  | range fits first allowed isLabel short =>
    obtain rfl := isLabel_iff.mp isLabel
    rw [validate_of_arity fits, checkFrom_of_firstRefused first (checkArgument_of_range first.refused allowed),
      showing_of_writable (Numeral.writable_iff_length.mpr short), Fault.report, rangeText_eq]
    exact ⟨rfl, rfl⟩
  | unshown fits first allowed long =>
    rw [validate_of_arity fits, checkFrom_of_firstRefused first (checkArgument_of_range first.refused allowed),
      Fault.showing, if_neg (by rw [Numeral.writable_iff_length]; exact Nat.not_le.mpr long)]
    exact ⟨rfl, rfl⟩

/-- An argument that is refused is refused for its kind or as an integer outside the range. -/
theorem exists_rejection_of_firstRefused (fits : Arity params args) (first : FirstRefused params args index p v) :
    ∃ fault report, Rejection name params args fault report := by
  have isLabel : IsLabel p index (p.label index) := isLabel_iff.mpr rfl
  cases allowed : p.allows v with
  | false => exact ⟨_, _, .kind fits first allowed isLabel⟩
  | true =>
    obtain ⟨n, rfl, _⟩ := exists_integer_of_refused first.refused allowed
    rcases Nat.lt_or_ge Numeral.digitLimit (Nat.toDigits 10 n.natAbs).length with long | short
    · exact ⟨_, _, .unshown fits first allowed long⟩
    · exact ⟨_, _, .range fits first allowed isLabel short⟩

theorem exists_rejection_of_validate (failed : validate name args params = .error fault) :
    ∃ fault report, Rejection name params args fault report := by
  rcases Nat.lt_or_ge args.length (required params) with short | enough
  · exact ⟨_, _, .few short⟩
  · by_cases fits : Arity params args
    · rw [validate_of_arity fits] at failed
      obtain ⟨index, p, v, first⟩ := exists_firstRefused failed
      exact exists_rejection_of_firstRefused fits first
    · have many : params.length < args.length ∧ ¬ isVariadic params = true := by
        simpa [Arity, enough, isVariadic_iff] using fits
      exact ⟨_, _, .many enough (not_isVariadic_iff.mp (by simpa using many.2)) many.1⟩

theorem validate_eq_error_iff :
    validate name args params = .error fault ∧ fault.report = report ↔ Rejection name params args fault report := by
  constructor
  · rintro ⟨failed, rfl⟩
    -- a call is rejected in one way only
    obtain ⟨other, shown, rejection⟩ := exists_rejection_of_validate failed
    obtain ⟨failedToo, rfl⟩ := validate_of_rejection rejection
    rw [failed] at failedToo
    cases failedToo
    exact rejection
  · exact validate_of_rejection

/-- A call with other arguments behind the first refused one ends in the same way. -/
theorem validate_of_take (first : FirstRefused params args index p v) (length : others.length = args.length)
    (same : others.take (index + 1) = args.take (index + 1)) :
    validate name others params = validate name args params := by
  obtain ⟨fault, failed⟩ : ∃ fault, checkArgument name index p v = .error fault := by
    cases result : checkArgument name index p v with
    | error fault => exact ⟨fault, rfl⟩
    | ok _ => exact absurd (checkArgument_eq_ok_iff.mp result) first.refused
  rw [validate, validate, length, checkFrom_of_firstRefused first failed,
    checkFrom_of_firstRefused (first.of_take same) failed]

/-- A rejected call is reported for its first fault. That is the number of the arguments, if there are too few or too
    many of them, and else the first argument that its parameter refuses, for its kind or as an integer outside the
    range. The arguments behind that one do not matter. -/
theorem validate_reports_first_fault (name : String) (args : List Value) (params : List Param) :
    (∀ fault report, validate name args params = .error fault ∧ fault.report = report ↔
      Rejection name params args fault report) ∧
    (∀ index p v others, FirstRefused params args index p v → others.length = args.length →
      others.take (index + 1) = args.take (index + 1) → validate name others params = validate name args params) :=
  ⟨fun _ _ => validate_eq_error_iff, fun _ _ _ _ first length same => validate_of_take first length same⟩

/-- An argument past the end, named by the last parameter. Another one behind it, which is of no kind, is not reported. -/
theorem validate_reports_past_the_end :
    let params : List Param := [⟨[.integer], true, false, some ""⟩, ⟨[.integer, .text], false, true, some "rest"⟩]
    let front : List Value := [.integer 1, .text "a", .integer 2147483648]
    validate "f" (front ++ [.boolean true]) params = .error (.argumentOutsideRange "rest" "f" 2147483648) ∧
    validate "f" (front ++ [.nothing]) params = .error (.argumentOutsideRange "rest" "f" 2147483648) := by
  intro params front
  have outside : ¬ InRange 2147483648 := by decide
  have one : (⟨[.integer], true, false, some ""⟩ : Param).Accepts (.integer 1) :=
    ⟨rfl, fun n same => Value.integer.inj same ▸ by decide⟩
  have word : (⟨[.integer, .text], false, true, some "rest"⟩ : Param).Accepts (.text "a") :=
    ⟨rfl, fun n same => by cases same⟩
  have first : FirstRefused params (front ++ [.boolean true]) 2 ⟨[.integer, .text], false, true, some "rest"⟩
      (.integer 2147483648) := by
    refine ⟨rfl, rfl, fun accepted => outside (accepted.2 _ rfl), fun i earlier w q given belongs => ?_⟩
    obtain rfl | rfl : i = 0 ∨ i = 1 := by omega
    · cases given
      cases belongs
      exact one
    · cases given
      cases belongs
      exact word
  have label : IsLabel ⟨[.integer, .text], false, true, some "rest"⟩ 2 "rest" := .inl ⟨_, rfl, by decide, rfl⟩
  have arity : Arity params (front ++ [.boolean true]) := ⟨by decide, .inr ⟨_, rfl, rfl⟩⟩
  have reported := validate_reports_first_fault "f" (front ++ [.boolean true]) params
  have failed := ((reported.1 _ _).mpr (.range arity first rfl label (by decide))).1
  exact ⟨failed, (reported.2 2 _ _ (front ++ [.nothing]) first rfl rfl).trans failed⟩

end Primitives.Signature
