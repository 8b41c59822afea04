import Primitives.Proofs.Signature

/-!
Parameters as a grammar of arguments. `Signature.Fits` gives the arguments to the parameters one after the other; the
check of a call only counts them and compares each with the parameter at its position. Both accept the same calls as
long as no required parameter stands behind an optional one (`Signature.fits_iff_counts`).
-/
namespace Primitives.Signature

/-- No required parameter stands behind an optional one. -/
def Ordered (params : List Param) : Prop := params.Pairwise fun p q => p.optional = true → q.optional = true

instance (params : List Param) : Decidable (Ordered params) := inferInstanceAs (Decidable (List.Pairwise _ _))

/-- The arguments that a list of parameters takes. A variadic parameter is like any other unless it is the last one. -/
inductive Fits : List Param → List Value → Prop
  /-- No parameters take no arguments. -/
  | done : Fits [] []
  /-- The first parameter takes one argument. -/
  | single {p : Param} {rest : List Param} {v : Value} {others : List Value} :
      p.Accepts v → Fits rest others → Fits (p :: rest) (v :: others)
  /-- The first parameter is optional and left out together with all others. -/
  | leftOut {p : Param} {rest : List Param} : p.optional = true → Fits (p :: rest) []
  /-- The last parameter is variadic and takes one or more arguments. -/
  | several {p : Param} {args : List Value} :
      p.variadic = true → args ≠ [] → (∀ v ∈ args, p.Accepts v) → Fits [p] args

/-- The number of the arguments is right, and each of them is accepted by the parameter that it belongs to. -/
structure Counts (params : List Param) (args : List Value) : Prop where
  enough : required params ≤ args.length
  notMany : isVariadic params = true ∨ args.length ≤ params.length
  each : ∀ i v p, args[i]? = some v → paramAt? params i = some p → p.Accepts v

variable {p q : Param} {rest params : List Param} {v : Value} {args others : List Value}

theorem validate_eq_ok_iff_counts {name : String} : validate name args params = .ok () ↔ Counts params args := by
  rw [validate_eq_ok_iff]
  constructor
  · rintro ⟨enough, notMany, each⟩
    exact ⟨enough, notMany, each⟩
  · rintro ⟨enough, notMany, each⟩
    exact ⟨enough, notMany, each⟩

/-! ### Positions -/

/-- An argument past the end belongs to the last parameter. -/
theorem paramAt?_eq (params : List Param) (index : Nat) :
    paramAt? params index = params[min index (params.length - 1)]? := by
  rw [paramAt?, Option.orElse_eq_orElse, Option.orElse_eq_or, List.getLast?_eq_getElem?]
  by_cases inside : index < params.length
  · rw [List.getElem?_eq_getElem inside, Option.some_or, Nat.min_eq_left (by omega), List.getElem?_eq_getElem inside]
  · rw [List.getElem?_eq_none (by omega), Option.none_or, Nat.min_eq_right (by omega)]

@[simp] theorem paramAt?_cons_zero : paramAt? (p :: rest) 0 = some p := rfl

@[simp] theorem paramAt?_singleton (index : Nat) : paramAt? [p] index = some p := by cases index <;> rfl

@[simp] theorem paramAt?_cons_cons_succ (index : Nat) :
    paramAt? (p :: q :: rest) (index + 1) = paramAt? (q :: rest) index := by
  simp [paramAt?, List.getLast?_cons_cons]

/-! ### Numbers of arguments -/

theorem required_cons_of_optional (optional : p.optional = true) : required (p :: rest) = required rest := by
  simp [required, optional]

theorem required_cons_of_required (needed : p.optional = false) : required (p :: rest) = required rest + 1 := by
  simp [required, needed]

/-- From an optional parameter on, no argument is required. -/
theorem required_eq_zero (ordered : Ordered (p :: rest)) (optional : p.optional = true) : required (p :: rest) = 0 := by
  rw [required, List.countP_eq_zero]
  intro q member
  have isOptional : q.optional = true := by
    rcases List.mem_cons.mp member with rfl | later
    · exact optional
    · exact (List.pairwise_cons.mp ordered).1 q later optional
  simp [isOptional]

theorem isVariadic_cons_cons : isVariadic (p :: q :: rest) = isVariadic (q :: rest) := by
  simp [isVariadic, List.getLast?_cons_cons]

/-! ### Counting against the grammar -/

/-- Without arguments the first parameter decides. -/
theorem counts_nil_iff (ordered : Ordered (p :: rest)) : Counts (p :: rest) [] ↔ p.optional = true := by
  constructor
  · intro counts
    cases optional : p.optional with
    | true => rfl
    | false =>
      have enough := counts.enough
      rw [required_cons_of_required optional] at enough
      exact absurd enough (by simp)
  · intro optional
    refine ⟨?_, .inr (by simp), by simp⟩
    rw [required_eq_zero ordered optional]
    exact Nat.zero_le _

/-- The last parameter takes one argument, or more if it is variadic. -/
theorem counts_singleton_iff :
    Counts [p] (v :: others) ↔ (∀ w ∈ v :: others, p.Accepts w) ∧ (p.variadic = true ∨ others = []) := by
  constructor
  · rintro ⟨_, notMany, each⟩
    constructor
    · intro w member
      obtain ⟨i, there⟩ := List.mem_iff_getElem?.mp member
      exact each i w p there (paramAt?_singleton i)
    · simpa [isVariadic] using notMany
  · rintro ⟨each, notMany⟩
    refine ⟨?_, by simpa [isVariadic] using notMany, ?_⟩
    · calc required [p] ≤ [p].length := List.countP_le_length
        _ ≤ (v :: others).length := by simp
    · intro i w q there belongs
      rw [paramAt?_singleton, Option.some.injEq] at belongs
      exact belongs ▸ each w (List.mem_of_getElem? there)

/-- A parameter that is not the last one takes the first argument. -/
theorem counts_cons_cons_iff (ordered : Ordered (p :: q :: rest)) :
    Counts (p :: q :: rest) (v :: others) ↔ p.Accepts v ∧ Counts (q :: rest) others := by
  have enough_iff : required (p :: q :: rest) ≤ (v :: others).length ↔ required (q :: rest) ≤ others.length := by
    cases optional : p.optional with
    | true =>
      -- nothing is required on either side
      have none_required := required_eq_zero ordered optional
      rw [required_cons_of_optional optional] at none_required ⊢
      simp [none_required]
    | false => simp [required_cons_of_required optional]
  constructor
  · rintro ⟨enough, notMany, each⟩
    refine ⟨each 0 v p rfl rfl, enough_iff.mp enough, ?_, ?_⟩
    · simpa [isVariadic_cons_cons] using notMany
    · intro i w r there belongs
      exact each (i + 1) w r (by simpa using there) (by simpa using belongs)
  · rintro ⟨first, enough, notMany, each⟩
    refine ⟨enough_iff.mpr enough, by simpa [isVariadic_cons_cons] using notMany, ?_⟩
    intro i w r there belongs
    cases i with
    | zero =>
      simp only [List.getElem?_cons_zero, paramAt?_cons_zero, Option.some.injEq] at there belongs
      exact there ▸ belongs ▸ first
    | succ i => exact each i w r (by simpa using there) (by simpa using belongs)

theorem fits_singleton_iff :
    Fits [p] (v :: others) ↔ (∀ w ∈ v :: others, p.Accepts w) ∧ (p.variadic = true ∨ others = []) := by
  constructor
  · intro fits
    cases fits with
    | single accepted later =>
      cases later
      exact ⟨by simpa using accepted, .inr rfl⟩
    | several variadic given each => exact ⟨each, .inl variadic⟩
  · rintro ⟨each, variadic | rfl⟩
    · exact .several variadic (List.cons_ne_nil _ _) each
    · exact .single (each v (by simp)) .done

/-- Counting the arguments accepts what the grammar accepts. -/
theorem fits_iff_counts (ordered : Ordered params) : Fits params args ↔ Counts params args := by
  -- The induction follows the parameters; the last one is a case of its own, since it may be variadic.
  induction params generalizing args with
  | nil =>
    constructor
    · rintro ⟨⟩
      exact ⟨Nat.le_refl _, .inr (Nat.le_refl _), by simp⟩
    · rintro ⟨_, notMany, _⟩
      have none_given : args = [] := by simpa [isVariadic] using notMany
      exact none_given ▸ .done
  | cons p rest ih =>
    have orderedRest : Ordered rest := (List.pairwise_cons.mp ordered).2
    cases args with
    | nil =>
      rw [counts_nil_iff ordered]
      constructor
      · intro fits
        cases fits with
        | leftOut optional => exact optional
        | several variadic given each => exact absurd rfl given
      · exact .leftOut
    | cons v others =>
      cases rest with
      | nil => rw [fits_singleton_iff, counts_singleton_iff]
      | cons q rest =>
        rw [counts_cons_cons_iff ordered, ← ih orderedRest]
        constructor
        · intro fits
          cases fits with
          | single accepted later => exact ⟨accepted, later⟩
        · rintro ⟨accepted, later⟩
          exact .single accepted later

/-- An accepted argument belongs to a parameter, which accepts it. -/
theorem exists_paramAt? (accepted : Counts params args) {i : Nat} (there : args[i]? = some v) :
    ∃ p, paramAt? params i = some p ∧ p.Accepts v := by
  cases params with
  | nil =>
    have none_given : args = [] := by simpa [isVariadic] using accepted.notMany
    simp [none_given] at there
  | cons p rest =>
    have inside : min i ((p :: rest).length - 1) < (p :: rest).length := by
      simp only [List.length_cons]
      omega
    have belongs : paramAt? (p :: rest) i = some (p :: rest)[min i ((p :: rest).length - 1)] := by
      rw [paramAt?_eq, List.getElem?_eq_getElem inside]
    exact ⟨_, belongs, accepted.each i v _ there belongs⟩

/-- A check accepts exactly the calls that the parameters describe. If no required parameter stands behind an
    optional one these are the calls of the grammar. In whatever order the parameters stand, each argument of an
    accepted call is accepted by the parameter at its position, or by the last one past the end. -/
theorem validate_accepts (name : String) (args : List Value) (params : List Param) :
    (Ordered params → (validate name args params = .ok () ↔ Fits params args)) ∧
    (validate name args params = .ok () → ∀ i v, args[i]? = some v →
      ∃ p, params[min i (params.length - 1)]? = some p ∧ p.Accepts v) := by
  constructor
  · intro ordered
    rw [validate_eq_ok_iff_counts, fits_iff_counts ordered]
  · intro accepted i v there
    obtain ⟨p, belongs, accepts⟩ := exists_paramAt? (validate_eq_ok_iff_counts.mp accepted) there
    exact ⟨p, paramAt?_eq params i ▸ belongs, accepts⟩

/-- A number and any number of words. That the first parameter is declared as variadic means nothing, so that a second
    number is refused. -/
theorem validate_accepts_words :
    let number : Param := ⟨[.integer], false, true, none⟩
    let words : Param := ⟨[.text], true, true, none⟩
    Ordered [number, words] ∧
    validate "f" [.integer 5] [number, words] = .ok () ∧
    validate "f" [.integer 5, .text "a", .text "b"] [number, words] = .ok () ∧
    validate "f" [.integer 5, .integer 6] [number, words] ≠ .ok () := by
  intro number words
  have ordered : Ordered [number, words] := by decide
  have five : number.Accepts (.integer 5) := ⟨rfl, fun n same => Value.integer.inj same ▸ by decide⟩
  have word (s : String) : words.Accepts (.text s) := ⟨rfl, fun n same => by cases same⟩
  refine ⟨ordered, ((validate_accepts _ _ _).1 ordered).mpr (.single five (.leftOut rfl)),
    ((validate_accepts _ _ _).1 ordered).mpr (.single five (.several rfl (by simp) ?_)), fun accepted => ?_⟩
  · simp [word]
  · have fits := ((validate_accepts _ _ _).1 ordered).mp accepted
    cases fits with
    | single first later =>
      cases later with
      | single second rest => cases second.1
      | several variadic given each => cases (each (.integer 6) (by simp)).1

end Primitives.Signature
