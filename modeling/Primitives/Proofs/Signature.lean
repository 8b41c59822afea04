import Mathlib.Data.List.Forall2
import Primitives.Signature
import Primitives.Proofs.Arithmetic

/-!
Which calls fit a list of parameters. A call is accepted when it has enough arguments, not too many, and each of
them is accepted by the parameter it belongs to (`validate_eq_ok_iff`). When no parameter is optional or variadic
the arguments correspond to the parameters one by one (`forall₂_of_validate`). A call is rejected as an invalid
argument, as long as its integers can be shown (`errorClass_of_validate`).
-/
namespace Primitives

open Arithmetic

/-- The kind of the value is among those of the parameter, and an integer lies in the range. -/
def Param.Accepts (p : Param) (v : Value) : Prop := p.allows v = true ∧ ∀ n, v = .integer n → InRange n

/-- What a parameter accepts has a text form. -/
theorem Param.Accepts.writable {p : Param} {v : Value} (accepted : p.Accepts v) : v.Writable := by
  cases v with
  | boolean b | text s => trivial
  | integer n => exact writable_of_inRange (accepted.2 n rfl)
  | nothing | foreign object => cases accepted.1

namespace Signature

theorem checkArgument_eq_ok_iff {name : String} {index : Nat} {p : Param} {v : Value} :
    checkArgument name index p v = .ok () ↔ p.Accepts v := by
  unfold checkArgument Param.Accepts
  cases allowed : p.allows v with
  | false => simp
  | true =>
    cases v with
    | integer n => by_cases inside : InRange n <;> simp [inside]
    | boolean b | text s | nothing | foreign object => simp

theorem mem_of_paramAt? {params : List Param} {index : Nat} {p : Param} (there : paramAt? params index = some p) :
    p ∈ params := by
  rw [paramAt?, Option.orElse_eq_orElse, Option.orElse_eq_or, Option.or_eq_some_iff] at there
  rcases there with inside | ⟨_, last⟩
  · exact List.mem_of_getElem? inside
  · exact List.mem_of_getLast? last

/-- Checks the argument at a position against the parameter that it belongs to, if there is one. -/
def checkAt (name : String) (params : List Param) (index : Nat) (v : Value) : Except Fault Unit :=
  match paramAt? params index with
  | some p => checkArgument name index p v
  | none => .ok ()

theorem checkFrom_cons (name : String) (params : List Param) (index : Nat) (v : Value) (rest : List Value) :
    checkFrom name params index (v :: rest) =
      checkAt name params index v >>= fun _ => checkFrom name params (index + 1) rest := by
  rw [checkFrom, checkAt]
  cases paramAt? params index <;> rfl

theorem checkAt_eq_ok_iff {name : String} {params : List Param} {index : Nat} {v : Value} :
    checkAt name params index v = .ok () ↔ ∀ p, paramAt? params index = some p → p.Accepts v := by
  unfold checkAt
  cases found : paramAt? params index with
  | none => simp
  | some p => simpa using checkArgument_eq_ok_iff

theorem checkFrom_eq_ok_iff {name : String} {params : List Param} {index : Nat} {args : List Value} :
    checkFrom name params index args = .ok () ↔
      ∀ i v p, args[i]? = some v → paramAt? params (index + i) = some p → p.Accepts v := by
  induction args generalizing index with
  | nil => simp [checkFrom]
  | cons first rest ih =>
    have both : checkFrom name params index (first :: rest) = .ok () ↔
        checkAt name params index first = .ok () ∧ checkFrom name params (index + 1) rest = .ok () := by
      rw [checkFrom_cons]
      cases checkAt name params index first <;> simp
    rw [both, checkAt_eq_ok_iff, ih]
    constructor
    · rintro ⟨now, later⟩ i v p arg param
      cases i with
      | zero =>
        simp only [List.getElem?_cons_zero, Option.some.injEq] at arg
        exact arg ▸ now p param
      | succ i => exact later i v p (by simpa using arg) (by rwa [Nat.add_right_comm, Nat.add_assoc])
    · intro every
      refine ⟨fun p param => every 0 first p rfl param, fun i v p arg param => ?_⟩
      exact every (i + 1) v p (by simpa using arg) (by rwa [← Nat.add_assoc, Nat.add_right_comm])

/-- A call is accepted exactly when the number of its arguments and each of them fit. -/
theorem validate_eq_ok_iff {name : String} {args : List Value} {params : List Param} :
    validate name args params = .ok () ↔
      required params ≤ args.length ∧ (isVariadic params = true ∨ args.length ≤ params.length) ∧
        ∀ i v p, args[i]? = some v → paramAt? params i = some p → p.Accepts v := by
  unfold validate
  by_cases few : args.length < required params
  · simp [few, Nat.not_le.mpr few]
  · have enough : required params ≤ args.length := Nat.not_lt.mp few
    cases variadic : isVariadic params with
    | true => simp [few, enough, checkFrom_eq_ok_iff]
    | false =>
      by_cases many : params.length < args.length
      · simp [few, many]
      · simp [few, enough, many, Nat.not_lt.mp many, checkFrom_eq_ok_iff]

/-- The arguments for parameters that all take exactly one correspond to them one by one. -/
theorem forall₂_of_validate {name : String} {args : List Value} {params : List Param}
    (none_optional : ∀ p ∈ params, p.optional = false) (fixed : isVariadic params = false)
    (accepted : validate name args params = .ok ()) : List.Forall₂ Param.Accepts params args := by
  obtain ⟨enough, fits, every⟩ := validate_eq_ok_iff.mp accepted
  have all_required : required params = params.length := by
    rw [required, List.countP_eq_length]
    intro p member
    simp [none_optional p member]
  have same : params.length = args.length := by
    rcases fits with variadic | short
    · rw [fixed] at variadic
      cases variadic
    · omega
  rw [List.forall₂_iff_get]
  refine ⟨same, fun i inside argInside => every i _ _ ?_ ?_⟩
  · exact List.getElem?_eq_getElem argInside
  · simp [paramAt?, List.getElem?_eq_getElem inside]

theorem one_of_validate {name : String} {args : List Value} {p : Param} (required : p.optional = false)
    (fixed : p.variadic = false) (accepted : validate name args [p] = .ok ()) : ∃ v, args = [v] ∧ p.Accepts v := by
  have each := forall₂_of_validate (by simpa using required) (by simpa [isVariadic] using fixed) accepted
  rcases each with _ | ⟨first, rest⟩
  cases rest
  exact ⟨_, rfl, first⟩

theorem two_of_validate {name : String} {args : List Value} {p q : Param} (required : p.optional = false)
    (requiredToo : q.optional = false) (fixed : q.variadic = false) (accepted : validate name args [p, q] = .ok ()) :
    ∃ v w, args = [v, w] ∧ p.Accepts v ∧ q.Accepts w := by
  have each := forall₂_of_validate (by simp [required, requiredToo]) (by simpa [isVariadic] using fixed) accepted
  rcases each with _ | ⟨first, rest⟩
  rcases rest with _ | ⟨second, rest⟩
  cases rest
  exact ⟨_, _, rfl, first, second⟩

/-- The one parameter there is accepts every argument. -/
theorem accepts_of_validate_singleton {name : String} {args : List Value} {p : Param}
    (accepted : validate name args [p] = .ok ()) : ∀ v ∈ args, p.Accepts v := by
  intro v member
  obtain ⟨i, inside, rfl⟩ := List.getElem_of_mem member
  refine (validate_eq_ok_iff.mp accepted).2.2 i _ p (List.getElem?_eq_getElem inside) ?_
  cases i <;> rfl

theorem errorClass_of_checkAt {name : String} {params : List Param} {index : Nat} {v : Value} {fault : Fault}
    (shown : ∀ n, v = .integer n → Numeral.Writable n) (failed : checkAt name params index v = .error fault) :
    fault.errorClass = .invalidArgument := by
  unfold checkAt checkArgument at failed
  split at failed
  · split at failed
    · cases failed; rfl
    · split at failed
      · split at failed
        · cases failed
        · rw [showing_of_writable (shown _ rfl)] at failed
          cases failed; rfl
      · cases failed
  · cases failed

theorem errorClass_of_checkFrom {name : String} {params : List Param} {index : Nat} {args : List Value} {fault : Fault}
    (shown : ∀ n, Value.integer n ∈ args → Numeral.Writable n)
    (failed : checkFrom name params index args = .error fault) : fault.errorClass = .invalidArgument := by
  induction args generalizing index with
  | nil => cases failed
  | cons first rest ih =>
    rw [checkFrom_cons] at failed
    cases here : checkAt name params index first with
    | error cause =>
      rw [here] at failed
      cases failed
      exact errorClass_of_checkAt (fun n same => shown n (by simp [same])) here
    | ok _ =>
      rw [here] at failed
      exact ih (fun n member => shown n (by simp [member])) failed

/-- A rejected call is an invalid argument, provided that its integers have numerals. -/
theorem errorClass_of_validate {name : String} {args : List Value} {params : List Param} {fault : Fault}
    (shown : ∀ n, Value.integer n ∈ args → Numeral.Writable n)
    (failed : validate name args params = .error fault) : fault.errorClass = .invalidArgument := by
  unfold validate at failed
  split at failed
  · cases failed; rfl
  · split at failed
    · cases failed; rfl
    · exact errorClass_of_checkFrom shown failed

end Signature

end Primitives
