import Mathlib.Tactic.MkIffOfInductiveProp
import Primitives.Standard
import Primitives.Proofs.Operation
import Primitives.Proofs.Signature

/-!
The standard definitions keep what they declare. A call that fits the parameters of its definition ends in a value
of the declared kind or in a fault, and the faults are those that `Raises` lists: each of them arises exactly in
the cases listed, and there is no other.
-/
namespace Primitives

open Arithmetic

/-- The value is of a declared kind; `void` declares that there is no value. -/
def Value.HasKind (v : Value) : Kind → Prop
  | .void => v = .nothing
  | kind => v.kind? = some kind

theorem Value.HasKind.writable {v : Value} {kind : Kind} (has : v.HasKind kind) (something : v ≠ .nothing)
    (numeral : ∀ n, v = .integer n → Numeral.Writable n) : v.Writable := by
  cases v with
  | boolean b | text s => trivial
  | integer n => exact numeral n rfl
  | nothing => exact absurd rfl something
  | foreign object => cases kind <;> cases has

/-! ### Calls by name -/

/-- What runs once a call has been checked and noted. -/
def Definition.run (d : Definition) (args : List Value) (context : Option Handle) : Effect Value :=
  if d.usesContext then d.implementation.callWith args context else d.implementation.call args none

namespace Registry

variable {r : Registry} {name : String} {args : List Value} {d : Definition}

theorem validateCall_eq_ok_iff :
    r.validateCall name args = .ok d ↔ r.get? name = some d ∧ Signature.validate name args d.params = .ok () := by
  unfold validateCall
  cases found : r.get? name with
  | none => simp
  | some e =>
    cases fits : Signature.validate name args e.params with
    | error fault =>
      simp only [fits, error_bind, reduceCtorEq, Option.some.injEq, false_iff, not_and]
      rintro rfl
      simp [fits]
    | ok _ =>
      simp only [fits, ok_bind, pure_eq_ok, Except.ok.injEq, Option.some.injEq, iff_self_and]
      rintro rfl
      exact fits

theorem errorClass_of_validateCall {fault : Fault} (writable : ∀ n, Value.integer n ∈ args → Numeral.Writable n)
    (rejected : r.validateCall name args = .error fault) : fault.errorClass = .invalidArgument := by
  unfold validateCall at rejected
  cases found : r.get? name with
  | none =>
    rw [found] at rejected
    cases rejected
    rfl
  | some d =>
    cases fits : Signature.validate name args d.params with
    | error cause =>
      simp only [found, fits, error_bind, Except.error.injEq] at rejected
      exact rejected ▸ Signature.errorClass_of_validate writable fits
    | ok _ => simp [found, fits] at rejected

theorem mem_of_get? (found : r.get? name = some d) : d ∈ r.definitions ∧ d.name = name :=
  ⟨List.mem_of_find?_eq_some found, by simpa using List.find?_some found⟩

/-- What is noted of a call. -/
def notice (name : String) (args : List Value) : Notice :=
  ⟨.registry, "Invoking " ++ name ++ " with " ++ Numeral.digits args.length ++ " argument(s)"⟩

theorem invoke_of_accepted (accepted : r.validateCall name args = .ok d) (context : Option Handle) (host : Host) :
    r.invoke name args context host =
      ⟨(d.run args context host).result, (d.run args context host).host,
        notice name args :: (d.run args context host).log⟩ := by
  rw [invoke, accepted]
  rfl

theorem invoke_of_rejected {fault : Fault} (rejected : r.validateCall name args = .error fault)
    (context : Option Handle) : r.invoke name args context = Effect.fail fault := by
  rw [invoke, rejected]
  rfl

end Registry

/-! ### The contract -/

namespace Standard

/-- The calls that work on a context. -/
@[mk_iff]
inductive NeedsContext : String → List Value → Prop
  | print (values : List Value) : NeedsContext "print" values
  | input (prompt : List Value) : NeedsContext "input" prompt
  | randomInteger {low high : Int} : low ≤ high → NeedsContext "random_int" [.integer low, .integer high]
  | randomText {length : Int} : 0 < length → NeedsContext "random_string" [.integer length]

/-- The calls that end in an error, with the class of the error. -/
@[mk_iff]
inductive Raises (host : Host) (context : Option Handle) : String → List Value → ErrorClass → Prop
  | negativeRoot {x : Int} : x < 0 → Raises host context "sqrt" [.integer x] .domain
  | zeroToNegative {exponent : Int} : exponent < 0 →
      Raises host context "pow" [.integer 0, .integer exponent] .domain
  | powerOutside {base exponent : Int} : 0 ≤ exponent → ¬ InRange (base ^ exponent.toNat) →
      Raises host context "pow" [.integer base, .integer exponent] .integerOverflow
  | leastAbsolute : Raises host context "abs" [.integer leastInteger] .integerOverflow
  | emptyRange {low high : Int} : high < low →
      Raises host context "random_int" [.integer low, .integer high] .invalidArgument
  | lacksContext {name : String} {args : List Value} : NeedsContext name args → host.LacksContext context →
      Raises host context name args .invalidArgument

/-- The lengths that a call measures lie in the integer range. -/
def Measurable (name : String) (args : List Value) : Prop :=
  name = "strlen" → ∀ s, args = [.text s] → (Text.byteLength s : Int) ≤ greatestInteger

variable {host : Host} {context : Option Handle} {name : String} {args : List Value}

/-- A call ends in errors of one class only. -/
theorem Raises.unique {c c' : ErrorClass} (first : Raises host context name args c)
    (second : Raises host context name args c') : c = c' := by
  -- With the name and the shape of the arguments fixed by the first fact, few of the cases of the second are left.
  cases first with
  | negativeRoot negative | zeroToNegative negative | powerOutside nonneg outside | leastAbsolute | emptyRange empty =>
    simp [raises_iff, needsContext_iff] at second
    grind
  | lacksContext needs lacks =>
    cases needs with
    | print | input | randomInteger ordered | randomText positive =>
      simp [raises_iff, needsContext_iff] at second
      grind

theorem Raises.errorClass_cases {c : ErrorClass} (raises : Raises host context name args c) :
    c = .domain ∨ c = .integerOverflow ∨ c = .invalidArgument := by
  cases raises <;> simp

theorem not_raises_of_notMem {c : ErrorClass}
    (quiet : name ∉ ["sqrt", "pow", "abs", "random_int", "print", "input", "random_string"]) :
    ¬ Raises host context name args c := by
  intro raises
  simp only [List.mem_cons, List.not_mem_nil, or_false, not_or] at quiet
  rw [raises_iff] at raises
  simp only [needsContext_iff] at raises
  grind

/-- An accepted call is one of a standard definition, whose parameters it fits. -/
theorem mem_of_validateCall {d : Definition} (accepted : registry.validateCall name args = .ok d) :
    d ∈ definitions ∧ d.name = name ∧ Signature.validate d.name args d.params = .ok () := by
  obtain ⟨found, fits⟩ := Registry.validateCall_eq_ok_iff.mp accepted
  obtain ⟨member, rfl⟩ := Registry.mem_of_get? found
  exact ⟨member, rfl, fits⟩

/-- What a definition promises for a call: a value of its kind, and errors where they are listed. -/
structure Keeps (host : Host) (context : Option Handle) (d : Definition) (args : List Value)
    (result : Except Fault Value) : Prop where
  returned : ∀ v, result = .ok v →
    v.HasKind d.returns ∧ ∀ n, v = .integer n → Measurable d.name args → InRange n
  raised : ∀ c, (∃ fault, result = .error fault ∧ fault.errorClass = c) ↔ Raises host context d.name args c

variable {d : Definition}

theorem Keeps.of_ok {v : Value} (kind : v.HasKind d.returns)
    (inside : ∀ n, v = .integer n → Measurable d.name args → InRange n)
    (quiet : ∀ c, ¬ Raises host context d.name args c) : Keeps host context d args (.ok v) where
  returned := by
    rintro _ ⟨rfl⟩
    exact ⟨kind, inside⟩
  raised c := by simp [quiet c]

theorem Keeps.of_error {fault : Fault} (raises : Raises host context d.name args fault.errorClass) :
    Keeps host context d args (.error fault) where
  returned := by
    intro v impossible
    cases impossible
  raised c := by
    constructor
    · rintro ⟨_, ⟨rfl⟩, rfl⟩
      exact raises
    · intro other
      exact ⟨fault, rfl, raises.unique other⟩

/-- A call that does nothing but find a context and then work on it fails only for lack of a context. -/
theorem Keeps.of_resolve {next : Handle → Effect Value} (needs : NeedsContext d.name args)
    (only : ∀ c, Raises host context d.name args c → host.LacksContext context)
    (later : ∀ handle after, ∃ v, (next handle after).result = .ok v ∧ v.HasKind d.returns ∧
      ∀ n, v = .integer n → InRange n) :
    Keeps host context d args ((Context.resolve context >>= next) host).result := by
  by_cases lacks : host.LacksContext context
  · obtain ⟨raw, failed⟩ := Context.resolve_of_lacks lacks
    rw [Effect.bind_of_error failed]
    exact .of_error (.lacksContext needs lacks)
  · obtain ⟨handle, after, log, found⟩ := Context.resolve_of_has lacks
    obtain ⟨v, ended, kind, inside⟩ := later handle after
    rw [Effect.bind_of_ok found, ended]
    exact .of_ok kind (fun n same _ => inside n same) (fun c raises => lacks (only c raises))

/-! ### The definitions, area by area -/

theorem integer_of_accepts {v : Value} (accepted : anInteger.Accepts v) : ∃ n, v = .integer n ∧ InRange n := by
  cases v with
  | integer n => exact ⟨n, rfl, accepted.2 n rfl⟩
  | boolean b | text s | nothing | foreign object => cases accepted.1

theorem text_of_accepts {v : Value} (accepted : aText.Accepts v) : ∃ s, v = .text s := by
  cases v with
  | text s => exact ⟨s, rfl⟩
  | boolean b | integer n | nothing | foreign object => cases accepted.1

theorem integer_of_validate (fits : Signature.validate name args [anInteger] = .ok ()) :
    ∃ n, args = [.integer n] ∧ InRange n := by
  obtain ⟨v, rfl, accepted⟩ := Signature.one_of_validate rfl rfl fits
  obtain ⟨n, rfl, inside⟩ := integer_of_accepts accepted
  exact ⟨n, rfl, inside⟩

theorem integers_of_validate (fits : Signature.validate name args [anInteger, anInteger] = .ok ()) :
    ∃ m n, args = [.integer m, .integer n] ∧ InRange m ∧ InRange n := by
  obtain ⟨v, w, rfl, accepted, acceptedToo⟩ := Signature.two_of_validate rfl rfl rfl fits
  obtain ⟨m, rfl, inside⟩ := integer_of_accepts accepted
  obtain ⟨n, rfl, insideToo⟩ := integer_of_accepts acceptedToo
  exact ⟨m, n, rfl, inside, insideToo⟩

theorem text_of_validate (fits : Signature.validate name args [aText] = .ok ()) : ∃ s, args = [.text s] := by
  obtain ⟨v, rfl, accepted⟩ := Signature.one_of_validate rfl rfl fits
  obtain ⟨s, rfl⟩ := text_of_accepts accepted
  exact ⟨s, rfl⟩

theorem texts_of_validate (fits : Signature.validate name args [aText, aText] = .ok ()) :
    ∃ s t, args = [.text s, .text t] := by
  obtain ⟨v, w, rfl, accepted, acceptedToo⟩ := Signature.two_of_validate rfl rfl rfl fits
  obtain ⟨s, rfl⟩ := text_of_accepts accepted
  obtain ⟨t, rfl⟩ := text_of_accepts acceptedToo
  exact ⟨s, t, rfl⟩

theorem prompt_of_validate (fits : Signature.validate name args [{ aText with optional := true }] = .ok ()) :
    args = [] ∨ ∃ s, args = [.text s] := by
  have short : args.length ≤ 1 := (Signature.validate_eq_ok_iff.mp fits).2.1.resolve_left (by decide)
  have each := Signature.accepts_of_validate_singleton fits
  match args, short, each with
  | [], _, _ => exact .inl rfl
  | [v], _, each =>
    obtain ⟨s, rfl⟩ := text_of_accepts (each v (by simp))
    exact .inr ⟨s, rfl⟩

theorem operands_of_validate (fits : Signature.validate name args [integers] = .ok ()) :
    args ≠ [] ∧ ∀ v ∈ args, ∃ n, v = .integer n ∧ InRange n := by
  have enough : 1 ≤ args.length := (Signature.validate_eq_ok_iff.mp fits).1
  refine ⟨List.ne_nil_of_length_pos enough, fun v member => ?_⟩
  exact integer_of_accepts (Signature.accepts_of_validate_singleton fits v member)

theorem keeps_texts (member : d ∈ texts) (fits : Signature.validate d.name args d.params = .ok ()) :
    Keeps host context d args (d.run args context host).result := by
  simp only [texts, List.mem_cons, List.not_mem_nil, or_false] at member
  rcases member with rfl | rfl | rfl | rfl | rfl | rfl | rfl
  · obtain ⟨v, rfl, accepted⟩ := Signature.one_of_validate rfl rfl fits
    obtain ⟨s, shown⟩ := Text.ofValue_of_writable accepted.writable
    have ran : Operation.apply .textForm [v] = .ok (.text s) := by rw [Operation.apply, shown]; rfl
    change Keeps host context _ _ (Operation.apply .textForm [v])
    rw [ran]
    exact .of_ok rfl (by simp) fun c => not_raises_of_notMem (by simp)
  · obtain ⟨s, rfl⟩ := text_of_validate fits
    refine .of_ok (v := .integer (Text.byteLength s)) rfl ?_ fun c => not_raises_of_notMem (by simp)
    rintro _ ⟨rfl⟩ measurable
    have short : (Text.byteLength s : Int) ≤ 2147483647 := measurable rfl s rfl
    rw [inRange_iff]
    omega
  · obtain ⟨s, rfl⟩ := text_of_validate fits
    exact .of_ok (v := .text (Text.lower s)) rfl (by simp) fun c => not_raises_of_notMem (by simp)
  · obtain ⟨s, rfl⟩ := text_of_validate fits
    exact .of_ok (v := .text (Text.upper s)) rfl (by simp) fun c => not_raises_of_notMem (by simp)
  · obtain ⟨s, t, rfl⟩ := texts_of_validate fits
    exact .of_ok (v := .boolean (Text.startsWith s t)) rfl (by simp) fun c => not_raises_of_notMem (by simp)
  · obtain ⟨s, t, rfl⟩ := texts_of_validate fits
    exact .of_ok (v := .boolean (Text.endsWith s t)) rfl (by simp) fun c => not_raises_of_notMem (by simp)
  · obtain ⟨s, t, rfl⟩ := texts_of_validate fits
    exact .of_ok (v := .boolean (Text.contains s t)) rfl (by simp) fun c => not_raises_of_notMem (by simp)

theorem keeps_squareRoot {x : Int} (inside : InRange x) (named : d.name = "sqrt") (declared : d.returns = .integer) :
    Keeps host context d [.integer x] ((squareRoot (.integer x)).map .integer) := by
  rw [squareRoot_integer inside]
  by_cases negative : x < 0
  · rw [if_pos negative]
    exact .of_error (named ▸ .negativeRoot negative)
  · rw [if_neg negative]
    refine .of_ok (v := .integer (root x.toNat)) (by rw [declared]; rfl) ?_ fun c raises => ?_
    · rintro _ ⟨rfl⟩ _
      exact inRange_root inside
    · simp [raises_iff, needsContext_iff, named, negative] at raises

theorem keeps_power {base exponent : Int} (baseInside : InRange base) (exponentInside : InRange exponent)
    (named : d.name = "pow") (declared : d.returns = .integer) :
    Keeps host context d [.integer base, .integer exponent]
      ((power (.integer base) (.integer exponent)).map .integer) := by
  simp only [power, operand_integer "pow" baseInside, operand_integer "pow" exponentInside, ok_bind]
  by_cases negative : exponent < 0
  · rcases powerInRange_of_neg base negative with ⟨rfl, failed⟩ | ⟨nonzero, n, small, ended⟩
    · rw [failed]
      exact .of_error (named ▸ .zeroToNegative negative)
    · rw [ended]
      refine .of_ok (v := .integer n) (by rw [declared]; rfl) ?_ fun c raises => ?_
      · rintro _ ⟨rfl⟩ _
        simp only [List.mem_cons, List.not_mem_nil, or_false] at small
        rcases small with rfl | rfl | rfl <;> decide
      · simp [raises_iff, needsContext_iff, named, nonzero, Int.not_le.mpr negative] at raises
  · rcases powerInRange_of_nonneg baseInside (Int.not_lt.mp negative) with ⟨inside, ended⟩ |
      ⟨outside, fault, failed, overflow⟩
    · rw [ended]
      refine .of_ok (v := .integer (base ^ exponent.toNat)) (by rw [declared]; rfl) ?_ fun c raises => ?_
      · rintro _ ⟨rfl⟩ _
        exact inside
      · simp [raises_iff, needsContext_iff, named, negative, inside] at raises
    · rw [failed]
      refine .of_error ?_
      rw [named, overflow.1]
      exact .powerOutside (Int.not_lt.mp negative) outside

theorem keeps_absoluteValue {x : Int} (inside : InRange x) (named : d.name = "abs") (declared : d.returns = .integer) :
    Keeps host context d [.integer x] (absoluteValue (.integer x)) := by
  rw [absoluteValue_integer inside]
  by_cases least : x = leastInteger
  · rw [if_pos least, least]
    exact .of_error (named ▸ .leastAbsolute)
  · rw [if_neg least]
    refine .of_ok (by rw [declared]; rfl) ?_ fun c raises => ?_
    · rintro _ ⟨rfl⟩ _
      exact inRange_abs inside least
    · simp [raises_iff, needsContext_iff, named, least] at raises

/-- An extremum is one of the operands. -/
theorem keeps_extremum (precedes : Int → Int → Bool) (function : String) (declared : d.returns = .integer)
    (operands : args ≠ [] ∧ ∀ v ∈ args, ∃ n, v = .integer n ∧ InRange n)
    (quiet : ∀ c, ¬ Raises host context d.name args c) :
    Keeps host context d args (extremum precedes function args) := by
  obtain ⟨given, inside⟩ := operands
  obtain ⟨v, member, ended⟩ := extremum_mem precedes function given fun v member => by
    obtain ⟨n, rfl, small⟩ := inside v member
    exact ⟨n, operand_integer function small⟩
  obtain ⟨n, rfl, small⟩ := inside v member
  rw [ended]
  refine .of_ok (by rw [declared]; rfl) ?_ quiet
  rintro _ ⟨rfl⟩ _
  exact small

theorem keeps_arithmetic (member : d ∈ arithmetic) (fits : Signature.validate d.name args d.params = .ok ()) :
    Keeps host context d args (d.run args context host).result := by
  simp only [arithmetic, List.mem_cons, List.not_mem_nil, or_false] at member
  rcases member with rfl | rfl | rfl | rfl | rfl
  · obtain ⟨x, rfl, inside⟩ := integer_of_validate fits
    exact keeps_squareRoot inside rfl rfl
  · obtain ⟨base, exponent, rfl, baseInside, exponentInside⟩ := integers_of_validate fits
    exact keeps_power baseInside exponentInside rfl rfl
  · obtain ⟨x, rfl, inside⟩ := integer_of_validate fits
    exact keeps_absoluteValue inside rfl rfl
  · change Keeps host context _ args (extremum (fun m n => n < m) "max" args)
    exact keeps_extremum _ _ rfl (operands_of_validate fits) fun c => not_raises_of_notMem (by simp)
  · change Keeps host context _ args (extremum (fun m n => m < n) "min" args)
    exact keeps_extremum _ _ rfl (operands_of_validate fits) fun c => not_raises_of_notMem (by simp)

theorem run_print (fits : Signature.validate name args [printables] = .ok ()) :
    ∃ line, ∀ context, ContextOperation.run .print args context = Context.resolve context >>= (Task.line line).run := by
  have printable := Signature.accepts_of_validate_singleton fits
  obtain ⟨line, shown⟩ := Console.lineOf_of_writable fun v member => (printable v member).writable
  exact ⟨line, fun context => Console.print_of_line shown context⟩

theorem run_readLine (fits : Signature.validate name args [{ aText with optional := true }] = .ok ()) :
    ∃ prompt, ∀ context,
      ContextOperation.run .readLine args context = Context.resolve context >>= (Task.dialogue prompt).run := by
  rcases prompt_of_validate fits with rfl | ⟨prompt, rfl⟩
  · exact ⟨none, fun context => Console.readLine_of_prompt rfl context⟩
  · exact ⟨_, fun context => Console.readLine_of_prompt rfl context⟩

theorem run_randomInteger {low high : Int} (lowInside : InRange low) (highInside : InRange high) (ordered : low ≤ high)
    (context : Option Handle) :
    ContextOperation.run .randomInteger [.integer low, .integer high] context =
      Context.resolve context >>= (Task.number low high).run := by
  rw [ContextOperation.run, Random.integer_of_le ordered]
  simp only [Random.width_of_inRange lowInside highInside, if_false]

theorem run_randomText {length : Int} (inside : InRange length) (asked : 0 < length) (context : Option Handle) :
    ContextOperation.run .randomText [.integer length] context =
      Context.resolve context >>= (Task.symbols length.toNat).run := by
  have possible : ¬ Random.greatestLength < length := by
    rw [inRange_iff] at inside
    rw [Random.greatestLength]
    omega
  rw [ContextOperation.run, Random.text_of_pos asked]
  simp only [possible, if_false]

/-- What an accepted call runs: it needs no host at all, or it finds the context and works on that. -/
theorem run_cases (member : d ∈ definitions) (fits : Signature.validate d.name args d.params = .ok ()) :
    (∃ result, ∀ context, d.run args context = Effect.ofExcept result) ∨
    (∃ task : Task, ∀ context, d.run args context = Context.resolve context >>= task.run) := by
  simp only [definitions, List.mem_append] at member
  rcases member with ((member | member) | member) | member
  · simp only [console, List.mem_cons, List.not_mem_nil, or_false] at member
    rcases member with rfl | rfl
    · obtain ⟨line, ran⟩ := run_print fits
      exact .inr ⟨_, ran⟩
    · obtain ⟨prompt, ran⟩ := run_readLine fits
      exact .inr ⟨_, ran⟩
  · simp only [texts, List.mem_cons, List.not_mem_nil, or_false] at member
    rcases member with rfl | rfl | rfl | rfl | rfl | rfl | rfl <;> exact .inl ⟨_, fun _ => rfl⟩
  · simp only [arithmetic, List.mem_cons, List.not_mem_nil, or_false] at member
    rcases member with rfl | rfl | rfl | rfl | rfl <;> exact .inl ⟨_, fun _ => rfl⟩
  · simp only [random, List.mem_cons, List.not_mem_nil, or_false] at member
    rcases member with rfl | rfl
    · obtain ⟨low, high, rfl, lowInside, highInside⟩ := integers_of_validate fits
      by_cases empty : high < low
      · exact .inl ⟨_, Random.integer_of_lt empty⟩
      · exact .inr ⟨_, run_randomInteger lowInside highInside (Int.not_lt.mp empty)⟩
    · obtain ⟨length, rfl, inside⟩ := integer_of_validate fits
      by_cases asked : 0 < length
      · exact .inr ⟨_, run_randomText inside asked⟩
      · exact .inl ⟨_, Random.text_of_nonpos (Int.not_lt.mp asked)⟩

theorem keeps_console (member : d ∈ console) (fits : Signature.validate d.name args d.params = .ok ()) :
    Keeps host context d args (d.run args context host).result := by
  simp only [console, List.mem_cons, List.not_mem_nil, or_false] at member
  rcases member with rfl | rfl
  · obtain ⟨line, ran⟩ := run_print fits
    change Keeps host context _ _ (ContextOperation.run .print args context host).result
    rw [ran]
    refine .of_resolve (.print args) (fun c raises => ?_) fun handle after => ⟨.nothing, rfl, rfl, by simp⟩
    simp [raises_iff, needsContext_iff] at raises
    exact raises.1
  · obtain ⟨prompt, ran⟩ := run_readLine fits
    change Keeps host context _ _ (ContextOperation.run .readLine args context host).result
    rw [ran]
    refine .of_resolve (.input args) (fun c raises => ?_) fun handle after => ⟨_, rfl, rfl, by simp⟩
    simp [raises_iff, needsContext_iff] at raises
    exact raises.1

theorem keeps_randomInteger {low high : Int} (lowInside : InRange low) (highInside : InRange high)
    (named : d.name = "random_int") (declared : d.returns = .integer) :
    Keeps host context d [.integer low, .integer high]
      (ContextOperation.run .randomInteger [.integer low, .integer high] context host).result := by
  by_cases empty : high < low
  · rw [ContextOperation.run, Random.integer_of_lt empty,
      Random.emptyRange_integer (writable_of_inRange lowInside) (writable_of_inRange highInside)]
    exact .of_error (named ▸ .emptyRange empty)
  · have ordered : low ≤ high := Int.not_lt.mp empty
    rw [run_randomInteger lowInside highInside ordered]
    refine .of_resolve (named ▸ .randomInteger ordered) (fun c raises => ?_) fun handle after => ?_
    · simp [raises_iff, needsContext_iff, named, empty] at raises
      exact raises.2.1
    · obtain ⟨g, drawn⟩ := Task.act_number handle after low high
      refine ⟨((Task.number low high).act handle after).1, rfl, by rw [drawn, declared]; rfl, fun n same => ?_⟩
      have between := Twister.between_mem ordered g
      rw [← Value.integer.inj (drawn.symm.trans same)]
      rw [inRange_iff] at lowInside highInside ⊢
      omega

theorem keeps_randomText {length : Int} (inside : InRange length) (named : d.name = "random_string")
    (declared : d.returns = .text) :
    Keeps host context d [.integer length] (ContextOperation.run .randomText [.integer length] context host).result := by
  by_cases asked : 0 < length
  · rw [run_randomText inside asked]
    refine .of_resolve (named ▸ .randomText asked) (fun c raises => ?_) fun handle after => ?_
    · simp [raises_iff, needsContext_iff, named] at raises
      exact raises.2.1
    · exact ⟨_, rfl, by rw [declared]; rfl, by simp⟩
  · rw [ContextOperation.run, Random.text_of_nonpos (Int.not_lt.mp asked)]
    refine .of_ok (v := .text "") (by rw [declared]; rfl) (by simp) fun c raises => ?_
    simp [raises_iff, needsContext_iff, named, asked] at raises

theorem keeps_random (member : d ∈ random) (fits : Signature.validate d.name args d.params = .ok ()) :
    Keeps host context d args (d.run args context host).result := by
  simp only [random, List.mem_cons, List.not_mem_nil, or_false] at member
  rcases member with rfl | rfl
  · obtain ⟨low, high, rfl, lowInside, highInside⟩ := integers_of_validate fits
    exact keeps_randomInteger lowInside highInside rfl rfl
  · obtain ⟨length, rfl, inside⟩ := integer_of_validate fits
    exact keeps_randomText inside rfl rfl

theorem keeps_run (member : d ∈ definitions) (fits : Signature.validate d.name args d.params = .ok ()) :
    Keeps host context d args (d.run args context host).result := by
  simp only [definitions, List.mem_append] at member
  rcases member with ((member | member) | member) | member
  · exact keeps_console member fits
  · exact keeps_texts member fits
  · exact keeps_arithmetic member fits
  · exact keeps_random member fits

/-- A call by name in a given context depends on nothing but its arguments, or carries out a task. -/
theorem invoke_some (name : String) (args : List Value) :
    (∃ result log, ∀ handle host, registry.invoke name args (some handle) host = ⟨result, host, log⟩) ∨
    (∃ (task : Task) (log : List Notice), ∀ handle host,
      registry.invoke name args (some handle) host = ⟨.ok (task.act handle host).1, (task.act handle host).2, log⟩) := by
  cases checked : registry.validateCall name args with
  | error fault =>
    refine .inl ⟨.error fault, [], fun handle host => ?_⟩
    rw [Registry.invoke_of_rejected checked, Effect.fail_apply]
  | ok d =>
    obtain ⟨member, rfl, fits⟩ := mem_of_validateCall checked
    rcases run_cases member fits with ⟨result, ran⟩ | ⟨task, ran⟩
    · refine .inl ⟨result, [Registry.notice d.name args], fun handle host => ?_⟩
      rw [Registry.invoke_of_accepted checked, ran, Effect.ofExcept_apply]
    · refine .inr ⟨task, [Registry.notice d.name args], fun handle host => ?_⟩
      rw [Registry.invoke_of_accepted checked, ran, Effect.bind_of_ok (Context.resolve_some handle host)]
      rfl

/-- A call by name ends in no fault from outside the library, as long as its integers have numerals. -/
theorem library_of_invoke {fault : Fault} (writable : ∀ n, Value.integer n ∈ args → Numeral.Writable n)
    (failed : (registry.invoke name args context host).result = .error fault) :
    fault.errorClass.isA .library = true := by
  cases checked : registry.validateCall name args with
  | error cause =>
    rw [Registry.invoke_of_rejected checked] at failed
    cases failed
    rw [Registry.errorClass_of_validateCall writable checked]
    rfl
  | ok d =>
    obtain ⟨member, rfl, fits⟩ := mem_of_validateCall checked
    rw [Registry.invoke_of_accepted checked] at failed
    have raises := ((keeps_run member fits).raised fault.errorClass).mp ⟨fault, failed, rfl⟩
    rcases raises.errorClass_cases with same | same | same <;> rw [same] <;> rfl

/-- The result of a call by name has a text form, unless it is the length of an immense text. -/
theorem writable_of_invoke {v : Value} (ended : (registry.invoke name args context host).result = .ok v)
    (something : v ≠ .nothing) :
    v.Writable ∨ name = "strlen" ∧ ∃ s, args = [.text s] ∧ ¬ Numeral.Writable (Text.byteLength s) := by
  cases checked : registry.validateCall name args with
  | error cause =>
    rw [Registry.invoke_of_rejected checked] at ended
    cases ended
  | ok d =>
    obtain ⟨member, rfl, fits⟩ := mem_of_validateCall checked
    rw [Registry.invoke_of_accepted checked] at ended
    by_cases measuring : d.name = "strlen"
    · have same : d = ⟨"strlen", .string, [aText], .integer, .plain .byteLength, false⟩ := by
        have found := (Registry.validateCall_eq_ok_iff.mp checked).1
        rw [measuring] at found
        exact (Option.some.inj found).symm
      subst same
      obtain ⟨s, rfl⟩ := text_of_validate fits
      have measured : v = .integer (Text.byteLength s) := (Except.ok.inj ended).symm
      by_cases short : Numeral.Writable (Text.byteLength s)
      · rw [measured]
        exact .inl short
      · exact .inr ⟨rfl, s, rfl, short⟩
    · obtain ⟨kind, inside⟩ := (keeps_run member fits).returned v ended
      refine .inl (kind.writable something fun n same => ?_)
      exact writable_of_inRange (inside n same fun named => absurd named measuring)

/-- Soundness of the standard definitions. Whatever the state, an accepted call gives a value of the declared
    kind, whose integers lie in the range, or raises an error of the class and in the cases that are listed; other
    classes of errors never come out of it. -/
theorem invoke_sound (name : String) (args : List Value) (context : Option Handle) (host : Host) (d : Definition)
    (accepted : registry.validateCall name args = .ok d) :
    (d ∈ definitions ∧ d.name = name) ∧
    (∀ v, (registry.invoke name args context host).result = .ok v →
      v.HasKind d.returns ∧ ∀ n, v = .integer n → Measurable name args → InRange n) ∧
    (∀ c, (∃ fault, (registry.invoke name args context host).result = .error fault ∧ fault.errorClass = c) ↔
      Raises host context name args c) ∧
    (∀ fault, (registry.invoke name args context host).result = .error fault →
      fault.errorClass = .domain ∨ fault.errorClass = .integerOverflow ∨ fault.errorClass = .invalidArgument) := by
  obtain ⟨member, rfl, fits⟩ := mem_of_validateCall accepted
  have keeps : Keeps host context d args (registry.invoke d.name args context host).result := by
    rw [Registry.invoke_of_accepted accepted]
    exact keeps_run member fits
  refine ⟨⟨member, rfl⟩, keeps.returned, keeps.raised, fun fault failed => ?_⟩
  exact ((keeps.raised fault.errorClass).mp ⟨fault, failed, rfl⟩).errorClass_cases

/-- Two to the power of 31 is accepted and just outside the range. -/
theorem invoke_pow_two_overflows :
    registry.validateCall "pow" [.integer 2, .integer 31] =
      .ok ⟨"pow", .math, [anInteger, anInteger], .integer, .plain .power, false⟩ ∧
    ∃ fault, (registry.invoke "pow" [.integer 2, .integer 31] none (.fresh none ⟨fun _ => [], 0⟩ "")).result =
      .error fault ∧ fault.errorClass = .integerOverflow :=
  ⟨rfl, ((invoke_sound "pow" [.integer 2, .integer 31] none (.fresh none ⟨fun _ => [], 0⟩ "") _ rfl).2.2.1 _).mpr
    (.powerOutside (by decide) (by decide))⟩

end Standard

end Primitives
