import Primitives.Proofs.Soundness

/-!
Failures leave no trace. A call by name that ends in a fault leaves the host as it was (`atomic_invoke`), and one
that is rejected is not even noted. Printing and drawing directly behave alike, but for requests too large to be
drawn at all: these are refused when the context is there already, so that the default context may have been made.
-/
namespace Primitives

namespace Context

/-- Finding a context and then failing changes the host only by making the default context. -/
theorem host_of_resolve_fail {α : Type} (context : Option Handle) (host : Host) (fault : Fault) :
    let made := context = none ∧ host.defaultContext = none ∧ ¬ BadVariable host.seedVariable
    let after := ((resolve context >>= fun _ => (Effect.fail fault : Effect α)) host).host
    (¬ made → after = host) ∧
    (made → ∃ seed, seedOfVariable host.seedVariable = .ok seed ∧ after = host.withDefault seed) := by
  intro made after
  rcases resolve_cases context host with ⟨lacks, raw, failed⟩ | ⟨_, handle, found⟩ |
    ⟨has, absent, vacant, seed, message, given, done⟩
  · have same : after = host := by simp only [after, Effect.bind_of_error failed]
    exact ⟨fun _ => same, fun making => absurd lacks.2.2 making.2.2⟩
  · have same : after = host := by simp only [after, Effect.bind_of_ok found, Effect.fail_apply]
    refine ⟨fun _ => same, ?_⟩
    rintro ⟨rfl, vacant, good⟩
    obtain ⟨seed, message, given, shown⟩ := seedOfVariable_of_good good
    rw [resolve_of_good vacant given shown] at found
    exact absurd (congrArg Outcome.log found) (List.cons_ne_nil _ _)
  · have grown : after = host.withDefault seed := by simp only [after, Effect.bind_of_ok done, Effect.fail_apply]
    refine ⟨fun other => absurd ⟨absent, vacant, fun bad => has ⟨absent, vacant, bad⟩⟩ other, fun _ => ?_⟩
    exact ⟨seed, given, grown⟩

/-- Finding a context and then working on it leaves no trace of a failure. -/
theorem atomic_resolve_task (context : Option Handle) (task : Task) :
    Effect.Atomic (resolve context >>= task.run) :=
  (atomic_resolve context).before_safe task.safe_run

end Context

/-- A call by name leaves no trace of a failure. -/
theorem Standard.atomic_invoke (name : String) (args : List Value) (context : Option Handle) :
    Effect.Atomic (registry.invoke name args context) := by
  cases checked : registry.validateCall name args with
  | error fault =>
    rw [Registry.invoke_of_rejected checked]
    exact (Effect.still_ofExcept (.error fault)).atomic
  | ok d =>
    obtain ⟨member, rfl, fits⟩ := mem_of_validateCall checked
    have atomic : Effect.Atomic (d.run args context) := by
      rcases run_cases member fits with ⟨result, ran⟩ | ⟨task, ran⟩
      · rw [ran]
        exact (Effect.still_ofExcept result).atomic
      · rw [ran]
        exact Context.atomic_resolve_task context task
    intro host fault failed
    rw [Registry.invoke_of_accepted checked] at failed ⊢
    exact atomic host fault failed

/-- A call by name, or a direct call of an operation that uses a context. -/
inductive Attempt where
  | invoke (name : String) (args : List Value)
  | print (values : List Value)
  | randomInteger (low high : Int)
  | randomText (length : Int)

namespace Attempt

def perform (context : Option Handle) : Attempt → Effect Value
  | .invoke name args => Standard.registry.invoke name args context
  | .print values => do
    Console.print values context
    return .nothing
  | .randomInteger low high => Random.integer (.integer low) (.integer high) context
  | .randomText length => Random.text (.integer length) context

/-- More is asked for at once than can be drawn. -/
def Oversized : Attempt → Prop
  | .randomInteger low high => Random.greatestWidth < Twister.bitLength (high - low + 1).toNat
  | .randomText length => Random.greatestLength < length
  | _ => False

/-- The attempt is refused after it has made the default context. -/
def Strands (attempt : Attempt) (context : Option Handle) (host : Host) : Prop :=
  attempt.Oversized ∧ context = none ∧ host.defaultContext = none ∧ ¬ Context.BadVariable host.seedVariable

/-- An attempt that is not oversized leaves no trace of a failure. -/
theorem atomic_perform {attempt : Attempt} (modest : ¬ attempt.Oversized) (context : Option Handle) :
    Effect.Atomic (attempt.perform context) := by
  cases attempt with
  | invoke name args => exact Standard.atomic_invoke name args context
  | print values =>
    rw [perform]
    cases shown : Console.lineOf values with
    | error fault =>
      rw [Console.print_of_fault shown]
      exact (Effect.still_ofExcept (.error fault)).atomic
    | ok line =>
      rw [Console.print_of_line shown]
      exact Context.atomic_resolve_task context (.line line)
  | randomInteger low high =>
    rw [perform]
    by_cases empty : high < low
    · rw [Random.integer_of_lt empty]
      exact (Effect.still_ofExcept _).atomic
    · rw [Random.integer_of_le (Int.not_lt.mp empty)]
      simp only [show ¬ Random.greatestWidth < _ from modest, if_false]
      exact Context.atomic_resolve_task context (.number low high)
  | randomText length =>
    rw [perform]
    by_cases asked : 0 < length
    · rw [Random.text_of_pos asked]
      simp only [show ¬ Random.greatestLength < length from modest, if_false]
      exact Context.atomic_resolve_task context (.symbols length.toNat)
    · rw [Random.text_of_nonpos (Int.not_lt.mp asked)]
      exact (Effect.safe_pure _).atomic

/-- An oversized attempt does nothing but find its context. -/
theorem perform_of_oversized {attempt : Attempt} (oversized : attempt.Oversized) (context : Option Handle) :
    ∃ fault, attempt.perform context = Context.resolve context >>= fun _ => Effect.fail fault := by
  cases attempt with
  | invoke name args | print values => cases oversized
  | randomInteger low high =>
    have wide : Random.greatestWidth < Twister.bitLength (high - low + 1).toNat := oversized
    have ordered : low ≤ high := by
      by_contra reversed
      have nothing : (high - low + 1).toNat = 0 := by omega
      rw [nothing] at wide
      exact absurd wide (by decide)
    refine ⟨.rangeTooLarge, ?_⟩
    rw [perform, Random.integer_of_le ordered]
    simp only [wide, if_true]
  | randomText length =>
    have long : Random.greatestLength < length := oversized
    have asked : 0 < length := by
      rw [Random.greatestLength] at long
      omega
    refine ⟨.lengthTooLarge, ?_⟩
    rw [perform, Random.text_of_pos asked]
    simp only [long, if_true]

/-- Failures leave no trace, except that a request too large to be drawn may have made the default context. Then
    too nothing was written or read, and the contexts that were there are as before. A call that is rejected leaves
    no notice either. -/
theorem host_of_failure (attempt : Attempt) (context : Option Handle) (host : Host) (fault : Fault)
    (failed : (attempt.perform context host).result = .error fault) :
    (¬ attempt.Strands context host → (attempt.perform context host).host = host) ∧
    (attempt.Strands context host →
      (∃ seed, Context.seedOfVariable host.seedVariable = .ok seed ∧
        (attempt.perform context host).host = host.withDefault seed) ∧
      (attempt.perform context host).host.input = host.input ∧
      (attempt.perform context host).host.output = host.output ∧
      host.contexts <+: (attempt.perform context host).host.contexts) ∧
    (∀ name args cause, attempt = .invoke name args → Standard.registry.validateCall name args = .error cause →
      attempt.perform context host = ⟨.error cause, host, []⟩) := by
  refine ⟨fun calm => ?_, fun strands => ?_, ?_⟩
  · by_cases oversized : attempt.Oversized
    · obtain ⟨cause, ran⟩ := perform_of_oversized oversized context
      rw [ran]
      exact (Context.host_of_resolve_fail context host cause).1 fun made => calm ⟨oversized, made⟩
    · exact atomic_perform oversized context host fault failed
  · obtain ⟨oversized, made⟩ := strands
    obtain ⟨cause, ran⟩ := perform_of_oversized oversized context
    obtain ⟨seed, given, grown⟩ := (Context.host_of_resolve_fail context host cause).2 made
    rw [ran, grown]
    exact ⟨⟨seed, given, rfl⟩, rfl, rfl, List.prefix_append _ _⟩
  · rintro name args cause rfl rejected
    rw [perform, Registry.invoke_of_rejected rejected, Effect.fail_apply]

/-- Refusing the bad value at the end of a line leaves no trace, though the default context could be made. -/
theorem host_of_print_failure :
    ((Attempt.print [.text "a", .nothing]).perform none (.fresh (some "1") ⟨fun _ => [], 0⟩ "")).result =
      .error (.noTextForm "NoneType") ∧
    ((Attempt.print [.text "a", .nothing]).perform none (.fresh (some "1") ⟨fun _ => [], 0⟩ "")).host =
      .fresh (some "1") ⟨fun _ => [], 0⟩ "" :=
  ⟨rfl, (host_of_failure _ _ _ _ rfl).1 fun strands => strands.1⟩

/-- A text of 2^63 symbols is refused, but the default context is there afterwards. -/
theorem randomText_leaves_default :
    ¬ ∀ (attempt : Attempt) (context : Option Handle) (host : Host) (fault : Fault),
      (attempt.perform context host).result = .error fault → (attempt.perform context host).host = host := by
  intro unchanged
  let host : Host := .fresh (some "1") ⟨fun _ => [], 0⟩ ""
  have resolved : Context.resolve none host =
      ⟨.ok 0, host.withDefault (.integer 1), [⟨.contexts, "Runtime context created with seed 1"⟩]⟩ :=
    Context.resolve_of_good rfl (by decide) (Context.creationMessage_integer (Arithmetic.writable_of_inRange (by decide)))
  have ran : (Attempt.randomText 9223372036854775808).perform none host =
      ⟨.error .lengthTooLarge, host.withDefault (.integer 1),
        [⟨.contexts, "Runtime context created with seed 1"⟩]⟩ := by
    rw [perform, Random.text_of_pos (by decide), Effect.bind_of_ok resolved]
    rfl
  have same := unchanged (.randomText 9223372036854775808) none host .lengthTooLarge (by rw [ran])
  rw [ran] at same
  exact Option.some_ne_none 0 (congrArg Host.defaultContext same)

end Attempt

end Primitives
