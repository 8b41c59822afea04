import Primitives.Proofs.DefaultContext

/-!
Seeding a context anew. The generator and the seed are changed first and the seed is shown afterwards
(`Context.reseed_apply`), so that the context has the new seed however the step ends (`context_of_reseeds`). It ends in
a fault when the seed has too many digits to be shown (`result_of_reseeds`), and the change has been made nevertheless.
-/
namespace Primitives

section Shown

variable {v : Value} {n : Int}

/-- A number can be shown if it has no more digits than a numeral may have; a Boolean always can. -/
theorem Value.shown_of_writable (counted : v.number? = some n) (writable : Numeral.Writable n) :
    ∃ text, v.shown = .ok text := by
  cases v with
  | integer m =>
    cases counted
    exact ⟨Numeral.write n, by rw [shown, if_pos writable]⟩
  | boolean b => exact ⟨_, rfl⟩
  | text s | nothing | foreign object => cases counted

theorem Value.shown_of_unwritable (counted : v.number? = some n) (unwritable : ¬ Numeral.Writable n) :
    v.shown = .error .tooManyDigits := by
  cases v with
  | integer m =>
    cases counted
    rw [shown, if_neg unwritable]
  | boolean b =>
    cases counted
    exact absurd (by cases b <;> decide +kernel) unwritable
  | text s | nothing | foreign object => cases counted

/-- A value that counts as a number is a seed. -/
theorem Seed.exists_of_number (counted : v.number? = some n) :
    ∃ seed, Seed.ofValue? v = some seed ∧ seed.toValue = v := by
  cases v with
  | integer m => exact ⟨.integer m, rfl, rfl⟩
  | boolean b => exact ⟨.boolean b, rfl, rfl⟩
  | text s | nothing | foreign object => cases counted

theorem errand_setSeed {seed : Seed} (given : Seed.ofValue? v = some seed) :
    ContextOperation.errand .setSeed [v] = .seeding seed := by
  simp only [ContextOperation.errand, given]

end Shown

namespace Session

variable {s : Session} {name : Option String} {v : Value} {st : Step} {handle : Handle} {n : Int}

/-- The steps that seed the context of the given name anew with a value, or the default context without a name. -/
inductive Reseeds (s : Session) (name : Option String) (v : Value) : Step → Prop
  | reseed {seed : Argument} : s.evaluate seed = v → Reseeds s name v (.reseed name seed)
  | setSeed {seed : Argument} : s.evaluate seed = v → Reseeds s name v (.call (.contextual .setSeed) [seed] name)

theorem operation?_of_reseeds (reseeds : s.Reseeds name v st) :
    s.operation? st = some (.setSeed, [v], s.context? name) := by
  cases reseeds with
  | reseed given | setSeed given =>
    subst given
    rfl

/-- A context that has been found is there. -/
theorem exists_of_resolve (placed : s.Placed) {found : Host} {log : List Notice}
    (resolved : Context.resolve (s.context? name) s.host = ⟨.ok handle, found, log⟩) :
    ∃ c, found.contexts[handle]? = some c := by
  have inside : handle < found.contexts.length := by
    cases known : s.context? name with
    | some given =>
      rw [known] at resolved
      cases resolved
      exact lt_of_context? placed known
    | none =>
      rw [known] at resolved
      cases standing : s.host.defaultContext with
      | some given =>
        rw [Context.resolve_of_default standing] at resolved
        cases resolved
        exact placed.standing handle standing
      | none =>
        by_cases bad : Context.BadVariable s.host.seedVariable
        · obtain ⟨raw, failed⟩ := Context.seedOfVariable_of_bad bad
          rw [Context.resolve_of_bad standing failed] at resolved
          cases resolved
        · obtain ⟨seed, message, given, shown⟩ := Context.seedOfVariable_of_good bad
          rw [Context.resolve_of_good standing given shown] at resolved
          cases resolved
          simp [Host.withDefault, Host.grown]
  exact ⟨_, List.getElem?_eq_getElem inside⟩

/-- The context has the new seed and its generator afterwards, and keeps its streams. -/
theorem context_of_reseeds (placed : s.Placed) (reseeds : s.Reseeds name v st) (counted : v.number? = some n)
    {found : Host} {log : List Notice}
    (resolved : Context.resolve (s.context? name) s.host = ⟨.ok handle, found, log⟩) :
    ∃ seed c, Seed.ofValue? v = some seed ∧ found.contexts[handle]? = some c ∧
      (s.step st).2.host.contexts[handle]? = some { c with seed, generator := Twister.ofNat n.natAbs } := by
  obtain ⟨seed, given, rfl⟩ := Seed.exists_of_number counted
  obtain ⟨c, there⟩ := exists_of_resolve placed resolved
  refine ⟨seed, c, given, there, ?_⟩
  rw [host_step_of_operation (operation?_of_reseeds reseeds), errand_setSeed given,
    (Errand.run_of_found rfl resolved).2]
  simp [Errand.act, Host.reseeded, Host.modifyContext, there, generator_of_number counted]

theorem result_effectOf_reseed {argument : Argument} {seed : Seed} {host found : Host} {log : List Notice}
    (given : Seed.ofValue? (s.evaluate argument) = some seed)
    (resolved : Context.resolve (s.context? name) host = ⟨.ok handle, found, log⟩) :
    ∃ answer, (s.effectOf (.reseed name argument) host).result = seed.toValue.shown.map fun _ => answer := by
  obtain ⟨notes, reseeded⟩ := Context.reseed_apply handle seed found
  simp only [effectOf, given]
  rw [Effect.bind_of_ok resolved]
  cases shown : seed.toValue.shown with
  | error fault =>
    rw [shown] at reseeded
    rw [Effect.bind_of_error reseeded]
    exact ⟨.value .nothing, rfl⟩
  | ok text =>
    rw [shown] at reseeded
    rw [Effect.bind_of_ok reseeded]
    exact ⟨_, rfl⟩

/-- How the step ends depends on whether the seed can be shown. -/
theorem result_of_reseeds (reseeds : s.Reseeds name v st) (counted : v.number? = some n) {found : Host}
    {log : List Notice} (resolved : Context.resolve (s.context? name) s.host = ⟨.ok handle, found, log⟩) :
    ∃ answer, (s.step st).1.result = v.shown.map fun _ => answer := by
  obtain ⟨seed, given, rfl⟩ := Seed.exists_of_number counted
  have runs := operation?_of_reseeds reseeds
  cases reseeds with
  | reseed same =>
    rw [← same] at given
    exact result_effectOf_reseed given resolved
  | setSeed same =>
    have called := (effectOf_of_operation runs (by simp) s.host).1
    rw [errand_setSeed given, (Errand.run_of_found rfl resolved).1, Errand.act] at called
    refine ⟨.value .nothing, called.trans ?_⟩
    cases seed.toValue.shown <;> rfl

/-- A new seed takes effect before the step can fail. In every state that steps lead to from a new host, a context
    that is seeded anew with a number, or with a Boolean, has it as its seed and is in the state of a new generator for
    it, however the step ends. The step succeeds if the number has no more digits than a numeral may have. If it has
    more, the step ends in a fault although the change has been made. -/
theorem reseeding_takes_effect (content : Option String) (entropy : Entropy) (input : String) (past : List Step)
    (name : Option String) (v : Value) (n : Int) (st : Step) (handle : Handle) :
    let s := ((start (.fresh content entropy input)).run past).2
    v.number? = some n → s.Reseeds name v st → (Context.resolve (s.context? name) s.host).result = .ok handle →
    (∃ seed c, Seed.ofValue? v = some seed ∧
      (Context.resolve (s.context? name) s.host).host.contexts[handle]? = some c ∧
      (s.step st).2.host.contexts[handle]? = some { c with seed, generator := Twister.ofNat n.natAbs }) ∧
    ((Nat.toDigits 10 n.natAbs).length ≤ Numeral.digitLimit → ∃ answer, (s.step st).1.result = .ok answer) ∧
    (Numeral.digitLimit < (Nat.toDigits 10 n.natAbs).length →
      (s.step st).1.result = .error .tooManyDigits ∧ Fault.errorClass .tooManyDigits = .value) := by
  intro s counted reseeds found
  have placed : s.Placed := placed_run (placed_start content entropy input) past
  have resolved : Context.resolve (s.context? name) s.host = ⟨.ok handle,
      (Context.resolve (s.context? name) s.host).host, (Context.resolve (s.context? name) s.host).log⟩ := by
    rw [← found]
  obtain ⟨answer, result⟩ := result_of_reseeds reseeds counted resolved
  refine ⟨context_of_reseeds placed reseeds counted resolved, ?_, ?_⟩
  · intro short
    obtain ⟨text, shown⟩ := Value.shown_of_writable counted (Numeral.writable_iff_length.mpr short)
    rw [shown] at result
    exact ⟨answer, result⟩
  · intro long
    have unwritable : ¬ Numeral.Writable n := by
      rw [Numeral.writable_iff_length]
      exact Nat.not_le.mpr long
    rw [Value.shown_of_unwritable counted unwritable] at result
    exact ⟨result, rfl⟩

/-- A session with a context of the seed 1 from which a text has been drawn. -/
def withDrawn : Session :=
  ((start (.fresh none ⟨fun _ => [], 0⟩ "")).run [.create "a" (.value (.integer 1)) none false,
    .call (.contextual .randomText) [.value (.integer 3)] (some "a")]).2

/-- A Boolean seeds like the number it counts as, and takes a context of that number back to where it began. -/
theorem reseeding_takes_effect_of_true :
    (∃ c, withDrawn.host.contexts[0]? = some c ∧ c.seed = .integer 1 ∧ c.generator ≠ Twister.ofNat 1) ∧
    (∃ answer, (withDrawn.step (.reseed (some "a") (.value (.boolean true)))).1.result = .ok answer) ∧
    ∃ c, (withDrawn.step (.reseed (some "a") (.value (.boolean true)))).2.host.contexts[0]? = some c ∧
      c.seed = .boolean true ∧ c.generator = Twister.ofNat 1 := by
  refine ⟨?_, ?_⟩
  · -- six outputs have been used for the three symbols of the text
    have drawn : withDrawn.host.contexts[0]?.map (fun c => (c.seed, c.generator.used.val)) = some (.integer 1, 6) := by
      decide +kernel
    obtain ⟨c, there, counts⟩ := Option.map_eq_some_iff.mp drawn
    obtain ⟨seed, used⟩ := Prod.mk.inj counts
    refine ⟨c, there, seed, fun fresh => ?_⟩
    rw [fresh] at used
    cases used
  · have known : withDrawn.context? (some "a") = some 0 := by decide +kernel
    have found : (Context.resolve (withDrawn.context? (some "a")) withDrawn.host).result = .ok 0 := by
      rw [known, Context.resolve_some]
    unfold withDrawn at found ⊢
    obtain ⟨⟨seed, c, given, _, after⟩, short, _⟩ := reseeding_takes_effect none ⟨fun _ => [], 0⟩ "" _ (some "a")
      (.boolean true) 1 (.reseed (some "a") (.value (.boolean true))) 0 rfl (.reseed rfl) found
    cases given
    exact ⟨short (by decide), _, after, rfl, rfl⟩

/-- A session with a context of the seed 1. -/
def withSeedOne : Session :=
  ((start (.fresh none ⟨fun _ => [], 0⟩ "")).run [.create "a" (.value (.integer 1)) none false]).2

theorem context?_withSeedOne : withSeedOne.context? (some "a") = some 0 := by decide +kernel

/-- The least number of too many digits as a new seed for the context of the seed 1: the step fails, but the context
    does not have its seed any more. -/
theorem reseeding_half_done :
    let st := Step.call (.contextual .setSeed) [.value (.integer (10 ^ Numeral.digitLimit))] (some "a")
    withSeedOne.host.contexts[0]?.map Context.seed = some (.integer 1) ∧
    (withSeedOne.step st).1.result = .error .tooManyDigits ∧
    (withSeedOne.step st).2.host.contexts[0]?.map Context.seed = some (.integer (10 ^ Numeral.digitLimit)) := by
  intro st
  have placed : withSeedOne.Placed := placed_run (placed_start _ _ _) _
  have resolved : Context.resolve (withSeedOne.context? (some "a")) withSeedOne.host =
      ⟨.ok 0, withSeedOne.host, []⟩ := by
    rw [context?_withSeedOne, Context.resolve_some]
  have reseeds : withSeedOne.Reseeds (some "a") (.integer (10 ^ Numeral.digitLimit)) st := .setSeed rfl
  obtain ⟨answer, result⟩ := result_of_reseeds reseeds rfl resolved
  obtain ⟨seed, c, given, _, after⟩ := context_of_reseeds placed reseeds rfl resolved
  cases given
  rw [Value.shown_of_unwritable rfl Numeral.not_writable_ten_pow] at result
  exact ⟨by decide +kernel, result, by rw [after]; rfl⟩

end Session

end Primitives
