import Primitives.Context
import Primitives.Proofs.Effect
import Primitives.Proofs.Numeral

/-!
What making and finding a context does to the host. A seed that can be shown makes a context at the end of the
list (`create_entropy_apply`). A context that is asked for is there, or is made as the default one, or cannot be made
because of the seed variable; in the last case nothing has changed (`resolve_cases`).
-/
namespace Primitives

/-- The generator of a seed, and the entropy that is left. -/
def Seed.generator (entropy : Entropy) : Seed → Twister × Entropy
  | .entropy => (Twister.ofKey (entropy.key entropy.used), { entropy with used := entropy.used + 1 })
  | .integer n => (Twister.ofNat n.natAbs, entropy)
  | .boolean b => (Twister.ofNat (if b then 1 else 0), entropy)

namespace Host

/-- The host with a new context of the given seed and streams. -/
def grown (host : Host) (seed : Seed) (input : Option (List Char)) (output : Option String) : Host :=
  { host with
    entropy := (seed.generator host.entropy).2
    contexts := host.contexts ++ [⟨seed, (seed.generator host.entropy).1, input, output⟩] }

/-- The host with a new default context of the given seed. -/
def withDefault (host : Host) (seed : Seed) : Host :=
  { host.grown seed none none with defaultContext := some host.contexts.length }

/-- A part of a context that a change leaves alone is the same in all contexts afterwards. -/
theorem bind_modifyContext {α : Type} (host : Host) (handle other : Handle) {change : Context → Context}
    {part : Context → Option α} (same : ∀ c, part (change c) = part c) :
    (host.modifyContext handle change).contexts[other]?.bind part = host.contexts[other]?.bind part := by
  simp only [modifyContext, List.getElem?_modify]
  cases there : host.contexts[other]? with
  | none => rfl
  | some c => by_cases here : handle = other <;> simp [here, same]

end Host

namespace Context

/-- The content of the seed variable without what an outer trim removes. -/
def stripped (content : String) : String :=
  String.ofList (Character.trim Character.isOuterBlank content.toList)

/-- The seed variable is set, not blank and no numeral. -/
def BadVariable (content : Option String) : Prop :=
  ∃ text, content = some text ∧ stripped text ≠ "" ∧ Numeral.read? (stripped text) = none

theorem seedOfVariable_of_bad {content : Option String} (bad : BadVariable content) :
    ∃ raw, seedOfVariable content = .error (.badSeed raw) := by
  obtain ⟨text, rfl, notBlank, noNumeral⟩ := bad
  refine ⟨stripped text, ?_⟩
  rw [stripped] at notBlank noNumeral ⊢
  simp [seedOfVariable, notBlank, noNumeral]

/-- A text that is read as a number gives that number as the seed variable too, though it is trimmed more there. -/
theorem seedOfVariable_of_read? {text : String} {n : Int} (read : Numeral.read? text = some n) :
    seedOfVariable (some text) = .ok (.integer n) := by
  obtain ⟨⟨first, begins, firstKept⟩, last, ends, lastKept⟩ := Numeral.ends_of_readSigned? read
  have same : Character.trim Character.isOuterBlank text.toList = Character.trim Character.isBlank text.toList :=
    Character.trim_of_wider (fun c blank => by rw [Character.isOuterBlank, blank, Bool.true_or]) begins ends
      firstKept lastKept
  have again : Numeral.read? (String.ofList (Character.trim Character.isBlank text.toList)) = some n :=
    Numeral.read?_of_readSigned? (by rw [String.toList_ofList]; exact read)
  have notEmpty : Character.trim Character.isBlank text.toList ≠ [] := by
    intro nothing
    rw [nothing] at begins
    cases begins
  simp [seedOfVariable, same, again, notEmpty]

theorem creationMessage_integer {n : Int} (writable : Numeral.Writable n) :
    creationMessage (.integer n) = .ok ("Runtime context created with seed " ++ Numeral.write n) := by
  simp [creationMessage, Seed.toValue, Value.shown, writable, bind, Except.bind, pure, Except.pure]

/-- A seed variable that is not bad gives entropy or a number that can be shown. -/
theorem seedOfVariable_of_good {content : Option String} (good : ¬ BadVariable content) :
    ∃ seed message, seedOfVariable content = .ok seed ∧ creationMessage seed = .ok message := by
  by_cases blank : stripped (content.getD "") = ""
  · refine ⟨.entropy, _, ?_, rfl⟩
    rw [stripped] at blank
    simp [seedOfVariable, blank]
  · obtain ⟨text, rfl⟩ : ∃ text, content = some text := by
      cases content with
      | none => exact absurd (by decide) blank
      | some text => exact ⟨text, rfl⟩
    cases read : Numeral.read? (stripped text) with
    | none => exact absurd ⟨text, rfl, blank, read⟩ good
    | some n =>
      refine ⟨.integer n, _, ?_, creationMessage_integer (Numeral.writable_of_read? read)⟩
      rw [stripped] at blank read
      simp_all [seedOfVariable]

theorem generatorOf_apply (seed : Seed) (host : Host) :
    generatorOf seed host =
      ⟨.ok (seed.generator host.entropy).1, { host with entropy := (seed.generator host.entropy).2 }, []⟩ := by
  cases seed <;> rfl

/-- Making a context with the seed that the variable gives. -/
theorem create_entropy_apply {seed : Seed} {host : Host} {message : String}
    (given : seedOfVariable host.seedVariable = .ok seed) (shown : creationMessage seed = .ok message)
    (input : Option (List Char)) (output : Option String) :
    create .entropy input output host =
      ⟨.ok host.contexts.length, host.grown seed input output, [⟨.contexts, message⟩]⟩ := by
  simp [create, bind, Effect.bind, given, shown, generatorOf_apply, Host.grown]

theorem create_of_seed {seed : Seed} {message : String} (given : seed ≠ .entropy)
    (shown : creationMessage seed = .ok message) (input : Option (List Char)) (output : Option String) (host : Host) :
    create seed input output host =
      ⟨.ok host.contexts.length, host.grown seed input output, [⟨.contexts, message⟩]⟩ := by
  cases seed with
  | entropy => exact absurd rfl given
  | integer n | boolean b => simp [create, bind, Effect.bind, shown, generatorOf_apply, Host.grown]

/-- A seed variable that is bad keeps a context without a seed of its own from being made. -/
theorem create_entropy_of_bad {host : Host} {fault : Fault} (bad : seedOfVariable host.seedVariable = .error fault)
    (input : Option (List Char)) (output : Option String) :
    create .entropy input output host = ⟨.error fault, host, []⟩ := by
  simp [create, bind, Effect.bind, bad]

/-- A context is made at the end of the list, or nothing changes. -/
theorem create_cases (seed : Seed) (input : Option (List Char)) (output : Option String) (host : Host) :
    (∃ fault, create seed input output host = ⟨.error fault, host, []⟩) ∨
    (∃ given message, create seed input output host =
      ⟨.ok host.contexts.length, host.grown given input output, [⟨.contexts, message⟩]⟩) := by
  by_cases taken : seed = .entropy
  · subst taken
    by_cases bad : BadVariable host.seedVariable
    · obtain ⟨raw, failed⟩ := seedOfVariable_of_bad bad
      exact .inl ⟨_, create_entropy_of_bad failed input output⟩
    · obtain ⟨given, message, read, shown⟩ := seedOfVariable_of_good bad
      exact .inr ⟨given, message, create_entropy_apply read shown input output⟩
  · cases shown : creationMessage seed with
    | ok message => exact .inr ⟨seed, message, create_of_seed taken shown input output host⟩
    | error fault =>
      refine .inl ⟨fault, ?_⟩
      cases seed with
      | entropy => exact absurd rfl taken
      | integer n | boolean b => simp [create, bind, Effect.bind, shown]

end Context

/-- No context is given, there is no default one, and none can be made. -/
def Host.LacksContext (host : Host) (context : Option Handle) : Prop :=
  context = none ∧ host.defaultContext = none ∧ Context.BadVariable host.seedVariable

namespace Context

@[simp] theorem resolve_some (handle : Handle) (host : Host) : resolve (some handle) host = ⟨.ok handle, host, []⟩ :=
  rfl

theorem resolve_of_default {host : Host} {handle : Handle} (standing : host.defaultContext = some handle) :
    resolve none host = ⟨.ok handle, host, []⟩ := by
  simp [resolve, obtainDefault, bind, Effect.bind, standing]

/-- The default context is made with the seed that the variable gives. -/
theorem resolve_of_good {host : Host} {seed : Seed} {message : String} (vacant : host.defaultContext = none)
    (given : seedOfVariable host.seedVariable = .ok seed) (shown : creationMessage seed = .ok message) :
    resolve none host = ⟨.ok host.contexts.length, host.withDefault seed, [⟨.contexts, message⟩]⟩ := by
  simp [resolve, obtainDefault, bind, Effect.bind, vacant, create_entropy_apply given shown, Host.withDefault]

theorem resolve_of_bad {host : Host} {fault : Fault} (vacant : host.defaultContext = none)
    (bad : seedOfVariable host.seedVariable = .error fault) : resolve none host = ⟨.error fault, host, []⟩ := by
  simp [resolve, obtainDefault, bind, Effect.bind, vacant, create_entropy_of_bad bad]

/-- Finding a context does one of three things: it fails and changes nothing, it finds what is there, or it makes
    the default context. -/
theorem resolve_cases (context : Option Handle) (host : Host) :
    (host.LacksContext context ∧ ∃ raw, resolve context host = ⟨.error (.badSeed raw), host, []⟩) ∨
    (¬ host.LacksContext context ∧ ∃ handle, resolve context host = ⟨.ok handle, host, []⟩) ∨
    (¬ host.LacksContext context ∧ context = none ∧ host.defaultContext = none ∧
      ∃ seed message, seedOfVariable host.seedVariable = .ok seed ∧
        resolve context host = ⟨.ok host.contexts.length, host.withDefault seed, [⟨.contexts, message⟩]⟩) := by
  cases context with
  | some handle => exact .inr (.inl ⟨fun lacks => Option.some_ne_none handle lacks.1, handle, rfl⟩)
  | none =>
    cases standing : host.defaultContext with
    | some handle =>
      refine .inr (.inl ⟨fun lacks => ?_, handle, resolve_of_default standing⟩)
      rw [lacks.2.1] at standing
      cases standing
    | none =>
      by_cases bad : BadVariable host.seedVariable
      · obtain ⟨raw, failed⟩ := seedOfVariable_of_bad bad
        exact .inl ⟨⟨rfl, standing, bad⟩, raw, resolve_of_bad standing failed⟩
      · obtain ⟨seed, message, given, shown⟩ := seedOfVariable_of_good bad
        exact .inr (.inr ⟨fun lacks => bad lacks.2.2, rfl, rfl, seed, message, given,
          resolve_of_good standing given shown⟩)

theorem resolve_of_lacks {context : Option Handle} {host : Host} (lacks : host.LacksContext context) :
    ∃ raw, resolve context host = ⟨.error (.badSeed raw), host, []⟩ := by
  rcases resolve_cases context host with ⟨_, failed⟩ | ⟨has, _⟩ | ⟨has, _⟩
  · exact failed
  · exact absurd lacks has
  · exact absurd lacks has

theorem resolve_of_has {context : Option Handle} {host : Host} (has : ¬ host.LacksContext context) :
    ∃ handle after log, resolve context host = ⟨.ok handle, after, log⟩ := by
  rcases resolve_cases context host with ⟨lacks, _⟩ | ⟨_, handle, found⟩ | ⟨_, _, _, seed, message, _, made⟩
  · exact absurd lacks has
  · exact ⟨handle, host, [], found⟩
  · exact ⟨_, _, _, made⟩

theorem atomic_resolve (context : Option Handle) : Effect.Atomic (resolve context) := by
  intro host fault failed
  rcases resolve_cases context host with ⟨_, raw, lacking⟩ | ⟨_, handle, found⟩ | ⟨_, _, _, seed, message, _, made⟩
  · rw [lacking]
  · rw [found]
  · rw [made] at failed
    cases failed

end Context

end Primitives
