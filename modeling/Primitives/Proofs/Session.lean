import Primitives.Session
import Primitives.Proofs.Errand
import Primitives.Proofs.Soundness

/-!
What the steps of a session do to the host. A step runs an operation in a context (`operation?`), and then the host is
that of the operation's errand (`host_step_of_operation`), or it does one of the few things that are listed in
`idle_cases` and only adds to the host (`extends_step`). A default context that was not there before is the one that the
seed variable has given.
-/
namespace Primitives.Session

/-- The operation that a step runs in a context, its arguments, and the context that is asked for. A call by name runs
    one if it is accepted, and hands on the context if its definition says so. -/
def operation? (s : Session) : Step → Option (ContextOperation × List Value × Option Handle)
  | .reseed name seed => some (.setSeed, [s.evaluate seed], s.context? name)
  | .call (.contextual operation) args name => some (operation, args.map s.evaluate, s.context? name)
  | .invoke name args context =>
    match s.registry.validateCall name (args.map s.evaluate) with
    | .ok ⟨_, _, _, _, .contextual operation, usesContext⟩ =>
      some (operation, args.map s.evaluate, if usesContext then s.context? context else none)
    | _ => none
  | _ => none

theorem host_step (s : Session) (st : Step) : (s.step st).2.host = (s.effectOf st s.host).host := by
  simp only [step]
  split <;> rfl

theorem run_cons (s : Session) (st : Step) (rest : List Step) :
    s.run (st :: rest) = ((s.step st).1 :: ((s.step st).2.run rest).1, ((s.step st).2.run rest).2) := rfl

theorem run_singleton (s : Session) (st : Step) : (s.run [st]).2 = (s.step st).2 := rfl

theorem run_append (s : Session) (first second : List Step) :
    (s.run (first ++ second)).2 = ((s.run first).2.run second).2 := by
  induction first generalizing s with
  | nil => rfl
  | cons st rest ih => exact ih (s.step st).2

theorem still_seedOf (handle : Handle) : Effect.Still (seedOf handle) :=
  Effect.Still.bind (fun _ => rfl) fun _ => Effect.still_pure _

theorem still_seedAnswer (handle : Handle) :
    Effect.Still (seedOf handle >>= fun seed => pure (Answer.value seed.toValue)) :=
  (still_seedOf handle).bind fun _ => Effect.still_pure _

section Operation

variable {s : Session} {st : Step} {operation : ContextOperation} {args : List Value} {context : Option Handle}

theorem host_effectOf_reseed (s : Session) (name : Option String) (seed : Argument) (host : Host) :
    (s.effectOf (.reseed name seed) host).host =
      ((ContextOperation.setSeed.errand [s.evaluate seed]).run (s.context? name) host).host := by
  simp only [effectOf, ContextOperation.errand]
  cases Seed.ofValue? (s.evaluate seed) with
  | none =>
    have refused {α : Type} (fault : Fault) : Effect.Still (Effect.fail fault : Effect α) :=
      Effect.still_ofExcept (.error fault)
    rw [Effect.host_bind_of_still _ fun _ => refused _, Errand.run, Effect.host_bind_of_still _ fun _ => refused _]
  | some given =>
    let seeding : Effect Handle := Context.resolve (s.context? name) >>= fun handle =>
      Context.reseed handle given >>= fun _ => pure handle
    have answered := Effect.host_bind_of_still seeding still_seedAnswer host
    have silent := Effect.host_bind_of_still seeding (fun _ => Effect.still_pure Value.nothing) host
    simp only [seeding, Effect.bind_assoc, Effect.pure_bind] at answered silent
    exact answered.trans silent.symm

theorem effectOf_of_operation (runs : s.operation? st = some (operation, args, context))
    (called : ∀ name seed, st ≠ .reseed name seed) (host : Host) :
    (s.effectOf st host).result = ((operation.errand args).run context host).result.map Answer.value ∧
    (s.effectOf st host).host = ((operation.errand args).run context host).host := by
  cases st with
  | reseed name seed => exact absurd rfl (called name seed)
  | call implementation given name =>
    cases implementation with
    | plain pure => cases runs
    | contextual operation =>
      cases runs
      simp only [effectOf, Builtin.call, Effect.bind_pure_apply, ContextOperation.run_eq, and_self]
  | invoke name given asked =>
    simp only [operation?] at runs
    split at runs
    · next checked =>
      cases runs
      simp only [effectOf, Effect.bind_pure_apply, Registry.invoke_of_accepted checked, Definition.run]
      split <;> simp only [Builtin.callWith, Builtin.call, ContextOperation.run_eq, and_self]
    · cases runs
  | _ => cases runs

theorem host_step_of_operation (runs : s.operation? st = some (operation, args, context)) :
    (s.step st).2.host = ((operation.errand args).run context s.host).host := by
  rw [host_step]
  by_cases seeding : ∃ name seed, st = .reseed name seed
  · obtain ⟨name, seed, rfl⟩ := seeding
    cases runs
    exact host_effectOf_reseed s name seed s.host
  · exact (effectOf_of_operation runs (fun name seed same => seeding ⟨name, seed, same⟩) s.host).2

theorem result_step_of_operation (runs : s.operation? st = some (operation, args, context))
    (other : operation ≠ .setSeed) :
    (s.step st).1.result = ((operation.errand args).run context s.host).result.map Answer.value := by
  refine (effectOf_of_operation runs (fun name seed same => ?_) s.host).1
  subst same
  cases runs
  exact other rfl

theorem host_step_of_lacking {fault : Fault} {found : Host} {log : List Notice}
    (runs : s.operation? st = some (operation, args, context))
    (lacking : Context.resolve context s.host = ⟨.error fault, found, log⟩) : (s.step st).2.host = s.host := by
  have same : found = s.host := by
    simpa [lacking] using Context.atomic_resolve context s.host fault (by rw [lacking])
  rw [host_step_of_operation runs]
  cases waiting : (operation.errand args).waits with
  | false => exact Errand.run_of_answer waiting context s.host
  | true => rw [Errand.run_of_lacking waiting lacking, same]

end Operation

/-! ### Steps that run no operation -/

/-- The contexts and the streams of the process are as before. -/
def Undisturbed (before after : Host) : Prop :=
  after.contexts = before.contexts ∧ after.input = before.input ∧ after.output = before.output

/-- The default context is new and has the seed that the seed variable gives. -/
def MadeDefault (before after : Host) : Prop :=
  before.defaultContext = none ∧ ∃ seed, Context.seedOfVariable before.seedVariable = .ok seed ∧
    after = before.withDefault seed

theorem still_ofExcept_bind {α β : Type} (result : Except Fault α) (value : α → β) :
    Effect.Still (Effect.ofExcept result >>= fun a => pure (value a)) :=
  (Effect.still_ofExcept result).bind fun _ => Effect.still_pure _

theorem host_resolve_cases (context : Option Handle) (host : Host) :
    (Context.resolve context host).host = host ∨ MadeDefault host (Context.resolve context host).host := by
  rcases Context.resolve_cases context host with ⟨_, raw, failed⟩ | ⟨_, handle, found⟩ |
    ⟨_, _, vacant, seed, message, given, made⟩
  · exact .inl (by rw [failed])
  · exact .inl (by rw [found])
  · exact .inr ⟨vacant, seed, given, by rw [made]⟩

theorem host_effectOf_resolve (s : Session) (name : Option String) (host : Host) :
    (s.effectOf (.resolve name) host).host = host ∨ MadeDefault host (s.effectOf (.resolve name) host).host := by
  have shown (handle standing : Handle) : Effect.Still (seedOf handle >>= fun seed =>
      pure (Answer.resolved (s.nameOf? handle) seed (handle == standing))) :=
    (still_seedOf handle).bind fun _ => Effect.still_pure _
  rcases Context.resolve_cases (s.context? name) host with ⟨_, raw, failed⟩ | ⟨_, handle, found⟩ |
    ⟨_, _, vacant, seed, message, given, made⟩
  · rw [effectOf, Effect.bind_of_error failed]
    exact .inl rfl
  · rw [effectOf, Effect.bind_of_ok found, Effect.host_bind_of_still _ (shown handle)]
    exact host_resolve_cases none host
  · have standing : Context.resolve none (host.withDefault seed) =
        ⟨.ok host.contexts.length, host.withDefault seed, []⟩ := Context.resolve_of_default rfl
    rw [effectOf, Effect.bind_of_ok made, Effect.host_bind_of_still _ (shown _), standing]
    exact .inr ⟨vacant, seed, given, rfl⟩

/-- A step that makes a context makes it at the end of the list, with the streams asked for, or it fails and does
    nothing. -/
theorem effectOf_create_cases (s : Session) (name : String) (seed : Argument) (input : Option String) (ownOutput : Bool)
    (host : Host) :
    (∃ fault, (s.effectOf (.create name seed input ownOutput) host).result = .error fault ∧
      (s.effectOf (.create name seed input ownOutput) host).host = host) ∨
    (∃ given : Seed, (s.effectOf (.create name seed input ownOutput) host).result = .ok (.value given.toValue) ∧
      (s.effectOf (.create name seed input ownOutput) host).host =
        host.grown given (input.map String.toList) (if ownOutput then some "" else none)) := by
  simp only [effectOf]
  cases Seed.ofValue? (s.evaluate seed) with
  | none => exact .inl ⟨.mistyped, rfl, rfl⟩
  | some seed =>
    simp only [Effect.host_bind_of_still _ still_seedAnswer]
    rcases Context.create_cases seed (input.map String.toList) (if ownOutput then some "" else none) host with
      ⟨fault, failed⟩ | ⟨given, message, made⟩
    · exact .inl ⟨fault, by rw [Effect.bind_of_error failed], by rw [failed]⟩
    · refine .inr ⟨given, ?_, by rw [made]⟩
      rw [Effect.bind_of_ok made, Effect.bind_pure_apply]
      simp [seedOf, Effect.bind_pure_apply, Host.grown, Except.map]

theorem still_invoke_of_idle {s : Session} {name : String} {args : List Argument} {context : Option String}
    (idle : s.operation? (.invoke name args context) = none) :
    Effect.Still (s.effectOf (.invoke name args context)) := by
  refine Effect.Still.bind (fun host => ?_) fun _ => Effect.still_pure _
  cases checked : s.registry.validateCall name (args.map s.evaluate) with
  | error fault => rw [Registry.invoke_of_rejected checked, Effect.fail_apply]
  | ok d =>
    rw [Registry.invoke_of_accepted checked]
    obtain ⟨_, _, _, _, implementation, usesContext⟩ := d
    cases implementation with
    | contextual operation => simp [operation?, checked] at idle
    | plain operation => cases usesContext <;> rfl

/-- What a step that runs no operation can do: nothing to the host, or set the seed variable or the default context, or
    make a context, or make the default one. -/
theorem idle_cases {s : Session} {st : Step} (idle : s.operation? st = none) :
    (s.step st).2.host = s.host ∨
    (∃ content, st = .setVariable content ∧ (s.step st).2.host = { s.host with seedVariable := content }) ∨
    (∃ name, st = .setDefault name ∧ (s.step st).2.host = { s.host with defaultContext := s.context? name }) ∨
    (∃ seed input output, (s.step st).2.host = s.host.grown seed input output) ∨
    ((∃ name, st = .resolve name) ∧ MadeDefault s.host (s.step st).2.host) := by
  rw [host_step]
  cases st with
  | create name seed input ownOutput =>
    rcases effectOf_create_cases s name seed input ownOutput s.host with ⟨_, _, same⟩ | ⟨given, _, made⟩
    · exact .inl same
    · exact .inr (.inr (.inr (.inl ⟨given, _, _, made⟩)))
  | resolve name =>
    rcases host_effectOf_resolve s name s.host with same | made
    · exact .inl same
    · exact .inr (.inr (.inr (.inr ⟨⟨name, rfl⟩, made⟩)))
  | setVariable content => exact .inr (.inl ⟨content, rfl, rfl⟩)
  | setDefault name => exact .inr (.inr (.inl ⟨name, rfl, rfl⟩))
  | reseed name seed => cases idle
  | call implementation args name =>
    cases implementation with
    | plain operation => exact .inl (still_ofExcept_bind _ _ _)
    | contextual operation => cases idle
  | invoke name args context => exact .inl (still_invoke_of_idle idle _)
  | method v name args | property v name | register request | validateCall name args =>
    exact .inl (still_ofExcept_bind _ _ _)
  | names area =>
    cases area with
    | none => exact .inl rfl
    | some name =>
      simp only [effectOf]
      cases areaOf name <;> exact .inl rfl
  | useRegistry new | has name | get name => exact .inl rfl

theorem host_step_of_idle {s : Session} {st : Step} (idle : s.operation? st = none) :
    Undisturbed s.host (s.step st).2.host ∨
    (∃ seed input output, (s.step st).2.host = s.host.grown seed input output) ∨
    MadeDefault s.host (s.step st).2.host := by
  rcases idle_cases idle with same | ⟨content, _, host⟩ | ⟨name, _, host⟩ | grown | ⟨_, made⟩
  · exact .inl (by rw [same]; exact ⟨rfl, rfl, rfl⟩)
  · exact .inl (by rw [host]; exact ⟨rfl, rfl, rfl⟩)
  · exact .inl (by rw [host]; exact ⟨rfl, rfl, rfl⟩)
  · exact .inr (.inl grown)
  · exact .inr (.inr made)

theorem extends_step {s : Session} {st : Step} (idle : s.operation? st = none) :
    s.host.Extends (s.step st).2.host := by
  rcases host_step_of_idle idle with ⟨contexts, input, output⟩ | ⟨seed, input, output, made⟩ | ⟨_, seed, _, made⟩
  · exact ⟨input, output, contexts ▸ List.prefix_refl _⟩
  · rw [made]
    exact s.host.extends_grown seed input output
  · rw [made]
    exact s.host.extends_withDefault seed

end Primitives.Session
