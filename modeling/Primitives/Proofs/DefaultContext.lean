import Primitives.Proofs.Reproducibility

/-!
The life of the default context. It is set by a step of its own, or made by a step that looks for it (`Seeks`) while
there is none and the seed variable offers a seed (`defaultContext_step`). A step that makes it goes on as if it had been
there before (`step_of_offers`). Once it is there it stays, and its generator goes its course (`generator?_run`), until
another one is set. A seed variable that offers nothing makes the step fail and nothing else (`step_of_bad`).
-/
namespace Primitives

namespace Context

/-- The seed that the seed variable offers, if it is unset, blank or a numeral between blanks. -/
inductive Offers : Option String → Seed → Prop
  | unset : Offers none .entropy
  | blank {text : String} : stripped text = "" → Offers (some text) .entropy
  | numeral {text : String} {n : Int} : Numeral.read? (stripped text) = some n → Offers (some text) (.integer n)

theorem seedOfVariable_of_offers {content : Option String} {seed : Seed} (offers : Offers content seed) :
    seedOfVariable content = .ok seed := by
  cases offers with
  | unset => rfl
  | blank blank =>
    rw [stripped] at blank
    simp [seedOfVariable, blank]
  | @numeral text n read =>
    have notBlank : stripped text ≠ "" := by
      intro blank
      rw [blank, show Numeral.read? "" = none by decide] at read
      cases read
    rw [stripped] at notBlank read
    simp [seedOfVariable, notBlank, read]

theorem offers_of_seedOfVariable {content : Option String} {seed : Seed} (given : seedOfVariable content = .ok seed) :
    Offers content seed := by
  cases content with
  | none =>
    cases given
    exact .unset
  | some text =>
    by_cases blank : stripped text = ""
    · rw [seedOfVariable_of_offers (.blank blank)] at given
      cases given
      exact .blank blank
    · cases read : Numeral.read? (stripped text) with
      | some n =>
        rw [seedOfVariable_of_offers (.numeral read)] at given
        cases given
        exact .numeral read
      | none =>
        obtain ⟨raw, failed⟩ := seedOfVariable_of_bad ⟨text, rfl, blank, read⟩
        rw [given] at failed
        cases failed

theorem not_offers_of_bad {content : Option String} {seed : Seed} (bad : BadVariable content) : ¬ Offers content seed := by
  intro offers
  obtain ⟨raw, failed⟩ := seedOfVariable_of_bad bad
  rw [seedOfVariable_of_offers offers] at failed
  cases failed

theorem resolve_of_offers {host : Host} {seed : Seed} (vacant : host.defaultContext = none)
    (offers : Offers host.seedVariable seed) :
    ∃ message, resolve none host =
      ⟨.ok host.contexts.length, host.withDefault seed, [⟨.contexts, message⟩]⟩ := by
  have given := seedOfVariable_of_offers offers
  obtain ⟨made, message, again, shown⟩ := seedOfVariable_of_good fun bad => not_offers_of_bad bad offers
  rw [given] at again
  cases again
  exact ⟨message, resolve_of_good vacant given shown⟩

end Context

namespace Session

open Context

/-- The step looks for the default context: to compare a context with it, or because it runs an operation that needs a
    context and is given none. -/
def Seeks (s : Session) (st : Step) : Prop :=
  (∃ name, st = .resolve name) ∨
  ∃ operation args, s.operation? st = some (operation, args, none) ∧ (operation.errand args).waits = true

variable {s : Session} {st : Step} {seed : Seed} {handle : Handle}

/-! ### Changes of the default context -/

theorem madeDefault_offers {before after : Host} (made : MadeDefault before after) :
    before.defaultContext = none ∧ ∃ seed, Offers before.seedVariable seed ∧ after = before.withDefault seed := by
  obtain ⟨vacant, seed, given, after⟩ := made
  exact ⟨vacant, seed, offers_of_seedOfVariable given, after⟩

/-- A step that does not set the default context leaves it alone, or it looks for one where there is none and makes it. -/
theorem defaultContext_step (s : Session) (notSet : ∀ name, st ≠ .setDefault name) :
    (s.step st).2.host.defaultContext = s.host.defaultContext ∨
    (s.Seeks st ∧ s.host.defaultContext = none ∧ (∃ seed, Offers s.host.seedVariable seed) ∧
      (s.step st).2.host.defaultContext = some s.host.contexts.length ∧
      (s.step st).2.host.contexts.length = s.host.contexts.length + 1) := by
  cases runs : s.operation? st with
  | none =>
    rcases idle_cases runs with same | ⟨content, _, host⟩ | ⟨name, set, _⟩ | ⟨seed, input, output, grown⟩ |
      ⟨⟨name, resolves⟩, made⟩
    · exact .inl (by rw [same])
    · exact .inl (by rw [host])
    · exact absurd set (notSet name)
    · exact .inl (by rw [grown]; rfl)
    · obtain ⟨vacant, seed, offers, after⟩ := madeDefault_offers made
      refine .inr ⟨.inl ⟨name, resolves⟩, vacant, ⟨seed, offers⟩, by rw [after]; rfl, ?_⟩
      rw [after]
      simp [Host.withDefault, Host.grown]
  | some run =>
    obtain ⟨operation, args, context⟩ := run
    rw [host_step_of_operation runs]
    cases waiting : (operation.errand args).waits with
    | false => exact .inl (by rw [Errand.run_of_answer waiting])
    | true =>
      rcases resolve_cases context s.host with ⟨_, raw, lacking⟩ | ⟨_, target, found⟩ |
        ⟨_, absent, vacant, seed, message, given, made⟩
      · exact .inl (by rw [Errand.run_of_lacking waiting lacking])
      · exact .inl (by rw [(Errand.run_of_found waiting found).2, (Errand.beside_act _ _ _).standing])
      · subst absent
        refine .inr ⟨.inr ⟨operation, args, runs, waiting⟩, vacant, ⟨seed, offers_of_seedOfVariable given⟩, ?_, ?_⟩
        · rw [(Errand.run_of_found waiting made).2, (Errand.beside_act _ _ _).standing]
          rfl
        · rw [(Errand.run_of_found waiting made).2, (Errand.beside_act _ _ _).length]
          simp [Host.withDefault, Host.grown]

theorem defaultContext_step_of_standing (standing : s.host.defaultContext = some handle)
    (notSet : ∀ name, st ≠ .setDefault name) : (s.step st).2.host.defaultContext = some handle := by
  rcases defaultContext_step s notSet with same | ⟨_, vacant, _⟩
  · rw [same, standing]
  · rw [vacant] at standing
    cases standing

theorem defaultContext_run {steps : List Step} (standing : s.host.defaultContext = some handle)
    (notSet : ∀ name, .setDefault name ∉ steps) : (s.run steps).2.host.defaultContext = some handle := by
  induction steps generalizing s with
  | nil => exact standing
  | cons st rest ih =>
    have differs : ∀ name, st ≠ .setDefault name := fun name same => notSet name (by simp [same])
    have kept := defaultContext_step_of_standing standing differs
    exact ih kept fun name member => notSet name (List.mem_cons_of_mem st member)

theorem ne_setDefault_of_seeks (seeks : s.Seeks st) (name : Option String) : st ≠ .setDefault name := by
  rintro rfl
  rcases seeks with ⟨_, resolves⟩ | ⟨_, _, runs, _⟩
  · cases resolves
  · cases runs

/-! ### The places of contexts -/

/-- The default context and those with a name are among the contexts of the host. -/
structure Placed (s : Session) : Prop where
  standing : ∀ handle, s.host.defaultContext = some handle → handle < s.host.contexts.length
  named : ∀ entry ∈ s.contexts, entry.2 < s.host.contexts.length

theorem length_step (s : Session) (st : Step) : s.host.contexts.length ≤ (s.step st).2.host.contexts.length := by
  cases runs : s.operation? st with
  | none => exact (extends_step runs).contexts.length_le
  | some run =>
    obtain ⟨operation, args, context⟩ := run
    rw [host_step_of_operation runs]
    have extended := extends_resolve context s.host
    cases waiting : (operation.errand args).waits with
    | false => rw [Errand.run_of_answer waiting]
    | true =>
      rcases resolved : resolve context s.host with ⟨fault | target, found, log⟩
      · rw [resolved] at extended
        rw [Errand.run_of_lacking waiting resolved]
        exact extended.contexts.length_le
      · rw [resolved] at extended
        rw [(Errand.run_of_found waiting resolved).2, (Errand.beside_act _ _ _).length]
        exact extended.contexts.length_le

/-- Names are given to contexts that have just been made. -/
theorem contexts_step (s : Session) (st : Step) :
    (s.step st).2.contexts = s.contexts ∨
    ∃ name, (s.step st).2.contexts = (name, s.host.contexts.length) :: s.contexts ∧
      s.host.contexts.length < (s.step st).2.host.contexts.length := by
  cases st with
  | create name seed input ownOutput =>
    rcases effectOf_create_cases s name seed input ownOutput s.host with ⟨fault, failed, _⟩ | ⟨given, ended, host⟩
    · exact .inl (by simp only [step, failed])
    · refine .inr ⟨name, ?_, ?_⟩
      · simp [step, ended, settled, host, Host.grown]
      · rw [host_step, host]
        simp [Host.grown]
  | register request =>
    left
    simp only [step, settled, updateRegistry]
    repeat' split
    all_goals rfl
  | _ =>
    left
    simp only [step, settled]
    split <;> rfl

theorem placed_start (content : Option String) (entropy : Entropy) (input : String) :
    (start (.fresh content entropy input)).Placed where
  standing := by
    intro handle standing
    cases standing
  named := by
    intro entry member
    cases member

theorem lt_of_context? (placed : s.Placed) {name : Option String} (known : s.context? name = some handle) :
    handle < s.host.contexts.length := by
  obtain ⟨name, rfl, found⟩ := Option.bind_eq_some_iff.mp known
  obtain ⟨earlier, later, all, _⟩ := List.lookup_eq_some_iff.mp found
  exact placed.named (name, handle) (by simp [all])

theorem placed_step (placed : s.Placed) (st : Step) : (s.step st).2.Placed where
  standing := by
    intro handle standing
    by_cases set : ∃ name, st = .setDefault name
    · obtain ⟨name, rfl⟩ := set
      have known : s.context? name = some handle := standing
      have inside := lt_of_context? placed known
      exact inside
    · rcases defaultContext_step s fun name same => set ⟨name, same⟩ with same | ⟨_, _, _, filled, longer⟩
      · exact Nat.lt_of_lt_of_le (placed.standing handle (same.symm.trans standing)) (length_step s st)
      · cases filled.symm.trans standing
        rw [longer]
        exact Nat.lt_succ_self _
  named := by
    intro entry member
    have before : ∀ entry ∈ s.contexts, entry.2 < (s.step st).2.host.contexts.length := fun entry member =>
      Nat.lt_of_lt_of_le (placed.named entry member) (length_step s st)
    rcases contexts_step s st with same | ⟨name, added, longer⟩
    · rw [same] at member
      exact before entry member
    · rw [added] at member
      rcases List.mem_cons.mp member with rfl | earlier
      · exact longer
      · exact before entry earlier

theorem placed_run (placed : s.Placed) (steps : List Step) : (s.run steps).2.Placed := by
  induction steps generalizing s with
  | nil => exact placed
  | cons st rest ih => exact ih (placed_step placed st)

theorem nameOf?_of_new (placed : s.Placed) : s.nameOf? s.host.contexts.length = none := by
  have unnamed : s.contexts.find? (·.2 == s.host.contexts.length) = none := by
    rw [List.find?_eq_none]
    intro entry member same
    have inside := placed.named entry member
    rw [eq_of_beq same] at inside
    exact Nat.lt_irrefl _ inside
  rw [nameOf?, unnamed, Option.map_none]

/-! ### Steps that look for the default context -/

theorem effectOf_withHost (s : Session) (host : Host) (st : Step) :
    ({ s with host } : Session).effectOf st = s.effectOf st := by
  cases st <;> rfl

theorem settled_withHost (s : Session) (host after : Host) (results : List Value) (st : Step) :
    { ({ s with host } : Session).settled after st with host := after, results := results } =
      { s.settled after st with host := after, results := results } := by
  cases st with
  | register request =>
    simp only [settled, updateRegistry, registry]
    repeat' split
    all_goals rfl
  | _ => rfl

/-- Sessions that differ in their hosts only do the same in a step that has the same effect on both. -/
theorem step_withHost (host : Host) (result : (s.effectOf st s.host).result = (s.effectOf st host).result)
    (after : (s.effectOf st s.host).host = (s.effectOf st host).host) :
    (s.step st).1.result = (({ s with host } : Session).step st).1.result ∧
    (s.step st).2 = (({ s with host } : Session).step st).2 := by
  simp only [step, effectOf_withHost, result, after, settled_withHost, true_and]

/-- A step that looks for the default context does so first. -/
theorem effectOf_of_seeks (seeks : s.Seeks st) :
    ∃ next : Handle → Effect Answer, ∀ host,
      (s.effectOf st host).result = ((resolve none >>= next) host).result ∧
      (s.effectOf st host).host = ((resolve none >>= next) host).host := by
  rcases seeks with ⟨name, rfl⟩ | ⟨operation, args, runs, waiting⟩
  · rw [effectOf]
    cases s.context? name with
    | none => exact ⟨_, fun host => ⟨rfl, rfl⟩⟩
    | some handle => exact ⟨_, fun host => ⟨rfl, rfl⟩⟩
  · by_cases seeding : ∃ name seed, st = .reseed name seed
    · obtain ⟨name, seed, rfl⟩ := seeding
      have absent : s.context? name = none := by
        cases known : s.context? name with
        | none => rfl
        | some handle => simp [operation?, known] at runs
      rw [effectOf, absent]
      exact ⟨_, fun host => ⟨rfl, rfl⟩⟩
    · obtain ⟨next, first⟩ := Errand.exists_run_eq waiting none
      refine ⟨fun handle => next handle >>= fun v => pure (.value v), fun host => ?_⟩
      rw [← Effect.bind_assoc, ← first, Effect.bind_pure_apply]
      exact effectOf_of_operation runs (fun name seed same => seeding ⟨name, seed, same⟩) host

/-- A step that makes the default context goes on as if it had been there. -/
theorem step_of_offers (seeks : s.Seeks st) (vacant : s.host.defaultContext = none)
    (offers : Offers s.host.seedVariable seed) :
    (s.step st).1.result = (({ s with host := s.host.withDefault seed } : Session).step st).1.result ∧
    (s.step st).2 = (({ s with host := s.host.withDefault seed } : Session).step st).2 := by
  obtain ⟨next, first⟩ := effectOf_of_seeks seeks
  obtain ⟨message, made⟩ := resolve_of_offers vacant offers
  have standing : resolve none (s.host.withDefault seed) = ⟨.ok s.host.contexts.length, s.host.withDefault seed, []⟩ :=
    resolve_of_default rfl
  apply step_withHost
  · rw [(first s.host).1, (first _).1, Effect.bind_of_ok made, Effect.bind_of_ok standing]
  · rw [(first s.host).2, (first _).2, Effect.bind_of_ok made, Effect.bind_of_ok standing]

/-- A step that cannot make the default context fails and changes nothing. -/
theorem step_of_bad {fault : Fault} (seeks : s.Seeks st) (vacant : s.host.defaultContext = none)
    (bad : seedOfVariable s.host.seedVariable = .error fault) :
    (s.step st).1.result = .error fault ∧ (s.step st).2 = { s with results := s.results ++ [.nothing] } := by
  obtain ⟨next, first⟩ := effectOf_of_seeks seeks
  have failed := first s.host
  rw [Effect.bind_of_error (resolve_of_bad vacant bad)] at failed
  refine ⟨failed.1, ?_⟩
  simp only [step, failed.1, failed.2]

/-- The default context as a step shows it. -/
theorem result_resolve_of_offers (placed : s.Placed) (vacant : s.host.defaultContext = none)
    (offers : Offers s.host.seedVariable seed) :
    (s.step (.resolve none)).1.result = .ok (.resolved none seed true) ∧
    (s.step (.resolve none)).2.host = s.host.withDefault seed := by
  obtain ⟨message, made⟩ := resolve_of_offers vacant offers
  have standing : resolve none (s.host.withDefault seed) = ⟨.ok s.host.contexts.length, s.host.withDefault seed, []⟩ :=
    resolve_of_default rfl
  have shown : s.effectOf (.resolve none) s.host =
      ⟨.ok (.resolved none seed true), s.host.withDefault seed, [⟨.contexts, message⟩]⟩ := by
    have absent : s.context? none = none := rfl
    rw [effectOf, absent, Effect.bind_of_ok made, Effect.bind_of_ok standing, Effect.bind_pure_apply]
    simp [seedOf, Effect.bind_pure_apply, Host.withDefault, Host.grown, Except.map, nameOf?_of_new placed]
  exact ⟨by simp only [step, shown], by rw [host_step, shown]⟩

/-! ### The generator of a context -/

/-- The draws in a context, each with what the generator gives that is in force then, and the generator in the end. A
    new seed puts another generator in force. -/
def course (handle : Handle) : Session → List Step → Twister → List (Draw × Except Fault Answer) × Twister
  | _, [], g => ([], g)
  | s, st :: rest, g =>
    match s.draw? handle st, s.reseeding? handle st with
    | some d, _ =>
      let later := course handle (s.step st).2 rest (d.take g).2
      ((d, (d.take g).1.map Answer.value) :: later.1, later.2)
    | none, some seed => course handle (s.step st).2 rest (seed.generator s.host.entropy).1
    | none, none => course handle (s.step st).2 rest g

variable {g : Twister}

theorem generator?_of_reseeding (there : s.host.generator? handle = some g)
    (reseeds : s.reseeding? handle st = some seed) :
    (s.step st).2.host.generator? handle = some (seed.generator s.host.entropy).1 := by
  obtain ⟨_, context, found, log, resolved, host⟩ := host_of_reseeding reseeds
  have inside : handle < s.host.contexts.length := by
    obtain ⟨c, present, _⟩ := Option.map_eq_some_iff.mp there
    exact (List.getElem?_eq_some_iff.mp present).1
  -- a context that was there before has not just been made
  have same : found = s.host := by
    rcases resolve_cases context s.host with ⟨_, raw, lacking⟩ | ⟨_, target, standing⟩ | ⟨_, _, _, _, message, _, made⟩
    · rw [resolved] at lacking
      cases lacking
    · rw [resolved] at standing
      cases standing
      rfl
    · rw [resolved] at made
      cases made
      exact absurd inside (Nat.lt_irrefl _)
  subst same
  rw [host]
  refine Host.generator?_modifyContext_self ?_ fun _ => rfl
  simpa [Host.generator?] using inside

/-- The generator of a context goes its course, whatever the steps are. -/
theorem generator?_run (there : s.host.generator? handle = some g) (steps : List Step) :
    s.draws handle steps = (s.course handle steps g).1 ∧
    (s.run steps).2.host.generator? handle = some (s.course handle steps g).2 := by
  induction steps generalizing s g with
  | nil => exact ⟨rfl, there⟩
  | cons st rest ih =>
    rw [run_cons]
    cases reseeds : s.reseeding? handle st with
    | some seed =>
      simp only [draws, course, reseeds, (host_of_reseeding reseeds).1]
      exact ih (generator?_of_reseeding there reseeds)
    | none =>
      have heeds := heeds_step there reseeds
      unfold Heeds at heeds
      cases drawing : s.draw? handle st with
      | some d =>
        simp only [drawing] at heeds
        obtain ⟨later, final⟩ := ih heeds.2
        simp only [draws, course, drawing, heeds.1, later, final, and_self]
      | none =>
        simp only [drawing] at heeds
        simp only [draws, course, drawing, reseeds]
        exact ih heeds

/-! ### Steps that do without the default context -/

/-- Direct calls that need no default context: those with a context of their own, and those that are answered before a
    context is looked for. -/
inductive Spares (s : Session) : Option Handle → Step → Prop
  | given {operation : ContextOperation} {args : List Argument} {name : String} {handle : Handle} :
      s.context? (some name) = some handle → Spares s (some handle) (.call (.contextual operation) args (some name))
  | emptyText {length : Argument} {context : Option String} {n : Int} :
      (s.evaluate length).number? = some n → n ≤ 0 →
      Spares s none (.call (.contextual .randomText) [length] context)
  | emptyRange {low high : Argument} {context : Option String} :
      (s.evaluate low).exceeds? (s.evaluate high) = some true →
      Spares s none (.call (.contextual .randomInteger) [low, high] context)
  | unprintable {args : List Argument} {context : Option String} {value : Argument} :
      value ∈ args → (∀ text, Text.ofValue (s.evaluate value) ≠ .ok text) →
      Spares s none (.call (.contextual .print) args context)

theorem lineOf_of_unprintable {values : List Value} {v : Value} (member : v ∈ values)
    (unprintable : ∀ text, Text.ofValue v ≠ .ok text) : ∃ fault, Console.lineOf values = .error fault := by
  cases shown : Console.lineOf values with
  | error fault => exact ⟨fault, rfl⟩
  | ok line =>
    obtain ⟨texts, done, _⟩ := exists_of_bind_ok shown
    obtain ⟨text, form⟩ := exists_ok_of_mapM done member
    exact absurd form (unprintable text)

/-- What spares the default context has its own context or waits for none. -/
theorem spares_cases {own : Option Handle} (spares : s.Spares own st) :
    ∃ operation args name, st = .call (.contextual operation) args name ∧
      ((∃ handle, own = some handle ∧ s.context? name = some handle) ∨
        (operation.errand (args.map s.evaluate)).waits = false) := by
  cases spares with
  | given known => exact ⟨_, _, _, rfl, .inl ⟨_, rfl, known⟩⟩
  | emptyText counted notAsked =>
    exact ⟨_, _, _, rfl, .inr (by simp [ContextOperation.errand, counted, notAsked, Errand.waits])⟩
  | emptyRange above => exact ⟨_, _, _, rfl, .inr (by simp [ContextOperation.errand, above, Errand.waits])⟩
  | unprintable member unprintable =>
    obtain ⟨fault, failed⟩ := lineOf_of_unprintable (List.mem_map_of_mem member) unprintable
    exact ⟨_, _, _, rfl, .inr (by simp [ContextOperation.errand, failed, Errand.waits])⟩

/-- The session with another default context. -/
def withStanding (s : Session) (standing : Option Handle) : Session :=
  { s with host := s.host.adjusted id fun _ => standing }

theorem effectOf_call (s : Session) (operation : ContextOperation) (args : List Argument) (name : Option String)
    (host : Host) :
    s.effectOf (.call (.contextual operation) args name) host =
      ⟨((operation.errand (args.map s.evaluate)).run (s.context? name) host).result.map Answer.value,
        ((operation.errand (args.map s.evaluate)).run (s.context? name) host).host,
        ((operation.errand (args.map s.evaluate)).run (s.context? name) host).log⟩ := by
  simp only [effectOf, Builtin.call, ContextOperation.run_eq, Effect.bind_pure_apply]

/-- A step that spares the default context does the same whichever context that is, and keeps it. -/
theorem step_withStanding {own : Option Handle} (spares : s.Spares own st) (standing : Option Handle) :
    (s.withStanding standing).step st = ((s.step st).1, (s.step st).2.withStanding standing) := by
  obtain ⟨operation, args, name, rfl, sparing⟩ := spares_cases spares
  have effect : s.effectOf (.call (.contextual operation) args name) (s.host.adjusted id fun _ => standing) =
      ⟨(s.effectOf (.call (.contextual operation) args name) s.host).result,
        (s.effectOf (.call (.contextual operation) args name) s.host).host.adjusted id fun _ => standing,
        (s.effectOf (.call (.contextual operation) args name) s.host).log⟩ := by
    rw [effectOf_call, effectOf_call]
    rcases sparing with ⟨handle, _, known⟩ | answered
    · rw [known, Errand.run_adjusted]
    · cases errand : operation.errand (args.map s.evaluate) with
      | answer result => rfl
      | refusal fault | work task | seeding seed =>
        rw [errand] at answered
        cases answered
  simp only [step, withStanding, effectOf_withHost, effect]
  cases (s.effectOf (.call (.contextual operation) args name) s.host).result <;> rfl

/-- A step that spares the default context makes no context, and changes at most its own one. -/
theorem beside_of_spares {own : Option Handle} (spares : s.Spares own st) :
    (s.step st).2.host.contexts.length = s.host.contexts.length ∧
    ∀ other, own ≠ some other → (s.step st).2.host.contexts[other]? = s.host.contexts[other]? := by
  obtain ⟨operation, args, name, rfl, sparing⟩ := spares_cases spares
  rw [host_step, effectOf_call]
  cases waiting : (operation.errand (args.map s.evaluate)).waits with
  | false =>
    rw [Errand.run_of_answer waiting]
    exact ⟨rfl, fun _ _ => rfl⟩
  | true =>
    rcases sparing with ⟨handle, rfl, known⟩ | answered
    · have beside := Errand.beside_act (operation.errand (args.map s.evaluate)) handle s.host
      rw [known, (Errand.run_of_found waiting (resolve_some handle s.host)).2]
      exact ⟨beside.length, fun other apart => beside.others other fun same => apart (by rw [same])⟩
    · rw [waiting] at answered
      cases answered

/-- The life of the default context. In every state that steps lead to from a new host, a step changes which context
    is the default one only by setting it, or by looking for it while there is none and the seed variable offers a seed.
    In the latter case the step goes on as if a context of that seed had been the default one before. It then stays, and
    its generator goes its course, until another one is set. A bad seed variable makes a step that looks for the default
    context fail without a change, and the context is made with the seed of a variable that has been mended. Direct calls
    with a context of their own, and those that are answered before a context is looked for, neither make nor read nor
    change the default context. -/
theorem defaultContext_life (content : Option String) (entropy : Entropy) (input : String) (past : List Step) :
    let s := ((start (.fresh content entropy input)).run past).2
    (∀ st, (s.step st).2.host.defaultContext ≠ s.host.defaultContext →
      (∃ name, st = .setDefault name) ∨
      (s.Seeks st ∧ s.host.defaultContext = none ∧ ∃ seed, Offers s.host.seedVariable seed)) ∧
    (∀ st seed, s.Seeks st → s.host.defaultContext = none → Offers s.host.seedVariable seed →
      let t : Session := { s with host := s.host.withDefault seed }
      (s.step st).1.result = (t.step st).1.result ∧ (s.step st).2 = (t.step st).2 ∧
      (s.step st).2.host.defaultContext = some s.host.contexts.length) ∧
    (∀ handle, s.host.defaultContext = some handle → ∃ g, s.host.generator? handle = some g ∧
      ∀ steps, (∀ name, .setDefault name ∉ steps) →
        (s.run steps).2.host.defaultContext = some handle ∧
        s.draws handle steps = (s.course handle steps g).1 ∧
        (s.run steps).2.host.generator? handle = some (s.course handle steps g).2) ∧
    (∀ st, s.Seeks st → s.host.defaultContext = none → BadVariable s.host.seedVariable →
      (∃ raw, (s.step st).1.result = .error (.badSeed raw)) ∧
      (s.step st).2 = { s with results := s.results ++ [.nothing] } ∧
      ∀ mended seed, Offers mended seed →
        let t := ((s.step st).2.step (.setVariable mended)).2
        (t.step (.resolve none)).1.result = .ok (.resolved none seed true) ∧
        (t.step (.resolve none)).2.host = t.host.withDefault seed) ∧
    (∀ st own, s.Spares own st →
      (∀ standing, (s.withStanding standing).step st = ((s.step st).1, (s.step st).2.withStanding standing)) ∧
      (s.step st).2.host.contexts.length = s.host.contexts.length ∧
      ∀ other, own ≠ some other → (s.step st).2.host.contexts[other]? = s.host.contexts[other]?) := by
  intro s
  have placed : s.Placed := placed_run (placed_start content entropy input) past
  refine ⟨?_, ?_, ?_, ?_, ?_⟩
  · intro st changed
    by_cases set : ∃ name, st = .setDefault name
    · exact .inl set
    · rcases defaultContext_step s fun name same => set ⟨name, same⟩ with same | ⟨seeks, vacant, offered, _⟩
      · exact absurd same changed
      · exact .inr ⟨seeks, vacant, offered⟩
  · intro st seed seeks vacant offers t
    obtain ⟨result, after⟩ := step_of_offers seeks vacant offers
    refine ⟨result, after, ?_⟩
    have standing : t.host.defaultContext = some s.host.contexts.length := rfl
    rw [after]
    exact defaultContext_step_of_standing standing (ne_setDefault_of_seeks seeks)
  · intro handle standing
    obtain ⟨g, there⟩ : ∃ g, s.host.generator? handle = some g :=
      ⟨_, congrArg (Option.map Context.generator) (List.getElem?_eq_getElem (placed.standing handle standing))⟩
    exact ⟨g, there, fun steps notSet => ⟨defaultContext_run standing notSet, generator?_run there steps⟩⟩
  · intro st seeks vacant bad
    obtain ⟨raw, given⟩ := seedOfVariable_of_bad bad
    obtain ⟨failed, same⟩ := step_of_bad seeks vacant given
    refine ⟨⟨raw, failed⟩, same, ?_⟩
    intro mended seed offers t
    have kept : t.Placed := placed_step (placed_step placed st) _
    have still : t.host.defaultContext = none := by
      change (s.step st).2.host.defaultContext = none
      rw [same, vacant]
    exact result_resolve_of_offers kept still offers
  · intro st own spares
    exact ⟨step_withStanding spares, beside_of_spares spares⟩

/-- Draws a text in the default context. -/
def drawStep (length : Int) : Step := .call (.contextual .randomText) [.value (.integer length)] none

theorem seeks_drawStep (s : Session) : s.Seeks (drawStep 3) := .inr ⟨.randomText, [.integer 3], rfl, by decide⟩

/-- A draw fails because of the seed variable, while an empty one does not need it. When the variable has been mended,
    the draw makes the default context, which a later change of the variable does not replace. -/
theorem defaultContext_life_mended :
    let s := start (.fresh (some "x") ⟨fun _ => [], 0⟩ "")
    let past := [drawStep 3, .setVariable (some " 7\n")]
    (∃ raw, (s.step (drawStep 3)).1.result = .error (.badSeed raw)) ∧
    (s.step (drawStep 0)).2.host.contexts.length = 0 ∧
    (s.run (past ++ [drawStep 3])).2.host.defaultContext = some 0 ∧
    (s.run (past ++ [drawStep 3] ++ [.setVariable (some "8"), drawStep 3])).2.host.defaultContext = some 0 := by
  have life := defaultContext_life (some "x") ⟨fun _ => [], 0⟩ ""
  obtain ⟨_, _, _, failing, sparing⟩ := life []
  obtain ⟨_, making, _⟩ := life [drawStep 3, .setVariable (some " 7\n")]
  obtain ⟨_, _, staying, _⟩ := life ([drawStep 3, .setVariable (some " 7\n")] ++ [drawStep 3])
  have filled := (making (drawStep 3) (.integer 7) (seeks_drawStep _) (by decide +kernel)
    (offers_of_seedOfVariable (by decide +kernel))).2.2
  have none_made : ((start (.fresh (some "x") ⟨fun _ => [], 0⟩ "")).run
      [drawStep 3, .setVariable (some " 7\n")]).2.host.contexts.length = 0 := by decide +kernel
  rw [none_made, ← run_singleton, ← run_append] at filled
  refine ⟨(failing _ (seeks_drawStep _) rfl ⟨"x", rfl, by decide, by decide⟩).1, ?_, filled, ?_⟩
  · exact (sparing _ none (.emptyText rfl (by decide))).2.1
  · obtain ⟨g, _, stays⟩ := staying 0 filled
    rw [run_append]
    exact (stays [.setVariable (some "8"), drawStep 3] (by simp [drawStep])).1

end Session

end Primitives
