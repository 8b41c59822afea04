import Mathlib.Logic.Function.Iterate
import Primitives.Proofs.Errand
import Primitives.Proofs.Soundness

/-!
Contexts with streams of their own are isolated. A request in such a context reads and changes nothing but that
context (`Request.exists_reaction`). Requests in two of them therefore commute, and two programs that take turns in
any order both get the results that they get alone.
-/
namespace Primitives

/-- Both streams are the context's own. -/
def Context.Own (c : Context) : Prop := c.input.isSome ∧ c.output.isSome

namespace Host

/-- The host with another context in the place of the given one. -/
def put (host : Host) (handle : Handle) (c : Context) : Host := { host with contexts := host.contexts.set handle c }

/-- There is such a context, and its streams are its own. -/
def Owns (host : Host) (handle : Handle) : Prop := ∃ c, host.contexts[handle]? = some c ∧ c.Own

variable {host : Host} {handle other : Handle} {c : Context}

theorem put_self (there : host.contexts[handle]? = some c) : host.put handle c = host := by
  have same : host.contexts.set handle c = host.contexts := by
    apply List.ext_getElem?
    intro i
    rw [List.getElem?_set]
    split
    · next here =>
      subst here
      rw [there, if_pos (List.getElem?_eq_some_iff.mp there).1]
    · rfl
  rw [put, same]

theorem modifyContext_eq_put (there : host.contexts[handle]? = some c) (change : Context → Context) :
    host.modifyContext handle change = host.put handle (change c) := by
  have same : host.contexts.modify handle change = host.contexts.set handle (change c) := by
    apply List.ext_getElem?
    intro i
    rw [List.getElem?_modify, List.getElem?_set]
    by_cases here : handle = i
    · subst here
      have inside := (List.getElem?_eq_some_iff.mp there).1
      simp only [there, inside, if_true, Option.map_eq_map, Option.map_some]
    · simp [here]
  rw [modifyContext, same, put]

theorem getElem?_put_self (there : host.contexts[handle]? = some c) (new : Context) :
    (host.put handle new).contexts[handle]? = some new := by
  have inside := (List.getElem?_eq_some_iff.mp there).1
  simp [put, inside]

theorem getElem?_put_of_ne (apart : handle ≠ other) (new : Context) :
    (host.put handle new).contexts[other]? = host.contexts[other]? := by
  simp [put, apart]

theorem put_comm (apart : handle ≠ other) (new newer : Context) :
    (host.put handle new).put other newer = (host.put other newer).put handle new := by
  simp only [put, List.set_comm new newer apart]

theorem put_put (new newer : Context) : (host.put handle new).put handle newer = host.put handle newer := by
  simp only [put, List.set_set]

theorem write_of_own (there : host.contexts[handle]? = some c) (own : c.Own) (text : String) :
    host.write handle text = host.put handle { c with output := c.output.map (· ++ text) } := by
  obtain ⟨written, open_⟩ := Option.isSome_iff_exists.mp own.2
  rw [write, there]
  simp only [Option.bind_some, open_]
  rw [modifyContext_eq_put there, open_]

theorem takeLine_of_own (there : host.contexts[handle]? = some c) (own : c.Own) :
    host.takeLine handle =
      ((Line.split (c.input.getD [])).1, host.put handle { c with input := some (Line.split (c.input.getD [])).2 }) := by
  obtain ⟨input, given⟩ := Option.isSome_iff_exists.mp own.1
  rw [takeLine, there]
  simp only [Option.bind_some, given, Option.getD_some]
  rw [modifyContext_eq_put there]

end Host

/-- A task in a context with its own streams changes that context alone. -/
theorem Task.exists_reaction (task : Task) :
    ∃ react : Context → Value × Context, ∀ handle host c, host.contexts[handle]? = some c → c.Own →
      (react c).2.Own ∧ task.act handle host = ((react c).1, host.put handle (react c).2) := by
  cases task with
  | line text =>
    refine ⟨fun c => (.nothing, { c with output := c.output.map (· ++ text) }), fun handle host c there own => ?_⟩
    refine ⟨⟨own.1, by simpa using own.2⟩, ?_⟩
    rw [act, Host.write_of_own there own]
  | dialogue prompt =>
    cases prompt with
    | none =>
      refine ⟨fun c => (.text (String.ofList (Line.content (Line.split (c.input.getD [])).1)),
        { c with input := some (Line.split (c.input.getD [])).2 }), fun handle host c there own => ?_⟩
      refine ⟨⟨rfl, own.2⟩, ?_⟩
      simp only [act, Console.prompted, Host.takeLine_of_own there own]
    | some shown =>
      refine ⟨fun c => (.text (String.ofList (Line.content (Line.split (c.input.getD [])).1)),
        { c with output := c.output.map (· ++ shown), input := some (Line.split (c.input.getD [])).2 }),
        fun handle host c there own => ?_⟩
      have stillOwn : Context.Own { c with output := c.output.map (· ++ shown) } := ⟨own.1, by simpa using own.2⟩
      refine ⟨⟨rfl, stillOwn.2⟩, ?_⟩
      simp only [act, Console.prompted, Host.write_of_own there own]
      rw [Host.takeLine_of_own (Host.getElem?_put_self there _) stillOwn, Host.put_put]
  | number low high =>
    refine ⟨fun c => (.integer (c.generator.between low high).1,
      { c with generator := (c.generator.between low high).2 }), fun handle host c there own => ⟨⟨own.1, own.2⟩, ?_⟩⟩
    simp only [act, act.drawn, there, Option.map_some, Option.getD_some]
    rw [Host.modifyContext_eq_put there]
  | symbols length =>
    refine ⟨fun c => (.text (String.ofList (c.generator.symbols length).1),
      { c with generator := (c.generator.symbols length).2 }), fun handle host c there own => ⟨⟨own.1, own.2⟩, ?_⟩⟩
    simp only [act, act.drawn, there, Option.map_some, Option.getD_some]
    rw [Host.modifyContext_eq_put there]

/-- What can be done in a given context. -/
inductive Request where
  | print (values : List Value)
  | readLine (prompt : Value)
  | randomInteger (low high : Value)
  | randomText (length : Value)
  | setSeed (n : Int)
  | reseed (n : Int)
  | invoke (name : String) (args : List Value)

namespace Request

def perform (handle : Handle) : Request → Effect Value
  | .print values => do
    Console.print values (some handle)
    return .nothing
  | .readLine prompt => return .text (← Console.readLine prompt (some handle))
  | .randomInteger low high => Random.integer low high (some handle)
  | .randomText length => Random.text length (some handle)
  | .setSeed n => do
    Random.setSeed (.integer n) (some handle)
    return .nothing
  | .reseed n => do
    Context.reseed handle (.integer n)
    return .nothing
  | .invoke name args => Standard.registry.invoke name args (some handle)

/-- The request gives a result and leaves the host as it is. -/
def Inert (request : Request) : Prop :=
  ∃ result log, ∀ handle host, request.perform handle host = ⟨result, host, log⟩

/-- The request carries out a task. -/
def Works (request : Request) : Prop :=
  ∃ (task : Task) (log : List Notice), ∀ handle host,
    request.perform handle host = ⟨.ok (task.act handle host).1, (task.act handle host).2, log⟩

/-- The request seeds the generator anew. It may fail afterwards, when the seed has no numeral. -/
def Reseeds (request : Request) : Prop :=
  ∃ (n : Int) (result : Except Fault Value) (log : List Notice), ∀ handle host,
    request.perform handle host =
      ⟨result, host.modifyContext handle fun c => { c with seed := .integer n, generator := Twister.ofNat n.natAbs }, log⟩

theorem cases_of_operation (operation : ContextOperation) (args : List Value) {request : Request}
    (performs : ∀ handle, request.perform handle = operation.run args (some handle)) (other : operation ≠ .setSeed) :
    request.Inert ∨ request.Works := by
  cases errand : operation.errand args with
  | answer result =>
    refine .inl ⟨result, [], fun handle host => ?_⟩
    rw [performs, ContextOperation.run_eq, errand]
    rfl
  | refusal fault =>
    refine .inl ⟨.error fault, [], fun handle host => ?_⟩
    rw [performs, ContextOperation.run_eq, errand]
    rfl
  | work task =>
    refine .inr ⟨task, [], fun handle host => ?_⟩
    rw [performs, ContextOperation.run_eq, errand]
    rfl
  | seeding seed => exact absurd (ContextOperation.eq_setSeed_of_seeding errand) other

/-- The notice comes after the change, so that a seed without a numeral is a fault that has changed the context. -/
theorem reseeds_reseed (n : Int) : (reseed n).Reseeds := by
  cases shown : (Value.integer n).shown with
  | error fault =>
    refine ⟨n, .error fault, [], fun handle host => ?_⟩
    simp only [perform, Context.reseed, Context.generatorOf, Seed.toValue, shown]
    rfl
  | ok text =>
    refine ⟨n, .ok .nothing, [⟨.contexts, "Random source reseeded with " ++ text⟩], fun handle host => ?_⟩
    simp only [perform, Context.reseed, Context.generatorOf, Seed.toValue, shown]
    rfl

theorem perform_setSeed (handle : Handle) (n : Int) : (setSeed n).perform handle = (reseed n).perform handle := by
  have found : Context.resolve (some handle) = (pure handle : Effect Handle) := rfl
  simp only [perform, Random.setSeed, Seed.ofValue?, found, Effect.pure_bind]

theorem reseeds_setSeed (n : Int) : (setSeed n).Reseeds := by
  obtain ⟨seed, result, log, ran⟩ := reseeds_reseed n
  refine ⟨seed, result, log, fun handle host => ?_⟩
  rw [perform_setSeed, ran]

/-- Everything that a request can do. -/
theorem perform_cases (request : Request) : request.Inert ∨ request.Works ∨ request.Reseeds := by
  cases request with
  | print values => exact (cases_of_operation .print values (fun _ => rfl) (by decide)).imp_right .inl
  | readLine prompt => exact (cases_of_operation .readLine [prompt] (fun _ => rfl) (by decide)).imp_right .inl
  | randomInteger low high =>
    exact (cases_of_operation .randomInteger [low, high] (fun _ => rfl) (by decide)).imp_right .inl
  | randomText length => exact (cases_of_operation .randomText [length] (fun _ => rfl) (by decide)).imp_right .inl
  | setSeed n => exact .inr (.inr (reseeds_setSeed n))
  | reseed n => exact .inr (.inr (reseeds_reseed n))
  | invoke name args => exact (Standard.invoke_some name args).imp_right .inl

/-- A request in a context with its own streams depends on that context alone and changes nothing else. -/
theorem exists_reaction (request : Request) :
    ∃ react : Context → Except Fault Value × Context × List Notice,
      ∀ handle host c, host.contexts[handle]? = some c → c.Own →
        (react c).2.1.Own ∧
        request.perform handle host = ⟨(react c).1, host.put handle (react c).2.1, (react c).2.2⟩ := by
  rcases perform_cases request with ⟨result, log, ran⟩ | ⟨task, log, ran⟩ | ⟨n, result, log, ran⟩
  · refine ⟨fun c => (result, c, log), fun handle host c there own => ⟨own, ?_⟩⟩
    rw [ran, Host.put_self there]
  · obtain ⟨react, reacts⟩ := task.exists_reaction
    refine ⟨fun c => (.ok (react c).1, (react c).2, log), fun handle host c there own => ?_⟩
    obtain ⟨stillOwn, acted⟩ := reacts handle host c there own
    exact ⟨stillOwn, by rw [ran, acted]⟩
  · refine ⟨fun c => (result, { c with seed := .integer n, generator := Twister.ofNat n.natAbs }, log),
      fun handle host c there own => ⟨⟨own.1, own.2⟩, ?_⟩⟩
    rw [ran, Host.modifyContext_eq_put there]

/-- Requests in two contexts with their own streams can be exchanged. -/
theorem perform_comm {host : Host} {c d : Handle} (apart : c ≠ d) (ownsC : host.Owns c) (ownsD : host.Owns d)
    (first second : Request) :
    (second.perform d (first.perform c host).host).host = (first.perform c (second.perform d host).host).host ∧
    (first.perform c (second.perform d host).host).result = (first.perform c host).result ∧
    (first.perform c (second.perform d host).host).log = (first.perform c host).log := by
  obtain ⟨atC, thereC, ownC⟩ := ownsC
  obtain ⟨atD, thereD, ownD⟩ := ownsD
  obtain ⟨reactC, reactsC⟩ := first.exists_reaction
  obtain ⟨reactD, reactsD⟩ := second.exists_reaction
  have ranC := (reactsC c host atC thereC ownC).2
  have ranD := (reactsD d host atD thereD ownD).2
  have laterD := (reactsD d (host.put c (reactC atC).2.1) atD (by rw [Host.getElem?_put_of_ne apart, thereD]) ownD).2
  have laterC := (reactsC c (host.put d (reactD atD).2.1) atC
    (by rw [Host.getElem?_put_of_ne apart.symm, thereC]) ownC).2
  rw [ranC, ranD, laterD, laterC]
  exact ⟨Host.put_comm apart _ _, rfl, rfl⟩

end Request

/-! ### Programs that take turns -/

/-- A program chooses its next request by the results that it has got so far, until it ends. -/
def Script := List (Except Fault Value) → Option Request

/-- How far a program has come. -/
structure Progress where
  host : Host
  results : List (Except Fault Value)

namespace Script

/-- The next request of a program, if it has not ended. -/
def advance (script : Script) (handle : Handle) (progress : Progress) : Progress :=
  match script progress.results with
  | none => progress
  | some request =>
    let outcome := request.perform handle progress.host
    ⟨outcome.host, progress.results ++ [outcome.result]⟩

/-- A number of requests of a program that nothing comes between. -/
def alone (script : Script) (handle : Handle) (turns : Nat) (host : Host) : Progress :=
  (script.advance handle)^[turns] ⟨host, []⟩

/-- A program reads and changes nothing but its context. -/
theorem exists_reaction (script : Script) (results : List (Except Fault Value)) :
    ∃ react : Context → Context × List (Except Fault Value),
      ∀ handle host c, host.contexts[handle]? = some c → c.Own →
        (react c).1.Own ∧ script.advance handle ⟨host, results⟩ = ⟨host.put handle (react c).1, (react c).2⟩ := by
  cases next : script results with
  | none =>
    refine ⟨fun c => (c, results), fun handle host c there own => ⟨own, ?_⟩⟩
    simp only [advance, next, Host.put_self there]
  | some request =>
    obtain ⟨react, reacts⟩ := request.exists_reaction
    refine ⟨fun c => ((react c).2.1, results ++ [(react c).1]), fun handle host c there own => ?_⟩
    obtain ⟨stillOwn, ran⟩ := reacts handle host c there own
    exact ⟨stillOwn, by simp only [advance, next, ran]⟩

end Script

/-- The program has got the results that it gets alone, and its context is as it is then. -/
structure Tracks (script : Script) (handle : Handle) (start : Host) (turns : Nat) (host : Host)
    (results : List (Except Fault Value)) : Prop where
  results_eq : results = (script.alone handle turns start).results
  context_eq : host.contexts[handle]? = (script.alone handle turns start).host.contexts[handle]?
  owns : host.Owns handle

namespace Tracks

variable {script : Script} {handle other : Handle} {start host : Host} {turns : Nat}
  {results : List (Except Fault Value)}

/-- What happens in another context makes no difference. -/
theorem put (tracks : Tracks script handle start turns host results) (apart : other ≠ handle) (c : Context) :
    Tracks script handle start turns (host.put other c) results where
  results_eq := tracks.results_eq
  context_eq := by rw [Host.getElem?_put_of_ne apart, tracks.context_eq]
  owns := by
    obtain ⟨mine, there, own⟩ := tracks.owns
    exact ⟨mine, by rw [Host.getElem?_put_of_ne apart, there], own⟩

/-- A turn of the program is the turn that it takes alone, and changes its context only. -/
theorem advance (tracks : Tracks script handle start turns host results) :
    ∃ c after, script.advance handle ⟨host, results⟩ = ⟨host.put handle c, after⟩ ∧
      Tracks script handle start (turns + 1) (host.put handle c) after := by
  obtain ⟨c, there, own⟩ := tracks.owns
  obtain ⟨react, reacts⟩ := script.exists_reaction results
  obtain ⟨stillOwn, advanced⟩ := reacts handle host c there own
  refine ⟨(react c).1, (react c).2, advanced, ?_⟩
  have thereAlone : (script.alone handle turns start).host.contexts[handle]? = some c := by
    rw [← tracks.context_eq, there]
  have next : script.alone handle (turns + 1) start =
      ⟨(script.alone handle turns start).host.put handle (react c).1, (react c).2⟩ := by
    rw [Script.alone, Function.iterate_succ_apply']
    change script.advance handle ⟨(script.alone handle turns start).host, (script.alone handle turns start).results⟩ = _
    rw [← tracks.results_eq, (reacts handle _ c thereAlone own).2]
  refine ⟨by rw [next], ?_, (react c).1, Host.getElem?_put_self there _, stillOwn⟩
  rw [next, Host.getElem?_put_self there, Host.getElem?_put_self thereAlone]

end Tracks

/-- Two programs on one host. -/
structure Joint where
  host : Host
  first : List (Except Fault Value)
  second : List (Except Fault Value)

namespace Joint

/-- A turn of the first program or of the second one. -/
def turn (p q : Script) (c d : Handle) (joint : Joint) : Bool → Joint
  | true =>
    let progress := p.advance c ⟨joint.host, joint.first⟩
    ⟨progress.host, progress.results, joint.second⟩
  | false =>
    let progress := q.advance d ⟨joint.host, joint.second⟩
    ⟨progress.host, joint.first, progress.results⟩

/-- The two programs take turns in the given order. -/
def run (p q : Script) (c d : Handle) (schedule : List Bool) (host : Host) : Joint :=
  schedule.foldl (turn p q c d) ⟨host, [], []⟩

/-- Nothing but the two contexts has changed. -/
structure Within (c d : Handle) (start host : Host) : Prop where
  shared : { host with contexts := start.contexts } = start
  others : ∀ e, e ≠ c → e ≠ d → host.contexts[e]? = start.contexts[e]?

theorem Within.put {c d e : Handle} {start host : Host} (within : Within c d start host) (mine : e = c ∨ e = d)
    (new : Context) : Within c d start (host.put e new) where
  shared := within.shared
  others := by
    intro f notC notD
    have apart : e ≠ f := by
      rintro rfl
      exact mine.elim notC notD
    rw [Host.getElem?_put_of_ne apart, within.others f notC notD]

/-- Both programs have come as far as they come alone. -/
structure Follows (p q : Script) (c d : Handle) (start : Host) (m n : Nat) (joint : Joint) : Prop where
  first : Tracks p c start m joint.host joint.first
  second : Tracks q d start n joint.host joint.second
  within : Within c d start joint.host

section Turns

variable {p q : Script} {c d : Handle} {start : Host} {m n : Nat} {joint : Joint}

theorem Follows.turn_first (apart : c ≠ d) (follows : Follows p q c d start m n joint) :
    Follows p q c d start (m + 1) n (joint.turn p q c d true) := by
  obtain ⟨new, after, advanced, tracks⟩ := follows.first.advance
  rw [turn, advanced]
  exact ⟨tracks, follows.second.put apart new, follows.within.put (.inl rfl) new⟩

theorem Follows.turn_second (apart : c ≠ d) (follows : Follows p q c d start m n joint) :
    Follows p q c d start m (n + 1) (joint.turn p q c d false) := by
  obtain ⟨new, after, advanced, tracks⟩ := follows.second.advance
  rw [turn, advanced]
  exact ⟨follows.first.put apart.symm new, tracks, follows.within.put (.inr rfl) new⟩

theorem Follows.foldl (apart : c ≠ d) (schedule : List Bool) (follows : Follows p q c d start m n joint) :
    Follows p q c d start (m + schedule.count true) (n + schedule.count false)
      (schedule.foldl (turn p q c d) joint) := by
  induction schedule generalizing joint m n with
  | nil => exact follows
  | cons mine rest ih =>
    cases mine with
    | true =>
      have turned := ih (follows.turn_first apart)
      simpa [Nat.add_right_comm, Nat.add_assoc] using turned
    | false =>
      have turned := ih (follows.turn_second apart)
      simpa [Nat.add_right_comm, Nat.add_assoc] using turned

end Turns

theorem follows_run {p q : Script} {c d : Handle} {host : Host} (apart : c ≠ d) (ownsC : host.Owns c)
    (ownsD : host.Owns d) (schedule : List Bool) :
    Follows p q c d host (schedule.count true) (schedule.count false) (run p q c d schedule host) := by
  have start : Follows p q c d host 0 0 ⟨host, [], []⟩ :=
    ⟨⟨rfl, rfl, ownsC⟩, ⟨rfl, rfl, ownsD⟩, ⟨rfl, fun _ _ _ => rfl⟩⟩
  simpa [run] using start.foldl apart schedule

end Joint

/-- Contexts are isolated. Requests in two contexts with their own streams commute: either order gives the same
    results, the same notices and the same host. In any interleaving of two programs each gets the results that it
    gets alone and leaves its context as it does then, and nothing else changes. -/
theorem contexts_isolated (host : Host) (c d : Handle) (apart : c ≠ d) (ownsC : host.Owns c) (ownsD : host.Owns d) :
    (∀ first second : Request,
      (first.perform c (second.perform d host).host).result = (first.perform c host).result ∧
      (second.perform d (first.perform c host).host).result = (second.perform d host).result ∧
      (first.perform c (second.perform d host).host).log = (first.perform c host).log ∧
      (second.perform d (first.perform c host).host).log = (second.perform d host).log ∧
      (second.perform d (first.perform c host).host).host = (first.perform c (second.perform d host).host).host) ∧
    (∀ (p q : Script) (schedule : List Bool),
      let joint := Joint.run p q c d schedule host
      let firstAlone := p.alone c (schedule.count true) host
      let secondAlone := q.alone d (schedule.count false) host
      joint.first = firstAlone.results ∧ joint.second = secondAlone.results ∧
      joint.host.contexts[c]? = firstAlone.host.contexts[c]? ∧
      joint.host.contexts[d]? = secondAlone.host.contexts[d]? ∧
      { joint.host with contexts := host.contexts } = host ∧
      ∀ e, e ≠ c → e ≠ d → joint.host.contexts[e]? = host.contexts[e]?) := by
  refine ⟨fun first second => ?_, fun p q schedule => ?_⟩
  · obtain ⟨sameHost, sameResult, sameLog⟩ := Request.perform_comm apart ownsC ownsD first second
    obtain ⟨_, otherResult, otherLog⟩ := Request.perform_comm apart.symm ownsD ownsC second first
    exact ⟨sameResult, otherResult, sameLog, otherLog, sameHost⟩
  · have follows := Joint.follows_run (p := p) (q := q) apart ownsC ownsD schedule
    exact ⟨follows.first.results_eq, follows.second.results_eq, follows.first.context_eq, follows.second.context_eq,
      follows.within.shared, follows.within.others⟩

/-- A host with two contexts that have their own streams. -/
def Host.pair : Host :=
  ⟨none, ⟨fun _ => [], 0⟩, [], "",
    [⟨.integer 0, .ofNat 0, some [], some ""⟩, ⟨.integer 1, .ofNat 1, some ['b', '\n'], some ""⟩], none⟩

/-- The second context reads its line whatever the first one has printed. -/
theorem pair_isolated :
    Host.pair.Owns 0 ∧ Host.pair.Owns 1 ∧
    ((Request.readLine (.text "? ")).perform 1 ((Request.print [.text "x"]).perform 0 Host.pair).host).result =
      .ok (.text "b") := by
  have ownsFirst : Host.pair.Owns 0 := ⟨_, rfl, rfl, rfl⟩
  have ownsSecond : Host.pair.Owns 1 := ⟨_, rfl, rfl, rfl⟩
  refine ⟨ownsFirst, ownsSecond, ?_⟩
  rw [((contexts_isolated Host.pair 0 1 (by decide) ownsFirst ownsSecond).1 _ _).2.1]
  rfl

end Primitives
