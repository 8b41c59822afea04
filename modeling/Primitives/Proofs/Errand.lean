import Primitives.Proofs.Operation

/-!
Errands: what an operation is asked to do, which its arguments alone decide. It is answered at once, or it waits for
its context and is then refused, does its work or seeds the generator (`ContextOperation.run_eq`). Looking for a
context only adds to the host (`Context.extends_resolve`), and what follows happens in the context that was found
(`Errand.run_of_found`).
-/
namespace Primitives

namespace Host

/-- The streams of the process are as before, and contexts have only been added. -/
structure Extends (before after : Host) : Prop where
  input : after.input = before.input
  output : after.output = before.output
  contexts : before.contexts <+: after.contexts

theorem Extends.refl (host : Host) : host.Extends host := ⟨rfl, rfl, List.prefix_refl _⟩

theorem Extends.getElem? {before after : Host} (extends_ : before.Extends after) {handle : Handle} {c : Context}
    (there : before.contexts[handle]? = some c) : after.contexts[handle]? = some c := by
  obtain ⟨added, same⟩ := extends_.contexts
  have inside := (List.getElem?_eq_some_iff.mp there).1
  rw [← same, List.getElem?_append_left inside, there]

theorem extends_grown (host : Host) (seed : Seed) (input : Option (List Char)) (output : Option String) :
    host.Extends (host.grown seed input output) := ⟨rfl, rfl, List.prefix_append _ _⟩

theorem extends_withDefault (host : Host) (seed : Seed) : host.Extends (host.withDefault seed) :=
  ⟨rfl, rfl, List.prefix_append _ _⟩

/-- What happens in a context: the other contexts are as before, none has been added, and the default one is the
    same. -/
structure Beside (handle : Handle) (before after : Host) : Prop where
  standing : after.defaultContext = before.defaultContext
  length : after.contexts.length = before.contexts.length
  others : ∀ other, other ≠ handle → after.contexts[other]? = before.contexts[other]?

theorem Beside.refl (handle : Handle) (host : Host) : host.Beside handle host := ⟨rfl, rfl, fun _ _ => rfl⟩

theorem Beside.trans {handle : Handle} {first second third : Host} (left : first.Beside handle second)
    (right : second.Beside handle third) : first.Beside handle third where
  standing := right.standing.trans left.standing
  length := right.length.trans left.length
  others := fun other apart => (right.others other apart).trans (left.others other apart)

theorem beside_modifyContext (host : Host) (handle : Handle) (change : Context → Context) :
    host.Beside handle (host.modifyContext handle change) where
  standing := rfl
  length := by simp [modifyContext]
  others := by
    intro other apart
    simp [modifyContext, Ne.symm apart]

theorem beside_write (host : Host) (handle : Handle) (text : String) : host.Beside handle (host.write handle text) := by
  unfold write
  split
  · exact beside_modifyContext host handle _
  · exact ⟨rfl, rfl, fun _ _ => rfl⟩

theorem beside_takeLine (host : Host) (handle : Handle) : host.Beside handle (host.takeLine handle).2 := by
  unfold takeLine
  split
  · exact beside_modifyContext host handle _
  · exact ⟨rfl, rfl, fun _ _ => rfl⟩

/-- The host with a context seeded anew. -/
def reseeded (host : Host) (handle : Handle) (seed : Seed) : Host :=
  { host with entropy := (seed.generator host.entropy).2 }.modifyContext handle fun c =>
    { c with seed, generator := (seed.generator host.entropy).1 }

end Host

namespace Context

theorem extends_resolve (context : Option Handle) (host : Host) : host.Extends (resolve context host).host := by
  rcases resolve_cases context host with ⟨_, raw, failed⟩ | ⟨_, handle, found⟩ | ⟨_, _, _, seed, message, _, made⟩
  · rw [failed]
    exact .refl host
  · rw [found]
    exact .refl host
  · rw [made]
    exact host.extends_withDefault seed

theorem reseed_apply (handle : Handle) (seed : Seed) (host : Host) :
    ∃ log, reseed handle seed host = ⟨seed.toValue.shown.map fun _ => (), host.reseeded handle seed, log⟩ := by
  rw [reseed, Effect.bind_of_ok (generatorOf_apply seed host), Effect.bind_of_ok (Effect.modify_apply _ _)]
  cases shown : seed.toValue.shown with
  | error fault => exact ⟨_, rfl⟩
  | ok text => exact ⟨_, rfl⟩

end Context

inductive Errand where
  | answer (result : Except Fault Value)
  | refusal (fault : Fault)
  | work (task : Task)
  | seeding (seed : Seed)

namespace Errand

def run (context : Option Handle) : Errand → Effect Value
  | .answer result => Effect.ofExcept result
  | .refusal fault => Context.resolve context >>= fun _ => Effect.fail fault
  | .work task => Context.resolve context >>= task.run
  | .seeding seed => Context.resolve context >>= fun handle => Context.reseed handle seed >>= fun _ => pure .nothing

/-- Whether the context is looked for. -/
def waits : Errand → Bool
  | .answer _ => false
  | _ => true

/-- The result and the host that an errand leaves, once its context is there. -/
def act (handle : Handle) (host : Host) : Errand → Except Fault Value × Host
  | .answer result => (result, host)
  | .refusal fault => (.error fault, host)
  | .work task => (.ok (task.act handle host).1, (task.act handle host).2)
  | .seeding seed => (seed.toValue.shown.map fun _ => .nothing, host.reseeded handle seed)

variable {errand : Errand} {context : Option Handle} {host after : Host} {log : List Notice}

theorem run_of_answer (answered : errand.waits = false) (context : Option Handle) (host : Host) :
    (errand.run context host).host = host := by
  cases errand with
  | answer result => rfl
  | refusal fault | work task | seeding seed => cases answered

theorem run_of_found {handle : Handle} (waiting : errand.waits = true)
    (found : Context.resolve context host = ⟨.ok handle, after, log⟩) :
    (errand.run context host).result = (errand.act handle after).1 ∧
    (errand.run context host).host = (errand.act handle after).2 := by
  cases errand with
  | answer result => cases waiting
  | refusal fault | work task =>
    rw [run, Effect.bind_of_ok found]
    exact ⟨rfl, rfl⟩
  | seeding seed =>
    obtain ⟨notes, reseeded⟩ := Context.reseed_apply handle seed after
    rw [run, Effect.bind_of_ok found]
    cases shown : seed.toValue.shown with
    | error fault =>
      rw [shown] at reseeded
      rw [Effect.bind_of_error reseeded, act, shown]
      exact ⟨rfl, rfl⟩
    | ok text =>
      rw [shown] at reseeded
      rw [Effect.bind_of_ok reseeded, act, shown]
      exact ⟨rfl, rfl⟩

theorem run_of_lacking {fault : Fault} (waiting : errand.waits = true)
    (lacking : Context.resolve context host = ⟨.error fault, after, log⟩) :
    errand.run context host = ⟨.error fault, after, log⟩ := by
  cases errand with
  | answer result => cases waiting
  | refusal fault | work task | seeding seed => rw [run, Effect.bind_of_error lacking]

/-- An errand that waits begins with looking for its context. -/
theorem exists_run_eq (waiting : errand.waits = true) (context : Option Handle) :
    ∃ next : Handle → Effect Value, errand.run context = Context.resolve context >>= next := by
  cases errand with
  | answer result => cases waiting
  | refusal fault | work task | seeding seed => exact ⟨_, rfl⟩

theorem beside_act (errand : Errand) (handle : Handle) (host : Host) :
    host.Beside handle (errand.act handle host).2 := by
  cases errand with
  | answer result | refusal fault => exact .refl handle host
  | seeding seed =>
    have seeded := Host.beside_modifyContext { host with entropy := (seed.generator host.entropy).2 } handle fun c =>
      { c with seed, generator := (seed.generator host.entropy).1 }
    exact ⟨seeded.standing, seeded.length, seeded.others⟩
  | work task =>
    cases task with
    | line text => exact host.beside_write handle text
    | dialogue prompt =>
      have prompted : host.Beside handle (Console.prompted host handle prompt) := by
        cases prompt with
        | none => exact .refl handle host
        | some shown => exact host.beside_write handle shown
      exact prompted.trans (Host.beside_takeLine _ handle)
    | number low high | symbols length => exact host.beside_modifyContext handle _

/-- An errand in a given context looks at no setting of the host. -/
theorem run_adjusted (errand : Errand) (handle : Handle) (host : Host) (content : Option String → Option String)
    (standing : Option Handle → Option Handle) :
    errand.run (some handle) (host.adjusted content standing) =
      ⟨(errand.run (some handle) host).result, (errand.run (some handle) host).host.adjusted content standing,
        (errand.run (some handle) host).log⟩ := by
  cases errand with
  | answer result | refusal fault => rfl
  | work task =>
    simp only [run, Effect.bind_of_ok (Context.resolve_some handle _), Task.run, Effect.modifyGet_apply,
      Task.act_adjusted]
  | seeding seed =>
    simp only [run, Effect.bind_of_ok (Context.resolve_some handle _), Context.reseed, Effect.bind_assoc]
    simp only [Effect.bind_of_ok (Context.generatorOf_apply seed _), Effect.bind_of_ok (Effect.modify_apply _ _)]
    cases seed.toValue.shown <;> rfl

end Errand

namespace ContextOperation

/-- What an operation is asked to do. -/
def errand : ContextOperation → List Value → Errand
  | .print, values =>
    match Console.lineOf values with
    | .error fault => .answer (.error fault)
    | .ok line => .work (.line line)
  | .readLine, [] => .work (.dialogue none)
  | .readLine, [prompt] =>
    match Console.promptText? prompt with
    | .error fault => .refusal fault
    | .ok shown => .work (.dialogue shown)
  | .randomInteger, [low, high] =>
    match low.exceeds? high with
    | none => .answer (.error .mistyped)
    | some true => .answer (Random.emptyRange low high)
    | some false =>
      match low.number?, high.number? with
      | some l, some h =>
        if Random.greatestWidth < Twister.bitLength (h - l + 1).toNat then .refusal .rangeTooLarge
        else .work (.number l h)
      | _, _ => .refusal .mistyped
  | .randomText, [length] =>
    match length.number? with
    | none => if Random.isFraction length then .refusal .mistyped else .answer (.error .mistyped)
    | some n =>
      if n ≤ 0 then .answer (.ok (.text ""))
      else if Random.greatestLength < n then .refusal .lengthTooLarge
      else .work (.symbols n.toNat)
  | .setSeed, [seed] =>
    match Seed.ofValue? seed with
    | some seed => .seeding seed
    | none => .refusal .mistyped
  | _, _ => .answer (.error .mistyped)

theorem run_print (values : List Value) (context : Option Handle) :
    run .print values context = (errand .print values).run context := by
  rw [run, errand]
  cases shown : Console.lineOf values with
  | error fault =>
    rw [Console.print_of_fault shown]
    rfl
  | ok line => exact Console.print_of_line shown context

theorem run_readLine (prompt : Value) (context : Option Handle) :
    run .readLine [prompt] context = (errand .readLine [prompt]).run context := by
  rw [run, errand]
  cases asked : Console.promptText? prompt with
  | error fault =>
    rw [Console.readLine_of_fault asked, Effect.bind_assoc]
    rfl
  | ok shown => exact Console.readLine_of_prompt asked context

theorem run_randomInteger (low high : Value) (context : Option Handle) :
    run .randomInteger [low, high] context = (errand .randomInteger [low, high]).run context := by
  simp only [run, errand, Random.integer]
  cases compared : low.exceeds? high with
  | none => rfl
  | some above =>
    cases above with
    | true => rfl
    | false =>
      cases low.number? with
      | none => rfl
      | some l =>
        cases high.number? with
        | none => rfl
        | some h =>
          by_cases wide : Random.greatestWidth < Twister.bitLength (h - l + 1).toNat
          · simp only [wide, if_true, Errand.run]
          · simp only [wide, if_false, Errand.run, Task.draw_pure]
            rfl

theorem run_randomText (length : Value) (context : Option Handle) :
    run .randomText [length] context = (errand .randomText [length]).run context := by
  simp only [run, errand, Random.text]
  cases length.number? with
  | none => cases Random.isFraction length <;> rfl
  | some n =>
    by_cases asked : n ≤ 0
    · simp only [asked, if_true]
      rfl
    · by_cases long : Random.greatestLength < n
      · simp only [asked, long, if_true, if_false, Errand.run]
      · simp only [asked, long, if_false, Errand.run, Task.draw_pure]
        rfl

theorem run_setSeed (seed : Value) (context : Option Handle) :
    run .setSeed [seed] context = (errand .setSeed [seed]).run context := by
  rw [run, errand, Random.setSeed, Effect.bind_assoc]
  cases Seed.ofValue? seed <;> rfl

/-- Operations run their errands. -/
theorem run_eq (operation : ContextOperation) (args : List Value) (context : Option Handle) :
    operation.run args context = (operation.errand args).run context := by
  cases operation with
  | print => exact run_print args context
  | readLine =>
    match args with
    | [] => exact Console.readLine_of_prompt rfl context
    | [prompt] => exact run_readLine prompt context
    | _ :: _ :: _ => rfl
  | randomInteger =>
    match args with
    | [low, high] => exact run_randomInteger low high context
    | [] | [_] | _ :: _ :: _ :: _ => rfl
  | randomText =>
    match args with
    | [length] => exact run_randomText length context
    | [] | _ :: _ :: _ => rfl
  | setSeed =>
    match args with
    | [seed] => exact run_setSeed seed context
    | [] | _ :: _ :: _ => rfl

/-- Only `setSeed` seeds. -/
theorem eq_setSeed_of_seeding {operation : ContextOperation} {args : List Value} {seed : Seed}
    (seeding : operation.errand args = .seeding seed) : operation = .setSeed := by
  unfold errand at seeding
  split at seeding
  case h_6 => rfl
  all_goals
    repeat' split at seeding
    all_goals cases seeding

end ContextOperation

end Primitives
