import Primitives.Proofs.Session

/-!
Seeded runs are reproducible. A draw depends on the generator of its context alone (`Draw.take`), and no step but a
draw or a new seed changes that generator (`heeds_step`). The draws of a run are therefore those that the
generator of the seed gives one after the other (`draws_eq_series`), whatever stands between them and by whichever way
the seed came in.
-/
namespace Primitives

/-! ### Draws -/

/-- What is asked of a generator. -/
inductive Draw where
  | number (low high : Int)
  | symbols (length : Int)
deriving DecidableEq, Repr

namespace Draw

/-- The result of a draw and the generator after it. What is too large to be drawn is refused. -/
def take (g : Twister) : Draw → Except Fault Value × Twister
  | .number low high =>
    if Random.greatestWidth < Twister.bitLength (high - low + 1).toNat then (.error .rangeTooLarge, g)
    else (.ok (.integer (g.between low high).1), (g.between low high).2)
  | .symbols length =>
    if Random.greatestLength < length then (.error .lengthTooLarge, g)
    else (.ok (.text (String.ofList (g.symbols length.toNat).1)), (g.symbols length.toNat).2)

/-- Draws one after the other, with their results. -/
def series : Twister → List Draw → List (Draw × Except Fault Answer)
  | _, [] => []
  | g, d :: rest => (d, (d.take g).1.map Answer.value) :: series (d.take g).2 rest

end Draw

namespace ContextOperation

/-- The draw that an operation makes: of a number, if the bounds are in order, or of at least one symbol. -/
def draw? : ContextOperation → List Value → Option Draw
  | .randomInteger, [low, high] =>
    match low.number?, high.number? with
    | some l, some h => if l ≤ h then some (.number l h) else none
    | _, _ => none
  | .randomText, [length] =>
    match length.number? with
    | some n => if 0 < n then some (.symbols n) else none
    | none => none
  | _, _ => none

/-- The seed that an operation brings in. -/
def seed? : ContextOperation → List Value → Option Seed
  | .setSeed, [seed] => Seed.ofValue? seed
  | _, _ => none

end ContextOperation

/-! ### The generator of a context -/

namespace Host

def generator? (host : Host) (handle : Handle) : Option Twister := host.contexts[handle]?.map Context.generator

variable {host : Host} {handle other : Handle}

theorem Extends.generator? {after : Host} {g : Twister} (extends_ : host.Extends after)
    (there : host.generator? handle = some g) : after.generator? handle = some g := by
  obtain ⟨c, found, rfl⟩ := Option.map_eq_some_iff.mp there
  rw [Host.generator?, extends_.getElem? found, Option.map_some]

theorem generator?_modifyContext (other : Handle) {change : Context → Context}
    (same : ∀ c, (change c).generator = c.generator) :
    (host.modifyContext other change).generator? handle = host.generator? handle := by
  simp only [Host.generator?, Option.map_eq_bind]
  exact bind_modifyContext host other handle fun c => congrArg some (same c)

theorem generator?_modifyContext_self {g : Twister} {change : Context → Context}
    (there : (host.generator? handle).isSome) (changed : ∀ c, (change c).generator = g) :
    (host.modifyContext handle change).generator? handle = some g := by
  obtain ⟨before, found⟩ := Option.isSome_iff_exists.mp there
  obtain ⟨c, there, -⟩ := Option.map_eq_some_iff.mp found
  simp [Host.generator?, modifyContext, there, changed]

theorem generator?_write (text : String) : (host.write other text).generator? handle = host.generator? handle := by
  unfold write
  split
  · exact generator?_modifyContext other fun _ => rfl
  · rfl

theorem generator?_takeLine : (host.takeLine other).2.generator? handle = host.generator? handle := by
  unfold takeLine
  split
  · exact generator?_modifyContext other fun _ => rfl
  · rfl

end Host

namespace Errand

/-- Neither draws nor seeds. -/
def IsSteady : Errand → Prop
  | .work (.number _ _) | .work (.symbols _) | .seeding _ => False
  | _ => True

theorem generator?_act_of_steady (errand : Errand) (steady : errand.IsSteady) (handle other : Handle) (host : Host) :
    (errand.act other host).2.generator? handle = host.generator? handle := by
  cases errand with
  | answer result | refusal fault => rfl
  | seeding seed => cases steady
  | work task =>
    cases task with
    | line text => exact Host.generator?_write text
    | dialogue prompt =>
      refine Host.generator?_takeLine.trans ?_
      cases prompt with
      | none => rfl
      | some shown => exact Host.generator?_write shown
    | number low high | symbols length => cases steady

/-- An errand leaves the generators of all other contexts alone. -/
theorem generator?_act_of_ne (errand : Errand) {handle other : Handle} (apart : other ≠ handle) (host : Host) :
    (errand.act other host).2.generator? handle = host.generator? handle := by
  rw [Host.generator?, (errand.beside_act other host).others handle apart.symm, Host.generator?]

end Errand

namespace ContextOperation

variable {operation : ContextOperation} {args : List Value}

theorem errand_of_number {l h : Int} {low high : Value} (lower : low.number? = some l) (upper : high.number? = some h)
    (ordered : l ≤ h) :
    errand .randomInteger [low, high] =
      if Random.greatestWidth < Twister.bitLength (h - l + 1).toNat then .refusal .rangeTooLarge
      else .work (.number l h) := by
  have compared : low.exceeds? high = some false := by simp [Value.exceeds?, lower, upper, Int.not_lt.mpr ordered]
  simp only [errand, compared, lower, upper]

/-- What is drawn depends on the generator of its context alone. -/
theorem drawn_of_generator {α : Type} {host : Host} {handle : Handle} {g : Twister}
    (there : host.generator? handle = some g) (value : α → Value) (draws : Twister → α × Twister) :
    (Task.act.drawn handle host value draws).1 = value (draws g).1 ∧
    (Task.act.drawn handle host value draws).2.generator? handle = some (draws g).2 := by
  have known : (host.contexts[handle]?.map Context.generator).getD (Twister.ofNat 0) = g := by
    rw [show host.contexts[handle]?.map Context.generator = some g from there, Option.getD_some]
  have present : (host.generator? handle).isSome := by
    rw [there]
    rfl
  simp only [Task.act.drawn, known, true_and]
  exact Host.generator?_modifyContext_self present fun _ => rfl

/-- The errand of a draw makes it, or refuses what is too large. -/
theorem act_of_draw {d : Draw} (drawing : operation.draw? args = some d) {handle : Handle} {host : Host} {g : Twister}
    (there : host.generator? handle = some g) :
    (operation.errand args).waits = true ∧
    ((operation.errand args).act handle host).1 = (d.take g).1 ∧
    ((operation.errand args).act handle host).2.generator? handle = some (d.take g).2 := by
  unfold draw? at drawing
  split at drawing
  · next low high =>
    split at drawing
    · next l h lower upper =>
      split at drawing
      · next ordered =>
        cases drawing
        rw [errand_of_number lower upper ordered, Draw.take]
        split
        · exact ⟨rfl, rfl, there⟩
        · obtain ⟨value, generator⟩ := drawn_of_generator there Value.integer fun g => g.between l h
          simp only [Errand.act, Task.act, value, generator, and_true]
          rfl
      · cases drawing
    · cases drawing
  · next length =>
    split at drawing
    · next n counted =>
      split at drawing
      · next asked =>
        cases drawing
        have positive : ¬ n ≤ 0 := by omega
        simp only [errand, counted, positive, if_false, Draw.take]
        split
        · exact ⟨rfl, rfl, there⟩
        · obtain ⟨value, generator⟩ := drawn_of_generator there (fun symbols => Value.text (String.ofList symbols))
            fun g => g.symbols n.toNat
          simp only [Errand.act, Task.act, value, generator, and_true]
          rfl
      · cases drawing
    · cases drawing
  · cases drawing

theorem isSteady_errand (noDraw : operation.draw? args = none) (noSeed : operation.seed? args = none) :
    (operation.errand args).IsSteady := by
  unfold errand
  split
  · split <;> trivial
  · trivial
  · split <;> trivial
  · next low high =>
    split
    · trivial
    · trivial
    · next compared =>
      split
      · next l h lower upper =>
        have ordered : l ≤ h := by simpa [Value.exceeds?, lower, upper] using compared
        simp [draw?, lower, upper, ordered] at noDraw
      · trivial
  · next length =>
    split
    · split <;> trivial
    · next n counted =>
      split
      · trivial
      · next asked =>
        have positive : 0 < n := by omega
        simp [draw?, counted, positive] at noDraw
  · next seed =>
    have none_given : Seed.ofValue? seed = none := noSeed
    rw [none_given]
    trivial
  · trivial

theorem errand_of_seed {seed : Seed} (given : operation.seed? args = some seed) :
    operation.errand args = .seeding seed ∧ operation.draw? args = none := by
  unfold seed? at given
  split at given
  · simp only [errand, given, draw?, and_self]
  · cases given

end ContextOperation

namespace Session

/-- The draw that a step makes in a context. -/
def draw? (s : Session) (handle : Handle) (st : Step) : Option Draw :=
  match s.operation? st with
  | some (operation, args, context) =>
    if (Context.resolve context s.host).result.toOption = some handle then operation.draw? args else none
  | none => none

/-- The seed that a step seeds a context with anew. -/
def reseeding? (s : Session) (handle : Handle) (st : Step) : Option Seed :=
  match s.operation? st with
  | some (operation, args, context) =>
    if (Context.resolve context s.host).result.toOption = some handle then operation.seed? args else none
  | none => none

/-- The draws in a context that the steps make one after the other, with their results. -/
def draws (handle : Handle) : Session → List Step → List (Draw × Except Fault Answer)
  | _, [] => []
  | s, st :: rest =>
    match s.draw? handle st with
    | some d => (d, (s.step st).1.result) :: draws handle (s.step st).2 rest
    | none => draws handle (s.step st).2 rest

/-- None of the steps seeds the context anew. -/
def NeverReseeds (handle : Handle) : Session → List Step → Prop
  | _, [] => True
  | s, st :: rest => s.reseeding? handle st = none ∧ NeverReseeds handle (s.step st).2 rest

/-- The ways of seeding a context with a number. -/
inductive Seeds (s : Session) (handle : Handle) (n : Int) : Step → Prop
  /-- The context is made with the number. -/
  | create {name : String} {seed : Argument} {input : Option String} {ownOutput : Bool} :
      (s.evaluate seed).number? = some n → handle = s.host.contexts.length →
      Seeds s handle n (.create name seed input ownOutput)
  /-- The context is made without a seed of its own while the seed variable holds the number. -/
  | createFromVariable {name : String} {seed : Argument} {input : Option String} {ownOutput : Bool} :
      s.evaluate seed = .nothing → Context.seedOfVariable s.host.seedVariable = .ok (.integer n) →
      handle = s.host.contexts.length → Seeds s handle n (.create name seed input ownOutput)
  /-- The context is made as the default one while the seed variable holds the number. -/
  | makeDefault {st : Step} :
      s.host.defaultContext = none → (s.step st).2.host.defaultContext = some handle →
      handle = s.host.contexts.length → handle < (s.step st).2.host.contexts.length →
      s.reseeding? handle st = none → Context.seedOfVariable s.host.seedVariable = .ok (.integer n) →
      Seeds s handle n st
  /-- The context is seeded anew with the number. -/
  | reseed {st : Step} {seed : Seed} :
      s.reseeding? handle st = some seed → seed.toValue.number? = some n →
      handle < (s.step st).2.host.contexts.length → Seeds s handle n st

variable {s : Session} {handle : Handle} {st : Step} {g : Twister}

/-- What a step has done in a context whose generator was `g` before: it has left the generator alone, or has made its
    draw. -/
def Heeds (s : Session) (handle : Handle) (g : Twister) (st : Step) : Prop :=
  match s.draw? handle st with
  | some d =>
    (s.step st).1.result = (d.take g).1.map Answer.value ∧
    (s.step st).2.host.generator? handle = some (d.take g).2
  | none => (s.step st).2.host.generator? handle = some g

/-- An operation that has found its context heeds the generator that it finds there. -/
theorem heeds_of_found {operation : ContextOperation} {args : List Value} {context : Option Handle} {target : Handle}
    {found : Host} {log : List Notice} (runs : s.operation? st = some (operation, args, context))
    (resolved : Context.resolve context s.host = ⟨.ok target, found, log⟩)
    (waiting : (operation.errand args).waits = true) (kept : s.reseeding? handle st = none)
    (there : found.generator? handle = some g) : s.Heeds handle g st := by
  have ran := Errand.run_of_found waiting resolved
  have host : (s.step st).2.host = ((operation.errand args).act target found).2 := by
    rw [host_step_of_operation runs, ran.2]
  simp only [reseeding?, runs, resolved, Except.toOption, Option.some.injEq] at kept
  simp only [Heeds, draw?, runs, resolved, Except.toOption, Option.some.injEq]
  by_cases mine : target = handle
  · subst mine
    simp only [if_true] at kept ⊢
    cases drawing : operation.draw? args with
    | some d =>
      obtain ⟨_, result, generator⟩ := ContextOperation.act_of_draw drawing there
      have other : operation ≠ .setSeed := by
        rintro rfl
        cases drawing
      refine ⟨?_, ?_⟩
      · rw [result_step_of_operation runs other, ran.1, result]
      · rw [host, generator]
    | none =>
      have steady := ContextOperation.isSteady_errand drawing kept
      simp only
      rw [host, Errand.generator?_act_of_steady _ steady, there]
  · simp only [mine, if_false]
    rw [host, Errand.generator?_act_of_ne _ mine, there]

/-- No step but a draw changes a generator, as long as it is not seeded anew. -/
theorem heeds_step (there : s.host.generator? handle = some g) (kept : s.reseeding? handle st = none) :
    s.Heeds handle g st := by
  cases runs : s.operation? st with
  | none =>
    simp only [Heeds, draw?, runs]
    exact (extends_step runs).generator? there
  | some run =>
    obtain ⟨operation, args, context⟩ := run
    rcases resolved : Context.resolve context s.host with ⟨fault | target, found, log⟩
    · simp only [Heeds, draw?, runs, resolved, Except.toOption]
      rw [if_neg (Option.some_ne_none _).symm, host_step_of_lacking runs resolved, there]
    · cases waiting : (operation.errand args).waits with
      | true =>
        have extended : s.host.Extends found := by simpa [resolved] using Context.extends_resolve context s.host
        exact heeds_of_found runs resolved waiting kept (extended.generator? there)
      | false =>
        have noDraw : operation.draw? args = none := by
          cases drawing : operation.draw? args with
          | none => rfl
          | some d =>
            rw [(ContextOperation.act_of_draw drawing there).1] at waiting
            cases waiting
        simp only [Heeds, draw?, runs, noDraw, ite_self]
        rw [host_step_of_operation runs, Errand.run_of_answer waiting, there]

/-! ### Seeding -/

theorem generator_of_number {seed : Seed} {n : Int} (counted : seed.toValue.number? = some n) (entropy : Entropy) :
    (seed.generator entropy).1 = Twister.ofNat n.natAbs := by
  cases seed with
  | entropy => cases counted
  | integer m =>
    cases counted
    rfl
  | boolean b =>
    cases counted
    cases b <;> rfl

theorem generator?_grown (host : Host) (seed : Seed) (input : Option (List Char)) (output : Option String) :
    (host.grown seed input output).generator? host.contexts.length = some (seed.generator host.entropy).1 := by
  simp [Host.generator?, Host.grown]

/-- A value that counts as a number is a seed, and a context can be made with it. -/
theorem seed_of_number {v : Value} {n : Int} (writable : Numeral.Writable n) (counted : v.number? = some n) :
    ∃ seed message, Seed.ofValue? v = some seed ∧ seed.toValue.number? = some n ∧ seed ≠ .entropy ∧
      Context.creationMessage seed = .ok message := by
  cases v with
  | integer m =>
    cases counted
    exact ⟨.integer _, _, rfl, rfl, by simp, Context.creationMessage_integer writable⟩
  | boolean b => exact ⟨.boolean b, _, rfl, counted, by simp, rfl⟩
  | text text | nothing | foreign object => cases counted

theorem host_step_of_create (name : String) {seed : Argument} (input : Option String) (ownOutput : Bool)
    {given made : Seed} {message : String} (taken : Seed.ofValue? (s.evaluate seed) = some given)
    (created : ∀ own output, Context.create given own output s.host =
      ⟨.ok s.host.contexts.length, s.host.grown made own output, [⟨.contexts, message⟩]⟩) :
    ∃ own output, (s.step (.create name seed input ownOutput)).2.host = s.host.grown made own output := by
  refine ⟨input.map String.toList, if ownOutput then some "" else none, ?_⟩
  simp only [host_step, effectOf, taken]
  rw [Effect.host_bind_of_still _ still_seedAnswer, created]

theorem heeds_of_create {n : Int} (writable : Numeral.Writable n) {name : String} {seed : Argument}
    {input : Option String} {ownOutput : Bool} (counted : (s.evaluate seed).number? = some n) :
    s.Heeds s.host.contexts.length (Twister.ofNat n.natAbs) (.create name seed input ownOutput) := by
  obtain ⟨given, message, taken, number, notEntropy, shown⟩ := seed_of_number writable counted
  obtain ⟨own, output, host⟩ := host_step_of_create name input ownOutput taken fun own output =>
    Context.create_of_seed notEntropy shown own output s.host
  simp only [Heeds, draw?, operation?]
  rw [host, generator?_grown, generator_of_number number]

theorem heeds_of_createFromVariable {n : Int} {name : String} {seed : Argument} {input : Option String}
    {ownOutput : Bool} (absent : s.evaluate seed = .nothing)
    (read : Context.seedOfVariable s.host.seedVariable = .ok (.integer n)) :
    s.Heeds s.host.contexts.length (Twister.ofNat n.natAbs) (.create name seed input ownOutput) := by
  have good : ¬ Context.BadVariable s.host.seedVariable := by
    intro bad
    obtain ⟨raw, failed⟩ := Context.seedOfVariable_of_bad bad
    rw [read] at failed
    cases failed
  obtain ⟨made, message, again, shown⟩ := Context.seedOfVariable_of_good good
  rw [read] at again
  cases again
  have taken : Seed.ofValue? (s.evaluate seed) = some .entropy := by rw [absent]; rfl
  obtain ⟨own, output, host⟩ := host_step_of_create name input ownOutput taken
    (Context.create_entropy_apply read shown)
  simp only [Heeds, draw?, operation?]
  rw [host, generator?_grown]
  rfl

theorem heeds_of_makeDefault {n : Int} (vacant : s.host.defaultContext = none)
    (filled : (s.step st).2.host.defaultContext = some s.host.contexts.length)
    (longer : s.host.contexts.length < (s.step st).2.host.contexts.length)
    (kept : s.reseeding? s.host.contexts.length st = none)
    (read : Context.seedOfVariable s.host.seedVariable = .ok (.integer n)) :
    s.Heeds s.host.contexts.length (Twister.ofNat n.natAbs) st := by
  have generator : (s.host.withDefault (.integer n)).generator? s.host.contexts.length =
      some (Twister.ofNat n.natAbs) := generator?_grown s.host (.integer n) none none
  cases runs : s.operation? st with
  | none =>
    simp only [Heeds, draw?, runs]
    rcases host_step_of_idle runs with ⟨contexts, _, _⟩ | ⟨seed, input, output, made⟩ | ⟨_, seed, given, made⟩
    · rw [contexts] at longer
      exact absurd longer (Nat.lt_irrefl _)
    · rw [made, show (s.host.grown seed input output).defaultContext = none from vacant] at filled
      cases filled
    · rw [read] at given
      cases given
      rw [made, generator]
  | some run =>
    obtain ⟨operation, args, context⟩ := run
    -- The default context is filled by looking for it only, so that it has just been made.
    have changed : (s.step st).2.host.defaultContext ≠ s.host.defaultContext := by
      rw [filled, vacant]
      exact Option.some_ne_none _
    rw [host_step_of_operation runs] at changed
    cases waiting : (operation.errand args).waits with
    | false => exact absurd (by rw [Errand.run_of_answer waiting]) changed
    | true =>
      rcases Context.resolve_cases context s.host with ⟨_, raw, lacking⟩ | ⟨_, target, found⟩ |
        ⟨_, _, _, seed, message, given, made⟩
      · exact absurd (by rw [Errand.run_of_lacking waiting lacking]) changed
      · exact absurd (by rw [(Errand.run_of_found waiting found).2, (Errand.beside_act _ _ _).standing]) changed
      · rw [read] at given
        cases given
        exact heeds_of_found runs made waiting kept generator

/-- A new seed is set in the context that was found, and nothing is drawn. -/
theorem host_of_reseeding {seed : Seed} (reseeds : s.reseeding? handle st = some seed) :
    s.draw? handle st = none ∧ ∃ context found log, Context.resolve context s.host = ⟨.ok handle, found, log⟩ ∧
      (s.step st).2.host = found.reseeded handle seed := by
  cases runs : s.operation? st with
  | none => simp [reseeding?, runs] at reseeds
  | some run =>
    obtain ⟨operation, args, context⟩ := run
    simp only [reseeding?, runs] at reseeds
    split at reseeds
    · next mine =>
      obtain ⟨errand, noDraw⟩ := ContextOperation.errand_of_seed reseeds
      rcases resolved : Context.resolve context s.host with ⟨fault | target, found, log⟩
      · simp [resolved, Except.toOption] at mine
      · have here : target = handle := by simpa [resolved, Except.toOption] using mine
        subst here
        refine ⟨by simp only [draw?, runs, noDraw, ite_self], context, found, log, resolved, ?_⟩
        rw [host_step_of_operation runs, errand, (Errand.run_of_found rfl resolved).2]
        rfl
    · cases reseeds

theorem heeds_of_reseed {n : Int} {seed : Seed} (reseeds : s.reseeding? handle st = some seed)
    (counted : seed.toValue.number? = some n) (there : handle < (s.step st).2.host.contexts.length) :
    s.Heeds handle (Twister.ofNat n.natAbs) st := by
  obtain ⟨noDraw, context, found, log, _, host⟩ := host_of_reseeding reseeds
  have present : (found.generator? handle).isSome := by
    rw [host] at there
    simpa [Host.reseeded, Host.modifyContext, Host.generator?] using there
  simp only [Heeds, noDraw]
  rw [host]
  exact Host.generator?_modifyContext_self present fun c => generator_of_number counted found.entropy

theorem heeds_of_seeds {n : Int} (writable : Numeral.Writable n) (seeds : s.Seeds handle n st) :
    s.Heeds handle (Twister.ofNat n.natAbs) st := by
  cases seeds with
  | create given here =>
    subst here
    exact heeds_of_create writable given
  | createFromVariable absent read here =>
    subst here
    exact heeds_of_createFromVariable absent read
  | makeDefault vacant filled here longer kept read =>
    subst here
    exact heeds_of_makeDefault vacant filled longer kept read
  | reseed reseeds counted there => exact heeds_of_reseed reseeds counted there

/-! ### Runs -/

theorem draws_cons_of_heeds {rest : List Step} (heeds : s.Heeds handle g st)
    (later : ∀ after, (s.step st).2.host.generator? handle = some after →
      (s.step st).2.draws handle rest = Draw.series after (((s.step st).2.draws handle rest).map Prod.fst)) :
    s.draws handle (st :: rest) = Draw.series g ((s.draws handle (st :: rest)).map Prod.fst) := by
  cases drawing : s.draw? handle st with
  | some d =>
    simp only [Heeds, drawing] at heeds
    obtain ⟨result, generator⟩ := heeds
    simp only [draws, drawing, List.map_cons, Draw.series, result]
    rw [← later _ generator]
  | none =>
    simp only [Heeds, drawing] at heeds
    simp only [draws, drawing]
    exact later g heeds

theorem draws_eq_series {steps : List Step} (there : s.host.generator? handle = some g)
    (kept : s.NeverReseeds handle steps) :
    s.draws handle steps = Draw.series g ((s.draws handle steps).map Prod.fst) := by
  induction steps generalizing s g with
  | nil => rfl
  | cons st rest ih => exact draws_cons_of_heeds (heeds_step there kept.1) fun after there => ih there kept.2

/-- Seeded runs are reproducible. Two contexts that are seeded with numbers of the same size, whichever way and in
    whatever sessions, give the same results for the same draws, whatever other steps stand between these. -/
theorem draws_of_same_seed (s t : Session) (c d : Handle) (m n : Int) (first second : Step) (p q : List Step)
    (writableM : Numeral.Writable m) (writableN : Numeral.Writable n) (sameSize : m.natAbs = n.natAbs)
    (seedsC : s.Seeds c m first) (seedsD : t.Seeds d n second)
    (keptC : (s.step first).2.NeverReseeds c p) (keptD : (t.step second).2.NeverReseeds d q)
    (sameDraws : (s.draws c (first :: p)).map Prod.fst = (t.draws d (second :: q)).map Prod.fst) :
    s.draws c (first :: p) = t.draws d (second :: q) := by
  have drawnC := draws_cons_of_heeds (heeds_of_seeds writableM seedsC) fun _ there => draws_eq_series there keptC
  have drawnD := draws_cons_of_heeds (heeds_of_seeds writableN seedsD) fun _ there => draws_eq_series there keptD
  rw [drawnC, drawnD, sameDraws, sameSize]

/-- A text is drawn in the default context of the seed variable ` 7`, and later, by name and after a line has been
    printed, in a context made with the seed -7. -/
theorem draws_of_seven :
    let s := start (.fresh (some " 7") ⟨fun _ => [], 0⟩ "")
    let t := start (.fresh none ⟨fun _ => [], 0⟩ "")
    s.draws 0 [.call (.contextual .randomText) [.value (.integer 3)] none] =
      t.draws 0 [.create "a" (.value (.integer (-7))) none false,
        .call (.contextual .print) [.value (.text "x")] (some "a"),
        .call (.contextual .randomText) [.value (.integer 0)] (some "a"),
        .invoke "random_string" [.value (.integer 3)] (some "a")] := by
  intro s t
  have small (n : Int) (inside : Arithmetic.InRange n) : Numeral.Writable n := Arithmetic.writable_of_inRange inside
  refine draws_of_same_seed s t 0 0 7 (-7) _ _ [] _ (small 7 (by decide)) (small (-7) (by decide)) rfl
    (.makeDefault rfl ?_ rfl ?_ ?_ (by decide)) (.create rfl rfl) trivial ⟨?_, ?_, ?_, trivial⟩ ?_
  all_goals decide +kernel

end Session

end Primitives
