import Primitives.Proofs.Errand
import Primitives.Proofs.Unescaped

/-!
Calls on a plain host, whose streams hold no escape character. A plain effect keeps such a host plain, ends in a plain
fault or in a value as it should be, and notes plain messages; sequences of plain effects are plain. Every call by name
with plain arguments is plain (`plain_invoke`), whatever the seed variable holds.
-/
namespace Primitives

/-! ### Hosts -/

/-- The streams of the context's own hold no escape character. -/
structure Context.Plain (c : Context) : Prop where
  input : ∀ text, c.input = some text → '\x1b' ∉ text
  output : ∀ text, c.output = some text → Text.Plain text

/-- No stream holds an escape character. -/
structure Host.Plain (host : Host) : Prop where
  input : '\x1b' ∉ host.input
  output : Text.Plain host.output
  contexts : ∀ c ∈ host.contexts, c.Plain

theorem Line.split_append (text : List Char) : (split text).1 ++ (split text).2 = text := by
  fun_induction split text with
  | case1 => rfl
  | case2 rest => rfl
  | case3 c rest other line after same ih =>
    rw [same] at ih
    exact congrArg (c :: ·) ih

theorem Line.content_subset (line : List Char) : content line ⊆ line := by
  unfold content
  split_ifs
  · exact fun c member => List.dropLast_subset _ (List.dropLast_subset _ member)
  · exact List.dropLast_subset line
  · exact List.Subset.refl line

namespace Host.Plain

variable {host : Host} (plain : host.Plain) (handle : Handle)

include plain

theorem modifyContext {change : Context → Context} (keeps : ∀ c, c.Plain → (change c).Plain) :
    (host.modifyContext handle change).Plain := by
  refine ⟨plain.input, plain.output, fun c member => ?_⟩
  obtain ⟨other, there⟩ := List.mem_iff_getElem?.mp member
  rw [Host.modifyContext, List.getElem?_modify] at there
  cases old : host.contexts[other]? with
  | none => simp [old] at there
  | some d =>
    have isPlain := plain.contexts d (List.mem_of_getElem? old)
    by_cases here : handle = other
    · simp only [old, here, if_true, Option.map_eq_map, Option.map_some, Option.some.injEq] at there
      exact there ▸ keeps d isPlain
    · simp only [old, here, if_false, Option.map_eq_map, Option.map_some, Option.some.injEq] at there
      exact there ▸ isPlain

theorem write {text : String} (shown : Text.Plain text) : (host.write handle text).Plain := by
  unfold Host.write
  split
  · refine plain.modifyContext handle fun c kept => ⟨kept.input, fun now given => ?_⟩
    obtain ⟨before, was, rfl⟩ := Option.map_eq_some_iff.mp given
    exact Text.lacks_append.mpr ⟨kept.output before was, shown⟩
  · exact ⟨plain.input, Text.lacks_append.mpr ⟨plain.output, shown⟩, plain.contexts⟩

theorem takeLine : '\x1b' ∉ (host.takeLine handle).1 ∧ (host.takeLine handle).2.Plain := by
  have parts {text : List Char} (clean : '\x1b' ∉ text) :
      '\x1b' ∉ (Line.split text).1 ∧ '\x1b' ∉ (Line.split text).2 := by
    rwa [← Line.split_append text, List.mem_append, not_or] at clean
  unfold Host.takeLine
  split
  · next text own =>
    obtain ⟨c, there, given⟩ := Option.bind_eq_some_iff.mp own
    obtain ⟨taken, left⟩ := parts ((plain.contexts c (List.mem_of_getElem? there)).input text given)
    refine ⟨taken, plain.modifyContext handle fun d kept => ⟨fun now same => ?_, kept.output⟩⟩
    cases same
    exact left
  · obtain ⟨taken, left⟩ := parts plain.input
    exact ⟨taken, left, plain.output, plain.contexts⟩

end Host.Plain

/-! ### Effects -/

/-- The value is good or the fault plain, and so are the host and the notices. -/
structure Outcome.Plain {α : Type} (good : α → Prop) (outcome : Outcome α) : Prop where
  result : Plainly good outcome.result
  host : outcome.host.Plain
  log : ∀ notice ∈ outcome.log, Text.Plain notice.message

/-- Every plain host has a plain outcome. -/
def Effect.Plain {α : Type} (good : α → Prop) (effect : Effect α) : Prop :=
  ∀ host : Host, host.Plain → (effect host).Plain good

namespace Effect

variable {α β : Type} {good : α → Prop} {better : β → Prop}

theorem Plain.bind {first : Effect α} {next : α → Effect β} (plain : first.Plain good)
    (later : ∀ a, good a → (next a).Plain better) : (first >>= next).Plain better := by
  intro host isPlain
  have outcome := plain host isPlain
  rcases ran : first host with ⟨fault | a, after, log⟩
  · rw [ran] at outcome
    obtain ⟨_ | faulty, kept, noted⟩ := outcome
    rw [bind_of_error ran]
    exact ⟨.error faulty, kept, noted⟩
  · rw [ran] at outcome
    obtain ⟨isGood | _, kept, noted⟩ := outcome
    have final := later a isGood after kept
    rw [bind_of_ok ran]
    refine ⟨final.result, final.host, fun notice member => ?_⟩
    rcases List.mem_append.mp member with early | late
    · exact noted notice early
    · exact final.log notice late

theorem plain_ofExcept {result : Except Fault α} (plain : Plainly good result) : (ofExcept result).Plain good :=
  fun _ isPlain => ⟨plain, isPlain, by simp⟩

theorem plain_pure {a : α} (isGood : good a) : (Pure.pure a : Effect α).Plain good := plain_ofExcept (.ok isGood)

theorem plain_fail {fault : Fault} (plain : fault.Plain) : (fail fault : Effect α).Plain good :=
  plain_ofExcept (.error plain)

theorem plain_host : Effect.host.Plain fun _ => True := fun _ isPlain => ⟨.ok trivial, isPlain, by simp⟩

theorem plain_modify {change : Host → Host} (keeps : ∀ host : Host, host.Plain → (change host).Plain) :
    (modify change).Plain fun _ => True := fun host isPlain => ⟨.ok trivial, keeps host isPlain, by simp⟩

theorem plain_modifyGet {change : Host → α × Host}
    (keeps : ∀ host : Host, host.Plain → good (change host).1 ∧ (change host).2.Plain) : (modifyGet change).Plain good :=
  fun host isPlain => ⟨.ok (keeps host isPlain).1, (keeps host isPlain).2, by simp⟩

theorem plain_note (source : Source) {message : String} (plain : Text.Plain message) :
    (note source message).Plain fun _ => True := fun _ isPlain => ⟨.ok trivial, isPlain, by simpa using plain⟩

end Effect

/-! ### Contexts -/

theorem Seed.plain_toValue (seed : Seed) : seed.toValue.Plain := by cases seed <;> trivial

namespace Context

/-- A seed variable that is bad is quoted. -/
theorem plainly_seedOfVariable (content : Option String) : Plainly (fun _ => True) (seedOfVariable content) := by
  unfold seedOfVariable
  dsimp only
  split_ifs
  · exact .ok trivial
  · split
    · exact .ok trivial
    · exact .silent rfl

theorem plainly_creationMessage (seed : Seed) : Plainly Text.Plain (creationMessage seed) := by
  unfold creationMessage
  split
  · exact .ok Text.plain_literal
  · refine (Value.plainly_shown seed.plain_toValue).bind fun shown plain => ?_
    exact .ok (Text.lacks_append.mpr ⟨Text.plain_literal, plain⟩)

theorem plain_generatorOf (seed : Seed) : (generatorOf seed).Plain fun _ => True := by
  intro host plain
  rw [generatorOf_apply]
  exact ⟨.ok trivial, ⟨plain.input, plain.output, plain.contexts⟩, by simp⟩

theorem plain_create (seed : Seed) {input : Option (List Char)} {output : Option String}
    (plainInput : ∀ text, input = some text → '\x1b' ∉ text)
    (plainOutput : ∀ text, output = some text → Text.Plain text) :
    (create seed input output).Plain fun _ => True := by
  -- once the seed variable has been looked at, all seeds are treated alike
  have made (seed : Seed) : Effect.Plain (fun _ => True) (do
      let message ← Effect.ofExcept (creationMessage seed)
      let generator ← generatorOf seed
      Effect.note .contexts message
      Effect.modifyGet fun host : Host =>
        (host.contexts.length,
          { host with contexts := host.contexts ++ [Context.mk seed generator input output] })) := by
    refine (Effect.plain_ofExcept (plainly_creationMessage seed)).bind fun message plain => ?_
    refine (plain_generatorOf seed).bind fun generator _ => ?_
    refine (Effect.plain_note .contexts plain).bind fun _ _ => ?_
    refine Effect.plain_modifyGet fun host isPlain => ⟨trivial, isPlain.input, isPlain.output, fun c member => ?_⟩
    rcases List.mem_append.mp member with old | new
    · exact isPlain.contexts c old
    · cases List.mem_singleton.mp new
      exact ⟨plainInput, plainOutput⟩
  cases seed with
  | entropy =>
    refine Effect.plain_host.bind fun host _ => ?_
    exact (Effect.plain_ofExcept (plainly_seedOfVariable host.seedVariable)).bind fun seed _ => made seed
  | integer n | boolean b => simpa only [create, Effect.pure_bind] using made _

theorem plain_resolve (context : Option Handle) : (resolve context).Plain fun _ => True := by
  cases context with
  | some handle => exact Effect.plain_pure trivial
  | none =>
    refine Effect.plain_host.bind fun host _ => ?_
    split
    · exact Effect.plain_pure trivial
    · refine (plain_create .entropy (by simp) (by simp)).bind fun handle _ => ?_
      refine (Effect.plain_modify fun host plain => ?_).bind fun _ _ => Effect.plain_pure trivial
      exact ⟨plain.input, plain.output, plain.contexts⟩

theorem plain_reseed (handle : Handle) (seed : Seed) : (reseed handle seed).Plain fun _ => True := by
  refine (plain_generatorOf seed).bind fun generator _ => ?_
  refine (Effect.plain_modify fun host plain => plain.modifyContext handle fun c kept => ?_).bind fun _ _ => ?_
  · exact ⟨kept.input, kept.output⟩
  refine (Effect.plain_ofExcept (Value.plainly_shown seed.plain_toValue)).bind fun shown plain => ?_
  exact Effect.plain_note .contexts (Text.lacks_append.mpr ⟨Text.plain_literal, plain⟩)

end Context

/-! ### Operations that use a context -/

theorem Console.plainly_lineOf {values : List Value} (plain : ∀ v ∈ values, v.Plain) :
    Plainly Text.Plain (lineOf values) := by
  refine (ends_mapM fun v member => Text.plainly_ofValue (plain v member)).bind fun texts arePlain => ?_
  exact .ok (Text.lacks_append.mpr ⟨Text.lacks_intercalate Text.plain_literal arePlain, Text.plain_literal⟩)

theorem Console.plainly_promptText? {prompt : Value} (plain : prompt.Plain) :
    Plainly (fun shown => ∀ text, shown = some text → Text.Plain text) (promptText? prompt) := by
  cases prompt with
  | text s =>
    rw [promptText?]
    split_ifs
    · exact .ok (by simp)
    · exact .ok (by simpa using (show Text.Plain s from plain))
  | boolean b =>
    cases b
    · exact .ok (by simp)
    · exact .silent rfl
  | integer n =>
    rw [promptText?]
    split_ifs
    · exact .ok (by simp)
    · exact .silent rfl
  | nothing => exact .ok (by simp)
  | foreign object => cases plain

theorem Random.plainly_emptyRange {low high : Value} (lowPlain : low.Plain) (highPlain : high.Plain) :
    Plainly Value.Plain (emptyRange low high) := by
  refine (Value.plainly_shown lowPlain).bind fun lowText isLow => ?_
  refine (Value.plainly_shown highPlain).bind fun highText isHigh => ?_
  exact .error (by simpa [Fault.Plain, Fault.parts] using ⟨isLow, isHigh⟩)

theorem Twister.symbol_ne (g : Twister) : g.symbol.1 ≠ '\x1b' := by
  have absent : '\x1b' ∉ 'a' :: alphabet := by decide
  intro same
  refine absent (same ▸ ?_)
  simp only [symbol, List.getD_eq_getElem?_getD]
  cases found : alphabet[symbolIndex g.next.1 g.next.2.next.1]? with
  | none => exact List.mem_cons_self
  | some c => exact List.mem_cons_of_mem _ (List.mem_of_getElem? found)

theorem Twister.notMem_symbolsAfter {count : Nat} {given : List Char} (g : Twister) (clean : '\x1b' ∉ given) :
    '\x1b' ∉ (symbolsAfter count given g).1 := by
  induction count generalizing given g with
  | zero => simpa [symbolsAfter] using clean
  | succ count ih =>
    refine ih _ ?_
    rw [List.mem_cons, not_or]
    exact ⟨g.symbol_ne.symm, clean⟩

/-- What the task shows is plain. -/
def Task.Plain : Task → Prop
  | .line text => Text.Plain text
  | .dialogue prompt => ∀ text, prompt = some text → Text.Plain text
  | _ => True

theorem Task.plain_act {task : Task} (plain : task.Plain) (handle : Handle) {host : Host} (isPlain : host.Plain) :
    (task.act handle host).1.Plain ∧ (task.act handle host).2.Plain := by
  cases task with
  | line text => exact ⟨trivial, isPlain.write handle plain⟩
  | dialogue prompt =>
    have prompted : (Console.prompted host handle prompt).Plain := by
      cases prompt with
      | none => exact isPlain
      | some shown => exact isPlain.write handle (plain shown rfl)
    obtain ⟨taken, left⟩ := prompted.takeLine handle
    exact ⟨Text.lacks_ofList.mpr fun member => taken (Line.content_subset _ member), left⟩
  | number low high =>
    exact ⟨trivial, isPlain.modifyContext handle fun c kept => ⟨kept.input, kept.output⟩⟩
  | symbols length =>
    refine ⟨Text.lacks_ofList.mpr (Twister.notMem_symbolsAfter _ (by simp)), ?_⟩
    exact isPlain.modifyContext handle fun c kept => ⟨kept.input, kept.output⟩

/-- What the errand answers or shows is plain. -/
def Errand.Plain : Errand → Prop
  | .answer result => Plainly Value.Plain result
  | .refusal fault => fault.Plain
  | .work task => task.Plain
  | .seeding _ => True

theorem Errand.plain_run {errand : Errand} (plain : errand.Plain) (context : Option Handle) :
    (errand.run context).Plain Value.Plain := by
  cases errand with
  | answer result => exact Effect.plain_ofExcept plain
  | refusal fault => exact (Context.plain_resolve context).bind fun _ _ => Effect.plain_fail plain
  | work task =>
    refine (Context.plain_resolve context).bind fun handle _ => ?_
    exact Effect.plain_modifyGet fun host isPlain => Task.plain_act plain handle isPlain
  | seeding seed =>
    refine (Context.plain_resolve context).bind fun handle _ => ?_
    exact (Context.plain_reseed handle seed).bind fun _ _ => Effect.plain_pure trivial

theorem ContextOperation.plain_errand (operation : ContextOperation) {args : List Value}
    (plain : ∀ v ∈ args, v.Plain) : (operation.errand args).Plain := by
  have refused : Fault.mistyped.Plain := Fault.plain_of_parts rfl
  unfold errand
  split
  · have shown := Console.plainly_lineOf plain
    cases made : Console.lineOf args with
    | error fault =>
      rw [made] at shown
      obtain _ | faulty := shown
      exact .error faulty
    | ok line =>
      rw [made] at shown
      obtain isPlain | _ := shown
      exact isPlain
  · simp [Errand.Plain, Task.Plain]
  · next prompt =>
    have asked := Console.plainly_promptText? (plain prompt (by simp))
    cases made : Console.promptText? prompt with
    | error fault =>
      rw [made] at asked
      obtain _ | faulty := asked
      exact faulty
    | ok shown =>
      rw [made] at asked
      obtain isPlain | _ := asked
      exact isPlain
  · next low high =>
    split
    · exact .error refused
    · exact Random.plainly_emptyRange (plain low (by simp)) (plain high (by simp))
    · split
      · split_ifs
        · exact Fault.plain_of_parts rfl
        · trivial
      · exact refused
  · split
    · split_ifs
      · exact refused
      · exact .error refused
    · split_ifs
      · exact .ok (Text.plain_literal : Text.Plain "")
      · exact Fault.plain_of_parts rfl
      · trivial
  · split
    · trivial
    · exact refused
  · exact .error refused

/-! ### Calls by name -/

namespace Signature

/-- The parameters have plain names or none. -/
def PlainlyNamed (params : List Param) : Prop := ∀ p ∈ params, ∀ name, p.name = some name → Text.Plain name

theorem plain_label {p : Param} (named : ∀ name, p.name = some name → Text.Plain name) (index : Nat) :
    Text.Plain (p.label index) := by
  unfold Param.label
  split
  · next name given =>
    split_ifs
    · exact Text.plain_digits _
    · exact named name given
  · exact Text.plain_digits _

theorem plainly_checkArgument {name : String} {p : Param} {v : Value} (plainName : Text.Plain name)
    (named : ∀ name, p.name = some name → Text.Plain name) (plain : v.Plain) (index : Nat) :
    Plainly (fun _ => True) (checkArgument name index p v) := by
  have label := plain_label named index
  unfold checkArgument
  split_ifs
  · exact .error (by simpa [Fault.Plain, Fault.parts] using ⟨label, plainName, Value.plain_described plain⟩)
  · split
    · split_ifs
      · exact .ok trivial
      · exact .error (Fault.plain_showing (by simpa [Fault.Plain, Fault.parts] using ⟨label, plainName⟩))
    · exact .ok trivial

theorem plainly_checkFrom {name : String} {params : List Param} {args : List Value} (plainName : Text.Plain name)
    (named : PlainlyNamed params) (plain : ∀ v ∈ args, v.Plain) (index : Nat) :
    Plainly (fun _ => True) (checkFrom name params index args) := by
  induction args generalizing index with
  | nil => exact .ok trivial
  | cons v rest ih =>
    obtain ⟨first, others⟩ := List.forall_mem_cons.mp plain
    have now : Plainly (fun _ => True) (checkAt name params index v) := by
      unfold checkAt
      split
      · next p there => exact plainly_checkArgument plainName (named p (mem_of_paramAt? there)) first index
      · exact .ok trivial
    rw [checkFrom_cons]
    exact now.bind fun _ _ => ih others (index + 1)

theorem plainly_validate {name : String} {params : List Param} {args : List Value} (plainName : Text.Plain name)
    (named : PlainlyNamed params) (plain : ∀ v ∈ args, v.Plain) :
    Plainly (fun _ => True) (validate name args params) := by
  unfold validate
  split_ifs
  · exact .error (by simpa [Fault.Plain, Fault.parts] using plainName)
  · exact .error (by simpa [Fault.Plain, Fault.parts] using plainName)
  · exact plainly_checkFrom plainName named plain 0

end Signature

namespace Registry

variable {r : Registry} {name : String} {args : List Value}

theorem plainly_validateCall (named : ∀ d ∈ r.definitions, Signature.PlainlyNamed d.params)
    (plainName : Text.Plain name) (plain : ∀ v ∈ args, v.Plain) :
    Plainly (fun _ => True) (r.validateCall name args) := by
  unfold validateCall
  split
  · exact .error (by simpa [Fault.Plain, Fault.parts] using plainName)
  · next d found =>
    have checked := Signature.plainly_validate plainName (named d (mem_of_get? found).1) plain
    exact checked.bind fun _ _ => .ok trivial

/-- Calls with plain arguments show and note nothing but plain texts. -/
theorem plain_invoke (named : ∀ d ∈ r.definitions, Signature.PlainlyNamed d.params) (plainName : Text.Plain name)
    (plain : ∀ v ∈ args, v.Plain) (context : Option Handle) : (r.invoke name args context).Plain Value.Plain := by
  refine (Effect.plain_ofExcept (plainly_validateCall named plainName plain)).bind fun d _ => ?_
  refine (Effect.plain_note .registry ?_).bind fun _ _ => ?_
  · simp only [Text.lacks_append]
    exact ⟨⟨⟨⟨Text.plain_literal, plainName⟩, Text.plain_literal⟩, Text.plain_digits _⟩, Text.plain_literal⟩
  · have contextual (operation : ContextOperation) (context : Option Handle) :
        (operation.run args context).Plain Value.Plain := by
      rw [ContextOperation.run_eq]
      exact Errand.plain_run (operation.plain_errand plain) context
    cases d.implementation with
    | plain operation =>
      split_ifs
      · exact Effect.plain_fail (Fault.plain_of_parts rfl)
      · exact Effect.plain_ofExcept (operation.plainly_apply plain)
    | contextual operation =>
      split_ifs
      · exact contextual operation context
      · exact contextual operation none

end Registry

end Primitives
