import Primitives.Proofs.Absence
import Primitives.Proofs.Session

/-!
Inputs are read line by line. The lines of a text are its pieces between line feeds, each of which but the last one
loses a carriage return at its end (`Line.all`). Reading in a context takes the next line of the input that the context
uses and leaves all other inputs alone (`remaining?_takeLine`); no other step takes anything. The k-th line that a run
of steps reads from an input is thus the k-th line of it, through whichever contexts it is read.
-/
namespace Primitives

/-! ### Lines of a text -/

namespace Line

/-- A piece of a text without one carriage return at its end. -/
def unreturned (piece : List Char) : List Char := if piece.getLast? = some '\r' then piece.dropLast else piece

/-- The lines of a text. The last one is not terminated, so that it is complete as it is. -/
def all (text : List Char) : List (List Char) :=
  let pieces := text.splitOn '\n'
  pieces.dropLast.map unreturned ++ pieces.getLast?.toList

/-- The line of the given number, counted from 0; after the last line there are empty ones only. -/
def nth (text : List Char) (k : Nat) : List Char := (all text).getD k []

variable {text line : List Char}

theorem all_of_notMem (clean : '\n' ∉ text) : all text = [text] := by
  have single : text.splitOn '\n' = [text] := by
    rw [List.splitOn_eq_splitOnP]
    apply List.splitOnP_eq_singleton
    intro c member
    rw [beq_eq_false_iff_ne]
    rintro rfl
    exact clean member
  simp [all, single]

theorem all_append_cons (clean : '\n' ∉ line) (rest : List Char) :
    all (line ++ '\n' :: rest) = unreturned line :: all rest := by
  have more : rest.splitOn '\n' ≠ [] := List.splitOn_ne_nil '\n' rest
  simp only [all, Text.splitOn_append_cons clean, List.dropLast_cons_of_ne_nil more, List.map_cons, List.cons_append,
    List.getLast?_cons_of_ne_nil more]

theorem split_of_notMem (clean : '\n' ∉ text) : split text = (text, []) := by
  induction text with
  | nil => rfl
  | cons c rest ih =>
    simp only [List.mem_cons, not_or] at clean
    simp [split, Ne.symm clean.1, ih clean.2]

theorem split_append_cons (clean : '\n' ∉ line) (rest : List Char) :
    split (line ++ '\n' :: rest) = (line ++ ['\n'], rest) := by
  induction line with
  | nil => rfl
  | cons c line ih =>
    simp only [List.mem_cons, not_or] at clean
    simp [split, Ne.symm clean.1, ih clean.2]

theorem content_of_notMem (clean : '\n' ∉ text) : content text = text := by
  have unterminated : text.getLast? ≠ some '\n' := fun last => clean (List.mem_of_getLast? last)
  rw [content, if_neg unterminated]

theorem content_append_feed (line : List Char) : content (line ++ ['\n']) = unreturned line := by
  simp [content, unreturned]

/-- The line that is taken from a text is its first one, and the others are left. -/
theorem nth_split (text : List Char) :
    nth text 0 = content (split text).1 ∧ ∀ k, nth text (k + 1) = nth (split text).2 k := by
  by_cases feed : '\n' ∈ text
  · obtain ⟨line, rest, rfl, clean⟩ := List.eq_append_cons_of_mem feed
    rw [split_append_cons clean, content_append_feed]
    simp only [nth, all_append_cons clean]
    exact ⟨rfl, fun k => rfl⟩
  · rw [split_of_notMem feed, content_of_notMem feed]
    simp only [nth, all_of_notMem feed]
    refine ⟨rfl, fun k => ?_⟩
    cases k <;> rfl

end Line

/-! ### Inputs -/

/-- What lines can be read from: the input of the process, or that of a context. -/
inductive Input where
  | process
  | own (handle : Handle)
deriving DecidableEq, Repr

namespace Host

/-- What is left of an input. -/
def remaining? (host : Host) : Input → Option (List Char)
  | .process => some host.input
  | .own handle => host.contexts[handle]?.bind Context.input

/-- The input that is read in a context: its own one, or else that of the process. -/
def inputOf (host : Host) (handle : Handle) : Input :=
  if (host.contexts[handle]?.bind Context.input).isSome then .own handle else .process

variable {host : Host} {handle : Handle} {input : Input} {text : List Char}

theorem Extends.remaining? {after : Host} (extends_ : host.Extends after) (left : host.remaining? input = some text) :
    after.remaining? input = some text := by
  cases input with
  | process => exact (congrArg some extends_.input).trans left
  | own handle =>
    obtain ⟨c, there, own⟩ := Option.bind_eq_some_iff.mp left
    simp only [Host.remaining?, extends_.getElem? there, Option.bind_some, own]

theorem remaining?_modifyContext (handle : Handle) {change : Context → Context}
    (same : ∀ c, (change c).input = c.input) :
    (host.modifyContext handle change).remaining? input = host.remaining? input := by
  cases input with
  | process => rfl
  | own other => exact bind_modifyContext host handle other same

theorem remaining?_write (handle : Handle) (shown : String) :
    (host.write handle shown).remaining? input = host.remaining? input := by
  unfold write
  split
  · exact remaining?_modifyContext handle fun _ => rfl
  · cases input <;> rfl

/-- Taking a line in a context takes the first one of the input that the context uses. -/
theorem remaining?_takeLine (left : host.remaining? (host.inputOf handle) = some text) :
    (host.takeLine handle).1 = (Line.split text).1 ∧
    (host.takeLine handle).2.remaining? (host.inputOf handle) = some (Line.split text).2 := by
  cases own : host.contexts[handle]?.bind Context.input with
  | none =>
    have shared : host.inputOf handle = .process := by simp [inputOf, own]
    rw [shared] at left ⊢
    cases left
    simp [takeLine, own, remaining?]
  | some mine =>
    have private_ : host.inputOf handle = .own handle := by simp [inputOf, own]
    rw [private_] at left ⊢
    rw [remaining?, own] at left
    cases left
    obtain ⟨c, there, given⟩ := Option.bind_eq_some_iff.mp own
    simp [takeLine, remaining?, modifyContext, there, given]

theorem remaining?_takeLine_of_ne (apart : host.inputOf handle ≠ input) :
    (host.takeLine handle).2.remaining? input = host.remaining? input := by
  cases own : host.contexts[handle]?.bind Context.input with
  | none =>
    have shared : host.inputOf handle = .process := by simp [inputOf, own]
    rw [shared] at apart
    cases input with
    | process => exact absurd rfl apart
    | own other => simp [takeLine, own, remaining?]
  | some mine =>
    have private_ : host.inputOf handle = .own handle := by simp [inputOf, own]
    rw [private_] at apart
    cases input with
    | process => simp [takeLine, own, remaining?, modifyContext]
    | own other =>
      have elsewhere : handle ≠ other := fun same => apart (by rw [same])
      simp [takeLine, own, remaining?, modifyContext, elsewhere]

theorem inputOf_write (handle other : Handle) (shown : String) :
    (host.write other shown).inputOf handle = host.inputOf handle := by
  have same : (host.write other shown).remaining? (.own handle) = host.remaining? (.own handle) :=
    remaining?_write other shown
  simp only [remaining?] at same
  rw [inputOf, inputOf, same]

end Host

/-! ### Reading in a context -/

namespace Errand

theorem remaining?_act {errand : Errand} (other : ∀ prompt, errand ≠ .work (.dialogue prompt)) (handle : Handle)
    (host : Host) (input : Input) : (errand.act handle host).2.remaining? input = host.remaining? input := by
  cases errand with
  | answer result | refusal fault => rfl
  | seeding seed =>
    rw [act, Host.reseeded, Host.remaining?_modifyContext handle]
    · cases input <;> rfl
    · exact fun _ => rfl
  | work task =>
    cases task with
    | line text => exact Host.remaining?_write handle text
    | dialogue prompt => exact absurd rfl (other prompt)
    | number low high | symbols length => exact Host.remaining?_modifyContext handle fun _ => rfl

theorem prompted_frame (host : Host) (handle : Handle) (prompt : Option String) :
    (Console.prompted host handle prompt).inputOf handle = host.inputOf handle ∧
    ∀ input, (Console.prompted host handle prompt).remaining? input = host.remaining? input := by
  cases prompt with
  | none => exact ⟨rfl, fun _ => rfl⟩
  | some shown => exact ⟨Host.inputOf_write handle handle shown, fun _ => Host.remaining?_write handle shown⟩

theorem act_dialogue {host : Host} {handle : Handle} {text : List Char} (prompt : Option String)
    (left : host.remaining? (host.inputOf handle) = some text) :
    ((Errand.work (.dialogue prompt)).act handle host).1 = .ok (.text (String.ofList (Line.nth text 0))) ∧
    ((Errand.work (.dialogue prompt)).act handle host).2.remaining? (host.inputOf handle) =
      some (Line.split text).2 := by
  obtain ⟨sameInput, same⟩ := prompted_frame host handle prompt
  rw [← same, ← sameInput] at left
  obtain ⟨line, rest⟩ := Host.remaining?_takeLine left
  rw [sameInput] at rest
  refine ⟨?_, rest⟩
  simp only [act, Task.act, line, (Line.nth_split text).1]

theorem remaining?_act_dialogue_of_ne {host : Host} {handle : Handle} {input : Input} (prompt : Option String)
    (apart : host.inputOf handle ≠ input) :
    ((Errand.work (.dialogue prompt)).act handle host).2.remaining? input = host.remaining? input := by
  obtain ⟨sameInput, same⟩ := prompted_frame host handle prompt
  rw [← sameInput] at apart
  exact (Host.remaining?_takeLine_of_ne apart).trans (same input)

end Errand

namespace ContextOperation

theorem errand_readLine_cases (args : List Value) :
    (∃ fault, errand .readLine args = .answer (.error fault)) ∨ (∃ fault, errand .readLine args = .refusal fault) ∨
    (∃ prompt, errand .readLine args = .work (.dialogue prompt)) := by
  match args with
  | [] => exact .inr (.inr ⟨none, rfl⟩)
  | [prompt] =>
    cases asked : Console.promptText? prompt with
    | error fault => exact .inr (.inl ⟨fault, by simp only [errand, asked]⟩)
    | ok shown => exact .inr (.inr ⟨shown, by simp only [errand, asked]⟩)
  | _ :: _ :: _ => exact .inl ⟨.mistyped, rfl⟩

/-- Reading a line is the only operation with a dialogue. -/
theorem eq_readLine_of_dialogue {operation : ContextOperation} {args : List Value} {prompt : Option String}
    (dialogue : operation.errand args = .work (.dialogue prompt)) : operation = .readLine := by
  unfold errand at dialogue
  split at dialogue
  case h_2 | h_3 => rfl
  all_goals
    repeat' split at dialogue
    all_goals cases dialogue

end ContextOperation

/-! ### Reading in a session -/

namespace Session

/-- The input that a step reads from. -/
def readsFrom? (s : Session) (st : Step) : Option Input :=
  match s.operation? st with
  | some (.readLine, _, context) =>
    match Context.resolve context s.host with
    | ⟨.ok handle, found, _⟩ => some (found.inputOf handle)
    | _ => none
  | _ => none

/-- What the steps that read from an input and end well answer, one after the other. -/
def reads (input : Input) : Session → List Step → List Answer
  | _, [] => []
  | s, st :: rest =>
    match (s.step st).1.result with
    | .ok answer =>
      if s.readsFrom? st = some input then answer :: reads input (s.step st).2 rest
      else reads input (s.step st).2 rest
    | .error _ => reads input (s.step st).2 rest

variable {s : Session} {st : Step} {input : Input} {text : List Char}

/-- What a step has done to an input of which `text` was left: it has taken and answered the first line, or has left all
    of it. -/
def Minds (s : Session) (st : Step) (input : Input) (text : List Char) : Prop :=
  match (s.step st).1.result with
  | .ok answer =>
    if s.readsFrom? st = some input then
      answer = .value (.text (String.ofList (Line.nth text 0))) ∧
      (s.step st).2.host.remaining? input = some (Line.split text).2
    else (s.step st).2.host.remaining? input = some text
  | .error _ => (s.step st).2.host.remaining? input = some text

theorem minds_of_frame (kept : (s.step st).2.host.remaining? input = some text)
    (failing : s.readsFrom? st = some input → ∃ fault, (s.step st).1.result = .error fault) :
    s.Minds st input text := by
  unfold Minds
  split
  · next answer ended =>
    rw [if_neg]
    · exact kept
    · intro reading
      obtain ⟨fault, failed⟩ := failing reading
      rw [failed] at ended
      cases ended
  · exact kept

section Operation

variable {operation : ContextOperation} {args : List Value} {context : Option Handle}

theorem eq_readLine_of_readsFrom (runs : s.operation? st = some (operation, args, context))
    (reading : s.readsFrom? st = some input) : operation = .readLine := by
  simp only [readsFrom?, runs] at reading
  split at reading
  · next same => cases same; rfl
  · cases reading

theorem minds_of_found {target : Handle} {found : Host} {log : List Notice}
    (runs : s.operation? st = some (operation, args, context))
    (resolved : Context.resolve context s.host = ⟨.ok target, found, log⟩)
    (waiting : (operation.errand args).waits = true) (left : found.remaining? input = some text) :
    s.Minds st input text := by
  have ran := Errand.run_of_found waiting resolved
  have host : (s.step st).2.host = ((operation.errand args).act target found).2 := by
    rw [host_step_of_operation runs, ran.2]
  by_cases dialogue : ∃ prompt, operation.errand args = .work (.dialogue prompt)
  · obtain ⟨prompt, asked⟩ := dialogue
    obtain rfl := ContextOperation.eq_readLine_of_dialogue asked
    have source : s.readsFrom? st = some (found.inputOf target) := by simp only [readsFrom?, runs, resolved]
    rw [asked] at host
    by_cases here : found.inputOf target = input
    · subst here
      obtain ⟨line, rest⟩ := Errand.act_dialogue prompt left
      have result := result_step_of_operation runs (by decide)
      rw [ran.1, asked, line] at result
      simp only [Minds, result, Except.map, source, if_true, true_and]
      rw [host, rest]
    · refine minds_of_frame ?_ fun reading => ?_
      · rw [host, Errand.remaining?_act_dialogue_of_ne prompt here, left]
      · rw [source] at reading
        exact absurd (Option.some.inj reading) here
  · refine minds_of_frame ?_ fun reading => ?_
    · rw [host, Errand.remaining?_act (fun prompt asked => dialogue ⟨prompt, asked⟩), left]
    · obtain rfl := eq_readLine_of_readsFrom runs reading
      have result := result_step_of_operation runs (by decide)
      rcases ContextOperation.errand_readLine_cases args with ⟨fault, done⟩ | ⟨fault, done⟩ | asked
      · rw [done] at waiting
        cases waiting
      · exact ⟨fault, by rw [result, ran.1, done]; rfl⟩
      · exact absurd asked dialogue

end Operation

/-- Every step minds every input. -/
theorem minds_step (left : s.host.remaining? input = some text) : s.Minds st input text := by
  cases runs : s.operation? st with
  | none =>
    refine minds_of_frame ((extends_step runs).remaining? left) fun reading => ?_
    simp [readsFrom?, runs] at reading
  | some run =>
    obtain ⟨operation, args, context⟩ := run
    cases waiting : (operation.errand args).waits with
    | false =>
      refine minds_of_frame ?_ fun reading => ?_
      · rw [host_step_of_operation runs, Errand.run_of_answer waiting, left]
      · obtain rfl := eq_readLine_of_readsFrom runs reading
        have result := result_step_of_operation runs (by decide)
        rcases ContextOperation.errand_readLine_cases args with ⟨fault, done⟩ | ⟨fault, done⟩ | ⟨prompt, done⟩
        · exact ⟨fault, by rw [result, done]; rfl⟩
        · rw [done] at waiting
          cases waiting
        · rw [done] at waiting
          cases waiting
    | true =>
      rcases resolved : Context.resolve context s.host with ⟨fault | target, found, log⟩
      · refine minds_of_frame ?_ fun reading => ?_
        · rw [host_step_of_lacking runs resolved, left]
        · obtain rfl := eq_readLine_of_readsFrom runs reading
          simp [readsFrom?, runs, resolved] at reading
      · have extended : s.host.Extends found := by simpa [resolved] using Context.extends_resolve context s.host
        exact minds_of_found runs resolved waiting (extended.remaining? left)

/-- A context made with an input has all of it before it. -/
theorem remaining?_of_create {name : String} {seed : Argument} {given : String} {ownOutput : Bool} {answer : Answer}
    (made : (s.step (.create name seed (some given) ownOutput)).1.result = .ok answer) :
    (s.step (.create name seed (some given) ownOutput)).2.host.remaining? (.own s.host.contexts.length) =
      some given.toList := by
  rcases effectOf_create_cases s name seed (some given) ownOutput s.host with ⟨fault, failed, _⟩ | ⟨_, _, host⟩
  · cases failed.symm.trans made
  · rw [host_step, host]
    simp [Host.remaining?, Host.grown]

/-- No line is lost, repeated or altered. The k-th line that a run of steps reads from an input is the k-th one of
    what was left of it before, or empty after the last one. All of an input is left when its context has been made. -/
theorem reads_lines (s : Session) (steps : List Step) :
    (∀ (input : Input) (text : List Char) (k : Nat) (answer : Answer), s.host.remaining? input = some text →
      (s.reads input steps)[k]? = some answer → answer = .value (.text (String.ofList (Line.nth text k)))) ∧
    (∀ (name : String) (seed : Argument) (given : String) (ownOutput : Bool) (answer : Answer),
      (s.step (.create name seed (some given) ownOutput)).1.result = .ok answer →
      (s.step (.create name seed (some given) ownOutput)).2.host.remaining? (.own s.host.contexts.length) =
        some given.toList) := by
  refine ⟨?_, fun name seed given ownOutput answer made => remaining?_of_create made⟩
  intro input text k answer left read
  -- What is left before a step decides its line; the lines after it are those of what it leaves.
  induction steps generalizing s text k with
  | nil => cases read
  | cons st rest ih =>
    have minds : s.Minds st input text := minds_step left
    unfold Minds at minds
    unfold reads at read
    split at read
    · next ended =>
      simp only [ended] at minds
      split at read
      · next reading =>
        rw [if_pos reading] at minds
        cases k with
        | zero =>
          cases read
          exact minds.1
        | succ k =>
          rw [(Line.nth_split text).2]
          exact ih _ _ _ minds.2 read
      · next elsewhere =>
        rw [if_neg elsewhere] at minds
        exact ih _ _ _ minds read
    · next ended =>
      simp only [ended] at minds
      exact ih _ _ _ minds read

/-- The third line of the process is read through a third context, after a line of another input and a read that is
    refused. It keeps its carriage return, which ends the input; the second line keeps one of two. -/
theorem reads_third_line :
    let s := start (.fresh (some "7") ⟨fun _ => [], 0⟩ "a\r\n\r\r\nb\r")
    let read (name : Option String) (args : List Argument) : Step := .call (.contextual .readLine) args name
    let steps := [.create "private" (.value (.integer 1)) (some "c\n") false, read none [], read (some "private") [],
      read none [.value (.integer 3)], .invoke "input" [.value (.text "? ")] none,
      .create "shared" (.value (.integer 2)) none true, read (some "shared") []]
    s.host.remaining? .process = some ['a', '\r', '\n', '\r', '\r', '\n', 'b', '\r'] ∧
    (s.reads .process steps)[1]? = some (.value (.text "\r")) ∧
    (s.reads .process steps)[2]? = some (.value (.text "b\r")) := by
  intro s read steps
  have taken : ((s.reads .process steps)[1]?).isSome ∧ ((s.reads .process steps)[2]?).isSome := by decide +kernel
  obtain ⟨second, secondRead⟩ := Option.isSome_iff_exists.mp taken.1
  obtain ⟨third, thirdRead⟩ := Option.isSome_iff_exists.mp taken.2
  refine ⟨rfl, ?_, ?_⟩
  · rw [secondRead, (reads_lines s steps).1 .process _ 1 second rfl secondRead]
    rfl
  · rw [thirdRead, (reads_lines s steps).1 .process _ 2 third rfl thirdRead]
    rfl

end Session

end Primitives
