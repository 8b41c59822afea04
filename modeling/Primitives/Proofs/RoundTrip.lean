import Primitives.Proofs.Absence
import Primitives.Proofs.Lines

/-!
What is printed can be read back. Prints in a context with an output of its own add one terminated line each to it
(`results_prints`), and a context whose input consists of such lines reads them one by one (`results_reads`). Lines that
hold no line feed and do not end with a carriage return come back unaltered; the line of a Boolean or an integer is the
literal of that value.
-/
namespace Primitives

namespace Console

/-- The text forms of the given values, with a space between any two of them. -/
def joined (values : List Value) : Except Fault String := do
  return " ".intercalate (← values.mapM Text.ofValue)

theorem lineOf_of_joined {values : List Value} {line : String} (shown : joined values = .ok line) :
    lineOf values = .ok (line ++ "\n") := by
  obtain ⟨texts, done, ended⟩ := exists_of_bind_ok shown
  cases ended
  rw [lineOf, done]
  rfl

theorem joined_of_writable {values : List Value} (writable : ∀ v ∈ values, v.Writable) :
    ∃ line, joined values = .ok line := by
  obtain ⟨texts, done, _⟩ := exists_mapM_ok fun v member => Text.ofValue_of_writable (writable v member)
  exact ⟨_, by rw [joined, done]; rfl⟩

/-- What none of the values holds does not stand in the line either. -/
theorem lacks_joined {values : List Value} {line : String} {c : Char} (unusual : Text.Unusual c) (notSpace : c ≠ ' ')
    (lacked : ∀ v ∈ values, Text.LackedBy c v) (shown : joined values = .ok line) : Text.Lacks c line := by
  obtain ⟨texts, done, ended⟩ := exists_of_bind_ok shown
  cases ended
  refine Text.lacks_intercalate (by simpa [Text.Lacks] using notSpace) fun s member => ?_
  obtain ⟨v, isValue, form⟩ := exists_of_mem_mapM done member
  exact Text.lacks_ofValue unusual (lacked v isValue) form

/-- The line of a single value that is no text is the literal of the value. -/
theorem readLiteral_joined {v : Value} {line : String} (writable : v.Writable) (noText : ∀ s, v ≠ .text s)
    (shown : joined [v] = .ok line) : Operation.readLiteral.apply [.text line] = .ok v := by
  have literal : Literal.write? v = some line := by
    cases v with
    | boolean b =>
      cases shown
      cases b <;> rfl
    | integer n =>
      have numeral : Numeral.Writable n := writable
      simp only [joined, List.mapM_cons, List.mapM_nil, Text.ofValue, if_pos numeral, ok_bind, pure_eq_ok] at shown
      cases shown
      simp [Literal.write?]
    | text s => exact absurd rfl (noText s)
    | nothing | foreign object => cases writable
  exact congrArg Except.ok (Literal.read_of_write? writable literal)

end Console

namespace Session

/-- Prints values in a context. -/
def printStep (name : String) (values : List Value) : Step :=
  .call (.contextual .print) (values.map .value) (some name)

/-- Reads a line in a context, without a prompt. -/
def readStep (name : String) : Step := .call (.contextual .readLine) [] (some name)

variable {s : Session} {name : String} {handle : Handle}

theorem context?_call (s : Session) (implementation : Builtin) (args : List Argument) (context name : Option String) :
    (s.step (.call implementation args context)).2.context? name = s.context? name := by
  simp only [step]
  split <;> rfl

theorem evaluate_values (s : Session) (values : List Value) : (values.map Argument.value).map s.evaluate = values := by
  rw [List.map_map]
  exact List.map_id values

/-! ### Printing -/

theorem step_printStep {values : List Value} {line before : String} (known : s.context? (some name) = some handle)
    (own : s.host.contexts[handle]?.bind Context.output = some before)
    (shown : Console.joined values = .ok line) :
    (s.step (printStep name values)).1.result = .ok (.value .nothing) ∧
    (s.step (printStep name values)).2.host.contexts[handle]?.bind Context.output = some (before ++ (line ++ "\n")) := by
  have runs : s.operation? (printStep name values) = some (.print, values, some handle) := by
    simp only [printStep, operation?, evaluate_values, known]
  have errand : ContextOperation.print.errand values = .work (.line (line ++ "\n")) := by
    simp only [ContextOperation.errand, Console.lineOf_of_joined shown]
  have waiting : (Errand.work (.line (line ++ "\n"))).waits = true := rfl
  obtain ⟨result, host⟩ := Errand.run_of_found waiting (Context.resolve_some handle s.host)
  rw [result_step_of_operation runs (by decide), host_step_of_operation runs, errand, result, host]
  obtain ⟨c, there, output⟩ := Option.bind_eq_some_iff.mp own
  refine ⟨rfl, ?_⟩
  simp [Errand.act, Task.act, Host.write, Host.modifyContext, there, output]

/-- Prints write their lines, one after the other. -/
theorem results_prints {calls : List (List Value)} {lines : List String}
    (shown : List.Forall₂ (fun values line => Console.joined values = .ok line) calls lines) {before : String}
    (known : s.context? (some name) = some handle)
    (own : s.host.contexts[handle]?.bind Context.output = some before) :
    (s.run (calls.map (printStep name))).1.map StepReport.result = calls.map (fun _ => .ok (.value .nothing)) ∧
    (s.run (calls.map (printStep name))).2.host.contexts[handle]?.bind Context.output =
      some (before ++ String.join (lines.map (· ++ "\n"))) := by
  induction shown generalizing s before with
  | nil => simpa [run] using own
  | @cons values line calls lines first _ ih =>
    obtain ⟨answer, written⟩ := step_printStep known own first
    have still : (s.step (printStep name values)).2.context? (some name) = some handle :=
      (context?_call s _ _ _ _).trans known
    obtain ⟨answers, all⟩ := ih still written
    refine ⟨?_, ?_⟩
    · simp only [List.map_cons, run, answer, answers]
    · simpa only [List.map_cons, run, String.join_cons, String.append_assoc] using all

/-! ### Reading -/

theorem step_readStep {text : List Char} (known : s.context? (some name) = some handle)
    (left : s.host.remaining? (.own handle) = some text) :
    (s.step (readStep name)).1.result = .ok (.value (.text (String.ofList (Line.nth text 0)))) ∧
    (s.step (readStep name)).2.host.remaining? (.own handle) = some (Line.split text).2 := by
  have runs : s.operation? (readStep name) = some (.readLine, [], some handle) := by
    simp only [readStep, operation?, List.map_nil, known]
  have mine : s.host.inputOf handle = .own handle := by
    rw [Host.remaining?] at left
    simp [Host.inputOf, left]
  have waiting : (Errand.work (.dialogue none)).waits = true := rfl
  obtain ⟨result, host⟩ := Errand.run_of_found waiting (Context.resolve_some handle s.host)
  rw [← mine] at left
  obtain ⟨line, rest⟩ := Errand.act_dialogue none left
  have errand : ContextOperation.readLine.errand [] = .work (.dialogue none) := rfl
  rw [result_step_of_operation runs (by decide), host_step_of_operation runs, errand, result, host, line]
  rw [mine] at rest
  exact ⟨rfl, rest⟩

/-- Terminated lines are read back one by one, and after them there is the empty text. -/
theorem results_reads {lines : List String} (unbroken : ∀ line ∈ lines, Text.Lacks '\n' line)
    (unreturned : ∀ line ∈ lines, line.toList.getLast? ≠ some '\r') (known : s.context? (some name) = some handle)
    (left : s.host.remaining? (.own handle) = some (String.join (lines.map (· ++ "\n"))).toList) :
    (s.run (List.replicate (lines.length + 1) (readStep name))).1.map StepReport.result =
      (lines ++ [""]).map fun line => .ok (.value (.text line)) := by
  induction lines generalizing s with
  | nil =>
    obtain ⟨answer, _⟩ := step_readStep known left
    rw [List.length_nil, List.replicate_succ, run, List.map_cons, answer]
    rfl
  | cons line lines ih =>
    obtain ⟨answer, rest⟩ := step_readStep known left
    have still : (s.step (readStep name)).2.context? (some name) = some handle :=
      (context?_call s _ _ _ _).trans known
    have clean : '\n' ∉ line.toList := unbroken line List.mem_cons_self
    have whole : (String.join ((line :: lines).map (· ++ "\n"))).toList =
        line.toList ++ '\n' :: (String.join (lines.map (· ++ "\n"))).toList := by
      simp
    have first : Line.nth (String.join ((line :: lines).map (· ++ "\n"))).toList 0 = line.toList := by
      rw [whole, (Line.nth_split _).1, Line.split_append_cons clean, Line.content_append_feed, Line.unreturned,
        if_neg (unreturned line List.mem_cons_self)]
    rw [whole, Line.split_append_cons clean] at rest
    have later := ih (fun other member => unbroken other (List.mem_cons_of_mem line member))
      (fun other member => unreturned other (List.mem_cons_of_mem line member)) still rest
    rw [first, String.ofList_toList] at answer
    rw [List.length_cons, List.replicate_succ, run, List.map_cons, answer, later]
    rfl

/-- A context is known by its name once it has been made. -/
theorem context?_of_create {seed : Argument} {input : Option String} {ownOutput : Bool} {answer : Answer}
    (made : (s.step (.create name seed input ownOutput)).1.result = .ok answer) :
    (s.step (.create name seed input ownOutput)).2.context? (some name) = some s.host.contexts.length := by
  rcases effectOf_create_cases s name seed input ownOutput s.host with ⟨fault, failed, _⟩ | ⟨given, ended, host⟩
  · cases failed.symm.trans made
  · simp [step, ended, settled, context?, host, Host.grown]

/-- What is printed is read back. Values that have a text form, none of them with a line feed, are printed in a
    context with an output of its own, a line for each print. If no line ends with a carriage return, a context that is
    made with what was written as its input reads these lines one by one, and nothing after them. The line of a single
    Boolean or integer is the literal of that value. -/
theorem printed_read_back (s : Session) (writer : String) (handle : Handle) (before : String)
    (calls : List (List Value)) (known : s.context? (some writer) = some handle)
    (own : s.host.contexts[handle]?.bind Context.output = some before)
    (printable : ∀ values ∈ calls, ∀ v ∈ values, v.Writable ∧ Text.LackedBy '\n' v)
    (unreturned : ∀ values ∈ calls, ∀ line, Console.joined values = .ok line → line.toList.getLast? ≠ some '\r') :
    ∃ lines, calls.mapM Console.joined = .ok lines ∧
      let text := String.join (lines.map (· ++ "\n"))
      (s.run (calls.map (printStep writer))).1.map StepReport.result = calls.map (fun _ => .ok (.value .nothing)) ∧
      (s.run (calls.map (printStep writer))).2.host.contexts[handle]?.bind Context.output = some (before ++ text) ∧
      (∀ (t : Session) (reader : String) (seed : Argument) (ownOutput : Bool) (answer : Answer),
        (t.step (.create reader seed (some text) ownOutput)).1.result = .ok answer →
        ((t.step (.create reader seed (some text) ownOutput)).2.run
            (List.replicate (calls.length + 1) (readStep reader))).1.map StepReport.result =
          (lines ++ [""]).map fun line => .ok (.value (.text line))) ∧
      (∀ v line, ([v], line) ∈ calls.zip lines → (∀ s, v ≠ .text s) →
        Operation.readLiteral.apply [.text line] = .ok v) := by
  obtain ⟨lines, done, each⟩ := exists_mapM_ok fun values member =>
    Console.joined_of_writable fun v isValue => (printable values member v isValue).1
  obtain ⟨answers, written⟩ := results_prints each known own
  refine ⟨lines, done, answers, written, ?_, ?_⟩
  · intro t reader seed ownOutput answer made
    rw [each.length_eq]
    refine results_reads ?_ ?_ (context?_of_create made) (remaining?_of_create made)
    · intro line member
      obtain ⟨values, isCall, shown⟩ := exists_of_mem_mapM done member
      exact Console.lacks_joined (by decide) (by decide) (fun v isValue => (printable values isCall v isValue).2) shown
    · intro line member
      obtain ⟨values, isCall, shown⟩ := exists_of_mem_mapM done member
      exact unreturned values isCall line shown
  · intro v line member noText
    have shown : Console.joined [v] = .ok line := List.forall₂_zip each member
    exact Console.readLiteral_joined (printable [v] (List.of_mem_zip member).1 v (by simp)).1 noText shown

/-- Two prints, one of them of a text with a carriage return inside, and the empty print are read back from a new
    context, which gets them through its input. -/
theorem printed_read_back_three :
    let s := ((start (.fresh none ⟨fun _ => [], 0⟩ "")).step (.create "w" (.value (.boolean false)) none true)).2
    let calls := [[.integer (-5)], [], [.text "a\rb", .boolean true]]
    let written := "-5\n\na\rb true\n"
    (s.run (calls.map (printStep "w"))).2.host.contexts[0]?.bind Context.output = some written ∧
    ((s.step (.create "r" (.value (.boolean true)) (some written) false)).2.run
        (List.replicate 4 (readStep "r"))).1.map StepReport.result =
      ["-5", "", "a\rb true", ""].map (fun line => .ok (.value (.text line))) ∧
    Operation.readLiteral.apply [.text "-5"] = .ok (.integer (-5)) := by
  intro s calls written
  have printable : ∀ values ∈ calls, ∀ v ∈ values, v.Writable ∧ Text.LackedBy '\n' v := by
    have writable : Numeral.Writable (-5) := by decide +kernel
    simp [calls, Value.Writable, Text.LackedBy, Text.Lacks, writable]
  have shown : calls.mapM Console.joined = .ok ["-5", "", "a\rb true"] := by decide +kernel
  have unreturned : ∀ values ∈ calls, ∀ line, Console.joined values = .ok line → line.toList.getLast? ≠ some '\r' := by
    have each : ∀ values ∈ calls, (Console.joined values).toOption.all (·.toList.getLast? ≠ some '\r') := by
      decide +kernel
    intro values member line isLine
    simpa [isLine, Except.toOption] using each values member
  obtain ⟨lines, done, _, output, reading, literal⟩ :=
    printed_read_back s "w" 0 "" calls (by decide +kernel) (by decide +kernel) printable unreturned
  obtain rfl : lines = ["-5", "", "a\rb true"] := Except.ok.inj (done.symm.trans shown)
  refine ⟨output, reading s "r" (.value (.boolean true)) false (.value (.boolean true)) rfl, ?_⟩
  exact literal _ _ (by simp [calls]) (by simp)

end Session

end Primitives
