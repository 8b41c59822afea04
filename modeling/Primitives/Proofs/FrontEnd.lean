import Primitives.CommandLine.Program
import Primitives.Proofs.Atomicity
import Primitives.Proofs.Plan

/-!
The command `call` is a faithful front end. Values written as words come back as the same values, and the run shows
what a call by name in a new context gives: its output and the text of its result, or the text of its error.
-/
namespace Primitives

/-! ### Contexts on the streams of the process -/

namespace Host

/-- What is written in the context goes to the output of the process. -/
def Shares (host : Host) (handle : Handle) : Prop := host.contexts[handle]?.bind Context.output = none

variable {host : Host} {handle : Handle}

theorem write_of_shares (shares : host.Shares handle) (text : String) :
    host.write handle text = { host with output := host.output ++ text } := by
  rw [write, shares]

theorem Shares.modifyContext (shares : host.Shares handle) (other : Handle) {change : Context → Context}
    (same : ∀ c, (change c).output = c.output) : (host.modifyContext other change).Shares handle := by
  rw [Shares, bind_modifyContext host other handle same]
  exact shares

theorem Shares.write (shares : host.Shares handle) (text : String) : (host.write handle text).Shares handle := by
  rw [write_of_shares shares]
  exact shares

theorem Shares.takeLine (shares : host.Shares handle) : (host.takeLine handle).2.Shares handle := by
  unfold Host.takeLine
  split
  · exact shares.modifyContext handle fun _ => rfl
  · exact shares

theorem Shares.act (shares : host.Shares handle) (task : Task) : (task.act handle host).2.Shares handle := by
  cases task with
  | line text => exact shares.write text
  | dialogue prompt =>
    cases prompt with
    | none => exact shares.takeLine
    | some shown => exact (shares.write shown).takeLine
  | number low high | symbols length => exact shares.modifyContext handle fun _ => rfl

theorem Shares.invoke (shares : host.Shares handle) (name : String) (args : List Value) :
    (Standard.registry.invoke name args (some handle) host).host.Shares handle := by
  rcases Standard.invoke_some name args with ⟨result, log, ran⟩ | ⟨task, log, ran⟩
  · rw [ran]
    exact shares
  · rw [ran]
    exact shares.act task

theorem shares_grown (host : Host) (seed : Seed) : (host.grown seed none none).Shares host.contexts.length := by
  simp [Shares, grown]

end Host

/-- A context without a seed of its own that has been made is the last one of the host. -/
theorem Context.grown_of_create {host created : Host} {handle : Handle} {log : List Notice}
    (made : create .entropy none none host = ⟨.ok handle, created, log⟩) :
    handle = host.contexts.length ∧ ∃ seed, created = host.grown seed none none := by
  by_cases bad : BadVariable host.seedVariable
  · obtain ⟨raw, failed⟩ := seedOfVariable_of_bad bad
    rw [create_entropy_of_bad failed] at made
    cases congrArg Outcome.result made
  · obtain ⟨seed, message, given, shown⟩ := seedOfVariable_of_good bad
    rw [create_entropy_apply given shown] at made
    obtain ⟨same, after, _⟩ := Outcome.mk.inj made
    exact ⟨(Except.ok.inj same).symm, seed, after.symm⟩

namespace CommandLine

/-! ### Words for values -/

theorem reads_of_written {values : List Value} {words : List String} (writable : ∀ v ∈ values, v.Writable)
    (written : values.mapM Literal.write? = some words) :
    words.map Literal.read = values ∧ ∀ word ∈ words, IsOrdinary word := by
  induction values generalizing words with
  | nil =>
    cases written
    exact ⟨rfl, by simp⟩
  | cons v rest ih =>
    rw [List.mapM_cons] at written
    obtain ⟨word, first, written⟩ := Option.bind_eq_some_iff.mp written
    obtain ⟨others, later, same⟩ := Option.bind_eq_some_iff.mp written
    cases same
    obtain ⟨readBack, ordinary⟩ := ih (fun w member => writable w (by simp [member])) later
    refine ⟨?_, ?_⟩
    · rw [List.map_cons, readBack, Literal.read_of_write? (writable v (by simp)) first]
    · simpa using ⟨IsOrdinary.of_write? first, ordinary⟩

/-! ### Running a call -/

/-- The host that a run starts with. -/
def Surroundings.host (around : Surroundings) : Host := .fresh around.seedVariable around.entropy around.input

/-- Once its context has been made, a call of words is a call by name. -/
theorem callWords_of_created {seed : SeedSetting} {host created : Host} {handle : Handle} {log : List Notice}
    (made : createContext seed host = ⟨.ok handle, created, log⟩) (name : String) (words : List String) :
    let invoked := Standard.registry.invoke name (words.map Literal.read) (some handle) created
    callWords seed name words host = ⟨invoked.result.map (handle, ·), invoked.host, log ++ invoked.log⟩ := by
  rw [callWords, Effect.bind_of_ok made, Effect.bind_pure_apply]

section Called

variable {host created after : Host} {handle : Handle} {log notes : List Notice} {name : String} {words : List String}
  {values : List Value} (made : Context.create .entropy none none host = ⟨.ok handle, created, log⟩)
  (readBack : words.map Literal.read = values)

include made readBack

theorem callWords_of_ok {v : Value}
    (ran : Standard.registry.invoke name values (some handle) created = ⟨.ok v, after, notes⟩) :
    callWords .unset name words host = ⟨.ok (handle, v), after, log ++ notes⟩ := by
  rw [callWords_of_created (show createContext .unset host = _ from made), readBack, ran]
  rfl

theorem callWords_of_error {fault : Fault}
    (ran : Standard.registry.invoke name values (some handle) created = ⟨.error fault, after, notes⟩) :
    callWords .unset name words host = ⟨.error fault, after, log ++ notes⟩ := by
  rw [callWords_of_created (show createContext .unset host = _ from made), readBack, ran]
  rfl

end Called

/-- Showing a result in a context on the streams of the process writes a line to its output. -/
theorem showResult_of_shares {host : Host} {handle : Handle} {v : Value} {text : String} (shares : host.Shares handle)
    (something : v ≠ .nothing) (shown : Text.ofValue v = .ok text) :
    showResult handle v host = ⟨.ok (), { host with output := host.output ++ text ++ "\n" }, []⟩ := by
  have line : Console.lineOf [v] = .ok (text ++ "\n") := by
    simp [Console.lineOf, shown]
  have printed : Console.print [v] (some handle) host = ⟨.ok (), host.write handle (text ++ "\n"), []⟩ := by
    rw [Console.print, line]
    rfl
  rw [Host.write_of_shares shares, ← String.append_assoc] at printed
  cases v with
  | nothing => exact absurd rfl something
  | boolean b | integer n | text s | foreign object => exact printed

/-- The command `call` is a faithful front end of calls by name in a new context. A result is shown by its text,
    which only the length of an immense text lacks. An error belongs to the library and is shown by its text. -/
theorem run_call (colors : Bool) (around : Surroundings) (name : String) (values : List Value) (words : List String)
    (handle : Handle) (created : Host) (log : List Notice) (named : name.toList.head? ≠ some '-')
    (writable : ∀ v ∈ values, v.Writable) (written : values.mapM Literal.write? = some words)
    (made : Context.create .entropy none none (.fresh around.seedVariable around.entropy around.input) =
      ⟨.ok handle, created, log⟩) :
    let invoked := Standard.registry.invoke name values (some handle) created
    let finish := (run colors around ("call" :: name :: words)).1
    (invoked.result = .ok .nothing → finish = ⟨.returned 0, invoked.host.output, ""⟩) ∧
    (∀ v, invoked.result = .ok v → v ≠ .nothing →
      (∀ text, Text.ofValue v = .ok text → finish = ⟨.returned 0, invoked.host.output ++ text ++ "\n", ""⟩) ∧
      ((∃ text, Text.ofValue v = .ok text) ∨
        name = "strlen" ∧ ∃ s, values = [.text s] ∧ ¬ Numeral.Writable (Text.byteLength s))) ∧
    (∀ fault, invoked.result = .error fault →
      fault.errorClass.isA .library = true ∧
      finish = ⟨.returned 1, "",
        Style.red.paint (colors && allowsColors around) "error:" ++ " " ++ fault.text ++ "\n"⟩) := by
  intro invoked finish
  obtain ⟨readBack, ordinary⟩ := reads_of_written writable written
  obtain ⟨rfl, seed, rfl⟩ := Context.grown_of_create made
  have called : finish = runCall (colors && allowsColors around) around ⟨false, .unset, some (.call name words)⟩
      name words := by
    simp only [finish, run_of_plan colors around (plan_call (.inl named) ordinary)]
    rfl
  have shares : invoked.host.Shares _ := (Host.shares_grown _ seed).invoke name values
  refine ⟨fun ended => ?_, fun v ended something => ⟨fun text shown => ?_, ?_⟩, fun fault failed => ?_⟩
  · have ran : invoked = ⟨.ok .nothing, invoked.host, invoked.log⟩ := by rw [← ended]
    rw [called, runCall]
    simp only [callWords_of_ok made readBack ran]
    rfl
  · have ran : invoked = ⟨.ok v, invoked.host, invoked.log⟩ := by rw [← ended]
    rw [called, runCall]
    simp only [callWords_of_ok made readBack ran, showResult_of_shares shares something shown]
    rfl
  · rcases Standard.writable_of_invoke ended something with short | immense
    · exact .inl (Text.ofValue_of_writable short)
    · exact .inr immense
  · have library := Standard.library_of_invoke (fun n member => writable (.integer n) member) failed
    have ran : invoked = ⟨.error fault, invoked.host, invoked.log⟩ := by rw [← failed]
    have unchanged : invoked.host = _ := Standard.atomic_invoke name values _ _ fault failed
    refine ⟨library, ?_⟩
    rw [called, runCall]
    simp only [callWords_of_error made readBack ran, library, if_true, unchanged]
    simp [Host.grown, Host.fresh]

/-- Negative numbers are arguments, though they begin like switches. -/
theorem run_call_max_negative :
    [Value.integer (-2), .integer (-5)].mapM Literal.write? = some ["-2", "-5"] ∧
    (run true ⟨"", some "7", none, false, "", ⟨fun _ => [], 0⟩⟩ ["call", "max", "-2", "-5"]).1 =
      ⟨.returned 0, "-2\n", ""⟩ := by
  have written : [Value.integer (-2), .integer (-5)].mapM Literal.write? = some ["-2", "-5"] := by decide
  have writable : ∀ v ∈ [Value.integer (-2), .integer (-5)], v.Writable := by
    simp only [List.mem_cons, List.not_mem_nil, or_false, forall_eq_or_imp, forall_eq]
    exact ⟨Arithmetic.writable_of_inRange (by decide), Arithmetic.writable_of_inRange (by decide)⟩
  have given : Context.seedOfVariable (Host.fresh (some "7") ⟨fun _ => [], 0⟩ "").seedVariable = .ok (.integer 7) := by
    decide
  have made := Context.create_entropy_apply given
    (Context.creationMessage_integer (Arithmetic.writable_of_inRange (by decide))) none none
  have shown : Text.ofValue (.integer (-2)) = .ok "-2" := by
    rw [Text.ofValue, if_pos (Arithmetic.writable_of_inRange (by decide))]
    rfl
  have faithful := run_call true ⟨"", some "7", none, false, "", ⟨fun _ => [], 0⟩⟩ "max" _ _ _ _ _ (by decide)
    writable written made
  exact ⟨written, (faithful.2.1 (.integer (-2)) rfl (by decide)).1 "-2" shown⟩

end CommandLine

end Primitives
