import Primitives.Proofs.FrontEnd
import Primitives.Proofs.PlannedSeed

/-!
How runs of the program end. With any but a blank seed a call ends well or with an error of the library
(`runCall_cases`), so that a blank seed and the length of an immense text are all that lets a fault escape.
-/
namespace Primitives.CommandLine

theorem createContext_cases {words : List String} {seed : SeedSetting} (sound : seed.Sound words)
    (given : seed ≠ .blank) (host : Host) :
    (∃ raw, createContext seed host = ⟨.error (.badSeed raw), host, []⟩) ∨
    (∃ made message, createContext seed host =
      ⟨.ok host.contexts.length, host.grown made none none, [⟨.contexts, message⟩]⟩) := by
  cases seed with
  | blank => exact absurd rfl given
  | number n =>
    exact .inr ⟨.integer n, _, Context.create_of_seed (by simp) (Context.creationMessage_integer sound) none none host⟩
  | unset =>
    by_cases bad : Context.BadVariable host.seedVariable
    · obtain ⟨raw, failed⟩ := Context.seedOfVariable_of_bad bad
      exact .inl ⟨raw, Context.create_entropy_of_bad failed none none⟩
    · obtain ⟨made, message, read, shown⟩ := Context.seedOfVariable_of_good bad
      exact .inr ⟨made, message, Context.create_entropy_apply read shown none none⟩

/-- The words ask for the length of a text that is too long for its length to have a numeral. -/
def Immense (name : String) (args : List String) : Prop :=
  name = "strlen" ∧ ∃ word s, args = [word] ∧ Literal.read word = .text s ∧ ¬ Numeral.Writable (Text.byteLength s)

theorem immense_of_values {name : String} {args : List String} {s : String} (called : name = "strlen")
    (values : args.map Literal.read = [.text s]) (long : ¬ Numeral.Writable (Text.byteLength s)) :
    Immense name args := by
  obtain ⟨word, rfl, read⟩ := List.map_eq_singleton_iff.mp values
  exact ⟨called, word, s, rfl, read, long⟩

section RunCall

variable (colors : Bool) (around : Surroundings) {accepted : Plan} (name : String) (args : List String)

/-- The debug log of a call, which only a verbose one shows. -/
def shownLog (around : Surroundings) (accepted : Plan) (log : List Notice) : String :=
  if accepted.verbose then logText around.clock log else ""

/-- How a call ends whose value has been shown, or could not be. -/
def shownEnding : Except Fault Unit → Ending
  | .ok () => .returned 0
  | .error fault => .escaped fault

theorem runCall_of_value {handle : Handle} {v : Value} {after : Host} {log : List Notice}
    (called : callWords accepted.seed name args around.host = ⟨.ok (handle, v), after, log⟩) :
    let shown := showResult handle v after
    runCall colors around accepted name args =
      ⟨shownEnding shown.result, shown.host.output, shownLog around accepted (log ++ shown.log)⟩ := by
  rw [Surroundings.host] at called
  simp only [runCall, called, shownLog]
  rfl

theorem runCall_of_error {fault : Fault} {after : Host} {log : List Notice}
    (called : callWords accepted.seed name args around.host = ⟨.error fault, after, log⟩) :
    runCall colors around accepted name args =
      if fault.errorClass.isA .library then
        ⟨.returned 1, after.output,
          shownLog around accepted log ++ Style.red.paint colors "error:" ++ " " ++ fault.text ++ "\n"⟩
      else ⟨.escaped fault, after.output, shownLog around accepted log⟩ := by
  rw [Surroundings.host] at called
  simp only [runCall, called, shownLog]

/-- A call with any but a blank seed ends well, or with a fault of the library and without output, or has the length of
    an immense text to show. -/
theorem runCall_cases {words : List String} (sound : accepted.seed.Sound words) (given : accepted.seed ≠ .blank) :
    let called := callWords accepted.seed name args around.host
    let finish := runCall colors around accepted name args
    finish.ending = .returned 0 ∨
    (∃ fault, called.result = .error fault ∧ fault.errorClass.isA .library = true ∧
      finish = ⟨.returned 1, "", (if accepted.verbose then logText around.clock called.log else "") ++
        Style.red.paint colors "error:" ++ " " ++ fault.text ++ "\n"⟩) ∨
    (∃ fault, finish.ending = .escaped fault) ∧ Immense name args := by
  intro called finish
  rcases createContext_cases sound given around.host with ⟨raw, failed⟩ | ⟨seed, message, made⟩
  · have ended : called = ⟨.error (.badSeed raw), around.host, []⟩ := Effect.bind_of_error failed _
    refine .inr (.inl ⟨.badSeed raw, by rw [ended], rfl, ?_⟩)
    rw [ended]
    exact runCall_of_error colors around name args ended
  · have ended := callWords_of_created made name args
    rcases ran : Standard.registry.invoke name (args.map Literal.read) (some around.host.contexts.length)
      (around.host.grown seed none none) with ⟨fault | v, after, notes⟩
    · simp only [ran, Except.map] at ended
      have writable : ∀ n, Value.integer n ∈ args.map Literal.read → Numeral.Writable n := by
        intro n member
        obtain ⟨word, _, read⟩ := List.mem_map.mp member
        exact Literal.writable_of_read read
      have library := Standard.library_of_invoke writable (congrArg Outcome.result ran)
      have unchanged := Standard.atomic_invoke _ _ _ _ fault (congrArg Outcome.result ran)
      rw [ran] at unchanged
      have silent : after.output = "" := congrArg Host.output unchanged
      refine .inr (.inl ⟨fault, congrArg Outcome.result ended, library, ?_⟩)
      rw [show called = _ from ended]
      simp only [finish, runCall_of_error colors around name args ended, library, if_true, silent, shownLog]
    · simp only [ran, Except.map] at ended
      have ending : finish.ending = shownEnding (showResult around.host.contexts.length v after).result :=
        congrArg Finish.ending (runCall_of_value colors around name args ended)
      have shares := (around.host.shares_grown seed).invoke name (args.map Literal.read)
      rw [ran] at shares
      cases shown : (showResult around.host.contexts.length v after).result with
      | ok done => exact .inl (by rw [ending, shown]; rfl)
      | error fault =>
        have something : v ≠ .nothing := by
          rintro rfl
          cases shown
        rcases Standard.writable_of_invoke (congrArg Outcome.result ran) something with
          short | ⟨measured, s, values, long⟩
        · obtain ⟨text, form⟩ := Text.ofValue_of_writable short
          rw [showResult_of_shares shares something form] at shown
          cases shown
        · exact .inr (.inr ⟨⟨fault, by rw [ending, shown]; rfl⟩, immense_of_values measured values long⟩)

theorem runCall_of_blank (blank : accepted.seed = .blank) :
    runCall colors around accepted name args = ⟨.escaped .mistyped, "", ""⟩ := by
  have called : callWords accepted.seed name args around.host = ⟨.error .mistyped, around.host, []⟩ := by
    rw [blank]
    rfl
  rw [runCall_of_error colors around name args called, shownLog]
  cases accepted.verbose <;> rfl

end RunCall

/-- The words ask for a call with a blank seed. -/
def BlankSeeded (words : List String) : Prop :=
  ∃ verbose name args, plan words = .ok ⟨verbose, .blank, some (.call name args)⟩

/-- Faults do not escape, except from a call with a blank seed, which takes a word that ends with `=--`, and from
    showing the length of an immense text. All other runs return 0 or 1 or exit with 0 or 2. Those that return 1 or exit
    with 2 have no output, and those that return 1 report an error of the library, which is all they report unless they
    are verbose. -/
theorem run_ends (colors : Bool) (around : Surroundings) (words : List String) :
    let finish := (run colors around words).1
    (BlankSeeded words → AttachesSeparator words ∧ finish = ⟨.escaped .mistyped, "", ""⟩) ∧
    (¬ BlankSeeded words →
      finish.ending = .returned 0 ∨ finish.ending = .exited 0 ∨ (finish.ending = .exited 2 ∧ finish.output = "") ∨
      (finish.ending = .returned 1 ∧ finish.output = "" ∧ ∃ verbose seed name args fault,
        plan words = .ok ⟨verbose, seed, some (.call name args)⟩ ∧
        (callWords seed name args around.host).result = .error fault ∧ fault.errorClass.isA .library = true ∧
        (verbose = false → finish.errors =
          Style.red.paint (colors && allowsColors around) "error:" ++ " " ++ fault.text ++ "\n")) ∨
      (∃ fault, finish.ending = .escaped fault) ∧ ∃ verbose seed name args,
        plan words = .ok ⟨verbose, seed, some (.call name args)⟩ ∧ Immense name args) := by
  intro finish
  refine ⟨?_, fun given => ?_⟩
  · rintro ⟨verbose, name, args, planned⟩
    have ended : finish = runCall (colors && allowsColors around) around ⟨verbose, .blank, some (.call name args)⟩
        name args := by
      simp only [finish, run_of_plan colors around planned, Plan.finish]
    exact ⟨sound_plan planned, by rw [ended, runCall_of_blank _ around name args rfl]⟩
  · cases planned : plan words with
    | error stop =>
      have ended : finish = stop.finish := by simp only [finish, run_of_stop colors around planned]
      rw [ended]
      cases stop with
      | help menu | version => exact .inr (.inl rfl)
      | usage menu error => exact .inr (.inr (.inl ⟨rfl, rfl⟩))
    | ok accepted =>
      have ended : finish = accepted.finish (colors && allowsColors around) around := by
        simp only [finish, run_of_plan colors around planned]
      rw [ended]
      rcases accepted with ⟨verbose, seed, _ | area | ⟨name, args⟩⟩
      · exact .inl rfl
      · exact .inl rfl
      · have notBlank : seed ≠ .blank := by
          rintro rfl
          exact given ⟨verbose, name, args, planned⟩
        rcases runCall_cases (colors && allowsColors around) around name args (sound_plan planned) notBlank with
          well | ⟨fault, failed, library, finished⟩ | ⟨escaped, immense⟩
        · exact .inl well
        · refine .inr (.inr (.inr (.inl ?_)))
          rw [show Plan.finish _ around ⟨verbose, seed, some (.call name args)⟩ = _ from finished]
          refine ⟨rfl, rfl, verbose, seed, name, args, fault, rfl, failed, library, ?_⟩
          rintro rfl
          rfl
        · exact .inr (.inr (.inr (.inr ⟨escaped, verbose, seed, name, args, rfl, immense⟩)))

/-- A seed variable that is no number is reported. -/
theorem run_ends_reporting :
    ¬ BlankSeeded ["call", "print"] ∧
    (run true ⟨"", some "x", none, true, "", ⟨fun _ => [], 0⟩⟩ ["call", "print"]).1.ending = .returned 1 ∧
    (run true ⟨"", some "x", none, true, "", ⟨fun _ => [], 0⟩⟩ ["call", "print"]).1.output = "" := by
  let around : Surroundings := ⟨"", some "x", none, true, "", ⟨fun _ => [], 0⟩⟩
  have given : ¬ BlankSeeded ["call", "print"] := by
    rintro ⟨verbose, name, args, planned⟩
    rw [plan_call (.inl (by decide)) (by simp)] at planned
    cases planned
  have ending : (run true around ["call", "print"]).1.ending = .returned 1 := by decide +kernel
  refine ⟨given, ending, ?_⟩
  rcases (run_ends true around ["call", "print"]).2 given with well | helped | ⟨rejected, _⟩ | ⟨_, silent, _⟩ |
    ⟨⟨fault, escaped⟩, _⟩
  · rw [ending] at well
    cases well
  · rw [ending] at helped
    cases helped
  · rw [ending] at rejected
    cases rejected
  · exact silent
  · rw [ending] at escaped
    cases escaped

/-- A blank seed is not reported but lets a fault escape. -/
theorem run_escapes :
    ¬ ∀ (colors : Bool) (around : Surroundings) (words : List String),
      (run colors around words).1.ending ∈ [.returned 0, .returned 1, .exited 0, .exited 2] := by
  intro orderly
  have ended := orderly true ⟨"", none, none, false, "", ⟨fun _ => [], 0⟩⟩ ["--seed=--", "call", "print"]
  revert ended
  decide +kernel

end Primitives.CommandLine
