import Primitives.Proofs.FrontEnd

/-!
Where the seed of a call comes from. The last seed among the words counts, wherever it stands, and the seed variable
has no influence then: a call with a seed ignores it (`ignoresVariable_callWords`). Without a seed among the words, a
seed variable that is read as a number does the same as that number (`callWords_of_variable`).
-/
namespace Primitives

/-! ### Effects that do not look at the seed variable -/

def Host.withVariable (host : Host) (content : Option String) : Host := { host with seedVariable := content }

namespace Effect

variable {α β : Type}

/-- The seed variable has no influence, and is left alone. -/
def IgnoresVariable (effect : Effect α) : Prop :=
  ∀ host content, effect (host.withVariable content) =
    ⟨(effect host).result, (effect host).host.withVariable content, (effect host).log⟩

theorem ignoresVariable_pure (a : α) : IgnoresVariable (Pure.pure a) := fun _ _ => rfl

theorem ignoresVariable_ofExcept (result : Except Fault α) : IgnoresVariable (ofExcept result) := fun _ _ => rfl

theorem IgnoresVariable.bind {first : Effect α} {next : α → Effect β} (ignores : IgnoresVariable first)
    (ignoresNext : ∀ a, IgnoresVariable (next a)) : IgnoresVariable (first >>= next) := by
  intro host content
  have ran := ignores host content
  rcases ended : first host with ⟨fault | a, after, log⟩
  · rw [ended] at ran
    rw [bind_of_error ran, bind_of_error ended]
  · rw [ended] at ran
    rw [bind_of_ok ran, bind_of_ok ended, ignoresNext a after content]

theorem bind_congr_apply {first other : Effect α} {host : Host} (same : first host = other host)
    (next : α → Effect β) : (first >>= next) host = (other >>= next) host := by
  change Effect.bind first next host = Effect.bind other next host
  simp only [Effect.bind, same]

end Effect

theorem Host.write_withVariable (host : Host) (handle : Handle) (content : Option String) (text : String) :
    (host.withVariable content).write handle text = (host.write handle text).withVariable content :=
  host.write_adjusted (fun _ => content) id handle text

theorem Task.act_withVariable (task : Task) (handle : Handle) (host : Host) (content : Option String) :
    task.act handle (host.withVariable content) =
      ((task.act handle host).1, (task.act handle host).2.withVariable content) :=
  task.act_adjusted handle host (fun _ => content) id

theorem Standard.ignoresVariable_invoke (name : String) (args : List Value) (handle : Handle) :
    Effect.IgnoresVariable (registry.invoke name args (some handle)) := by
  intro host content
  rcases invoke_some name args with ⟨result, log, ran⟩ | ⟨task, log, ran⟩
  · rw [ran, ran]
  · rw [ran, ran, Task.act_withVariable]

theorem Context.ignoresVariable_create {n : Int} (writable : Numeral.Writable n) :
    Effect.IgnoresVariable (create (.integer n) none none) := by
  intro host content
  have shown := creationMessage_integer writable
  rw [create_of_seed (by simp) shown, create_of_seed (by simp) shown]
  rfl

namespace CommandLine

/-! ### Seeds of calls -/

variable {n : Int}

theorem ignoresVariable_callWords (writable : Numeral.Writable n) (name : String) (words : List String) :
    Effect.IgnoresVariable (callWords (.number n) name words) :=
  (Context.ignoresVariable_create writable).bind fun handle =>
    (Standard.ignoresVariable_invoke name _ handle).bind fun _ => Effect.ignoresVariable_pure _

theorem ignoresVariable_showResult (handle : Handle) (v : Value) : Effect.IgnoresVariable (showResult handle v) := by
  have print (values : List Value) : Effect.IgnoresVariable (Console.print values (some handle)) :=
    (Effect.ignoresVariable_ofExcept _).bind fun line host content => by
      simp only [Context.resolve, Effect.pure_bind, Effect.modify_apply, Host.write_withVariable]
  cases v with
  | nothing => exact Effect.ignoresVariable_pure ()
  | boolean b | integer n | text s | foreign object => exact print _

/-- A seed variable that is read as a number does the same as that number. -/
theorem callWords_of_variable {host : Host} {text : String} (set : host.seedVariable = some text)
    (read : Numeral.read? text = some n) (name : String) (words : List String) :
    callWords .unset name words host = callWords (.number n) name words host := by
  have shown := Context.creationMessage_integer (Numeral.writable_of_read? read)
  have given : Context.seedOfVariable host.seedVariable = .ok (.integer n) := by
    rw [set, Context.seedOfVariable_of_read? read]
  refine Effect.bind_congr_apply ?_ _
  rw [createContext, createContext, Context.create_entropy_apply given shown, Context.create_of_seed (by simp) shown]

section Run

variable (colors : Bool) (around : Surroundings) (name : String) (words : List String)

theorem runCall_of_number (writable : Numeral.Writable n) (content : Option String) (verbose : Bool)
    (command : Option Command) :
    runCall colors { around with seedVariable := content } ⟨verbose, .number n, command⟩ name words =
      runCall colors around ⟨verbose, .number n, command⟩ name words := by
  have changed : Surroundings.host { around with seedVariable := content } = around.host.withVariable content := rfl
  have called := ignoresVariable_callWords writable name words around.host content
  rw [← changed] at called
  rcases ran : callWords (.number n) name words around.host with ⟨fault | ⟨handle, v⟩, after, log⟩
  · rw [ran] at called
    rw [Surroundings.host] at ran called
    simp only [runCall, called, ran]
    rfl
  · rw [ran] at called
    rw [Surroundings.host] at ran called
    simp only [runCall, called, ran, ignoresVariable_showResult handle v after content]
    rfl

theorem runCall_of_variable {text : String} (read : Numeral.read? text = some n) (verbose : Bool)
    (command : Option Command) :
    runCall colors { around with seedVariable := some text } ⟨verbose, .unset, command⟩ name words =
      runCall colors around ⟨verbose, .number n, command⟩ name words := by
  have agreed : callWords .unset name words (.fresh (some text) around.entropy around.input) =
      callWords (.number n) name words (.fresh (some text) around.entropy around.input) :=
    callWords_of_variable rfl read name words
  rw [← runCall_of_number colors around name words (Numeral.writable_of_read? read) (some text)]
  simp only [runCall, agreed]

/-- The last seed counts, wherever it stands, and all sources of a seed agree. Seeds before the command, before the
    name and after the arguments are accepted. A call with seeds does the same as one with the last of them in front,
    whatever the seed variable holds; and so does a call without seeds, if the seed variable is read as that number. -/
theorem run_seeded (first second third : List Int)
    (writable : ∀ n ∈ first ++ second ++ third, Numeral.Writable n) (named : name.toList.head? ≠ some '-')
    (ordinary : ∀ word ∈ words, IsOrdinary word) :
    let seeds := first ++ second ++ third
    let line := seedWords first ++ "call" :: (seedWords second ++ name :: words ++ seedWords third)
    plan line = .ok ⟨false, (seeds.getLast?.map .number).getD .unset, some (.call name words)⟩ ∧
    (∀ n content, seeds.getLast? = some n →
      run colors { around with seedVariable := content } line =
        run colors around ("--seed" :: Numeral.write n :: "call" :: name :: words)) ∧
    (seeds = [] → ∀ text n, Numeral.read? text = some n →
      run colors { around with seedVariable := some text } line =
        run colors around ("--seed" :: Numeral.write n :: "call" :: name :: words)) := by
  intro seeds line
  have planned := plan_seeded first second third writable (.inl named) ordinary
  have single (n : Int) (within : Numeral.Writable n) :
      plan ("--seed" :: Numeral.write n :: "call" :: name :: words) =
        .ok ⟨false, .number n, some (.call name words)⟩ := by
    simpa [seedWords] using plan_seeded [n] [] [] (by simpa using within) (.inl named) ordinary
  refine ⟨planned, fun n content last => ?_, fun absent text n read => ?_⟩
  · have within : Numeral.Writable n := writable n (List.mem_of_getLast? last)
    have seeded : plan line = .ok ⟨false, .number n, some (.call name words)⟩ := by
      rw [planned, show (first ++ second ++ third).getLast? = some n from last]
      rfl
    simp only [run_of_plan colors _ seeded, run_of_plan colors _ (single n within), Plan.finish]
    rw [runCall_of_number _ around name words within]
    rfl
  · have unseeded : plan line = .ok ⟨false, .unset, some (.call name words)⟩ := by
      rw [planned, show first ++ second ++ third = [] from absent]
      rfl
    simp only [run_of_plan colors _ unseeded, run_of_plan colors _ (single n (Numeral.writable_of_read? read)), Plan.finish]
    rw [runCall_of_variable _ around name words read]
    rfl

end Run

/-- A negative seed after a negative argument outdoes the seeds before it and a seed variable that is no number; the
    same number is read from a seed variable with blanks, a leading zero and an underscore. -/
theorem run_seeded_minus_thirteen :
    let around (content : Option String) : Surroundings := ⟨"", content, none, false, "", ⟨fun _ => [], 0⟩⟩
    run true (around (some "x"))
        ["--seed", "1", "call", "--seed", "2", "random_int", "-5", "5", "--seed", "-13"] =
      run true (around none) ["--seed", "-13", "call", "random_int", "-5", "5"] ∧
    run true (around (some " -01_3\n")) ["call", "random_int", "-5", "5"] =
      run true (around none) ["--seed", "-13", "call", "random_int", "-5", "5"] := by
  intro around
  have small : ∀ n ∈ [1] ++ [2] ++ [-13], Numeral.Writable n := by
    have inside : ∀ n ∈ ([1] ++ [2] ++ [-13] : List Int), Arithmetic.InRange n := by decide
    exact fun n member => Arithmetic.writable_of_inRange (inside n member)
  have ordinary : ∀ word ∈ ["-5", "5"], IsOrdinary word := by
    have negative : Numeral.write (-5) = "-5" := by decide
    have positive : IsOrdinary "5" := .inl (by decide)
    simpa using And.intro (negative ▸ IsOrdinary.write (-5)) positive
  have number : Numeral.write (-13) = "-13" := by decide
  refine ⟨?_, ?_⟩
  · have outdone := (run_seeded true (around none) "random_int" ["-5", "5"] [1] [2] [-13] small (by decide)
      ordinary).2.1 (-13) (some "x") rfl
    rw [number] at outdone
    exact outdone
  · have agreed := (run_seeded true (around none) "random_int" ["-5", "5"] [] [] [] (by simp) (by decide)
      ordinary).2.2 rfl " -01_3\n" (-13) (by decide)
    rw [number] at agreed
    exact agreed

end CommandLine

end Primitives
