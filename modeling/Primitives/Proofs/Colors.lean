import Primitives.Proofs.Ending
import Primitives.Proofs.Listing
import Primitives.Proofs.UnescapedCall
import Primitives.Proofs.UnescapedPlan

/-!
Colors. What a run shows is made of pieces, some of which are painted, and only the escape sequences around the painted
ones depend on whether colors are in use (`sketched_run`). Deleting these sequences gives what is shown without colors,
as long as nothing else that is shown holds an escape character (`uncolored_render`). A run goes on with what the runs
before it have left (`getElem?_runAll`): colors are given up at the first run that does not allow them, for good
(`colors_after`), and the log is shown from the first verbose run on (`logging_after_iff`).
-/
namespace Primitives.CommandLine

/-! ### Escape sequences -/

/-- The escape sequences of the styles. -/
def codes : List (List Char) := [Style.red, .cyan, .bold, .reset].map fun style => (style.code true).toList

/-- The characters without escape sequences of styles, of which the first ones are still skipped. -/
def strip : Nat → List Char → List Char
  | _, [] => []
  | skipped + 1, _ :: rest => strip skipped rest
  | 0, c :: rest =>
    match codes.find? (·.isPrefixOf (c :: rest)) with
    | some code => strip (code.length - 1) rest
    | none => c :: strip 0 rest

/-- The text without escape sequences of styles. -/
def uncolored (text : String) : String := String.ofList (strip 0 text.toList)

theorem find?_codes {c : Char} (other : c ≠ '\x1b') (rest : List Char) :
    codes.find? (·.isPrefixOf (c :: rest)) = none := by
  have begins : ∀ code ∈ codes, code.head? = some '\x1b' := by decide
  rw [List.find?_eq_none]
  intro code member
  obtain ⟨tail, rfl⟩ := List.head?_eq_some_iff.mp (begins code member)
  simp [List.isPrefixOf, other.symm]

/-- Up to the first escape character nothing is deleted. -/
theorem strip_append {text : List Char} (plain : '\x1b' ∉ text) (rest : List Char) :
    strip 0 (text ++ rest) = text ++ strip 0 rest := by
  induction text with
  | nil => rfl
  | cons c text ih =>
    simp only [List.mem_cons, not_or] at plain
    rw [List.cons_append, strip, find?_codes (Ne.symm plain.1)]
    simp [ih plain.2]

theorem strip_code (colors : Bool) (style : Style) (rest : List Char) :
    strip 0 ((style.code colors).toList ++ rest) = strip 0 rest := by
  cases colors with
  | false => cases style <;> rfl
  | true => cases style <;> rfl

theorem strip_paint (colors : Bool) (style : Style) {text : String} (plain : Text.Plain text) (rest : List Char) :
    strip 0 ((style.paint colors text).toList ++ rest) = text.toList ++ strip 0 rest := by
  simp only [Style.paint, String.toList_append, List.append_assoc]
  rw [strip_code, strip_append plain, strip_code]

theorem paint_false (style : Style) (text : String) : style.paint false text = text := by
  cases style <;> simp [Style.paint, Style.code]

theorem not_plain_paint (style : Style) (text : String) : ¬ Text.Plain (style.paint true text) := by
  have begins : ¬ Text.Plain (style.code true) := by cases style <;> decide
  intro plain
  simp only [Style.paint, Text.lacks_append] at plain
  exact begins plain.1.1

/-! ### Pieces -/

/-- A part of what is shown, which may be painted. -/
structure Piece where
  style : Option Style
  text : String

def Piece.shown (colors : Bool) (piece : Piece) : String :=
  match piece.style with
  | some style => style.paint colors piece.text
  | none => piece.text

def bare (text : String) : Piece := ⟨none, text⟩

def painted (style : Style) (text : String) : Piece := ⟨some style, text⟩

def render (colors : Bool) (pieces : List Piece) : String := String.join (pieces.map (Piece.shown colors))

section Pieces

variable {pieces : List Piece}

theorem Piece.shown_false (piece : Piece) : piece.shown false = piece.text := by
  unfold shown
  split
  · exact paint_false _ _
  · rfl

theorem Piece.strip_shown {piece : Piece} (colors : Bool) (plain : Text.Plain piece.text) (rest : List Char) :
    strip 0 ((piece.shown colors).toList ++ rest) = piece.text.toList ++ strip 0 rest := by
  unfold shown
  split
  · exact strip_paint colors _ plain rest
  · exact strip_append plain rest

theorem render_cons (colors : Bool) (piece : Piece) (rest : List Piece) :
    render colors (piece :: rest) = piece.shown colors ++ render colors rest := by
  apply String.ext
  simp [render]

/-- Without the escape sequences, painted pieces are as if they were not painted. -/
theorem uncolored_render (colors : Bool) (plain : ∀ piece ∈ pieces, Text.Plain piece.text) :
    uncolored (render colors pieces) = render false pieces := by
  apply String.ext
  rw [uncolored, String.toList_ofList]
  induction pieces with
  | nil => rfl
  | cons piece rest ih =>
    obtain ⟨first, later⟩ := List.forall_mem_cons.mp plain
    rw [render_cons, render_cons, String.toList_append, Piece.strip_shown colors first, ih later,
      String.toList_append, Piece.shown_false]

/-- An escape character is shown exactly if there is something to paint and colors are in use. -/
theorem plain_render_iff (colors : Bool) (plain : ∀ piece ∈ pieces, Text.Plain piece.text) :
    Text.Plain (render colors pieces) ↔ ¬ (colors = true ∧ ∃ piece ∈ pieces, piece.style ≠ none) := by
  have single (piece : Piece) (member : piece ∈ pieces) :
      Text.Plain (piece.shown colors) ↔ ¬ (colors = true ∧ piece.style ≠ none) := by
    cases colors with
    | false => simpa [Piece.shown_false] using plain piece member
    | true =>
      cases named : piece.style with
      | none => simpa [Piece.shown, named] using plain piece member
      | some style => simpa [Piece.shown, named] using not_plain_paint style piece.text
  rw [render, Text.Plain, Text.lacks_join, List.forall_mem_map]
  constructor
  · rintro all ⟨used, piece, member, colored⟩
    exact (single piece member).mp (all piece member) ⟨used, colored⟩
  · intro none_colored piece member
    refine (single piece member).mpr ?_
    rintro ⟨used, colored⟩
    exact none_colored ⟨used, piece, member, colored⟩

end Pieces

/-! ### What a run shows -/

/-- How a run ends and the pieces that it shows. -/
structure Sketch where
  ending : Ending
  output : List Piece
  errors : List Piece

namespace Sketch

def finish (colors : Bool) (sketch : Sketch) : Finish :=
  ⟨sketch.ending, render colors sketch.output, render colors sketch.errors⟩

def Plain (sketch : Sketch) : Prop := ∀ piece ∈ sketch.output ++ sketch.errors, Text.Plain piece.text

/-- There is something to paint. -/
def Painted (sketch : Sketch) : Prop := ∃ piece ∈ sketch.output ++ sketch.errors, piece.style ≠ none

end Sketch

/-- What the run shows, without escape sequences of styles. -/
def Finish.uncolored (finish : Finish) : Finish :=
  ⟨finish.ending, CommandLine.uncolored finish.output, CommandLine.uncolored finish.errors⟩

/-- The run shows an escape character. -/
def Finish.Colored (finish : Finish) : Prop := ¬ (Text.Plain finish.output ∧ Text.Plain finish.errors)

/-- A sketch gives what is shown with colors and without, has something to paint exactly if `paints`, and is plain if
    `clean`. -/
def Sketched (shows : Bool → Finish) (paints clean : Prop) : Prop :=
  ∃ sketch : Sketch, (∀ colors, shows colors = sketch.finish colors) ∧ (sketch.Painted ↔ paints) ∧
    (clean → sketch.Plain)

/-- What does not depend on colors has nothing to paint. -/
theorem sketched_of_same {shows : Bool → Finish} {finish : Finish} {paints clean : Prop}
    (same : ∀ colors, shows colors = finish) (unpainted : ¬ paints)
    (plain : clean → Text.Plain finish.output ∧ Text.Plain finish.errors) : Sketched shows paints clean := by
  refine ⟨⟨finish.ending, [bare finish.output], [bare finish.errors]⟩, fun colors => ?_, ?_, fun isClean => ?_⟩
  · simp [same, Sketch.finish, render, Piece.shown, bare]
  · simp [Sketch.Painted, bare, unpainted]
  · simpa [Sketch.Plain, bare] using plain isClean

theorem Sketch.uncolored_finish {sketch : Sketch} (plain : sketch.Plain) (colors : Bool) :
    (sketch.finish colors).uncolored = sketch.finish false := by
  obtain ⟨output, errors⟩ := List.forall_mem_append.mp plain
  simp only [finish, Finish.uncolored, uncolored_render colors output, uncolored_render colors errors]

theorem Sketch.colored_finish_iff {sketch : Sketch} (plain : sketch.Plain) (colors : Bool) :
    (sketch.finish colors).Colored ↔ colors = true ∧ sketch.Painted := by
  obtain ⟨output, errors⟩ := List.forall_mem_append.mp plain
  simp only [finish, Finish.Colored, plain_render_iff colors output, plain_render_iff colors errors, Painted,
    List.mem_append, or_and_right, exists_or, and_or_left, ← not_or, not_not]

/-- The pieces of a listing, a line each. -/
def listedPieces (r : Registry) (area : Option Area) : List Piece :=
  painted .bold versionText :: (shownAreas area).flatMap fun area =>
    bare "" :: painted .cyan (area.name ++ ":") :: (r.definitions.filter (·.area == area)).map fun d => bare (entry d)

theorem listing_eq_render (colors : Bool) (r : Registry) (area : Option Area) :
    listing colors r area = render colors ((listedPieces r area).flatMap fun piece => [piece, bare "\n"]) := by
  have lines : listedLines colors r area = (listedPieces r area).map (Piece.shown colors) := by
    simp only [listedLines, listedPieces, List.map_cons, List.map_flatMap, List.map_map]
    rfl
  rw [listing_eq, lines]
  apply String.ext
  simp [render, List.flatMap_map, List.flatMap_assoc, Piece.shown, bare]

/-- The pieces of a listing of the standard definitions are plain. -/
theorem plain_listedPieces (area : Option Area) :
    ∀ piece ∈ (listedPieces Standard.registry area).flatMap fun piece => [piece, bare "\n"], Text.Plain piece.text := by
  have named : ∀ d ∈ Standard.definitions, Text.Plain d.name := by
    simp only [Standard.definitions, Standard.console, Standard.texts, Standard.arithmetic, Standard.random,
      List.forall_mem_append, List.forall_mem_cons, List.not_mem_nil, false_implies, implies_true, and_true]
    and_intros <;> exact Text.plain_literal
  have shown (d : Definition) (member : d ∈ Standard.registry.definitions) : Text.Plain (entry d) := by
    simp only [entry, Definition.signature_eq, Text.lacks_append]
    exact ⟨Text.plain_literal, ⟨named d member, Text.plain_literal⟩, Definition.lacks_parameterText (by decide) d⟩
  have title (area : Area) : Text.Plain (area.name ++ ":") := by cases area <;> decide
  intro piece member
  simp only [listedPieces, List.mem_flatMap, List.mem_cons, List.mem_map, List.mem_filter, List.not_mem_nil,
    or_false] at member
  obtain ⟨line, rfl | ⟨shownArea, _, rfl | rfl | ⟨d, ⟨there, _⟩, rfl⟩⟩, rfl | rfl⟩ := member
  · exact Text.plain_literal
  · exact Text.plain_literal
  · exact Text.plain_literal
  · exact Text.plain_literal
  · exact title shownArea
  · exact Text.plain_literal
  · exact shown d there
  · exact Text.plain_literal

/-! ### Calls of words -/

/-- Neither the input nor the clock of the debug log holds an escape character. -/
structure Surroundings.Plain (around : Surroundings) : Prop where
  input : Text.Plain around.input
  clock : Text.Plain around.clock

theorem Surroundings.Plain.host {around : Surroundings} (plain : around.Plain) : around.host.Plain where
  input := plain.input
  output := Text.plain_literal
  contexts := by simp [Surroundings.host, Host.fresh]

theorem plain_createContext (seed : SeedSetting) : (createContext seed).Plain fun _ => True := by
  cases seed with
  | unset => exact Context.plain_create .entropy (by simp) (by simp)
  | number n => exact Context.plain_create (.integer n) (by simp) (by simp)
  | blank => exact Effect.plain_fail (Fault.plain_of_parts rfl)

theorem plain_callWords (seed : SeedSetting) {name : String} {words : List String} (plainName : Text.Plain name)
    (plain : ∀ word ∈ words, Text.Plain word) : (callWords seed name words).Plain fun called => called.2.Plain := by
  have unnamed : ∀ d ∈ Standard.registry.definitions, Signature.PlainlyNamed d.params := by
    have none_named : ∀ d ∈ Standard.definitions, ∀ p ∈ d.params, p.name = none := by decide
    intro d member p parameter name given
    rw [none_named d member p parameter] at given
    cases given
  have values : ∀ v ∈ words.map Literal.read, v.Plain :=
    List.forall_mem_map.mpr fun word member => Literal.plain_read (plain word member)
  refine (plain_createContext seed).bind fun handle _ => ?_
  refine (Registry.plain_invoke unnamed plainName values (some handle)).bind fun v isPlain => ?_
  exact Effect.plain_pure isPlain

theorem plain_showResult (handle : Handle) {v : Value} (plain : v.Plain) :
    (showResult handle v).Plain fun _ => True := by
  have printed : (Console.print [v] (some handle)).Plain fun _ => True := by
    refine (Effect.plain_ofExcept (Console.plainly_lineOf (by simpa using plain))).bind fun line isPlain => ?_
    refine (Context.plain_resolve (some handle)).bind fun target _ => ?_
    exact Effect.plain_modify fun host kept => kept.write target isPlain
  cases v with
  | nothing => exact Effect.plain_pure trivial
  | boolean b | integer n | text s | foreign object => exact printed

theorem plain_logText {clock : String} {log : List Notice} (plain : Text.Plain clock)
    (noted : ∀ notice ∈ log, Text.Plain notice.message) : Text.Plain (logText clock log) := by
  have source (source : Source) : Text.Plain source.name := by cases source <;> exact Text.plain_literal
  rw [logText, Text.Plain, Text.lacks_join, List.forall_mem_map]
  intro notice member
  simp only [Notice.text, Text.lacks_append]
  exact ⟨⟨⟨plain, Text.plain_literal⟩, ⟨⟨Text.plain_literal, source _⟩, Text.plain_literal⟩, noted notice member⟩,
    Text.plain_literal⟩

section Calls

variable {around : Surroundings} {accepted : Plan} {name : String} {words : List String} {after : Host}
  {notices : List Notice}

/-- Nothing that a call is given holds an escape character. -/
structure PlainCall (around : Surroundings) (name : String) (words : List String) : Prop where
  around : around.Plain
  name : Text.Plain name
  words : ∀ word ∈ words, Text.Plain word

/-- A call has its sketch, in which the label of an error is painted if there is one. -/
abbrev CallSketched (around : Surroundings) (accepted : Plan) (name : String) (words : List String) : Prop :=
  Sketched (runCall · around accepted name words) ((runCall false around accepted name words).ending = .returned 1)
    (PlainCall around name words)

theorem PlainCall.outcome (clean : PlainCall around name words) (seed : SeedSetting) :
    (callWords seed name words around.host).Plain fun called => called.2.Plain :=
  plain_callWords seed clean.name clean.words around.host clean.around.host

theorem plain_shownLog (plain : around.Plain) (noted : ∀ notice ∈ notices, Text.Plain notice.message) :
    Text.Plain (shownLog around accepted notices) := by
  unfold shownLog
  split
  · exact plain_logText plain.clock noted
  · exact Text.plain_literal

theorem sketched_of_error {fault : Fault}
    (called : callWords accepted.seed name words around.host = ⟨.error fault, after, notices⟩) :
    CallSketched around accepted name words := by
  have safe (clean : PlainCall around name words) : fault.Plain ∧ Text.Plain after.output ∧
      Text.Plain (shownLog around accepted notices) := by
    have outcome := clean.outcome accepted.seed
    rw [called] at outcome
    obtain ⟨_ | faulty, kept, noted⟩ := outcome
    exact ⟨faulty, kept.output, plain_shownLog clean.around noted⟩
  simp only [CallSketched, runCall_of_error _ around name words called]
  by_cases library : fault.errorClass.isA .library = true
  · simp only [library, if_true]
    refine ⟨⟨.returned 1, [bare after.output], [bare (shownLog around accepted notices), painted .red "error:",
      bare (" " ++ fault.text ++ "\n")]⟩, fun colors => ?_, ?_, fun clean => ?_⟩
    · simp [Sketch.finish, Piece.shown, bare, painted, render, String.append_assoc]
    · simp [Sketch.Painted, painted]
    · obtain ⟨faulty, output, log⟩ := safe clean
      have label : Text.Plain "error:" := Text.plain_literal
      have text : Text.Plain (" " ++ fault.text ++ "\n") := by
        simp only [Text.lacks_append]
        exact ⟨⟨Text.plain_literal, Fault.plain_text faulty⟩, Text.plain_literal⟩
      simp only [Sketch.Plain, List.cons_append, List.nil_append, List.forall_mem_cons]
      exact ⟨output, log, label, text, by simp⟩
  · simp only [library, Bool.false_eq_true, if_false]
    exact sketched_of_same (fun _ => rfl) (by simp) fun clean => (safe clean).2

theorem sketched_of_value {handle : Handle} {v : Value}
    (called : callWords accepted.seed name words around.host = ⟨.ok (handle, v), after, notices⟩) :
    CallSketched around accepted name words := by
  simp only [CallSketched, runCall_of_value _ around name words called]
  refine sketched_of_same (fun _ => rfl) ?_ fun clean => ?_
  · cases (showResult handle v after).result <;> simp [shownEnding]
  · have outcome := clean.outcome accepted.seed
    rw [called] at outcome
    obtain ⟨isPlain | _, kept, noted⟩ := outcome
    have shown := plain_showResult handle isPlain after kept
    exact ⟨shown.host.output, plain_shownLog clean.around (List.forall_mem_append.mpr ⟨noted, shown.log⟩)⟩

/-- A call paints nothing but the label of the error that it reports. -/
theorem sketched_call (around : Surroundings) (accepted : Plan) (name : String) (words : List String) :
    CallSketched around accepted name words := by
  rcases called : callWords accepted.seed name words around.host with ⟨fault | ⟨handle, v⟩, after, notices⟩
  · exact sketched_of_error called
  · exact sketched_of_value called

end Calls

/-! ### Runs -/

/-- How a run ends that has colors in use or not, in a process that shows the log or does not yet. -/
def finishWith (colors logging : Bool) (around : Surroundings) (words : List String) : Finish :=
  match plan words with
  | .error stop => stop.finish
  | .ok accepted => { accepted with verbose := logging || accepted.verbose }.finish colors around

theorem ending_runCall (colors : Bool) (around : Surroundings) (accepted : Plan) (verbose : Bool) (name : String)
    (words : List String) :
    (runCall colors around { accepted with verbose := verbose } name words).ending =
      (runCall colors around accepted name words).ending := by
  simp only [runCall]
  split
  · rfl
  · split <;> rfl

/-- The log says nothing about how a run ends. -/
theorem ending_finishWith (colors logging : Bool) (around : Surroundings) (words : List String) :
    (finishWith colors logging around words).ending = (finishWith colors false around words).ending := by
  unfold finishWith
  cases plan words with
  | error stop => rfl
  | ok accepted =>
    rcases accepted with ⟨verbose, seed, _ | area | ⟨name, args⟩⟩
    · rfl
    · rfl
    · simp only [Plan.finish]
      rw [ending_runCall colors around ⟨verbose, seed, _⟩ (logging || verbose), Bool.false_or]

theorem finish_run (process : Process) (around : Surroundings) (words : List String) :
    (process.run around words).1 = finishWith (process.colors && allowsColors around) process.logging around words := by
  unfold Process.run finishWith
  cases plan words <;> rfl

/-- The run lists definitions or reports an error. -/
def Paints (around : Surroundings) (words : List String) : Prop :=
  (∃ accepted area, plan words = .ok accepted ∧ accepted.command = some (.info area)) ∨
    (run false around words).1.ending = .returned 1

theorem ending_run_false (logging : Bool) (around : Surroundings) (words : List String) :
    (run false around words).1.ending = (finishWith false logging around words).ending := by
  rw [ending_finishWith]
  exact congrArg Finish.ending (finish_run ⟨false, false⟩ around words)

/-- What a run shows is the same with colors and without, but for the escape sequences of what it paints. -/
theorem sketched_run (logging : Bool) (around : Surroundings) (words : List String) :
    Sketched (finishWith · logging around words) (Paints around words)
      (around.Plain ∧ ∀ word ∈ words, Text.Plain word) := by
  simp only [Paints, ending_run_false logging]
  cases planned : plan words with
  | error stop =>
    simp only [finishWith, planned]
    refine sketched_of_same (fun _ => rfl) ?_ fun ⟨_, plainWords⟩ => ?_
    · cases stop <;> simp [Stop.finish]
    · have stopped := ends_plan plainWords
      rw [planned] at stopped
      obtain _ | plain := stopped
      exact Stop.plain_finish plain
  | ok accepted =>
    have plain (plainWords : ∀ word ∈ words, Text.Plain word) : accepted.Plain := by
      have accepts := ends_plan plainWords
      rw [planned] at accepts
      obtain isPlain | _ := accepts
      exact isPlain
    simp only [finishWith, planned, Plan.finish]
    rcases accepted with ⟨verbose, seed, _ | area | ⟨name, args⟩⟩
    · exact sketched_of_same (fun _ => rfl) (by simp) fun _ => ⟨Menu.plain_top.help, Text.plain_literal⟩
    · refine ⟨⟨.returned 0, (listedPieces Standard.registry area).flatMap fun piece => [piece, bare "\n"], []⟩,
        fun colors => ?_, ?_, fun _ => ?_⟩
      · simp [Sketch.finish, listing_eq_render, render]
      · simp [Sketch.Painted, listedPieces, painted]
      · simpa [Sketch.Plain] using plain_listedPieces area
    · obtain ⟨sketch, finish, paints, isPlain⟩ :=
        sketched_call around ⟨logging || verbose, seed, some (.call name args)⟩ name args
      refine ⟨sketch, finish, by simpa using paints, fun ⟨clean, plainWords⟩ => isPlain ?_⟩
      obtain ⟨plainName, plainArgs⟩ := plain plainWords _ rfl
      exact ⟨clean, plainName, plainArgs⟩

/-- The output is a terminal, and there is no wish against colors. -/
def Surroundings.AllowsColors (around : Surroundings) : Prop :=
  around.terminal = true ∧ (around.noColor = none ∨ around.noColor = some "")

theorem allowsColors_iff {around : Surroundings} : allowsColors around = true ↔ around.AllowsColors := by
  unfold allowsColors Surroundings.AllowsColors
  cases around.noColor <;> simp

/-- The words are accepted and ask for the debug log. -/
def Verbose (words : List String) : Prop := ∃ accepted, plan words = .ok accepted ∧ accepted.verbose = true

theorem colors_run (process : Process) (around : Surroundings) (words : List String) :
    (process.run around words).2.colors = (process.colors && allowsColors around) := by
  unfold Process.run
  cases plan words <;> rfl

theorem logging_run_iff (process : Process) (around : Surroundings) (words : List String) :
    (process.run around words).2.logging = true ↔ process.logging = true ∨ Verbose words := by
  unfold Process.run Verbose
  cases plan words <;> simp

/-- What a process is like after some runs. -/
def Process.after (keepsLog : Bool) (process : Process) (runs : List (Surroundings × List String)) : Process :=
  runs.foldl (fun before earlier => (before.run earlier.1 earlier.2).2.between keepsLog) process

section Runs

variable (keepsLog : Bool) (process : Process) (runs : List (Surroundings × List String))

/-- Each run goes on with what the runs before it have left. -/
theorem getElem?_runAll (i : Nat) :
    (process.runAll keepsLog runs)[i]? =
      runs[i]?.map fun here => ((process.after keepsLog (runs.take i)).run here.1 here.2).1 := by
  induction runs generalizing process i with
  | nil => rfl
  | cons first rest ih =>
    obtain ⟨around, words⟩ := first
    rw [Process.runAll]
    cases i with
    | zero => simp [Process.after]
    | succ i => simpa [Process.after] using ih _ i

theorem colors_after :
    (process.after keepsLog runs).colors = (process.colors && runs.all fun earlier => allowsColors earlier.1) := by
  induction runs generalizing process with
  | nil => simp [Process.after]
  | cons first rest ih =>
    have left := ih ((process.run first.1 first.2).2.between keepsLog)
    simpa [Process.after, Process.between, colors_run, Bool.and_assoc] using left

/-- The log is shown from the first verbose run on, unless it is taken down. -/
theorem logging_after_iff (kept : process.logging = true → keepsLog = true) :
    (process.after keepsLog runs).logging = true ↔
      process.logging = true ∨ keepsLog = true ∧ ∃ earlier ∈ runs, Verbose earlier.2 := by
  induction runs generalizing process with
  | nil => simp [Process.after]
  | cons first rest ih =>
    have left := ih ((process.run first.1 first.2).2.between keepsLog) (by simp +contextual [Process.between])
    simp only [Process.after, List.foldl_cons, List.exists_mem_cons_iff] at left ⊢
    rw [left]
    simp only [Process.between, Bool.and_eq_true, logging_run_iff]
    cases keepsLog with
    | false =>
      have silent : process.logging = false := by simpa using kept
      simp [silent]
    | true => simp [or_assoc]

end Runs

/-- Colors are a latch and carry no content. The runs of a process that starts with colors in use show the escape
    sequences of styles up to the first run whose output is no terminal or that wishes no colors, and none from there on:
    a run with something to paint shows an escape character exactly if all runs up to it allow colors. How a run ends is
    the same with colors and without, and deleting the escape sequences from what it shows gives what it shows without
    colors, as long as no word, no input and no clock brings an escape character in. The two are compared in processes
    that show the log alike: they do if an earlier run was verbose and the log has not been taken down since. -/
theorem runAll_colors (keepsLog : Bool) (runs : List (Surroundings × List String)) (i : Nat) (around : Surroundings)
    (words : List String) (here : runs[i]? = some (around, words)) :
    ∃ finish logging, (Process.initial.runAll keepsLog runs)[i]? = some finish ∧
      (logging = true ↔ keepsLog = true ∧ ∃ earlier ∈ runs.take i, Verbose earlier.2) ∧
      let colored := ((Process.mk true logging).run around words).1
      let plain := ((Process.mk false logging).run around words).1
      ((∀ earlier ∈ runs.take (i + 1), earlier.1.AllowsColors) → finish = colored) ∧
      ((∃ earlier ∈ runs.take (i + 1), ¬ earlier.1.AllowsColors) → finish = plain) ∧
      finish.ending = plain.ending ∧
      (around.Plain → (∀ word ∈ words, Text.Plain word) →
        finish.uncolored = plain ∧
        (finish.Colored ↔ (∀ earlier ∈ runs.take (i + 1), earlier.1.AllowsColors) ∧ Paints around words)) := by
  let before := Process.initial.after keepsLog (runs.take i)
  have shows : before.logging = true ↔ keepsLog = true ∧ ∃ earlier ∈ runs.take i, Verbose earlier.2 := by
    simpa [before, Process.initial] using
      logging_after_iff keepsLog Process.initial (runs.take i) (by simp [Process.initial])
  -- the colors that the runs before have left, together with those that this one allows
  have used : (before.colors && allowsColors around) = true ↔
      ∀ earlier ∈ runs.take (i + 1), earlier.1.AllowsColors := by
    have upTo : runs.take (i + 1) = runs.take i ++ [(around, words)] := by rw [List.take_add_one, here]; rfl
    simp [before, colors_after, Process.initial, upTo, allowsColors_iff, or_imp, forall_and]
  have ran := getElem?_runAll keepsLog Process.initial runs i
  rw [here, Option.map_some, finish_run] at ran
  obtain ⟨sketch, finish, paints, isPlain⟩ := sketched_run before.logging around words
  dsimp only at finish
  have plainly : ((Process.mk false before.logging).run around words).1 = finishWith false before.logging around words :=
    finish_run ⟨false, before.logging⟩ around words
  refine ⟨_, before.logging, ran, shows, fun allowed => ?_, fun ⟨earlier, member, refused⟩ => ?_, ?_,
    fun clean plainWords => ⟨?_, ?_⟩⟩
  · have inUse := used.mpr allowed
    have own : allowsColors around = true := (Bool.and_eq_true_iff.mp inUse).2
    rw [inUse, finish_run, own]
    rfl
  · have unused := mt used.mp fun allowed => refused (allowed earlier member)
    rw [Bool.not_eq_true] at unused
    rw [unused, plainly]
  · rw [plainly, finish, finish]
    rfl
  · rw [plainly, finish, finish, Sketch.uncolored_finish (isPlain ⟨clean, plainWords⟩)]
  · rw [finish, Sketch.colored_finish_iff (isPlain ⟨clean, plainWords⟩), used, paints]

/-- A verbose run and one without colors in between: an error is reported with colors first and without them then, but
    with the log that the verbose run has left. -/
theorem runAll_colors_given_up :
    let terminal : Surroundings := ⟨"", none, none, true, "12:00:00", ⟨fun _ => [], 0⟩⟩
    let words := ["call", "sqrt", "-1"]
    let runs := [(terminal, words), ({ terminal with noColor := some "1" }, ["-v", "info"]), (terminal, words)]
    (∃ finish, (Process.initial.runAll true runs)[0]? = some finish ∧ finish.Colored ∧
      finish.uncolored = (run false terminal words).1) ∧
    (∃ finish, (Process.initial.runAll true runs)[2]? = some finish ∧ ¬ finish.Colored ∧
      finish = ((Process.mk false true).run terminal words).1 ∧ finish ≠ (run false terminal words).1) := by
  intro terminal words runs
  have clean : terminal.Plain := ⟨Text.plain_literal, Text.plain_literal⟩
  have plainWords : ∀ word ∈ words, Text.Plain word := by decide
  have paints : Paints terminal words := .inr (by decide +kernel)
  have allowed : terminal.AllowsColors := ⟨rfl, .inl rfl⟩
  have refused : ¬ { terminal with noColor := some "1" }.AllowsColors := by simp [Surroundings.AllowsColors]
  refine ⟨?_, ?_⟩
  · obtain ⟨finish, logging, ran, shows, _, _, _, content⟩ := runAll_colors true runs 0 terminal words rfl
    have unseen : logging = false := by simpa using shows
    obtain ⟨same, colored⟩ := content clean plainWords
    rw [unseen] at same
    exact ⟨finish, ran, colored.mpr ⟨by simpa [runs] using allowed, paints⟩, same⟩
  · obtain ⟨finish, logging, ran, shows, _, without, _, content⟩ := runAll_colors true runs 2 terminal words rfl
    have verbose : Verbose ["-v", "info"] := ⟨⟨true, .unset, some (.info none)⟩, by rfl, rfl⟩
    have seen : logging = true := shows.mpr ⟨rfl, ({ terminal with noColor := some "1" }, ["-v", "info"]), by simp [runs],
      verbose⟩
    obtain ⟨_, colored⟩ := content clean plainWords
    have between : ({ terminal with noColor := some "1" }, ["-v", "info"]) ∈ runs.take 3 := by simp [runs]
    have same := without ⟨_, between, refused⟩
    rw [seen] at same
    refine ⟨finish, ran, fun shown => refused ((colored.mp shown).1 _ between), same, ?_⟩
    rw [same]
    decide +kernel

end Primitives.CommandLine
