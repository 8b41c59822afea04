import Primitives.CommandLine.Plan
import Primitives.Standard

/-!
The program: from the words of a command line and the surroundings of a run to its output and its end. The runs of a
process share two things. Colors are used as long as every run so far had a terminal for its output and no wish against
colors, and the debug log is shown from the first verbose run on.
-/
namespace Primitives.CommandLine

/-- The surroundings of a run. The clock stands before every line of the debug log. -/
structure Surroundings where
  input : String
  seedVariable : Option String
  noColor : Option String
  terminal : Bool
  clock : String
  entropy : Entropy

/-- How a run ends: with a code that the program returns, with one that it exits with at once, or with a fault
    that nothing catches. -/
inductive Ending where
  | returned (code : Nat)
  | exited (code : Nat)
  | escaped (fault : Fault)
deriving DecidableEq, Repr

/-- The output of a run and its end. -/
structure Finish where
  ending : Ending
  output : String
  errors : String
deriving DecidableEq, Repr

/-- The name of the program with its version. -/
def versionText : String := "primlib 0.1.0"

inductive Style where
  | red
  | cyan
  | bold
  | reset
deriving DecidableEq, Repr

/-- The escape sequence of a style; without colors there is none. -/
def Style.code (colors : Bool) : Style → String
  | .red => if colors then "\x1b[91m" else ""
  | .cyan => if colors then "\x1b[96m" else ""
  | .bold => if colors then "\x1b[1m" else ""
  | .reset => if colors then "\x1b[0m" else ""

def Style.paint (colors : Bool) (style : Style) (text : String) : String :=
  style.code colors ++ text ++ Style.reset.code colors

def areaListing (colors : Bool) (registry : Registry) (area : Area) : String :=
  "\n" ++ Style.cyan.paint colors (area.name ++ ":") ++ "\n" ++
    String.join ((registry.names (some area)).map fun name =>
      "  " ++ ((registry.get? name).map Definition.signature).getD "" ++ "\n")

/-- The listing of one area or of all of them. -/
def listing (colors : Bool) (registry : Registry) (area : Option Area) : String :=
  let areas := match area with
    | some area => [area]
    | none => Area.all
  Style.bold.paint colors versionText ++ "\n" ++ String.join (areas.map (areaListing colors registry))

/-- What a run that does not get to a command shows. -/
def Stop.finish : Stop → Finish
  | .help menu => ⟨.exited 0, menu.help, ""⟩
  | .version => ⟨.exited 0, versionText ++ "\n", ""⟩
  | .usage menu error =>
    ⟨.exited 2, "", menu.usage ++ "\n" ++ menu.program ++ ": error: " ++ error.message ++ "\n"⟩

/-- Makes the context of a call; nothing can be seeded with a blank seed. -/
def createContext : SeedSetting → Effect Handle
  | .unset => Context.create .entropy none none
  | .number n => Context.create (.integer n) none none
  | .blank => Effect.fail .mistyped

/-- Calls a standard name with words in a new context. -/
def callWords (seed : SeedSetting) (name : String) (words : List String) : Effect (Handle × Value) := do
  let handle ← createContext seed
  return (handle, ← Standard.registry.invoke name (words.map Literal.read) (some handle))

/-- Shows the result of a call, if there is one. -/
def showResult (handle : Handle) : Value → Effect Unit
  | .nothing => pure ()
  | v => Console.print [v] (some handle)

/-- The debug log as it is shown. -/
def logText (clock : String) (log : List Notice) : String :=
  String.join (log.map fun notice => clock ++ " " ++ notice.text ++ "\n")

/-- Runs the command `call`. A fault of the call itself is shown, if it is one of the library. -/
def runCall (colors : Bool) (around : Surroundings) (plan : Plan) (name : String) (words : List String) : Finish :=
  let host := Host.fresh around.seedVariable around.entropy around.input
  let shownLog (log : List Notice) : String := if plan.verbose then logText around.clock log else ""
  let called := callWords plan.seed name words host
  match called.result with
  | .ok (handle, v) =>
    let shown := showResult handle v called.host
    let ending := match shown.result with
      | .ok () => .returned 0
      | .error fault => .escaped fault
    ⟨ending, shown.host.output, shownLog (called.log ++ shown.log)⟩
  | .error fault =>
    if fault.errorClass.isA .library then
      ⟨.returned 1, called.host.output,
        shownLog called.log ++ Style.red.paint colors "error:" ++ " " ++ fault.text ++ "\n"⟩
    else ⟨.escaped fault, called.host.output, shownLog called.log⟩

def Plan.finish (colors : Bool) (around : Surroundings) (plan : Plan) : Finish :=
  match plan.command with
  | none => ⟨.returned 0, Menu.top.help, ""⟩
  | some (.info area) => ⟨.returned 0, listing colors Standard.registry area, ""⟩
  | some (.call name words) => runCall colors around plan name words

def allowsColors (around : Surroundings) : Bool := around.terminal && around.noColor.all String.isEmpty

/-- What the runs of a process share: whether colors are in use, and whether the debug log is shown. -/
structure Process where
  colors : Bool
  logging : Bool
deriving DecidableEq, Repr

namespace Process

/-- A process before its first run. -/
def initial : Process := ⟨true, false⟩

/-- Runs the program in a process, and tells what the process is like afterwards. A run that does not allow colors
    gives them up for good. A verbose run shows the log, and so do all runs after it; a run that stops at its words
    leaves the log as it was. -/
def run (process : Process) (around : Surroundings) (words : List String) : Finish × Process :=
  let colors := process.colors && allowsColors around
  match plan words with
  | .error stop => (stop.finish, ⟨colors, process.logging⟩)
  | .ok plan =>
    let logging := process.logging || plan.verbose
    ({ plan with verbose := logging }.finish colors around, ⟨colors, logging⟩)

/-- What is left of a process for its next run: its log may be taken down in between. -/
def between (keepsLog : Bool) (process : Process) : Process :=
  { process with logging := keepsLog && process.logging }

/-- Runs the program several times in one process, which keeps its log from run to run or has it taken down after
    each. -/
def runAll (keepsLog : Bool) (process : Process) : List (Surroundings × List String) → List Finish
  | [] => []
  | (around, words) :: rest =>
    let (finish, after) := process.run around words
    finish :: runAll keepsLog (after.between keepsLog) rest

end Process

/-- Runs the program in a process that shows no log yet, given whether colors have been in use so far; the answer says
    whether they still are. -/
def run (colors : Bool) (around : Surroundings) (words : List String) : Finish × Bool :=
  let (finish, after) := (Process.mk colors false).run around words
  (finish, after.colors)

section Run

variable (colors : Bool) (around : Surroundings) {words : List String}

theorem run_of_stop {stop : Stop} (stopped : plan words = .error stop) :
    run colors around words = (stop.finish, colors && allowsColors around) := by
  simp only [run, Process.run, stopped]

theorem run_of_plan {accepted : Plan} (planned : plan words = .ok accepted) :
    run colors around words =
      (accepted.finish (colors && allowsColors around) around, colors && allowsColors around) := by
  simp only [run, Process.run, planned, Bool.false_or]

end Run

/-- Whether a run can read a line of the input: it calls a name that is registered for reading one. -/
def readsInput (words : List String) : Bool :=
  match plan words with
  | .ok ⟨_, _, some (.call name _)⟩ =>
    (Standard.registry.get? name).any (·.implementation == .contextual .readLine)
  | _ => false

/-- Runs the program several times in one process whose log is taken down after each run. -/
def runAll (colors : Bool) (runs : List (Surroundings × List String)) : List Finish :=
  Process.runAll false ⟨colors, false⟩ runs

end Primitives.CommandLine
