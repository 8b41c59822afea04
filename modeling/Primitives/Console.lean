import Primitives.Context

/-!
Console operations: writing a line of values and reading a line.
-/
namespace Primitives.Console

/-- The line that shows the given values. -/
def lineOf (values : List Value) : Except Fault String := do
  return " ".intercalate (← values.mapM Text.ofValue) ++ "\n"

/-- Writes a line. A value without a text form is a fault before the context is looked for. -/
def print (values : List Value) (context : Option Handle) : Effect Unit := do
  let line ← Effect.ofExcept (lineOf values)
  let handle ← Context.resolve context
  Effect.modify fun host => host.write handle line

/-- The text of a prompt, if there is anything to show. What is neither a text nor empty in its own way cannot
    be shown. -/
def promptText? : Value → Except Fault (Option String)
  | .text s => .ok (if s.isEmpty then none else some s)
  | .boolean b => if b then .error .mistyped else .ok none
  | .integer n => if n = 0 then .ok none else .error .mistyped
  | .nothing => .ok none
  | .foreign object => if object.isEmpty then .ok none else .error .mistyped

/-- Shows a prompt and reads a line. -/
def readLine (prompt : Value) (context : Option Handle) : Effect String := do
  let handle ← Context.resolve context
  match ← Effect.ofExcept (promptText? prompt) with
  | some shown => Effect.modify fun host => host.write handle shown
  | none => pure ()
  let line ← Effect.modifyGet fun host => host.takeLine handle
  return String.ofList (Line.content line)

end Primitives.Console
