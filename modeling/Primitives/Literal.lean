import Primitives.Value
import Primitives.Numeral

/-!
Literals, the words of a command line that stand for values. A word between double quotes is a text, `true`
and `false` are the Booleans, a numeral is an integer, and every other word stands for itself.
-/
namespace Primitives.Literal

/-- What stands between the double quotes of a quoted word. -/
def unquoted? (word : String) : Option String :=
  match word.toList with
  | '"' :: rest => if rest.getLast? = some '"' then some (String.ofList rest.dropLast) else none
  | _ => none

/-- The value that a word stands for. -/
def read (word : String) : Value :=
  match unquoted? word with
  | some inner => .text inner
  | none =>
    if word = "true" then .boolean true
    else if word = "false" then .boolean false
    else
      match Numeral.read? word with
      | some n => .integer n
      | none => .text word

/-- The word for a value that has a kind. -/
def write? : Value → Option String
  | .boolean b => some (if b then "true" else "false")
  | .integer n => some (Numeral.write n)
  | .text s => some ("\"" ++ s ++ "\"")
  | .nothing => none
  | .foreign _ => none

end Primitives.Literal
