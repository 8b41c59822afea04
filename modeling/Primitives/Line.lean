/-!
Lines of an input. Only a line feed ends a line; a carriage return directly before it belongs to the
terminator.
-/
namespace Primitives.Line

/-- The first line of an input with its terminator, and what follows it. -/
def split : List Char → List Char × List Char
  | [] => ([], [])
  | c :: rest =>
    if c = '\n' then ([c], rest)
    else
      let (line, after) := split rest
      (c :: line, after)

/-- A line without its terminator. A line that the end of the input has cut off is complete as it is. -/
def content (line : List Char) : List Char :=
  if line.getLast? = some '\n' then
    if line.dropLast.getLast? = some '\r' then line.dropLast.dropLast else line.dropLast
  else line

end Primitives.Line
