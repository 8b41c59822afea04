import Primitives.Character.Printable

/-!
Quoted texts, as messages show a word. A text stands between single quotes, or between double quotes if it
holds a single quote and no double one. The backslash and the quote are escaped, and so is every character
that is not printable.
-/
namespace Primitives.Quoted

/-- The hexadecimal digits of a number in lower case, filled up with zeros to a width. -/
def hex (width n : Nat) : List Char :=
  let digits := Nat.toDigits 16 n
  List.replicate (width - digits.length) '0' ++ digits

/-- The escape of a character by its code point, in the shortest of the three widths. -/
def escaped (c : Char) : List Char :=
  let n := c.toNat
  if n < 0x100 then '\\' :: 'x' :: hex 2 n
  else if n < 0x10000 then '\\' :: 'u' :: hex 4 n
  else '\\' :: 'U' :: hex 8 n

/-- What stands for one character between the given quotes. -/
def character (quote c : Char) : List Char :=
  if c == quote || c == '\\' then ['\\', c]
  else if c == '\t' then ['\\', 't']
  else if c == '\n' then ['\\', 'n']
  else if c == '\r' then ['\\', 'r']
  else if Character.isPrintable c then [c]
  else escaped c

def quoteFor (cs : List Char) : Char := if cs.contains '\'' && !cs.contains '"' then '"' else '\''

def write (text : String) : String :=
  let quote := quoteFor text.toList
  String.ofList (quote :: text.toList.flatMap (character quote) ++ [quote])

end Primitives.Quoted
