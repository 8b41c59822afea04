import Primitives.Fault

/-!
Operations on texts. Case conversion changes the ASCII letters only, a length is counted in UTF-8 bytes, and
the searches compare characters. Every value that has a kind has a text form, except for integers of too many
digits.
-/
namespace Primitives.Text

/-- The text with its ASCII letters in lower case. -/
def lower (s : String) : String := s.map Char.toLower

/-- The text with its ASCII letters in upper case. -/
def upper (s : String) : String := s.map Char.toUpper

/-- The number of bytes of the UTF-8 form. -/
def byteLength (s : String) : Nat := s.utf8ByteSize

def startsWith (s t : String) : Bool := t.toList.isPrefixOf s.toList

def endsWith (s t : String) : Bool := t.toList.isSuffixOf s.toList

/-- Whether a list of characters stands somewhere in a row in another one. -/
def occursIn (block : List Char) : List Char → Bool
  | [] => block.isEmpty
  | c :: rest => block.isPrefixOf (c :: rest) || occursIn block rest

def contains (s t : String) : Bool := occursIn t.toList s.toList

def ofValue : Value → Except Fault String
  | .boolean b => .ok (if b then "true" else "false")
  | .integer n => if Numeral.Writable n then .ok (Numeral.write n) else .error .tooManyDigits
  | .text s => .ok s
  | .nothing => .error (.noTextForm Value.nothing.described)
  | .foreign object => .error (.noTextForm object.typeName)

end Primitives.Text
