import Primitives.Arithmetic
import Primitives.Literal
import Primitives.Text

/-!
The operations without side effects, as functions of their argument lists. An argument list of the wrong
length is a fault before any argument is looked at.
-/
namespace Primitives

/-- The operations that neither use nor change anything but their arguments. -/
inductive Operation where
  | lower
  | upper
  | byteLength
  | startsWith
  | endsWith
  | contains
  | textForm
  | squareRoot
  | power
  | absoluteValue
  | maximum
  | minimum
  | kindName
  | readLiteral
deriving DecidableEq, Repr

namespace Operation

/-- Whether a value is a row of bytes. -/
def isBytes (v : Value) : Bool := v = .foreign (.named "bytes")

/-- The fault of putting a value in the place of a text. Rows of bytes have the operations of texts too, but only
    for bytes. -/
def textFault (v : Value) : Fault := if isBytes v then .mistyped else .notText

def mapText (f : String → String) : Value → Except Fault Value
  | .text s => .ok (.text (f s))
  | v => .error (textFault v)

/-- Measures a text, which no other value can stand for. -/
def measureText (f : String → Nat) : Value → Except Fault Value
  | .text s => .ok (.integer (f s))
  | _ => .error .notText

/-- Tests an end of a text. The test belongs to the first value, so that it is not there if that is no text; a
    second value that is no text has the wrong type. A row of bytes begins and ends with itself. -/
def testText (test : String → String → Bool) : Value → Value → Except Fault Value
  | .text s, .text t => .ok (.boolean (test s t))
  | .text _, _ => .error .mistyped
  | v, w => if isBytes v && isBytes w then .ok (.boolean true) else .error (textFault v)

/-- Whether a value is of a type whose values cannot be looked up. -/
def isChanging : Value → Bool
  | .foreign object => object.typeName ∈ Foreign.changingTypes
  | _ => false

/-- Whether a value is known to stand in a foreign one. -/
def isMember (container : Foreign) : Value → Bool
  | .text t => t ∈ container.members
  | _ => false

/-- Whether a value stands in a container. Lists compare it with each member, records and sets look it up, where a
    set can also be looked up in a set, and a row of bytes holds itself. -/
def holds (container : Foreign) (v : Value) : Except Fault Bool :=
  match container.typeName with
  | "list" | "tuple" => .ok (isMember container v)
  | "dict" => if isChanging v then .error .mistyped else .ok (isMember container v)
  | "set" => if isChanging v && v.described != "set" then .error .mistyped else .ok (isMember container v)
  | "bytes" => if isBytes v then .ok true else .error .mistyped
  | _ => .error .mistyped

/-- Whether the second value stands in the first one: a text in a text, or a value in a container. -/
def standsIn : Value → Value → Except Fault Value
  | .text s, .text t => .ok (.boolean (Text.contains s t))
  | .foreign container, v => (holds container v).map .boolean
  | _, _ => .error .mistyped

/-- The value that a literal stands for. A container of several members is taken for a word, and its quotes are
    looked for. -/
def literalValue : Value → Except Fault Value
  | .text word => .ok (Literal.read word)
  | .foreign object => .error (if object.members.length < 2 then .mistyped else .notText)
  | _ => .error .mistyped

/-- The result of an operation on a list of arguments. -/
def apply : Operation → List Value → Except Fault Value
  | .lower, [v] => mapText Text.lower v
  | .upper, [v] => mapText Text.upper v
  | .byteLength, [v] => measureText Text.byteLength v
  | .startsWith, [v, w] => testText Text.startsWith v w
  | .endsWith, [v, w] => testText Text.endsWith v w
  | .contains, [v, w] => standsIn v w
  | .textForm, [v] => (Text.ofValue v).map .text
  | .squareRoot, [v] => (Arithmetic.squareRoot v).map .integer
  | .power, [v, w] => (Arithmetic.power v w).map .integer
  | .absoluteValue, [v] => Arithmetic.absoluteValue v
  | .maximum, vs => Arithmetic.maximum vs
  | .minimum, vs => Arithmetic.minimum vs
  | .kindName, [v] => .ok (v.kind?.elim .nothing fun kind => .text kind.name)
  | .readLiteral, [v] => literalValue v
  | _, _ => .error .mistyped

end Operation

end Primitives
