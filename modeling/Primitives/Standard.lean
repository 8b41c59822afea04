import Primitives.Registry

/-!
The standard definitions, area by area.
-/
namespace Primitives.Standard

def anInteger : Param := .ofKinds [.integer]

def aText : Param := .ofKinds [.text]

def integers : Param := { anInteger with variadic := true }

/-- Any number of values that have a text form. -/
def printables : Param := ⟨[.text, .boolean, .integer], true, true, none⟩

def console : List Definition :=
  [ ⟨"print", .io, [printables], .void, .contextual .print, true⟩,
    ⟨"input", .io, [{ aText with optional := true }], .text, .contextual .readLine, true⟩ ]

def texts : List Definition :=
  [ ⟨"to_string", .string, [.ofKinds [.integer, .boolean]], .text, .plain .textForm, false⟩,
    ⟨"strlen", .string, [aText], .integer, .plain .byteLength, false⟩,
    ⟨"lower", .string, [aText], .text, .plain .lower, false⟩,
    ⟨"upper", .string, [aText], .text, .plain .upper, false⟩,
    ⟨"starts_with", .string, [aText, aText], .boolean, .plain .startsWith, false⟩,
    ⟨"ends_with", .string, [aText, aText], .boolean, .plain .endsWith, false⟩,
    ⟨"contains", .string, [aText, aText], .boolean, .plain .contains, false⟩ ]

def arithmetic : List Definition :=
  [ ⟨"sqrt", .math, [anInteger], .integer, .plain .squareRoot, false⟩,
    ⟨"pow", .math, [anInteger, anInteger], .integer, .plain .power, false⟩,
    ⟨"abs", .math, [anInteger], .integer, .plain .absoluteValue, false⟩,
    ⟨"max", .math, [integers], .integer, .plain .maximum, false⟩,
    ⟨"min", .math, [integers], .integer, .plain .minimum, false⟩ ]

def random : List Definition :=
  [ ⟨"random_int", .random, [anInteger, anInteger], .integer, .contextual .randomInteger, true⟩,
    ⟨"random_string", .random, [anInteger], .text, .contextual .randomText, true⟩ ]

def definitions : List Definition := console ++ texts ++ arithmetic ++ random

def registry : Registry := .ofList definitions

end Primitives.Standard
