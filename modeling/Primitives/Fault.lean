import Primitives.Value
import Primitives.Numeral
import Primitives.Quoted

/-!
What can go wrong. A `Fault` is a cause; its `report` gives the class of the error, its message and the
operation that the message is filed under. Error classes form a small hierarchy: the classes of the library
also belong to one of the general classes of errors.
-/
namespace Primitives

/-- The classes of errors. The first four are the library's own. -/
inductive ErrorClass where
  | library
  | domain
  | invalidArgument
  | integerOverflow
  | value
  | overflow
  | arithmetic
  | type
  | attribute
deriving DecidableEq, Repr

namespace ErrorClass

/-- The classes that an error of the given class belongs to, its own first. -/
def lineage : ErrorClass → List ErrorClass
  | .library => [.library]
  | .domain => [.domain, .library, .value]
  | .invalidArgument => [.invalidArgument, .library, .value]
  | .integerOverflow => [.integerOverflow, .library, .overflow, .arithmetic]
  | .value => [.value]
  | .overflow => [.overflow, .arithmetic]
  | .arithmetic => [.arithmetic]
  | .type => [.type]
  | .attribute => [.attribute]

/-- Whether every error of the first class is an error of the second one. -/
def isA (c d : ErrorClass) : Bool := c.lineage.contains d

end ErrorClass

/-- An error as it is shown: its class, its message and the operation it is filed under, if any. -/
structure Report where
  errorClass : ErrorClass
  message : String
  function : Option String
deriving DecidableEq, Repr

/-- The full text of an error: the message after the operation in brackets, unless that is missing or empty. -/
def Report.text (report : Report) : String :=
  match report.function with
  | none => report.message
  | some function => if function.isEmpty then report.message else "[" ++ function ++ "] " ++ report.message

inductive Fault where
  /-- The square root of a negative number. -/
  | negativeRoot (x : Int)
  /-- Zero to a negative power. -/
  | zeroToNegativePower
  /-- A number outside the integer range, as an operand or as an intermediate result. -/
  | outsideRange (function : String) (value : Int)
  /-- A power that is known to leave the range before it is formed. -/
  | powerOutsideRange (base exponent : Int)
  /-- The least integer, whose absolute value lies outside the range. -/
  | absoluteValue (x : Int)
  /-- An extremum of nothing. -/
  | noOperands (function : String)
  /-- A random number below its lower bound; the bounds are given by their texts. -/
  | emptyRange (low high : String)
  /-- A random text longer than any that can be asked for. -/
  | lengthTooLarge
  /-- A range of more numbers than can be drawn from. -/
  | rangeTooLarge
  /-- A value that has no text form. -/
  | noTextForm (typeName : String)
  /-- An integer of more digits than a numeral may have. -/
  | tooManyDigits
  /-- A name that is not registered. -/
  | notFunction (name : String)
  /-- Fewer arguments than required parameters. -/
  | tooFewArguments (name : String) (required given : Nat)
  /-- More arguments than parameters. -/
  | tooManyArguments (name : String) (allowed given : Nat)
  /-- An argument of a kind that its parameter does not allow. -/
  | wrongKind (argument name : String) (kinds : List Kind) (got : String)
  /-- An integer argument outside the integer range. -/
  | argumentOutsideRange (argument name : String) (value : Int)
  /-- A name that is no method of the values of a type. -/
  | notMethod (name owner : String)
  /-- A name that is no property of the values of a type. -/
  | notProperty (name owner : String)
  /-- A seed variable that is no numeral. -/
  | badSeed (raw : String)
  /-- A name that is no area of the library. -/
  | unknownArea (name : String)
  /-- A name that is no kind. -/
  | unknownKind (name : String)
  /-- A call with the wrong number of arguments, or with a value of the wrong type. -/
  | mistyped
  /-- A text operation on a value that is no text. -/
  | notText
deriving DecidableEq, Repr

/-- The least number of the integer range. -/
def leastInteger : Int := -2147483648

/-- The greatest number of the integer range. -/
def greatestInteger : Int := 2147483647

namespace Fault

/-- The integer range as messages show it. -/
def rangeText : String := "[" ++ Numeral.write leastInteger ++ ", " ++ Numeral.write greatestInteger ++ "]"

/-- The class, message and operation of a fault. -/
def report : Fault → Report
  | .negativeRoot x => ⟨.domain, "square root of negative number " ++ Numeral.write x, some "sqrt"⟩
  | .zeroToNegativePower => ⟨.domain, "zero cannot be raised to a negative power", some "pow"⟩
  | .outsideRange function value =>
    ⟨.integerOverflow, "value " ++ Numeral.write value ++ " is outside the integer range " ++ rangeText,
      some function⟩
  | .powerOutsideRange base exponent =>
    ⟨.integerOverflow,
      Numeral.write base ++ " ** " ++ Numeral.write exponent ++ " is outside the integer range", some "pow"⟩
  | .absoluteValue x =>
    ⟨.integerOverflow, "absolute value of " ++ Numeral.write x ++ " is not representable", some "abs"⟩
  | .noOperands function => ⟨.invalidArgument, "expects at least 1 argument(s), got 0", some function⟩
  | .emptyRange low high =>
    ⟨.invalidArgument, "empty range: low " ++ low ++ " is greater than high " ++ high, some "random_int"⟩
  | .lengthTooLarge => ⟨.overflow, "", none⟩
  | .rangeTooLarge => ⟨.overflow, "", none⟩
  | .noTextForm typeName => ⟨.invalidArgument, "cannot convert " ++ typeName ++ " to text", some "to_string"⟩
  | .tooManyDigits =>
    ⟨.value, "Exceeds the limit (4300 digits) for integer string conversion; " ++
      "use sys.set_int_max_str_digits() to increase the limit", none⟩
  | .notFunction name => ⟨.invalidArgument, name ++ " is not a function", none⟩
  | .tooFewArguments name required given =>
    ⟨.invalidArgument, name ++ " expects at least " ++ Numeral.digits required ++ " argument(s), got " ++
      Numeral.digits given, none⟩
  | .tooManyArguments name allowed given =>
    ⟨.invalidArgument, name ++ " expects at most " ++ Numeral.digits allowed ++ " argument(s), got " ++
      Numeral.digits given, none⟩
  | .wrongKind argument name kinds got =>
    ⟨.invalidArgument, "Argument " ++ argument ++ " of " ++ name ++ " must be " ++
      " or ".intercalate (kinds.map Kind.name) ++ ", got " ++ got, none⟩
  | .argumentOutsideRange argument name value =>
    ⟨.invalidArgument, "Argument " ++ argument ++ " of " ++ name ++ " must be Integer in range " ++ rangeText ++
      ", got " ++ Numeral.write value, none⟩
  | .notMethod name owner => ⟨.invalidArgument, name ++ " is not a method of " ++ owner, none⟩
  | .notProperty name owner => ⟨.invalidArgument, name ++ " is not a property of " ++ owner, none⟩
  | .badSeed raw => ⟨.invalidArgument, "PRIMLIB_SEED must be an integer, got " ++ Quoted.write raw, none⟩
  | .unknownArea name => ⟨.value, Quoted.write name ++ " is not a valid StdModule", none⟩
  | .unknownKind name => ⟨.value, Quoted.write name ++ " is not a valid ValueKind", none⟩
  | .mistyped => ⟨.type, "", none⟩
  | .notText => ⟨.attribute, "", none⟩

def errorClass (fault : Fault) : ErrorClass := fault.report.errorClass

/-- The full text of a fault's error. -/
def text (fault : Fault) : String := fault.report.text

/-- The fault whose message shows the integer `n`: if that has too many digits to be written, this is what
    is reported instead. -/
def showing (n : Int) (fault : Fault) : Fault := if Numeral.Writable n then fault else .tooManyDigits

end Fault

end Primitives
