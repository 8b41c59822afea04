import Primitives.Arithmetic

/-!
Parameters of an operation, and the check of a call against them. The number of arguments is checked first,
then the arguments from left to right, each for its kind and, if it is an integer, for the integer range.
Arguments past the last parameter belong to that parameter when it is variadic.
-/
namespace Primitives

/-- A declared parameter. Messages name it by its position when it has no name. -/
structure Param where
  kinds : List Kind
  optional : Bool
  variadic : Bool
  name : Option String
deriving DecidableEq, Repr

namespace Param

/-- A required parameter that takes one argument of the given kinds. -/
def ofKinds (kinds : List Kind) : Param := ⟨kinds, false, false, none⟩

/-- The name of a parameter in messages, or else its position, counted from 1. -/
def label (p : Param) (index : Nat) : String :=
  match p.name with
  | some name => if name.isEmpty then Numeral.digits (index + 1) else name
  | none => Numeral.digits (index + 1)

/-- Whether the kind of a value is among those of the parameter. -/
def allows (p : Param) (v : Value) : Bool :=
  match v.kind? with
  | some kind => p.kinds.contains kind
  | none => false

def signature (p : Param) : String :=
  (if p.variadic then "..." else "") ++ " | ".intercalate (p.kinds.map Kind.name) ++
    (if p.optional then "?" else "")

end Param

namespace Signature

/-- The number of arguments that cannot be left out. -/
def required (params : List Param) : Nat := params.countP (!·.optional)

/-- Whether the last parameter takes all further arguments. -/
def isVariadic (params : List Param) : Bool := params.getLast?.any Param.variadic

/-- The parameter that an argument belongs to: the one at its position, or the last one past the end. -/
def paramAt? (params : List Param) (index : Nat) : Option Param := params[index]? <|> params.getLast?

def checkArgument (name : String) (index : Nat) (p : Param) (v : Value) : Except Fault Unit :=
  if !p.allows v then .error (.wrongKind (p.label index) name p.kinds v.described)
  else
    match v with
    | .integer n =>
      if Arithmetic.InRange n then .ok ()
      else .error (Fault.showing n (.argumentOutsideRange (p.label index) name n))
    | _ => .ok ()

/-- Checks the arguments from the given position on. -/
def checkFrom (name : String) (params : List Param) : Nat → List Value → Except Fault Unit
  | _, [] => .ok ()
  | index, v :: rest => do
    match paramAt? params index with
    | some p => checkArgument name index p v
    | none => .ok ()
    checkFrom name params (index + 1) rest

/-- Checks the arguments of a call of `name` against its parameters. -/
def validate (name : String) (args : List Value) (params : List Param) : Except Fault Unit :=
  if args.length < required params then
    .error (.tooFewArguments name (required params) args.length)
  else if !isVariadic params && params.length < args.length then
    .error (.tooManyArguments name params.length args.length)
  else checkFrom name params 0 args

end Signature

end Primitives
