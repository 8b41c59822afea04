import Primitives.Foreign

/-!
Values and their kinds. A program handles Booleans, integers of any size and texts. A value from outside
the language has no kind; `Value.nothing` is what an operation without a result gives back.
-/
namespace Primitives

/-- What a parameter or a result is declared to be. No value has the kind `void`, which declares that an
    operation gives nothing back. -/
inductive Kind where
  | integer
  | boolean
  | text
  | void
deriving DecidableEq, Repr

/-- The kinds in the order of their declaration. -/
def Kind.all : List Kind := [.integer, .boolean, .text, .void]

/-- The name of a kind in signatures and messages. -/
def Kind.name : Kind → String
  | .integer => "Integer"
  | .boolean => "Boolean"
  | .text => "Text"
  | .void => "Void"

def Kind.ofName? (name : String) : Option Kind := Kind.all.find? (·.name == name)

inductive Value where
  | boolean (b : Bool)
  | integer (n : Int)
  | text (s : String)
  | nothing
  | foreign (object : Foreign)
deriving DecidableEq, Repr

namespace Value

/-- The kind of a value, if the language has one for it. -/
def kind? : Value → Option Kind
  | .boolean _ => some .boolean
  | .integer _ => some .integer
  | .text _ => some .text
  | .nothing => none
  | .foreign _ => none

/-- How messages speak of a value: by the name of its kind, or of its type when it has no kind. -/
def described : Value → String
  | .boolean _ => Kind.boolean.name
  | .integer _ => Kind.integer.name
  | .text _ => Kind.text.name
  | .nothing => "NoneType"
  | .foreign object => object.typeName

/-- The number that a value counts as in arithmetic; a Boolean counts as 0 or 1. -/
def number? : Value → Option Int
  | .boolean b => some (if b then 1 else 0)
  | .integer n => some n
  | _ => none

/-- Whether a value is above another one, if they can be compared: two numbers, two texts or two foreign values
    that are ordered among themselves. -/
def exceeds? (v w : Value) : Option Bool :=
  match v.number?, w.number? with
  | some m, some n => some (n < m)
  | _, _ =>
    match v, w with
    | .text s, .text t => some (t < s)
    | .foreign a, .foreign b => a.exceeds? b
    | _, _ => none

end Value

end Primitives
