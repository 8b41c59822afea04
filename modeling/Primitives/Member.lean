import Primitives.Operation
import Primitives.Signature

/-!
Methods and properties of a value. Only texts have any.
-/
namespace Primitives.Member

/-- The methods of the values of a kind; none of them takes further arguments. -/
def methods : Kind → List (String × Operation)
  | .text => [("upper", .upper), ("lower", .lower)]
  | _ => []

/-- The properties of the values of a kind. -/
def properties : Kind → List (String × Operation)
  | .text => [("len", .byteLength)]
  | _ => []

def callMethod (v : Value) (name : String) (args : List Value) : Except Fault Value :=
  match v.kind?.bind fun kind => (methods kind).lookup name with
  | none => .error (.notMethod name v.described)
  | some operation => do
    Signature.validate name args []
    operation.apply (v :: args)

def getProperty (v : Value) (name : String) : Except Fault Value :=
  match v.kind?.bind fun kind => (properties kind).lookup name with
  | none => .error (.notProperty name v.described)
  | some operation => operation.apply [v]

end Primitives.Member
