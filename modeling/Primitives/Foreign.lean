/-!
Values from outside the language. Of most of them only the name of their type is known; the answers of a
registry are lists of texts and records, whose members are known too.
-/
namespace Primitives

/-- A value that the language has no kind for. -/
inductive Foreign where
  /-- A value known by the name of its type only. -/
  | named (typeName : String)
  /-- A list of texts. -/
  | texts (items : List String)
  /-- A record with the given keys. -/
  | record (keys : List String)
deriving DecidableEq, Repr

namespace Foreign

def typeName : Foreign → String
  | .named typeName => typeName
  | .texts _ => "list"
  | .record _ => "dict"

/-- The texts that are known to stand in a value. -/
def members : Foreign → List String
  | .named _ => []
  | .texts items => items
  | .record keys => keys

/-- Whether a value is known to hold nothing. -/
def isEmpty : Foreign → Bool
  | .named _ => false
  | .texts items => items.isEmpty
  | .record keys => keys.isEmpty

/-- The types whose values are ordered among themselves. -/
def orderedTypes : List String := ["bytes", "float", "list", "set", "tuple"]

/-- The types whose values cannot be looked up, because they may change. -/
def changingTypes : List String := ["dict", "list", "set"]

/-- Whether a value is above another one, if they can be compared. Lists are ordered like words are, by the
    first difference; two values known by their type only are not told apart. -/
def exceeds? : Foreign → Foreign → Option Bool
  | .texts xs, .texts ys => some (ys < xs)
  | .named t, .named u => if t = u ∧ t ∈ orderedTypes then some false else none
  | _, _ => none

end Foreign

end Primitives
