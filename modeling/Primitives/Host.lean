import Primitives.Text
import Primitives.Line
import Primitives.Random.Draw

/-!
The state that operations share. A context owns a generator and knows its seed; its streams are its own or
those of the process. The host holds the streams of the process, the seed variable of its environment, all
contexts made so far and which of them is the default.
-/
namespace Primitives

/-- Where a generator got its state from. A Boolean seed seeds like the number it counts as. -/
inductive Seed where
  | entropy
  | integer (n : Int)
  | boolean (b : Bool)
deriving DecidableEq, Repr

namespace Seed

/-- The seed that a value stands for; the value for nothing stands for entropy. Seeds that are texts, floats or bytes are
    left out: such a value is no seed here. -/
def ofValue? : Value → Option Seed
  | .nothing => some .entropy
  | .integer n => some (.integer n)
  | .boolean b => some (.boolean b)
  | .text _ => none
  | .foreign _ => none

/-- The value that stands for a seed. -/
def toValue : Seed → Value
  | .entropy => .nothing
  | .integer n => .integer n
  | .boolean b => .boolean b

end Seed

/-- A source of keys that no two generators share. -/
structure Entropy where
  key : Nat → List UInt32
  used : Nat

/-- A generator with its seed, and the streams that are the context's own. -/
structure Context where
  seed : Seed
  generator : Twister
  input : Option (List Char)
  output : Option String

/-- The place of a context among those of the host. -/
abbrev Handle := Nat

structure Host where
  seedVariable : Option String
  entropy : Entropy
  input : List Char
  output : String
  contexts : List Context
  defaultContext : Option Handle

namespace Host

def fresh (seedVariable : Option String) (entropy : Entropy) (input : String) : Host :=
  ⟨seedVariable, entropy, input.toList, "", [], none⟩

def modifyContext (host : Host) (handle : Handle) (change : Context → Context) : Host :=
  { host with contexts := host.contexts.modify handle change }

/-- Writes to the output of a context. -/
def write (host : Host) (handle : Handle) (text : String) : Host :=
  match host.contexts[handle]?.bind Context.output with
  | some _ => host.modifyContext handle fun c => { c with output := c.output.map (· ++ text) }
  | none => { host with output := host.output ++ text }

/-- Takes the next line, with its terminator, from the input of a context. -/
def takeLine (host : Host) (handle : Handle) : List Char × Host :=
  match host.contexts[handle]?.bind Context.input with
  | some input =>
    let (line, rest) := Line.split input
    (line, host.modifyContext handle fun c => { c with input := some rest })
  | none =>
    let (line, rest) := Line.split host.input
    (line, { host with input := rest })

end Host

end Primitives
