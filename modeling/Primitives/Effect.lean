import Primitives.Host

/-!
Effects: computations on a host that end in a value or in a fault and leave notices for the debug log. A fault
ends the computation and keeps what had been done before it.
-/
namespace Primitives

/-- The parts of the library that write to the debug log. -/
inductive Source where
  | contexts
  | registry
deriving DecidableEq, Repr

/-- The name of a source in the debug log. -/
def Source.name : Source → String
  | .contexts => "primlib.runtime.context"
  | .registry => "primlib.runtime.registry"

structure Notice where
  source : Source
  message : String
deriving DecidableEq, Repr

/-- A notice as the debug log shows it. -/
def Notice.text (notice : Notice) : String := "[DEBUG] " ++ notice.source.name ++ ": " ++ notice.message

/-- How a computation ended, the host it left and its notices. -/
structure Outcome (α : Type) where
  result : Except Fault α
  host : Host
  log : List Notice

def Effect (α : Type) : Type := Host → Outcome α

namespace Effect

variable {α β : Type}

def pure (a : α) : Effect α := fun host => ⟨.ok a, host, []⟩

/-- Continues with the value of a computation, unless that ended in a fault. -/
def bind (first : Effect α) (next : α → Effect β) : Effect β := fun host =>
  let outcome := first host
  match outcome.result with
  | .error fault => ⟨.error fault, outcome.host, outcome.log⟩
  | .ok a =>
    let final := next a outcome.host
    ⟨final.result, final.host, outcome.log ++ final.log⟩

instance : Monad Effect where
  pure := Effect.pure
  bind := Effect.bind

def fail (fault : Fault) : Effect α := fun host => ⟨.error fault, host, []⟩

/-- A result that does not depend on the host. -/
def ofExcept (result : Except Fault α) : Effect α := fun host => ⟨result, host, []⟩

def host : Effect Host := fun host => ⟨.ok host, host, []⟩

def modify (change : Host → Host) : Effect Unit := fun host => ⟨.ok (), change host, []⟩

/-- Changes the host and gives what the change yields. -/
def modifyGet (change : Host → α × Host) : Effect α := fun host =>
  let (a, host) := change host
  ⟨.ok a, host, []⟩

def note (source : Source) (message : String) : Effect Unit := fun host => ⟨.ok (), host, [⟨source, message⟩]⟩

end Effect

end Primitives
