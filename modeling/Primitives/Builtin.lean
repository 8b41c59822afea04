import Primitives.Operation
import Primitives.Console
import Primitives.Random

/-!
The implementations that names can be registered for: the operations without side effects, and those that use
a context.
-/
namespace Primitives

inductive ContextOperation where
  | print
  | readLine
  | randomInteger
  | randomText
  | setSeed
deriving DecidableEq, Repr

/-- Runs an operation in the given context, or else in the default one. -/
def ContextOperation.run : ContextOperation → List Value → Option Handle → Effect Value
  | .print, values, context => do
    Console.print values context
    return .nothing
  | .readLine, [], context => return .text (← Console.readLine (.text "") context)
  | .readLine, [prompt], context => return .text (← Console.readLine prompt context)
  | .randomInteger, [low, high], context => Random.integer low high context
  | .randomText, [length], context => Random.text length context
  | .setSeed, [seed], context => do
    Random.setSeed seed context
    return .nothing
  | _, _, _ => Effect.fail .mistyped

inductive Builtin where
  | plain (operation : Operation)
  | contextual (operation : ContextOperation)
deriving DecidableEq, Repr

namespace Builtin

/-- Calls an implementation; only those that use a context look at it. -/
def call : Builtin → List Value → Option Handle → Effect Value
  | .plain operation, args, _ => Effect.ofExcept (operation.apply args)
  | .contextual operation, args, context => operation.run args context

/-- Calls an implementation and hands it a context, which is a fault if it does not use one. -/
def callWith : Builtin → List Value → Option Handle → Effect Value
  | .plain _, _, _ => Effect.fail .mistyped
  | .contextual operation, args, context => operation.run args context

end Builtin

end Primitives
