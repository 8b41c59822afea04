import Primitives.Context

/-!
Random values from the generator of a context. Requests that need no draw do not look for the context either.
-/
namespace Primitives.Random

/-- The greatest length of a text that can be asked for. -/
def greatestLength : Int := 9223372036854775807

/-- The greatest number of bits that a word to be drawn can have. -/
def greatestWidth : Nat := 2147483647

/-- The fault of a range whose lower bound is above its upper one. -/
def emptyRange (low high : Value) : Except Fault Value := do
  .error (.emptyRange (← low.shown) (← high.shown))

/-- A number from `low` to `high`. Bounds of any type are compared, but nothing can be drawn between others than
    numbers, nor from a range whose size has too many bits, which is found out when the context is there. -/
def integer (low high : Value) (context : Option Handle) : Effect Value :=
  match low.exceeds? high with
  | none => Effect.fail .mistyped
  | some true => Effect.ofExcept (emptyRange low high)
  | some false => do
    let handle ← Context.resolve context
    match low.number?, high.number? with
    | some l, some h =>
      if greatestWidth < Twister.bitLength (h - l + 1).toNat then Effect.fail .rangeTooLarge
      else return .integer (← Context.draw handle fun g => g.between l h)
    | _, _ => Effect.fail .mistyped

/-- Whether a value is a fraction, which counts as a length until symbols are drawn. -/
def isFraction : Value → Bool
  | .foreign object => object.typeName == "float"
  | _ => false

/-- A text of the given number of random symbols. -/
def text (length : Value) (context : Option Handle) : Effect Value :=
  match length.number? with
  | none => do
    if isFraction length then
      let _ ← Context.resolve context
    Effect.fail .mistyped
  | some n =>
    if n ≤ 0 then pure (.text "")
    else do
      let handle ← Context.resolve context
      if greatestLength < n then Effect.fail .lengthTooLarge
      else return .text (String.ofList (← Context.draw handle fun g => g.symbols n.toNat))

/-- Seeds the generator of a context anew. -/
def setSeed (seed : Value) (context : Option Handle) : Effect Unit := do
  let handle ← Context.resolve context
  match Seed.ofValue? seed with
  | some seed => Context.reseed handle seed
  | none => Effect.fail .mistyped

end Primitives.Random
