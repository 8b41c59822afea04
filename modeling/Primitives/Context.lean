import Primitives.Effect

/-!
Making, finding and reseeding contexts. A context without a seed of its own takes the one of the seed
variable, and entropy if that is unset or blank. The default context is made when an operation first needs it.
-/
namespace Primitives

/-- A value as messages and notices show it. -/
def Value.shown : Value → Except Fault String
  | .boolean b => .ok (if b then "True" else "False")
  | .integer n => if Numeral.Writable n then .ok (Numeral.write n) else .error .tooManyDigits
  | .text s => .ok s
  | .nothing => .ok "None"
  | .foreign object => .ok ("[" ++ ", ".intercalate (object.members.map Quoted.write) ++ "]")

namespace Context

/-- The seed that the seed variable gives. -/
def seedOfVariable (content : Option String) : Except Fault Seed :=
  let raw := String.ofList (Character.trim Character.isOuterBlank (content.getD "").toList)
  if raw.isEmpty then .ok .entropy
  else
    match Numeral.read? raw with
    | some n => .ok (.integer n)
    | none => .error (.badSeed raw)

/-- A new generator for a seed. The sign of a number has no influence. -/
def generatorOf : Seed → Effect Twister
  | .entropy => Effect.modifyGet fun host =>
    (Twister.ofKey (host.entropy.key host.entropy.used),
      { host with entropy := { host.entropy with used := host.entropy.used + 1 } })
  | .integer n => pure (Twister.ofNat n.natAbs)
  | .boolean b => pure (Twister.ofNat (if b then 1 else 0))

/-- What is noted when a context has been made. -/
def creationMessage : Seed → Except Fault String
  | .entropy => .ok "Runtime context created, random source seeded from OS entropy"
  | seed => do return "Runtime context created with seed " ++ (← seed.toValue.shown)

/-- Makes a context; the streams given become its own. -/
def create (seed : Seed) (input : Option (List Char)) (output : Option String) : Effect Handle := do
  let seed ← match seed with
    | .entropy => Effect.ofExcept (seedOfVariable (← Effect.host).seedVariable)
    | seed => pure seed
  let message ← Effect.ofExcept (creationMessage seed)
  let generator ← generatorOf seed
  Effect.note .contexts message
  Effect.modifyGet fun host =>
    (host.contexts.length, { host with contexts := host.contexts ++ [⟨seed, generator, input, output⟩] })

/-- The default context, which is made if there is none. -/
def obtainDefault : Effect Handle := do
  match (← Effect.host).defaultContext with
  | some handle => pure handle
  | none =>
    let handle ← create .entropy none none
    Effect.modify fun host => { host with defaultContext := some handle }
    pure handle

/-- Replaces the default context; with none, a later need makes a new one. -/
def setDefault (context : Option Handle) : Effect Unit :=
  Effect.modify fun host => { host with defaultContext := context }

/-- The given context, or else the default one. -/
def resolve : Option Handle → Effect Handle
  | some handle => pure handle
  | none => obtainDefault

/-- Seeds the generator of a context anew. The notice comes last, so that a seed of too many digits is a fault
    after the change. -/
def reseed (handle : Handle) (seed : Seed) : Effect Unit := do
  let generator ← generatorOf seed
  Effect.modify fun host => host.modifyContext handle fun c => { c with seed, generator }
  let shown ← Effect.ofExcept seed.toValue.shown
  Effect.note .contexts ("Random source reseeded with " ++ shown)

/-- Draws from the generator of a context; a context that does not exist has the generator of zero. -/
def draw {α : Type} (handle : Handle) (draws : Twister → α × Twister) : Effect α :=
  Effect.modifyGet fun host =>
    let (a, generator) := draws ((host.contexts[handle]?.map Context.generator).getD (Twister.ofNat 0))
    (a, host.modifyContext handle fun c => { c with generator })

end Context

end Primitives
