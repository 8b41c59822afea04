import Primitives.Member
import Primitives.Standard

/-!
Sessions: runs of steps on one host. A session knows its contexts by names of its own, keeps the results of
its steps for later arguments, and calls names of the standard registry or of one it has made. A step that
ends in a fault does not end the session.
-/
namespace Primitives

/-- An argument of a step: a value, or the result of the step of the given number. -/
inductive Argument where
  | value (v : Value)
  | result (step : Nat)
deriving DecidableEq, Repr

/-- A parameter as a step declares it, by the names of its kinds. -/
structure ParamRequest where
  kinds : List String
  optional : Bool
  variadic : Bool
  name : Option String

/-- A definition as a step declares it, by the names of its area and of its kinds. -/
structure DefinitionRequest where
  name : String
  area : String
  params : List ParamRequest
  returns : String
  implementation : Builtin
  usesContext : Bool

/-- The steps of a session. Contexts are given by the names that the session has for them. -/
inductive Step where
  /-- Makes a context, with streams of its own if asked for. -/
  | create (name : String) (seed : Argument) (input : Option String) (ownOutput : Bool)
  /-- Sets or unsets the seed variable. -/
  | setVariable (content : Option String)
  /-- Replaces the default context. -/
  | setDefault (context : Option String)
  /-- Finds a context and compares it with the default one. -/
  | resolve (context : Option String)
  /-- Seeds the generator of a context anew. -/
  | reseed (context : Option String) (seed : Argument)
  /-- Calls an implementation directly. -/
  | call (implementation : Builtin) (args : List Argument) (context : Option String)
  /-- Calls a registered name. -/
  | invoke (name : String) (args : List Argument) (context : Option String)
  /-- Calls a method of a value. -/
  | method (value : Argument) (name : String) (args : List Argument)
  /-- Reads a property of a value. -/
  | property (value : Argument) (name : String)
  /-- Goes on with a new empty registry, or with the standard one. -/
  | useRegistry (new : Bool)
  /-- Registers a definition. -/
  | register (definition : DefinitionRequest)
  /-- Asks whether a name is registered. -/
  | has (name : String)
  /-- Asks for the definition of a name. -/
  | get (name : String)
  /-- Lists the registered names, or those of one area. -/
  | names (area : Option String)
  /-- Checks a call without running it. -/
  | validateCall (name : String) (args : List Argument)

inductive Answer where
  | value (v : Value)
  | resolved (name : Option String) (seed : Seed) (isDefault : Bool)
  | names (names : List String)
  | definition (definition : Option Definition)

/-- What a later step gets that refers to an answer. -/
def Answer.toValue : Answer → Value
  | .value v => v
  | .resolved _ _ _ => .foreign (.record ["id", "seed", "same"])
  | .names list => .foreign (.texts list)
  | .definition (some _) =>
    .foreign (.record ["name", "module", "params", "return_kind", "uses_context", "signature"])
  | .definition none => .nothing

/-- The output streams: that of the process, and that of a context, by the name of the context. -/
inductive Stream where
  | process
  | context (name : String)
deriving DecidableEq, Repr

/-- How a step ended, what it wrote to which stream, and its notices. -/
structure StepReport where
  result : Except Fault Answer
  written : List (Stream × String)
  log : List Notice

/-- The state of a session. The names of contexts stand with the latest one first. -/
structure Session where
  host : Host
  contexts : List (String × Handle)
  standard : Registry
  made : Option Registry
  results : List Value

namespace Session

def start (host : Host) : Session := ⟨host, [], Standard.registry, none, []⟩

def registry (s : Session) : Registry := s.made.getD s.standard

/-- The session with a change of the registry in use. -/
def updateRegistry (s : Session) (r : Registry) : Session :=
  match s.made with
  | some _ => { s with made := some r }
  | none => { s with standard := r }

/-- The value of an argument; a step without a result gives none. -/
def evaluate (s : Session) : Argument → Value
  | .value v => v
  | .result step => s.results.getD step .nothing

def context? (s : Session) (name : Option String) : Option Handle := name.bind fun name => s.contexts.lookup name

/-- The name of a context, if a step has made it. -/
def nameOf? (s : Session) (handle : Handle) : Option String := (s.contexts.find? (·.2 == handle)).map Prod.fst

def seedOf (handle : Handle) : Effect Seed := do
  return ((← Effect.host).contexts[handle]?.map Context.seed).getD .entropy

def areaOf (name : String) : Except Fault Area :=
  match Area.ofName? name with
  | some area => .ok area
  | none => .error (.unknownArea name)

def kindOf (name : String) : Except Fault Kind :=
  match Kind.ofName? name with
  | some kind => .ok kind
  | none => .error (.unknownKind name)

def paramOf (request : ParamRequest) : Except Fault Param := do
  return ⟨← request.kinds.mapM kindOf, request.optional, request.variadic, request.name⟩

/-- The definition that a request declares: the area is looked up first, then the parameters, then the kind of
    the result. -/
def definitionOf (request : DefinitionRequest) : Except Fault Definition := do
  let area ← areaOf request.area
  let params ← request.params.mapM paramOf
  let returns ← kindOf request.returns
  return ⟨request.name, area, params, returns, request.implementation, request.usesContext⟩

/-- The effect of a step on the host, and its answer. Steps on registries only look. -/
def effectOf (s : Session) : Step → Effect Answer
  | .create _ seed input ownOutput => do
    match Seed.ofValue? (s.evaluate seed) with
    | some seed =>
      let handle ← Context.create seed (input.map String.toList) (if ownOutput then some "" else none)
      return .value (← seedOf handle).toValue
    | none => Effect.fail .mistyped
  | .setVariable content => do
    Effect.modify fun host => { host with seedVariable := content }
    return .value .nothing
  | .setDefault name => do
    Context.setDefault (s.context? name)
    return .value .nothing
  | .resolve name => do
    let handle ← Context.resolve (s.context? name)
    let standing ← Context.resolve none
    return .resolved (s.nameOf? handle) (← seedOf handle) (handle == standing)
  | .reseed name seed => do
    let handle ← Context.resolve (s.context? name)
    match Seed.ofValue? (s.evaluate seed) with
    | some seed =>
      Context.reseed handle seed
      return .value (← seedOf handle).toValue
    | none => Effect.fail .mistyped
  | .call implementation args name =>
    return .value (← implementation.call (args.map s.evaluate) (s.context? name))
  | .invoke name args context =>
    return .value (← s.registry.invoke name (args.map s.evaluate) (s.context? context))
  | .method v name args => do
    return .value (← Effect.ofExcept (Member.callMethod (s.evaluate v) name (args.map s.evaluate)))
  | .property v name => do
    return .value (← Effect.ofExcept (Member.getProperty (s.evaluate v) name))
  | .useRegistry new => pure (.value (.integer (if new then 0 else (s.standard.names none).length)))
  | .register request => do
    let _ ← Effect.ofExcept (definitionOf request)
    return .value .nothing
  | .has name => pure (.value (.boolean (s.registry.has name)))
  | .get name => pure (.definition (s.registry.get? name))
  | .names area => do
    let area ← match area with
      | some name => some <$> Effect.ofExcept (areaOf name)
      | none => pure none
    return .names (s.registry.names area)
  | .validateCall name args => do
    let d ← Effect.ofExcept (s.registry.validateCall name (args.map s.evaluate))
    return .value (.text d.signature)

/-- What a step that ended well changes besides the host: the names of contexts, and the registries. -/
def settled (s : Session) (host : Host) : Step → Session
  | .create name _ _ _ => { s with contexts := (name, host.contexts.length - 1) :: s.contexts }
  | .useRegistry new => { s with made := if new then some .empty else none }
  | .register request =>
    match definitionOf request with
    | .ok d => s.updateRegistry (s.registry.register d)
    | .error _ => s
  | _ => s

/-- What has been added to a text. -/
def added (before after : String) : String := String.ofList (after.toList.drop before.length)

/-- The output of a context's own stream so far. -/
def outputOf (host : Host) (handle : Handle) : String := (host.contexts[handle]?.bind Context.output).getD ""

/-- What was written to the streams between two states of the host; streams without a change are left out. -/
def written (contexts : List (String × Handle)) (before after : Host) : List (Stream × String) :=
  let own := contexts.map fun (name, handle) =>
    (Stream.context name, added (outputOf before handle) (outputOf after handle))
  ((Stream.process, added before.output after.output) :: own).filter (!·.2.isEmpty)

def step (s : Session) (st : Step) : StepReport × Session :=
  let outcome := s.effectOf st s.host
  let s' :=
    match outcome.result with
    | .ok answer => { s.settled outcome.host st with host := outcome.host, results := s.results ++ [answer.toValue] }
    | .error _ => { s with host := outcome.host, results := s.results ++ [.nothing] }
  (⟨outcome.result, written s'.contexts s.host outcome.host, outcome.log⟩, s')

def run (s : Session) : List Step → List StepReport × Session
  | [] => ([], s)
  | st :: rest =>
    let (report, s) := s.step st
    let (reports, s) := s.run rest
    (report :: reports, s)

end Session

end Primitives
