import Primitives.Builtin
import Primitives.Signature

/-!
The registry: a table from names to definitions that keeps the order in which the names came in. Registering a
name again replaces its definition in place. A call is looked up, checked against the parameters, noted and
run.
-/
namespace Primitives

inductive Area where
  | io
  | string
  | math
  | random
deriving DecidableEq, Repr

namespace Area

/-- The areas in the order of listings. -/
def all : List Area := [.io, .string, .math, .random]

def name : Area → String
  | .io => "io"
  | .string => "string"
  | .math => "math"
  | .random => "random"

def ofName? (name : String) : Option Area := all.find? (·.name == name)

end Area

structure Definition where
  name : String
  area : Area
  params : List Param
  returns : Kind
  implementation : Builtin
  usesContext : Bool
deriving DecidableEq, Repr

def Definition.signature (d : Definition) : String :=
  d.name ++ "(" ++ ", ".intercalate (d.params.map Param.signature) ++ ") -> " ++ d.returns.name

/-- An ordered table of definitions with different names. -/
structure Registry where
  definitions : List Definition
  distinct : (definitions.map Definition.name).Nodup

namespace Registry

def empty : Registry := ⟨[], List.nodup_nil⟩

def get? (r : Registry) (name : String) : Option Definition := r.definitions.find? (·.name == name)

def has (r : Registry) (name : String) : Bool := (r.get? name).isSome

/-- The definitions with a new one in the place of that of the same name, or else at the end. -/
def insert (d : Definition) : List Definition → List Definition
  | [] => [d]
  | e :: rest => if e.name = d.name then d :: rest else e :: insert d rest

/-- The names after an insertion are the old ones and, at the end, the new one if it was not among them. -/
theorem map_name_insert (d : Definition) (ds : List Definition) :
    (insert d ds).map Definition.name =
      if d.name ∈ ds.map Definition.name then ds.map Definition.name else ds.map Definition.name ++ [d.name] := by
  induction ds with
  | nil => simp [insert]
  | cons e rest ih =>
    unfold insert
    by_cases same : e.name = d.name
    · simp [same]
    · have other : ¬ d.name = e.name := fun h => same h.symm
      simp only [same, if_false, List.map_cons, ih, List.mem_cons, other, false_or]
      split <;> simp

theorem nodup_map_name_insert (d : Definition) {ds : List Definition} (distinct : (ds.map Definition.name).Nodup) :
    ((insert d ds).map Definition.name).Nodup := by
  rw [map_name_insert]
  split
  · exact distinct
  · next fresh =>
    rw [List.nodup_append]
    refine ⟨distinct, by simp, ?_⟩
    intro name old new isNew same
    simp only [List.mem_singleton] at isNew
    exact fresh (isNew ▸ same ▸ old)

def register (r : Registry) (d : Definition) : Registry :=
  ⟨insert d r.definitions, nodup_map_name_insert d r.distinct⟩

def ofList (ds : List Definition) : Registry := ds.foldl register empty

/-- The registered names, or those of one area, in the order of their first registration. -/
def names (r : Registry) (area : Option Area) : List String :=
  (r.definitions.filter fun d => area.all (· == d.area)).map Definition.name

/-- The definition of a name, if the given arguments fit it. -/
def validateCall (r : Registry) (name : String) (args : List Value) : Except Fault Definition :=
  match r.get? name with
  | none => .error (.notFunction name)
  | some d => do
    Signature.validate name args d.params
    return d

def invoke (r : Registry) (name : String) (args : List Value) (context : Option Handle) : Effect Value := do
  let d ← Effect.ofExcept (r.validateCall name args)
  Effect.note .registry ("Invoking " ++ name ++ " with " ++ Numeral.digits args.length ++ " argument(s)")
  if d.usesContext then d.implementation.callWith args context
  else d.implementation.call args none

end Registry

end Primitives
