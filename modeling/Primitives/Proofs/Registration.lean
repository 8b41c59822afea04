import Primitives.Proofs.Listing
import Primitives.Proofs.Session

/-!
Registries are what has been registered into them. In a session the standard registry and one that was made are kept
apart: both are given by the definitions that were registered while they were in use (`agrees_run`). The main statement
says what a registry looks like after any registrations, in its look-ups, in its names and in its listing.
-/
namespace Primitives

namespace Session

/-- The definitions that have been registered into the standard registry, and into the one made last. -/
structure Ledger where
  standard : List Definition
  made : Option (List Definition)

namespace Ledger

def initial : Ledger := ⟨Standard.definitions, none⟩

/-- A definition is registered into the registry in use. -/
def enter (ledger : Ledger) (d : Definition) : Ledger :=
  match ledger.made with
  | some ds => { ledger with made := some (ds ++ [d]) }
  | none => { ledger with standard := ledger.standard ++ [d] }

def record (ledger : Ledger) : Step → Ledger
  | .useRegistry new => { ledger with made := if new then some [] else none }
  | .register request =>
    match definitionOf request with
    | .ok d => ledger.enter d
    | .error _ => ledger
  | _ => ledger

end Ledger

/-- The registries of a session hold what the ledger says. -/
structure Agrees (s : Session) (ledger : Ledger) : Prop where
  standard : s.standard = .ofList ledger.standard
  made : s.made = ledger.made.map .ofList

variable {s : Session} {ledger : Ledger}

theorem step_useRegistry (s : Session) (new : Bool) :
    (s.step (.useRegistry new)).2.standard = s.standard ∧
    (s.step (.useRegistry new)).2.made = if new then some .empty else none := ⟨rfl, rfl⟩

/-- A definition is registered into the registry in use and leaves the other one alone. -/
theorem step_register (s : Session) (request : DefinitionRequest) :
    (s.step (.register request)).2.standard =
      (match definitionOf request, s.made with
      | .ok d, none => s.standard.register d
      | _, _ => s.standard) ∧
    (s.step (.register request)).2.made =
      (match definitionOf request with
      | .ok d => s.made.map (·.register d)
      | .error _ => s.made) := by
  cases asked : definitionOf request with
  | error fault => simp [step, effectOf, asked]
  | ok d =>
    have ended : (s.effectOf (.register request) s.host).result = .ok (.value .nothing) := by
      simp [effectOf, asked]
    simp only [step, ended, settled, asked, updateRegistry, registry]
    cases s.made <;> exact ⟨rfl, rfl⟩

theorem step_of_lookup {st : Step} (noChoice : ∀ new, st ≠ .useRegistry new)
    (noEntry : ∀ request, st ≠ .register request) :
    (s.step st).2.standard = s.standard ∧ (s.step st).2.made = s.made := by
  have settles (host : Host) : (s.settled host st).standard = s.standard ∧ (s.settled host st).made = s.made := by
    cases st with
    | useRegistry new => exact absurd rfl (noChoice new)
    | register request => exact absurd rfl (noEntry request)
    | _ => exact ⟨rfl, rfl⟩
  simp only [step]
  split
  · exact settles _
  · exact ⟨rfl, rfl⟩

theorem agrees_step (agrees : s.Agrees ledger) (st : Step) : (s.step st).2.Agrees (ledger.record st) := by
  by_cases choice : ∃ new, st = .useRegistry new
  · obtain ⟨new, rfl⟩ := choice
    obtain ⟨standard, made⟩ := step_useRegistry s new
    refine ⟨standard.trans agrees.standard, ?_⟩
    rw [made, Ledger.record]
    cases new <;> rfl
  · by_cases entry : ∃ request, st = .register request
    · obtain ⟨request, rfl⟩ := entry
      obtain ⟨standard, made⟩ := step_register s request
      cases asked : definitionOf request with
      | error fault =>
        simp only [asked] at standard made
        simp only [Ledger.record, asked]
        exact ⟨standard.trans agrees.standard, made.trans agrees.made⟩
      | ok d =>
        simp only [asked, agrees.standard, agrees.made] at standard made
        simp only [Ledger.record, asked, Ledger.enter]
        cases kept : ledger.made with
        | none =>
          simp only [kept, Option.map_none] at standard made
          exact ⟨by rw [standard, Registry.ofList_append], by simp [made]⟩
        | some ds =>
          simp only [kept, Option.map_some] at standard made
          exact ⟨standard, by simp [made, Registry.ofList_append]⟩
    · have noChoice : ∀ new, st ≠ .useRegistry new := fun new same => choice ⟨new, same⟩
      have noEntry : ∀ request, st ≠ .register request := fun request same => entry ⟨request, same⟩
      obtain ⟨standard, made⟩ := step_of_lookup (s := s) noChoice noEntry
      have unchanged : ledger.record st = ledger := by
        cases st with
        | useRegistry new => exact absurd rfl (noChoice new)
        | register request => exact absurd rfl (noEntry request)
        | _ => rfl
      rw [unchanged]
      exact ⟨standard.trans agrees.standard, made.trans agrees.made⟩

/-- After any steps the registries are what the ledger of these steps says. -/
theorem agrees_run (agrees : s.Agrees ledger) (steps : List Step) :
    (s.run steps).2.Agrees (steps.foldl Ledger.record ledger) := by
  induction steps generalizing s ledger with
  | nil => exact agrees
  | cons st rest ih => exact ih (agrees_step agrees st)

end Session

namespace Registry

theorem validateCall_ofList (ds : List Definition) (name : String) (args : List Value) :
    (ofList ds).validateCall name args =
      match ds.reverse.find? (·.name == name) with
      | none => .error (.notFunction name)
      | some d => (Signature.validate name args d.params).map fun _ => d := by
  rw [validateCall, get?_ofList]
  cases ds.reverse.find? (·.name == name) with
  | none => rfl
  | some d => cases Signature.validate name args d.params <;> rfl

open CommandLine in
/-- A registry is a faithful ordered table. Its names are different from each other and stand in the order in which
    they were registered first; look-ups and checks use the definition that was registered last. Each name is listed in
    one area, that of its present definition, and the listing of all areas has one line for each definition. In a session
    the registries hold what was registered into them and nothing else. -/
theorem ofList_faithful (ds : List Definition) (colors : Bool) :
    let r := ofList ds
    (r.names none).Nodup ∧
    r.names none = (ds.map Definition.name).eraseDups ∧
    (∀ name, r.has name = true ↔ name ∈ ds.map Definition.name) ∧
    (∀ name, r.get? name = ds.reverse.find? (·.name == name)) ∧
    (∀ name args, r.validateCall name args =
      match ds.reverse.find? (·.name == name) with
      | none => .error (.notFunction name)
      | some d => (Signature.validate name args d.params).map fun _ => d) ∧
    (∀ area, r.names (some area) = (r.names none).filter fun name => (r.get? name).any (·.area == area)) ∧
    (∀ name ∈ r.names none, ∃! area, name ∈ r.names (some area)) ∧
    (listing colors r none = String.join ((listedLines colors r none).map (· ++ "\n")) ∧
      (∀ name d, r.get? name = some d → (listedLines colors r none).count (entry d) = 1) ∧
      ((∀ name ∈ r.names none, Text.Lacks '\n' name) →
        (listing colors r none).toList.splitOn '\n' = (listedLines colors r none).map String.toList ++ [[]])) ∧
    (∀ (host : Host) (steps : List Step),
      ((Session.start host).run steps).2.Agrees (steps.foldl Session.Ledger.record .initial)) ∧
    (∀ (s : Session) (request : DefinitionRequest),
      (s.made.isSome → (s.step (.register request)).2.standard = s.standard) ∧
      (s.made = none → (s.step (.register request)).2.made = none)) := by
  intro r
  refine ⟨nodup_names r, names_ofList ds, fun name => ?_, get?_ofList ds, validateCall_ofList ds, names_some r,
    fun name => existsUnique_area, ⟨listing_eq colors r none, fun name d found => ?_, fun unbroken => ?_⟩,
    fun host steps => ?_, fun s request => ⟨fun using_ => ?_, fun unused => ?_⟩⟩
  · rw [has_iff, names_ofList, List.mem_eraseDups]
  · exact count_entry colors r (List.mem_of_find?_eq_some found)
  · exact splitOn_listing colors r unbroken none
  · exact Session.agrees_run ⟨rfl, rfl⟩ steps
  · obtain ⟨made, there⟩ := Option.isSome_iff_exists.mp using_
    rw [(Session.step_register s request).1, there]
    split
    · next impossible => cases impossible
    · rfl
  · rw [(Session.step_register s request).2, unused]
    split <;> rfl

/-- The name `print` is registered again in another area: it keeps its place, is listed in the new area only, and is
    looked up to the new definition. -/
theorem ofList_faithful_moved :
    let moved : Definition := ⟨"print", .math, [], .void, .contextual .print, true⟩
    let r := ofList (Standard.definitions ++ [moved])
    (r.names none).head? = some "print" ∧ r.get? "print" = some moved ∧ "print" ∉ r.names (some .io) ∧
    (CommandLine.listedLines true r none).count "  print() -> Void" = 1 := by
  intro moved r
  obtain ⟨_, _, _, looked, _, _, single, ⟨_, counted, _⟩, _⟩ := ofList_faithful (Standard.definitions ++ [moved]) true
  have found : r.get? "print" = some moved := by rw [looked]; decide
  refine ⟨by decide, found, fun listed => ?_, counted "print" moved found⟩
  have unique := single "print" (by decide)
  have same : Area.io = .math := unique.unique listed (by decide)
  cases same

end Registry

end Primitives
