import Mathlib.Data.List.Induction
import Mathlib.Data.List.Nodup
import Primitives.Registry

/-!
The registry as a table. A look-up finds the definition that was registered last under its name (`get?_ofList`), while
the names stand in the order in which they were registered first (`names_ofList`). The names of an area are those whose
present definition belongs to it (`names_some`), so that each name is listed in one area only.
-/
namespace Primitives.Registry

variable {r : Registry} {d : Definition} {name : String}

theorem names_none (r : Registry) : r.names none = r.definitions.map Definition.name := by
  simp [names]

theorem names_some_eq (r : Registry) (area : Area) :
    r.names (some area) = (r.definitions.filter (·.area == area)).map Definition.name := by
  have same (d : Definition) : (area == d.area) = (d.area == area) := BEq.comm
  simp [names, same]

theorem nodup_names (r : Registry) : (r.names none).Nodup := by
  rw [names_none]
  exact r.distinct

/-- A definition of the table is the one that its name is looked up to. -/
theorem get?_of_mem (member : d ∈ r.definitions) : r.get? d.name = some d := by
  cases found : r.get? d.name with
  | none => simpa using List.find?_eq_none.mp found d member
  | some e =>
    have there : e ∈ r.definitions := List.mem_of_find?_eq_some found
    have named : e.name = d.name := by simpa using List.find?_some found
    rw [List.inj_on_of_nodup_map r.distinct there member named]

theorem has_iff : r.has name = true ↔ name ∈ r.names none := by
  simp [has, get?, names_none, List.find?_isSome]

/-- The names of an area are those of all names whose definition belongs to it. -/
theorem names_some (r : Registry) (area : Area) :
    r.names (some area) = (r.names none).filter fun name => (r.get? name).any (·.area == area) := by
  rw [names_some_eq, names_none, List.filter_map]
  refine congrArg _ (List.filter_congr fun d member => ?_)
  simp [get?_of_mem member]

theorem mem_names_some {area : Area} :
    name ∈ r.names (some area) ↔ ∃ d, r.get? name = some d ∧ d.area = area := by
  rw [names_some, List.mem_filter, ← has_iff, has]
  cases r.get? name with
  | none => simp
  | some d => simp

/-- Each name stands in the listing of one area. -/
theorem existsUnique_area (registered : name ∈ r.names none) : ∃! area, name ∈ r.names (some area) := by
  obtain ⟨d, found⟩ := Option.isSome_iff_exists.mp (has_iff.mpr registered)
  refine ⟨d.area, mem_names_some.mpr ⟨d, found, rfl⟩, fun area listed => ?_⟩
  obtain ⟨e, foundToo, rfl⟩ := mem_names_some.mp listed
  rw [found] at foundToo
  cases foundToo
  rfl

/-! ### Registering -/

/-- Looking for a name in a list, one definition after the other. -/
theorem find?_cons_name (d : Definition) (ds : List Definition) (name : String) :
    (d :: ds).find? (·.name == name) = if d.name = name then some d else ds.find? (·.name == name) := by
  by_cases here : d.name = name
  · rw [List.find?_cons_of_pos (by simpa using here), if_pos here]
  · rw [List.find?_cons_of_neg (by simpa using here), if_neg here]

theorem find?_insert (d : Definition) (ds : List Definition) (name : String) :
    (insert d ds).find? (·.name == name) = if d.name = name then some d else ds.find? (·.name == name) := by
  induction ds with
  | nil => rw [insert, find?_cons_name]
  | cons e rest ih =>
    rw [insert]
    by_cases replaced : e.name = d.name
    · rw [if_pos replaced, find?_cons_name, find?_cons_name, replaced]
      split <;> rfl
    · rw [if_neg replaced, find?_cons_name, find?_cons_name, ih]
      by_cases here : d.name = name
      · have other : ¬ e.name = name := here ▸ replaced
        simp only [here, other, if_true, if_false]
      · simp only [here, if_false]

theorem get?_register (r : Registry) (d : Definition) (name : String) :
    (r.register d).get? name = if d.name = name then some d else r.get? name :=
  find?_insert d r.definitions name

theorem names_register (r : Registry) (d : Definition) :
    (r.register d).names none = if d.name ∈ r.names none then r.names none else r.names none ++ [d.name] := by
  rw [names_none, names_none]
  exact map_name_insert d r.definitions

theorem ofList_append (ds : List Definition) (d : Definition) : ofList (ds ++ [d]) = (ofList ds).register d := by
  simp [ofList]

/-- The names stand in the order of their first registration. -/
theorem names_ofList (ds : List Definition) : (ofList ds).names none = (ds.map Definition.name).eraseDups := by
  induction ds using List.reverseRecOn with
  | nil => rfl
  | append_singleton ds d ih =>
    rw [ofList_append, names_register, ih, List.map_append, List.eraseDups_append]
    by_cases known : d.name ∈ ds.map Definition.name
    · have nothing : [d.name].removeAll (ds.map Definition.name) = [] := by simpa [List.removeAll] using known
      rw [if_pos (List.mem_eraseDups.mpr known), List.map_singleton, nothing, List.eraseDups_nil, List.append_nil]
    · have itself : [d.name].removeAll (ds.map Definition.name) = [d.name] := by simpa [List.removeAll] using known
      rw [if_neg (mt List.mem_eraseDups.mp known), List.map_singleton, itself]
      rfl

/-- A look-up finds what was registered last. -/
theorem get?_ofList (ds : List Definition) (name : String) :
    (ofList ds).get? name = ds.reverse.find? (·.name == name) := by
  induction ds using List.reverseRecOn with
  | nil => rfl
  | append_singleton ds d ih =>
    rw [ofList_append, get?_register, ih, List.reverse_append, List.reverse_singleton, List.singleton_append,
      find?_cons_name]

end Primitives.Registry
