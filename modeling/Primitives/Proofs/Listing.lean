import Mathlib.Data.List.Perm.Basic
import Primitives.CommandLine.Program
import Primitives.Proofs.Absence
import Primitives.Proofs.Registry

/-!
The listing of a registry, line by line (`listing_eq`). Signatures of different names differ, because the parameters hold
no parenthesis (`name_of_signature`), and every definition belongs to one area, so that a listing of all areas shows each
signature in one line (`count_entry`).
-/
namespace Primitives

/-! ### Signatures -/

namespace Param

/-- The kinds of a parameter as its signature shows them. -/
def kindsText (p : Param) : String := " | ".intercalate (p.kinds.map Kind.name)

theorem lacks_kindsText {c : Char} (between : Text.Lacks c " | ") (names : ∀ kind : Kind, Text.Lacks c kind.name)
    (p : Param) : Text.Lacks c p.kindsText :=
  Text.lacks_intercalate between (by simp [names])

theorem signature_eq (p : Param) :
    p.signature = (if p.variadic then "..." else "") ++ p.kindsText ++ if p.optional then "?" else "" := rfl

/-- What the kinds lack, the signature holds in its marks only. -/
theorem lacks_signature_iff {c : Char} {p : Param} (kinds : Text.Lacks c p.kindsText) :
    Text.Lacks c p.signature ↔
      (p.variadic = true → Text.Lacks c "...") ∧ (p.optional = true → Text.Lacks c "?") := by
  have nothing : Text.Lacks c "" := List.not_mem_nil
  rw [signature_eq, Text.lacks_append, Text.lacks_append]
  cases p.variadic <;> cases p.optional <;> simp [kinds, nothing]

theorem lacks_signature {c : Char} (between : Text.Lacks c " | ") (names : ∀ kind : Kind, Text.Lacks c kind.name)
    (dots : Text.Lacks c "...") (mark : Text.Lacks c "?") (p : Param) : Text.Lacks c p.signature :=
  (lacks_signature_iff (lacks_kindsText between names p)).mpr ⟨fun _ => dots, fun _ => mark⟩

end Param

namespace Definition

/-- The signature from the parenthesis after the name on. -/
def parameterText (d : Definition) : String :=
  ", ".intercalate (d.params.map Param.signature) ++ ") -> " ++ d.returns.name

theorem signature_eq (d : Definition) : d.signature = d.name ++ "(" ++ d.parameterText := by
  simp only [signature, parameterText, String.append_assoc]

/-- What the texts of parameters are made of. -/
def marks : List String := Kind.all.map Kind.name ++ [" | ", "...", "?", ", ", ") -> ", ""]

theorem lacks_parameterText {c : Char} (absent : ∀ mark ∈ marks, Text.Lacks c mark) (d : Definition) :
    Text.Lacks c d.parameterText := by
  have kinds (kind : Kind) : Text.Lacks c kind.name := absent _ (by cases kind <;> decide)
  have param := Param.lacks_signature (absent _ (by decide)) kinds (absent _ (by decide)) (absent _ (by decide))
  simp only [parameterText, Text.lacks_append]
  exact ⟨⟨Text.lacks_intercalate (absent _ (by decide)) (by simp [param]), absent _ (by decide)⟩, kinds _⟩

/-- The signature tells the name: it ends before the last parenthesis that opens. -/
theorem name_of_signature {d e : Definition} (same : d.signature = e.signature) : d.name = e.name := by
  have closed (f : Definition) : '(' ∉ f.parameterText.toList.reverse := by
    rw [List.mem_reverse]
    exact lacks_parameterText (by decide) f
  have backwards (f : Definition) :
      f.signature.toList.reverse = f.parameterText.toList.reverse ++ '(' :: f.name.toList.reverse := by
    simp [signature_eq]
  have lists := congrArg (fun s => s.toList.reverse) same
  simp only [backwards] at lists
  obtain ⟨_, name⟩ := Text.append_cons_unique (closed d) (closed e) lists
  exact String.toList_injective (List.reverse_injective name)

end Definition

namespace CommandLine

/-! ### Lines of a listing -/

/-- The line of a definition. -/
def entry (d : Definition) : String := "  " ++ d.signature

/-- The lines of an area: an empty one, the name of the area and the definitions that belong to it. -/
def areaLines (colors : Bool) (r : Registry) (area : Area) : List String :=
  "" :: Style.cyan.paint colors (area.name ++ ":") :: (r.definitions.filter (·.area == area)).map entry

/-- The areas that a listing shows. -/
def shownAreas : Option Area → List Area
  | some area => [area]
  | none => Area.all

def listedLines (colors : Bool) (r : Registry) (area : Option Area) : List String :=
  Style.bold.paint colors versionText :: (shownAreas area).flatMap (areaLines colors r)

variable (colors : Bool) (r : Registry)

theorem areaListing_eq (area : Area) :
    areaListing colors r area = String.join ((areaLines colors r area).map (· ++ "\n")) := by
  have shown : (r.names (some area)).map (fun name => "  " ++ ((r.get? name).map Definition.signature).getD "" ++ "\n") =
      (r.definitions.filter (·.area == area)).map fun d => entry d ++ "\n" := by
    rw [Registry.names_some_eq, List.map_map]
    refine List.map_congr_left fun d member => ?_
    simp [Registry.get?_of_mem (List.mem_of_mem_filter member), entry]
  apply String.ext
  simp only [areaListing, shown, areaLines]
  simp [List.flatMap_map]

theorem listing_eq (area : Option Area) :
    listing colors r area = String.join ((listedLines colors r area).map (· ++ "\n")) := by
  have areas (shown : List Area) : String.join (shown.map (areaListing colors r)) =
      String.join ((shown.flatMap (areaLines colors r)).map (· ++ "\n")) := by
    simp only [funext (areaListing_eq colors r)]
    apply String.ext
    simp [List.flatMap_map, List.flatMap_assoc]
  cases area with
  | none | some area =>
    simp only [listing, areas, listedLines, shownAreas]
    apply String.ext
    simp

/-- Every definition belongs to one area. -/
theorem perm_areas (ds : List Definition) : (Area.all.flatMap fun area => ds.filter (·.area == area)).Perm ds := by
  rw [List.perm_iff_count]
  intro d
  have counted (area : Area) : (ds.filter (·.area == area)).count d = if d.area = area then ds.count d else 0 := by
    split
    · next here => exact List.count_filter (by simpa using here)
    · next elsewhere =>
      rw [List.count_eq_zero, List.mem_filter]
      simp [elsewhere]
  simp only [Area.all, List.flatMap_cons, List.flatMap_nil, List.count_append, List.count_nil, counted]
  cases d.area <;> simp

theorem nodup_entries : (r.definitions.map entry).Nodup := by
  rw [List.Nodup, List.pairwise_map]
  refine (List.pairwise_map.mp r.distinct).imp fun apart same => apart ?_
  exact Definition.name_of_signature (by simpa [entry] using same)

/-- A listing of all areas has one line for each definition. -/
theorem count_entry {d : Definition} (member : d ∈ r.definitions) :
    (listedLines colors r none).count (entry d) = 1 := by
  have begins : (entry d).toList.head? = some ' ' := by simp [entry]
  have heading : Style.bold.paint colors versionText ≠ entry d := by
    intro same
    rw [← same] at begins
    revert begins
    cases colors <;> decide
  have title (area : Area) : Style.cyan.paint colors (area.name ++ ":") ≠ entry d := by
    intro same
    rw [← same] at begins
    revert begins
    cases colors <;> cases area <;> decide
  have blank : "" ≠ entry d := by
    intro same
    rw [← same] at begins
    cases begins
  have inArea (area : Area) : (areaLines colors r area).count (entry d) =
      ((r.definitions.filter (·.area == area)).map entry).count (entry d) := by
    rw [areaLines, List.count_cons_of_ne blank, List.count_cons_of_ne (title area)]
  have gathered : (Area.all.flatMap (areaLines colors r)).count (entry d) = (r.definitions.map entry).count (entry d) := by
    rw [← (perm_areas r.definitions).map entry |>.count_eq, List.map_flatMap, List.count_flatMap, List.count_flatMap]
    exact congrArg List.sum (List.map_congr_left fun area _ => inArea area)
  rw [listedLines, List.count_cons_of_ne heading, shownAreas, gathered]
  exact List.count_eq_one_of_mem (nodup_entries r) (List.mem_map_of_mem member)

theorem splitOn_join {lines : List String} (unbroken : ∀ line ∈ lines, Text.Lacks '\n' line) :
    (String.join (lines.map (· ++ "\n"))).toList.splitOn '\n' = lines.map String.toList ++ [[]] := by
  induction lines with
  | nil => rfl
  | cons line rest ih =>
    obtain ⟨first, later⟩ := List.forall_mem_cons.mp unbroken
    have text : (String.join ((line :: rest).map (· ++ "\n"))).toList =
        line.toList ++ '\n' :: (String.join (rest.map (· ++ "\n"))).toList := by
      simp
    rw [text, Text.splitOn_append_cons first, ih later]
    rfl

/-- As long as no name holds a line feed, the lines are those of the text. -/
theorem splitOn_listing (unbroken : ∀ name ∈ r.names none, Text.Lacks '\n' name) (area : Option Area) :
    (listing colors r area).toList.splitOn '\n' = (listedLines colors r area).map String.toList ++ [[]] := by
  have shown (d : Definition) (member : d ∈ r.definitions) : Text.Lacks '\n' (entry d) := by
    have named : Text.Lacks '\n' d.name := unbroken d.name (by rw [Registry.names_none]; exact List.mem_map_of_mem member)
    simp only [entry, Definition.signature_eq, Text.lacks_append]
    exact ⟨by decide, ⟨named, by decide⟩, Definition.lacks_parameterText (by decide) d⟩
  rw [listing_eq, splitOn_join]
  intro line member
  simp only [listedLines, areaLines, List.mem_cons, List.mem_flatMap, List.mem_map, List.mem_filter] at member
  rcases member with rfl | ⟨shownArea, _, rfl | rfl | ⟨d, ⟨there, _⟩, rfl⟩⟩
  · cases colors <;> decide
  · decide
  · cases colors <;> cases shownArea <;> decide
  · exact shown d there

end CommandLine

end Primitives
