import Mathlib.Data.List.Forall2
import Primitives.Proofs.Grammar
import Primitives.Proofs.Listing

/-!
Signatures can be read in one way only. What stands between separators is told by the whole as long as no part holds the
first character of the separator (`Text.eq_of_intercalate`), so that the signature of a parameter tells its kinds and its
marks (`Param.agrees_of_signature`), and that of a definition its parameters and its result
(`Definition.agree_of_signature`). A check of arguments looks at nothing else: the names of parameters, which no signature
shows, make no difference to it (`Signature.counts_map_unnamed_iff`).
-/
namespace Primitives

/-! ### Parts and separators -/

namespace Text

variable {c : Char} {tail : List Char}

theorem intercalate_cons (separator first : List Char) (rest : List (List Char)) :
    separator.intercalate (first :: rest) = first ++ rest.flatMap (separator ++ ·) := by
  induction rest generalizing first with
  | nil => simp
  | cons second rest ih => rw [List.intercalate_cons_cons, ih, List.flatMap_cons, List.append_assoc, List.append_assoc]

/-- Two rows of parts, each after a separator, are the same if their texts are. -/
theorem parts_unique {first other : List Char} {rest others : List (List Char)}
    (clean : ∀ part ∈ first :: rest, c ∉ part) (cleanToo : ∀ part ∈ other :: others, c ∉ part)
    (same : first ++ rest.flatMap (c :: tail ++ ·) = other ++ others.flatMap (c :: tail ++ ·)) :
    first = other ∧ rest = others := by
  -- The induction takes off one part after the other; a row that ends earlier lacks the next separator.
  induction rest generalizing first other others with
  | nil =>
    cases others with
    | nil => simpa using same
    | cons next others =>
      refine absurd ?_ (clean first List.mem_cons_self)
      have whole : first = other ++ (next :: others).flatMap (c :: tail ++ ·) := by simpa using same
      simp [whole]
  | cons second rest ih =>
    cases others with
    | nil =>
      refine absurd ?_ (cleanToo other List.mem_cons_self)
      have whole : other = first ++ (second :: rest).flatMap (c :: tail ++ ·) := by simpa using same.symm
      simp [whole]
    | cons next others =>
      simp only [List.flatMap_cons, List.cons_append, List.append_assoc] at same
      obtain ⟨front, later⟩ :=
        append_cons_unique (clean first List.mem_cons_self) (cleanToo other List.mem_cons_self) same
      obtain ⟨second_eq, rest_eq⟩ := ih (fun part member => clean part (List.mem_cons_of_mem _ member))
        (fun part member => cleanToo part (List.mem_cons_of_mem _ member)) (List.append_cancel_left later)
      exact ⟨front, by rw [second_eq, rest_eq]⟩

/-- Texts between separators are told by the whole if they are not empty and lack the first character of the
    separator. -/
theorem eq_of_intercalate {separator : String} {parts others : List String} (begins : separator.toList = c :: tail)
    (clean : ∀ part ∈ parts, Lacks c part ∧ part ≠ "") (cleanToo : ∀ part ∈ others, Lacks c part ∧ part ≠ "")
    (same : separator.intercalate parts = separator.intercalate others) : parts = others := by
  have lists := congrArg String.toList same
  rw [String.toList_intercalate, String.toList_intercalate, begins] at lists
  cases parts with
  | nil =>
    cases others with
    | nil => rfl
    | cons other others =>
      have given := (cleanToo other List.mem_cons_self).2
      simp [intercalate_cons, given] at lists
  | cons first rest =>
    cases others with
    | nil =>
      have given := (clean first List.mem_cons_self).2
      simp [intercalate_cons, given] at lists
    | cons other others =>
      rw [List.map_cons, List.map_cons, intercalate_cons, intercalate_cons] at lists
      have lacks {texts : List String} (each : ∀ text ∈ texts, Lacks c text ∧ text ≠ "") :
          ∀ part ∈ texts.map String.toList, c ∉ part := by
        intro part member
        obtain ⟨text, inside, rfl⟩ := List.mem_map.mp member
        exact (each text inside).1
      obtain ⟨first_eq, rest_eq⟩ := parts_unique (lacks clean) (lacks cleanToo) lists
      have injective : Function.Injective String.toList := fun _ _ => String.toList_injective
      rw [String.toList_injective first_eq, List.map_injective_iff.mpr injective rest_eq]

end Text

/-! ### Parameters -/

/-- A kind can be looked up by its name, so that no two kinds share one. -/
theorem Kind.name_injective : Function.Injective Kind.name := by
  have found (kind : Kind) : Kind.ofName? kind.name = some kind := by cases kind <;> decide
  intro kind other same
  have both : some kind = some other := by rw [← found kind, same, found other]
  exact Option.some.inj both

namespace Param

/-- The parameters differ in nothing but their names. -/
structure Agrees (p q : Param) : Prop where
  kinds : p.kinds = q.kinds
  optional : p.optional = q.optional
  variadic : p.variadic = q.variadic

variable {p q : Param}

theorem kinds_of_kindsText (same : p.kindsText = q.kindsText) : p.kinds = q.kinds := by
  have names (kinds : List Kind) : ∀ name ∈ kinds.map Kind.name, Text.Lacks ' ' name ∧ name ≠ "" := by
    intro name member
    obtain ⟨kind, _, rfl⟩ := List.mem_map.mp member
    cases kind <;> decide
  exact List.map_injective_iff.mpr Kind.name_injective (Text.eq_of_intercalate rfl (names _) (names _) same)

/-- A variadic parameter is the one with dots. -/
theorem variadic_iff (p : Param) : p.variadic = true ↔ ¬ Text.Lacks '.' p.signature := by
  have dots : ¬ Text.Lacks '.' "..." := by decide
  have mark : Text.Lacks '.' "?" := by decide
  rw [lacks_signature_iff (lacks_kindsText (by decide) (fun kind => by cases kind <;> decide) p)]
  simp [dots, mark]

/-- An optional parameter is the one with a question mark. -/
theorem optional_iff (p : Param) : p.optional = true ↔ ¬ Text.Lacks '?' p.signature := by
  have dots : Text.Lacks '?' "..." := by decide
  have mark : ¬ Text.Lacks '?' "?" := by decide
  rw [lacks_signature_iff (lacks_kindsText (by decide) (fun kind => by cases kind <;> decide) p)]
  simp [dots, mark]

theorem agrees_of_signature (same : p.signature = q.signature) : p.Agrees q := by
  have variadic : p.variadic = q.variadic := by rw [Bool.eq_iff_iff, variadic_iff, variadic_iff, same]
  have optional : p.optional = q.optional := by rw [Bool.eq_iff_iff, optional_iff, optional_iff, same]
  rw [signature_eq, signature_eq, variadic, optional] at same
  exact ⟨kinds_of_kindsText (by simpa using same), optional, variadic⟩

/-- A parameter of no kinds is the only one that may show nothing. -/
theorem signature_ne_empty (given : p.kinds ≠ []) : p.signature ≠ "" := by
  intro empty
  simp only [signature_eq, String.append_eq_empty_iff] at empty
  have none_shown : p.kindsText = (ofKinds []).kindsText := empty.1.2
  exact given (kinds_of_kindsText none_shown)

theorem lacks_comma (p : Param) : Text.Lacks ',' p.signature :=
  lacks_signature (by decide) (fun kind => by cases kind <;> decide) (by decide) (by decide) p

theorem lacks_parenthesis (p : Param) : Text.Lacks ')' p.signature :=
  lacks_signature (by decide) (fun kind => by cases kind <;> decide) (by decide) (by decide) p

end Param

/-! ### Definitions -/

namespace Definition

variable {d e : Definition}

/-- The text after the name tells the signatures of the parameters and the kind of the result. -/
theorem signatures_of_parameterText (given : ∀ p ∈ d.params, p.kinds ≠ []) (givenToo : ∀ p ∈ e.params, p.kinds ≠ [])
    (same : d.parameterText = e.parameterText) :
    d.params.map Param.signature = e.params.map Param.signature ∧ d.returns = e.returns := by
  have closed (params : List Param) : Text.Lacks ')' (", ".intercalate (params.map Param.signature)) :=
    Text.lacks_intercalate (by decide) (by simp [Param.lacks_parenthesis])
  have parts {params : List Param} (each : ∀ p ∈ params, p.kinds ≠ []) :
      ∀ part ∈ params.map Param.signature, Text.Lacks ',' part ∧ part ≠ "" := by
    intro part member
    obtain ⟨p, inside, rfl⟩ := List.mem_map.mp member
    exact ⟨p.lacks_comma, Param.signature_ne_empty (each p inside)⟩
  have text (f : Definition) : f.parameterText.toList =
      (", ".intercalate (f.params.map Param.signature)).toList ++ ')' :: (" -> " ++ f.returns.name).toList := by
    simp [parameterText]
  have lists := congrArg String.toList same
  rw [text, text] at lists
  obtain ⟨inside, result⟩ := Text.append_cons_unique (closed d.params) (closed e.params) lists
  refine ⟨Text.eq_of_intercalate rfl (parts given) (parts givenToo) (String.toList_injective inside), ?_⟩
  have name : " -> " ++ d.returns.name = " -> " ++ e.returns.name := String.toList_injective result
  exact Kind.name_injective (by simpa using name)

theorem agree_of_signature (given : ∀ p ∈ d.params, p.kinds ≠ []) (givenToo : ∀ p ∈ e.params, p.kinds ≠ [])
    (same : d.signature = e.signature) : List.Forall₂ Param.Agrees d.params e.params ∧ d.returns = e.returns := by
  have name := name_of_signature same
  have rest : d.parameterText = e.parameterText := by
    rw [signature_eq, signature_eq, name] at same
    simpa using same
  obtain ⟨signatures, returns⟩ := signatures_of_parameterText given givenToo rest
  rw [← List.forall₂_eq_eq_eq, List.forall₂_map_left_iff, List.forall₂_map_right_iff] at signatures
  exact ⟨signatures.imp fun _ _ => Param.agrees_of_signature, returns⟩

end Definition

/-! ### Checks -/

namespace Param

/-- The parameter without its name. -/
def unnamed (p : Param) : Param := { p with name := none }

theorem Agrees.unnamed_eq {p q : Param} (agrees : p.Agrees q) : p.unnamed = q.unnamed := by
  simp only [unnamed, agrees.kinds, agrees.optional, agrees.variadic]

end Param

namespace Signature

variable (params : List Param)

theorem required_map_unnamed : required (params.map Param.unnamed) = required params := List.countP_map

theorem isVariadic_map_unnamed : isVariadic (params.map Param.unnamed) = isVariadic params := by
  rw [isVariadic, List.getLast?_map, Option.any_map]
  rfl

theorem paramAt?_map_unnamed (index : Nat) :
    paramAt? (params.map Param.unnamed) index = (paramAt? params index).map Param.unnamed := by
  rw [paramAt?_eq, paramAt?_eq, List.length_map, List.getElem?_map]

/-- Names of parameters make no difference to what is accepted. -/
theorem counts_map_unnamed_iff (args : List Value) : Counts (params.map Param.unnamed) args ↔ Counts params args := by
  constructor
  · rintro ⟨enough, notMany, each⟩
    refine ⟨required_map_unnamed params ▸ enough, ?_, fun i v p there belongs => ?_⟩
    · simpa [isVariadic_map_unnamed] using notMany
    · exact each i v p.unnamed there (by rw [paramAt?_map_unnamed, belongs]; rfl)
  · rintro ⟨enough, notMany, each⟩
    refine ⟨(required_map_unnamed params).symm ▸ enough, ?_, fun i v p there belongs => ?_⟩
    · simpa [isVariadic_map_unnamed] using notMany
    · rw [paramAt?_map_unnamed, Option.map_eq_some_iff] at belongs
      obtain ⟨q, belongs, rfl⟩ := belongs
      exact each i v q there belongs

theorem validate_iff_of_agree {name : String} {params others : List Param} {args : List Value}
    (agree : List.Forall₂ Param.Agrees params others) :
    validate name args params = .ok () ↔ validate name args others = .ok () := by
  have same : params.map Param.unnamed = others.map Param.unnamed := by
    rw [← List.forall₂_eq_eq_eq, List.forall₂_map_left_iff, List.forall₂_map_right_iff]
    exact agree.imp fun _ _ => Param.Agrees.unnamed_eq
  rw [validate_eq_ok_iff_counts, validate_eq_ok_iff_counts, ← counts_map_unnamed_iff, same, counts_map_unnamed_iff]

end Signature

namespace Definition

/-- A signature tells which calls are accepted. Two definitions with the same signature, in which each parameter has a
    kind, have the same name, the same result and as many parameters, which agree one by one in everything but their
    names. So they accept the same arguments. -/
theorem calls_of_signature (d e : Definition) (given : ∀ p ∈ d.params, p.kinds ≠ [])
    (givenToo : ∀ p ∈ e.params, p.kinds ≠ []) (same : d.signature = e.signature) :
    d.name = e.name ∧ d.returns = e.returns ∧ List.Forall₂ Param.Agrees d.params e.params ∧
    ∀ name args, Signature.validate name args d.params = .ok () ↔ Signature.validate name args e.params = .ok () := by
  obtain ⟨agree, returns⟩ := agree_of_signature given givenToo same
  exact ⟨name_of_signature same, returns, agree, fun _ _ => Signature.validate_iff_of_agree agree⟩

/-- Two definitions that show themselves as `pick(Integer | Text, ...Boolean?) -> Text` and share nothing else. -/
theorem calls_of_pick :
    let d : Definition :=
      ⟨"pick", .string, [⟨[.integer, .text], false, false, some "key"⟩, ⟨[.boolean], true, true, none⟩], .text,
        .plain .lower, false⟩
    let e : Definition :=
      ⟨"pick", .random, [⟨[.integer, .text], false, false, none⟩, ⟨[.boolean], true, true, some "flags"⟩], .text,
        .contextual .print, true⟩
    d.signature = e.signature ∧
    Signature.validate "pick" [.text "a", .boolean true, .boolean false] d.params = .ok () ∧
    Signature.validate "pick" [.text "a", .boolean true, .boolean false] e.params = .ok () := by
  intro d e
  have same : d.signature = e.signature := rfl
  have accepted : Signature.validate "pick" [.text "a", .boolean true, .boolean false] d.params = .ok () := by decide
  obtain ⟨_, _, _, calls⟩ := calls_of_signature d e (by decide) (by decide) same
  exact ⟨same, accepted, (calls _ _).mp accepted⟩

-- A parameter of no kinds shows nothing, and may be taken for none at all.
example :
    let d : Definition := ⟨"f", .math, [], .void, .plain .maximum, false⟩
    let e : Definition := ⟨"f", .math, [.ofKinds []], .void, .plain .maximum, false⟩
    d.signature = e.signature ∧ Signature.validate "f" [] d.params ≠ Signature.validate "f" [] e.params := by
  decide

end Definition

end Primitives
