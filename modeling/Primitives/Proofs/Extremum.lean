import Mathlib.Order.Bounds.Defs
import Primitives.Proofs.OperandRange

/-!
Extrema. Of values that count as equal numbers the first one is kept, so that an extremum is the first of the values
that none of the others precedes (`leads_foldl`). The first one in a list made of two is the better one of those of its
parts (`Leads.append`), which is also what one round of the comparison does; hence extrema can be found piece by piece.
-/
namespace Primitives

/-- The number that a value counts as, and zero if it counts as none. -/
def Value.number (v : Value) : Int := v.number?.getD 0

namespace Arithmetic

open Operation

/-- A strict order in which any two different numbers can be told apart. -/
structure Ranks (precedes : Int → Int → Bool) : Prop where
  irrefl : ∀ n, precedes n n = false
  trans : ∀ {k m n}, precedes k m = true → precedes m n = true → precedes k n = true
  total : ∀ {m n}, precedes m n = false → precedes n m = false → m = n

theorem ranks_greater : Ranks fun m n => n < m where
  irrefl := by simp
  trans := by
    intro k m n first second
    simp only [decide_eq_true_eq] at *
    omega
  total := by
    intro m n first second
    simp only [decide_eq_false_iff_not] at *
    omega

theorem ranks_less : Ranks fun m n => m < n where
  irrefl := by simp
  trans := by
    intro k m n first second
    simp only [decide_eq_true_eq] at *
    omega
  total := by
    intro m n first second
    simp only [decide_eq_false_iff_not] at *
    omega

namespace Ranks

variable {precedes : Int → Int → Bool} {k m n : Int}

/-- What precedes a number precedes also those that come no earlier than it. -/
theorem before_later (ranks : Ranks precedes) (first : precedes k m = true) (later : precedes n m = false) :
    precedes k n = true := by
  by_cases earlier : precedes m n = true
  · exact ranks.trans first earlier
  · rw [ranks.total later (Bool.eq_false_iff.mpr earlier)]
    exact first

theorem not_before (ranks : Ranks precedes) (first : precedes m k = false) (second : precedes n m = false) :
    precedes n k = false := by
  rw [Bool.eq_false_iff]
  intro early
  rw [ranks.before_later early first] at second
  cases second

end Ranks

/-- The value is the first one of the list that none of the others precedes. -/
def Leads (precedes : Int → Int → Bool) (vs : List Value) (v : Value) : Prop :=
  ∃ before after, vs = before ++ v :: after ∧ (∀ w ∈ before, precedes v.number w.number = true) ∧
    ∀ w ∈ after, precedes w.number v.number = false

/-- The one of two values that is kept: the new one only if it precedes the other. -/
def better (precedes : Int → Int → Bool) (best new : Value) : Value :=
  if precedes new.number best.number then new else best

section Leads

variable {precedes : Int → Int → Bool} {vs xs ys : List Value} {v w a b : Value}

theorem leads_singleton (v : Value) : Leads precedes [v] v := ⟨[], [], rfl, by simp, by simp⟩

theorem Leads.mem (leads : Leads precedes vs v) : v ∈ vs := by
  obtain ⟨before, after, rfl, _⟩ := leads
  simp

/-- None of the values precedes the leading one. -/
theorem Leads.bound (leads : Leads precedes vs v) (ranks : Ranks precedes) (member : w ∈ vs) :
    precedes w.number v.number = false := by
  obtain ⟨before, after, rfl, earlier, later⟩ := leads
  rcases List.mem_append.mp member with inBefore | inRest
  · rw [Bool.eq_false_iff]
    intro ahead
    have both := ranks.trans ahead (earlier w inBefore)
    rw [ranks.irrefl] at both
    cases both
  · rcases List.mem_cons.mp inRest with rfl | inAfter
    · exact ranks.irrefl _
    · exact later w inAfter

/-- The better one of the leading values of two lists leads them both. -/
theorem Leads.append (first : Leads precedes xs a) (second : Leads precedes ys b) (ranks : Ranks precedes) :
    Leads precedes (xs ++ ys) (better precedes a b) := by
  unfold better
  by_cases ahead : precedes b.number a.number = true
  · rw [if_pos ahead]
    obtain ⟨before, after, rfl, earlier, later⟩ := second
    refine ⟨xs ++ before, after, by simp, ?_, later⟩
    intro w member
    rcases List.mem_append.mp member with inFirst | inBefore
    · exact ranks.before_later ahead (first.bound ranks inFirst)
    · exact earlier w inBefore
  · rw [if_neg ahead]
    have behind : ∀ w ∈ ys, precedes w.number a.number = false := fun w member =>
      ranks.not_before (Bool.eq_false_iff.mpr ahead) (second.bound ranks member)
    obtain ⟨before, after, rfl, earlier, later⟩ := first
    refine ⟨before, after ++ ys, by simp, earlier, ?_⟩
    intro w member
    rcases List.mem_append.mp member with inAfter | inSecond
    · exact later w inAfter
    · exact behind w inSecond

/-- Comparing the values one after the other keeps the leading one. -/
theorem leads_foldl (ranks : Ranks precedes) (first : Value) (rest : List Value) :
    Leads precedes (first :: rest) (rest.foldl (better precedes) first) := by
  induction rest using List.reverseRecOn with
  | nil => exact leads_singleton first
  | append_singleton rest last ih =>
    rw [List.foldl_concat]
    exact ih.append (leads_singleton last) ranks

/-- The place of the leading value is the least one of those whose value none precedes. -/
theorem Leads.isLeast (leads : Leads precedes vs v) (ranks : Ranks precedes) :
    ∃ i, vs[i]? = some v ∧
      IsLeast {j : Nat | ∃ w : Value, vs[j]? = some w ∧ ∀ u ∈ vs, precedes u.number w.number = false} i := by
  have bound := fun u => leads.bound ranks (w := u)
  have member := leads.mem
  obtain ⟨before, after, parted, earlier, _⟩ := leads
  have here : vs[before.length]? = some v := by simp [parted]
  refine ⟨before.length, here, ⟨v, here, bound⟩, ?_⟩
  rintro j ⟨w, there, unpreceded⟩
  by_contra short
  have inBefore : w ∈ before := by
    rw [parted, List.getElem?_append_left (Nat.lt_of_not_le short)] at there
    exact List.mem_of_getElem? there
  have behind := unpreceded v member
  rw [earlier w inBefore] at behind
  cases behind

theorem Leads.unique (first : Leads precedes vs v) (second : Leads precedes vs w) (ranks : Ranks precedes) : v = w := by
  obtain ⟨i, isFirst, leastFirst⟩ := first.isLeast ranks
  obtain ⟨j, isSecond, leastSecond⟩ := second.isLeast ranks
  rw [leastFirst.unique leastSecond, isSecond] at isFirst
  exact (Option.some.inj isFirst).symm

end Leads

/-! ### Extrema of values of the range -/

section Extremum

variable {precedes : Int → Int → Bool} {function : String} {vs : List Value}

theorem operand_eq_number {v : Value} (inside : InBounds v) : operand function v = .ok v.number := by
  obtain ⟨m, number, inRange⟩ := inside
  simp only [operand, Value.number, number, Option.getD_some, checked_of_inRange function inRange]

theorem numbered_of_inBounds (inside : ∀ v ∈ vs, InBounds v) :
    (vs.mapM fun v => do return (v, ← operand function v)) = .ok (vs.map fun v => (v, v.number)) := by
  induction vs with
  | nil => rfl
  | cons v rest ih =>
    obtain ⟨first, later⟩ := List.forall_mem_cons.mp inside
    rw [List.mapM_cons, operand_eq_number first, ih later]
    rfl

/-- An extremum is found by comparing the values one after the other. -/
theorem extremum_eq_foldl {first : Value} {rest : List Value} (inside : ∀ v ∈ first :: rest, InBounds v) :
    extremum precedes function (first :: rest) = .ok (rest.foldl (better precedes) first) := by
  have compared : rest.foldl (fun best new => if precedes new.number best.2 then (new, new.number) else best)
      (first, first.number) =
        (rest.foldl (better precedes) first, (rest.foldl (better precedes) first).number) := by
    refine List.foldl_hom (fun v : Value => (v, v.number)) ?_
    intro best new
    unfold better
    split <;> rfl
  rw [extremum, numbered_of_inBounds inside, ok_bind, List.map_cons]
  simp only [List.foldl_map]
  rw [compared]
  rfl

/-- The values have a leading one, which is their extremum. -/
theorem exists_leads (function : String) (ranks : Ranks precedes) (given : vs ≠ []) (inside : ∀ v ∈ vs, InBounds v) :
    ∃ v, extremum precedes function vs = .ok v ∧ Leads precedes vs v := by
  cases vs with
  | nil => exact absurd rfl given
  | cons first rest => exact ⟨_, extremum_eq_foldl inside, leads_foldl ranks first rest⟩

end Extremum

/-- A choice among values of the range, given when a number comes no earlier than another one: it takes the first of
    the values than which none comes earlier, it takes one that counts as the same number in whatever order the values
    stand, and it can be made piece by piece. -/
structure Chooses (choose : List Value → Except Fault Value) (behind : Int → Int → Prop) : Prop where
  first : ∀ vs, vs ≠ [] → (∀ v ∈ vs, InBounds v) →
    ∃ v i, choose vs = .ok v ∧ vs[i]? = some v ∧
      IsLeast {j : Nat | ∃ w : Value, vs[j]? = some w ∧ ∀ u ∈ vs, behind u.number w.number} i
  permuted : ∀ vs ws, vs ≠ [] → (∀ v ∈ vs, InBounds v) → vs.Perm ws →
    ∃ v w, choose vs = .ok v ∧ choose ws = .ok w ∧ v.number = w.number
  piecewise : ∀ xs ys, xs ≠ [] → ys ≠ [] → (∀ v ∈ xs ++ ys, InBounds v) →
    ∃ a b v, choose xs = .ok a ∧ choose ys = .ok b ∧ choose (xs ++ ys) = .ok v ∧ choose [a, b] = .ok v

theorem chooses_extremum {precedes : Int → Int → Bool} {behind : Int → Int → Prop} (function : String)
    (ranks : Ranks precedes) (agree : ∀ m n, behind m n ↔ precedes m n = false) :
    Chooses (extremum precedes function) behind where
  first := by
    intro vs given inside
    obtain ⟨v, chosen, leads⟩ := exists_leads function ranks given inside
    obtain ⟨i, place, least⟩ := leads.isLeast ranks
    simp only [agree]
    exact ⟨v, i, chosen, place, least⟩
  permuted := by
    intro vs ws given inside permuted
    have givenAgain : ws ≠ [] := fun nothing => given (nothing ▸ permuted).eq_nil
    obtain ⟨v, chosen, leads⟩ := exists_leads function ranks given inside
    obtain ⟨w, chosenAgain, leadsAgain⟩ := exists_leads function ranks givenAgain fun u member =>
      inside u (permuted.mem_iff.mpr member)
    refine ⟨v, w, chosen, chosenAgain, ranks.total ?_ ?_⟩
    · exact leadsAgain.bound ranks (permuted.mem_iff.mp leads.mem)
    · exact leads.bound ranks (permuted.mem_iff.mpr leadsAgain.mem)
  piecewise := by
    intro xs ys givenFirst givenSecond inside
    obtain ⟨insideFirst, insideSecond⟩ := List.forall_mem_append.mp inside
    obtain ⟨a, chosenFirst, leadsFirst⟩ := exists_leads function ranks givenFirst insideFirst
    obtain ⟨b, chosenSecond, leadsSecond⟩ := exists_leads function ranks givenSecond insideSecond
    obtain ⟨v, chosen, leads⟩ :=
      exists_leads function ranks (List.append_ne_nil_of_left_ne_nil givenFirst ys) inside
    have same : v = better precedes a b := leads.unique (leadsFirst.append leadsSecond ranks) ranks
    have both : ∀ u ∈ [a, b], InBounds u := by
      simpa using And.intro (insideFirst a leadsFirst.mem) (insideSecond b leadsSecond.mem)
    refine ⟨a, b, v, chosenFirst, chosenSecond, chosen, ?_⟩
    rw [extremum_eq_foldl both, same]
    rfl

/-- Extrema are the first of their kind, and can be found piece by piece. The maximum of values of the range is the
    one at the least place whose number is not below that of any of them, Boolean or integer as it stands there. In
    another order of the values it counts as the same number. The maximum of two lists together is that of their maxima.
    All of this holds of the minimum in the same way. -/
theorem extrema_choose : Chooses maximum (fun m n => m ≤ n) ∧ Chooses minimum (fun m n => n ≤ m) :=
  ⟨chooses_extremum "max" ranks_greater (by simp), chooses_extremum "min" ranks_less (by simp)⟩

/-- The integer 1 stands before the Booleans that count as 1, so that the maximum is an integer. The minimum of the
    integer 0 and a Boolean that counts as 0 depends on their order, but not the number that it counts as. -/
theorem extrema_choose_among_equals :
    (∃ a b v, maximum [.integer 1, .boolean true] = .ok a ∧ maximum [.boolean false, .boolean true] = .ok b ∧
      maximum [.integer 1, .boolean true, .boolean false, .boolean true] = .ok v ∧ maximum [a, b] = .ok v ∧
      v = .integer 1) ∧
    (∃ v w, minimum [.integer 0, .boolean false] = .ok v ∧ minimum [.boolean false, .integer 0] = .ok w ∧
      v.number = w.number ∧ v ≠ w) := by
  have boolean (b : Bool) : InBounds (.boolean b) := ⟨_, rfl, by cases b <;> decide⟩
  have one : InBounds (.integer 1) := ⟨1, rfl, by decide⟩
  have zero : InBounds (.integer 0) := ⟨0, rfl, by decide⟩
  constructor
  · obtain ⟨a, b, v, first, second, whole, both⟩ := extrema_choose.1.piecewise [.integer 1, .boolean true]
      [.boolean false, .boolean true] (by simp) (by simp)
      (by simpa using ⟨one, boolean true, boolean false, boolean true⟩)
    have known : maximum [.integer 1, .boolean true, .boolean false, .boolean true] = .ok (.integer 1) := rfl
    have same : Except.ok v = .ok (.integer 1) := whole.symm.trans known
    exact ⟨a, b, v, first, second, whole, both, Except.ok.inj same⟩
  · obtain ⟨v, w, first, second, same⟩ := extrema_choose.2.permuted [.integer 0, .boolean false]
      [.boolean false, .integer 0] (by simp) (by simpa using ⟨zero, boolean false⟩) (List.Perm.swap ..)
    have knownFirst : minimum [.integer 0, .boolean false] = .ok (.integer 0) := rfl
    have knownSecond : minimum [.boolean false, .integer 0] = .ok (.boolean false) := rfl
    refine ⟨v, w, first, second, same, ?_⟩
    rw [Except.ok.inj (first.symm.trans knownFirst), Except.ok.inj (second.symm.trans knownSecond)]
    decide

end Arithmetic

end Primitives
