import Mathlib.Data.List.Forall2
import Primitives.Proofs.ByteView

/-!
Texts up to the case of their letters. Two characters are variants of each other if they are equal or the two cases of
one ASCII letter (`Variants`). Each of the two conversions identifies exactly the variants and keeps to one of them
(`folds_toLower`, `folds_toUpper`). So a conversion does not see the one before it (`Folds.map_map`), and it gives the
same for two texts exactly when these agree up to variants (`Folds.map_eq_map_iff`).
-/
namespace Primitives.Text

/-! ### Characters -/

/-- The capital letters of ASCII, each with its small letter. -/
def letterPairs : List (Char × Char) := "ABCDEFGHIJKLMNOPQRSTUVWXYZ".toList.zip "abcdefghijklmnopqrstuvwxyz".toList

/-- A letter of ASCII, capital or small. -/
def IsLetter (c : Char) : Prop := ∃ pair ∈ letterPairs, c = pair.1 ∨ c = pair.2

/-- The characters are equal, or the two cases of one ASCII letter. -/
def Variants (c d : Char) : Prop := c = d ∨ (c, d) ∈ letterPairs ∨ (d, c) ∈ letterPairs

instance (c : Char) : Decidable (IsLetter c) := inferInstanceAs (Decidable (∃ pair ∈ letterPairs, _))

instance (c d : Char) : Decidable (Variants c d) := inferInstanceAs (Decidable (_ ∨ _ ∨ _))

/-- What the table says of each of its lines. -/
theorem cases_of_mem {c d : Char} (member : (c, d) ∈ letterPairs) :
    (c.toLower = d ∧ d.toLower = d) ∧ (c.toUpper = c ∧ d.toUpper = c) ∧ c ≠ d ∧ c.utf8Size = d.utf8Size :=
  (by decide : ∀ pair ∈ letterPairs, (pair.1.toLower = pair.2 ∧ pair.2.toLower = pair.2) ∧
    (pair.1.toUpper = pair.1 ∧ pair.2.toUpper = pair.1) ∧ pair.1 ≠ pair.2 ∧
    pair.1.utf8Size = pair.2.utf8Size) (c, d) member

/-- A character whose code is among 26 successive ones is found by counting from the first of them. -/
theorem exists_of_code {c : Char} {first : Nat} (code : first ≤ c.toNat ∧ c.toNat ≤ first + 25) :
    ∃ n ∈ List.range 26, Char.ofNat (first + n) = c := by
  refine ⟨c.toNat - first, List.mem_range.mpr (by omega), ?_⟩
  rw [Nat.add_sub_cancel' code.1, Char.ofNat_toNat]

/-- Lower case leaves a character alone, unless it is a capital letter of the table. -/
theorem toLower_cases (c : Char) : (c, c.toLower) ∈ letterPairs ∨ c.toLower = c := by
  by_cases capital : 65 ≤ c.toNat ∧ c.toNat ≤ 90
  · have table : ∀ n ∈ List.range 26, (Char.ofNat (65 + n), (Char.ofNat (65 + n)).toLower) ∈ letterPairs := by decide
    obtain ⟨n, inside, rfl⟩ := exists_of_code capital
    exact .inl (table n inside)
  · right
    unfold Char.toLower
    exact dif_neg (by simpa [UInt32.le_iff_toNat_le] using capital)

/-- Upper case leaves a character alone, unless it is a small letter of the table. -/
theorem toUpper_cases (c : Char) : (c.toUpper, c) ∈ letterPairs ∨ c.toUpper = c := by
  by_cases small : 97 ≤ c.toNat ∧ c.toNat ≤ 122
  · have table : ∀ n ∈ List.range 26, ((Char.ofNat (97 + n)).toUpper, Char.ofNat (97 + n)) ∈ letterPairs := by decide
    obtain ⟨n, inside, rfl⟩ := exists_of_code small
    exact .inl (table n inside)
  · right
    unfold Char.toUpper
    exact dif_neg (by simpa [UInt32.le_iff_toNat_le] using small)

theorem toLower_toLower (c : Char) : c.toLower.toLower = c.toLower := by
  rcases toLower_cases c with member | same
  · exact (cases_of_mem member).1.2
  · rw [same, same]

theorem toUpper_toLower (c : Char) : c.toLower.toUpper = c.toUpper := by
  rcases toLower_cases c with member | same
  · obtain ⟨_, ⟨kept, back⟩, _⟩ := cases_of_mem member
    rw [back, kept]
  · rw [same]

theorem toUpper_toUpper (c : Char) : c.toUpper.toUpper = c.toUpper := by
  rcases toUpper_cases c with member | same
  · exact (cases_of_mem member).2.1.1
  · rw [same, same]

theorem toLower_toUpper (c : Char) : c.toUpper.toLower = c.toLower := by
  rcases toUpper_cases c with member | same
  · obtain ⟨⟨back, kept⟩, _⟩ := cases_of_mem member
    rw [back, kept]
  · rw [same]

theorem toLower_eq_toLower_iff {c d : Char} : c.toLower = d.toLower ↔ Variants c d := by
  constructor
  · intro same
    rcases toLower_cases c with capital | small
    · rcases toLower_cases d with capitalToo | small
      · -- two capitals with one small letter are the capital of that letter
        have upper : c.toUpper = d.toUpper := by rw [← toUpper_toLower c, same, toUpper_toLower]
        rw [(cases_of_mem capital).2.1.1, (cases_of_mem capitalToo).2.1.1] at upper
        exact .inl upper
      · rw [same, small] at capital
        exact .inr (.inl capital)
    · rw [small] at same
      rcases toLower_cases d with capital | small
      · exact .inr (.inr (same ▸ capital))
      · exact .inl (same.trans small)
  · rintro (rfl | member | member)
    · rfl
    · obtain ⟨⟨lowered, kept⟩, _⟩ := cases_of_mem member
      rw [lowered, kept]
    · obtain ⟨⟨lowered, kept⟩, _⟩ := cases_of_mem member
      rw [lowered, kept]

theorem toUpper_eq_toUpper_iff {c d : Char} : c.toUpper = d.toUpper ↔ Variants c d := by
  rw [← toLower_eq_toLower_iff]
  constructor
  · intro same
    rw [← toLower_toUpper c, same, toLower_toUpper]
  · intro same
    rw [← toUpper_toLower c, same, toUpper_toLower]

/-! ### Conversions -/

/-- The map gives the same for variants and for nothing else, and what it gives it leaves alone. -/
structure Folds (f : Char → Char) : Prop where
  eq_iff (c d : Char) : f c = f d ↔ Variants c d
  idempotent (c : Char) : f (f c) = f c

theorem folds_toLower : Folds Char.toLower := ⟨fun _ _ => toLower_eq_toLower_iff, toLower_toLower⟩

theorem folds_toUpper : Folds Char.toUpper := ⟨fun _ _ => toUpper_eq_toUpper_iff, toUpper_toUpper⟩

namespace Folds

variable {f g : Char → Char} {s t : String}

theorem variants (folds : Folds f) (c : Char) : Variants (f c) c := (folds.eq_iff _ _).mp (folds.idempotent c)

/-- A conversion does not see the one before it. -/
theorem map_map (folds : Folds f) (before : Folds g) (s : String) : (s.map g).map f = s.map f := by
  have same : f ∘ g = f := funext fun c => (folds.eq_iff _ _).mpr (before.variants c)
  rw [String.map_map, same]

theorem map_eq_map_iff (folds : Folds f) : s.map f = t.map f ↔ List.Forall₂ Variants s.toList t.toList := by
  rw [← String.toList_inj, String.toList_map, String.toList_map, ← List.forall₂_eq_eq_eq, List.forall₂_map_left_iff,
    List.forall₂_map_right_iff]
  simp only [folds.eq_iff]

theorem utf8Size_eq (folds : Folds f) (c : Char) : (f c).utf8Size = c.utf8Size := by
  rcases folds.variants c with same | member | member
  · rw [same]
  · exact (cases_of_mem member).2.2.2
  · exact (cases_of_mem member).2.2.2.symm

theorem byteLength_map (folds : Folds f) (s : String) : byteLength (s.map f) = byteLength s := by
  rw [← length_bytes, ← length_bytes, bytes_eq_encoded, bytes_eq_encoded, String.toList_map, encoded, encoded,
    List.length_flatMap, List.length_flatMap, List.map_map]
  simp only [Function.comp_def, String.length_utf8EncodeChar, folds.utf8Size_eq]

/-- A character that is no letter is its own only variant. -/
theorem apply_eq_iff (folds : Folds f) {c : Char} (other : ¬ IsLetter c) (d : Char) : f d = c ↔ d = c := by
  have alone {d : Char} (variants : Variants c d) : d = c := by
    rcases variants with same | member | member
    · exact same.symm
    · exact absurd ⟨_, member, .inl rfl⟩ other
    · exact absurd ⟨_, member, .inr rfl⟩ other
  constructor
  · rintro rfl
    exact alone (folds.variants d)
  · rintro rfl
    have kept : Variants d (f d) := (folds.eq_iff _ _).mp (folds.idempotent d).symm
    exact alone kept

/-- The characters that are no letters stay where they are. -/
theorem getElem?_map_iff (folds : Folds f) {c : Char} (other : ¬ IsLetter c) (s : String) (i : Nat) :
    (s.map f).toList[i]? = some c ↔ s.toList[i]? = some c := by
  rw [String.toList_map, List.getElem?_map, Option.map_eq_some_iff]
  simp only [folds.apply_eq_iff other, exists_eq_right]

end Folds

/-! ### Searches -/

section Searches

variable {s t : String} (f : Char → Char)

theorem startsWith_map (found : startsWith s t = true) : startsWith (s.map f) (t.map f) = true := by
  rw [startsWith_iff] at found ⊢
  simpa only [String.toList_map] using found.map f

theorem endsWith_map (found : endsWith s t = true) : endsWith (s.map f) (t.map f) = true := by
  rw [endsWith_iff] at found ⊢
  simpa only [String.toList_map] using found.map f

theorem contains_map (found : contains s t = true) : contains (s.map f) (t.map f) = true := by
  rw [contains_iff] at found ⊢
  simpa only [String.toList_map] using found.map f

end Searches

/-- No capital is left in lower case, and no small letter in upper case. -/
theorem notMem_of_mem_letterPairs (s : String) {c d : Char} (member : (c, d) ∈ letterPairs) :
    c ∉ (lower s).toList ∧ d ∉ (upper s).toList := by
  obtain ⟨⟨lowered, _⟩, ⟨_, raised⟩, apart, _⟩ := cases_of_mem member
  rw [lower, upper, String.toList_map, String.toList_map]
  constructor
  · intro there
    obtain ⟨e, _, rfl⟩ := List.mem_map.mp there
    rw [toLower_toLower] at lowered
    exact apart lowered
  · intro there
    obtain ⟨e, _, rfl⟩ := List.mem_map.mp there
    rw [toUpper_toUpper] at raised
    exact apart raised.symm

theorem exists_folds {convert : String → String} (member : convert ∈ [lower, upper]) :
    ∃ f, Folds f ∧ convert = String.map f := by
  simp only [List.mem_cons, List.not_mem_nil, or_false] at member
  rcases member with rfl | rfl
  · exact ⟨Char.toLower, folds_toLower, rfl⟩
  · exact ⟨Char.toUpper, folds_toUpper, rfl⟩

/-- The two conversions are one case folding. Each overrides the other and leaves its own results alone. Both keep the
    length in bytes, all characters that are no ASCII letters, and what the searches have found. Two texts have the same
    lower case exactly when they have the same upper case, which is when they agree character by character up to the
    case of ASCII letters. -/
theorem conversions_fold_case (s t : String) :
    (Operation.apply .lower [.text s] = .ok (.text (lower s)) ∧
      Operation.apply .upper [.text s] = .ok (.text (upper s))) ∧
    (∀ c d, (c, d) ∈ letterPairs → c ∉ (lower s).toList ∧ d ∉ (upper s).toList) ∧
    lower (upper s) = lower s ∧ upper (lower s) = upper s ∧
    (lower s = lower t ↔ upper s = upper t) ∧
    (lower s = lower t ↔ List.Forall₂ Variants s.toList t.toList) ∧
    ∀ convert ∈ [lower, upper],
      convert (convert s) = convert s ∧
      byteLength (convert s) = byteLength s ∧
      (∀ (i : Nat) c, ¬ IsLetter c → ((convert s).toList[i]? = some c ↔ s.toList[i]? = some c)) ∧
      (startsWith s t = true → startsWith (convert s) (convert t) = true) ∧
      (endsWith s t = true → endsWith (convert s) (convert t) = true) ∧
      (contains s t = true → contains (convert s) (convert t) = true) := by
  have sameLower : lower s = lower t ↔ List.Forall₂ Variants s.toList t.toList := folds_toLower.map_eq_map_iff
  have sameUpper : upper s = upper t ↔ List.Forall₂ Variants s.toList t.toList := folds_toUpper.map_eq_map_iff
  refine ⟨⟨rfl, rfl⟩, fun c d member => notMem_of_mem_letterPairs s member, folds_toLower.map_map folds_toUpper s,
    folds_toUpper.map_map folds_toLower s, sameLower.trans sameUpper.symm, sameLower, ?_⟩
  intro convert member
  obtain ⟨f, folds, rfl⟩ := exists_folds member
  exact ⟨folds.map_map folds s, folds.byteLength_map s, fun i c other => folds.getElem?_map_iff other s i,
    startsWith_map f, endsWith_map f, contains_map f⟩

/-- Letters outside of ASCII are kept, and their two cases stay apart. -/
theorem conversions_fold_accented_case :
    lower "ÉaSS" = lower "ÉAsS" ∧ lower "Éa" ≠ lower "éa" ∧
    (upper "Éa").toList[0]? = some 'É' ∧
    byteLength (upper "Éa") = byteLength "Éa" ∧
    (contains "Éass" "as" = true ∧ contains (upper "Éass") (upper "as") = true) := by
  obtain ⟨_, _, _, _, _, variants, _⟩ := conversions_fold_case "ÉaSS" "ÉAsS"
  obtain ⟨_, _, _, _, _, apart, kept⟩ := conversions_fold_case "Éa" "éa"
  obtain ⟨_, _, _, _, _, _, searched⟩ := conversions_fold_case "Éass" "as"
  have found : contains "Éass" "as" = true := by decide
  refine ⟨variants.mpr (by decide), fun same => absurd (apart.mp same) (by decide), ?_, ?_, found, ?_⟩
  · exact ((kept upper (by simp)).2.2.1 0 'É' (by decide)).mpr (by decide)
  · exact (kept upper (by simp)).2.1
  · exact (searched upper (by simp)).2.2.2.2.2 found

end Primitives.Text
