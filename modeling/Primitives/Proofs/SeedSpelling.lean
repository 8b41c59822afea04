import Primitives.Proofs.UnescapedPlan

/-!
How the words of a call spell the seed. A call takes any beginning of `--seed` from `--s` on, and a value may be
attached by an equals sign: a word that is read as a switch asks for help or is spelled so (`seed_of_read`), and no word
that is spelled so is read as a plain one (`read_ne_plain`).
-/
namespace Primitives.CommandLine

/-- A beginning of `--seed` that no other switch of a call has. -/
def IsSeedSpelling (spelling : String) : Prop :=
  "--s".toList <+: spelling.toList ∧ spelling.toList <+: "--seed".toList

/-- A spelling with the value that an equals sign attaches to it, if there is one. -/
def attach (spelling : String) : Option String → String
  | none => spelling
  | some value => spelling ++ "=" ++ value

/-- A word that spells the seed, alone or with a value attached. -/
def IsSeedWord (word : String) : Prop := ∃ spelling attached, IsSeedSpelling spelling ∧ word = attach spelling attached

/-! ### Attached values -/

section Attach

variable {spelling word : String} {attached : Option String}

theorem prefix_attach (spelling : String) (attached : Option String) :
    spelling.toList <+: (attach spelling attached).toList := by
  cases attached with
  | none => exact List.prefix_rfl
  | some value =>
    simp only [attach, String.toList_append, List.append_assoc]
    exact List.prefix_append _ _

/-- A word is split where the value was attached. -/
theorem splitAtEquals?_attach (bare : '=' ∉ spelling.toList) :
    splitAtEquals? (attach spelling attached) = attached.map (spelling, ·) := by
  have passed : ∀ c ∈ spelling.toList, (c != '=') = true := by
    intro c member
    rw [bne_iff_ne]
    rintro rfl
    exact bare member
  cases attached with
  | none =>
    have whole : spelling.toList.dropWhile (· != '=') = [] := List.dropWhile_eq_nil_iff.mpr passed
    rw [attach, splitAtEquals?, whole]
    rfl
  | some value =>
    have letters : (attach spelling (some value)).toList = spelling.toList ++ '=' :: value.toList := by simp [attach]
    simp [splitAtEquals?, letters, List.dropWhile_append_of_pos passed, List.takeWhile_append_of_pos passed]

theorem exists_attach (word : String) :
    ∃ beginning attached, '=' ∉ beginning.toList ∧ word = attach beginning attached := by
  cases split : splitAtEquals? word with
  | some parts =>
    refine ⟨parts.1, some parts.2, ?_, eq_of_splitAtEquals? split⟩
    unfold splitAtEquals? at split
    split at split
    · cases split
    · cases split
      intro member
      have passed := List.mem_takeWhile_imp (by simpa using member)
      simp at passed
  | none =>
    refine ⟨word, none, ?_, rfl⟩
    unfold splitAtEquals? at split
    split at split
    · next whole =>
      intro member
      have passed := List.dropWhile_eq_nil_iff.mp whole '=' member
      simp at passed
    · cases split

end Attach

namespace IsSeedSpelling

variable {spelling : String} (spelled : IsSeedSpelling spelling)

include spelled

theorem bare : '=' ∉ spelling.toList := fun member => absurd (spelled.2.subset member) (by decide)

theorem prefix_dashes_attach (attached : Option String) : "--s".toList <+: (attach spelling attached).toList :=
  spelled.1.trans (prefix_attach spelling attached)

theorem isShort_attach (attached : Option String) : isShort (attach spelling attached) = false := by
  have dashes : "--".toList <+: (attach spelling attached).toList :=
    List.IsPrefix.trans (by decide) (spelled.prefix_dashes_attach attached)
  rw [isShort, List.isPrefixOf_iff_prefix.mpr dashes]
  rfl

end IsSeedSpelling

/-! ### Switches of a call -/

namespace Menu

variable {m : Menu} {beginning spelling word : String} {switch : Switch} {attached value : Option String} {short : Bool}

theorem mem_candidates_attach (bare : '=' ∉ beginning.toList) (long : isShort (attach beginning attached) = false) :
    (spelling, switch, value) ∈ m.candidates (attach beginning attached) ↔
      (spelling, switch) ∈ m.spellings ∧ beginning.toList <+: spelling.toList ∧ value = attached := by
  have candidates : m.candidates (attach beginning attached) = m.spellings.filterMap fun entry =>
      if beginning.toList.isPrefixOf entry.1.toList then some (entry.1, entry.2, attached) else none := by
    rw [Menu.candidates, if_neg (by simp [long]), splitAtEquals?_attach bare]
    cases attached <;> rfl
  rw [candidates, List.mem_filterMap]
  constructor
  · rintro ⟨⟨spelled, named⟩, listed, found⟩
    obtain ⟨begins, found⟩ := Option.ite_none_right_eq_some.mp found
    cases found
    exact ⟨listed, List.isPrefixOf_iff_prefix.mp begins, rfl⟩
  · rintro ⟨listed, begins, rfl⟩
    exact ⟨(spelling, switch), listed, if_pos (List.isPrefixOf_iff_prefix.mpr begins)⟩

theorem spellings_call (member : (spelling, switch) ∈ call.spellings) :
    switch = .help ∨ switch = .seed ∧ spelling = "--seed" := by
  simp only [call, List.mem_cons, Prod.mk.injEq, List.not_mem_nil, or_false] at member
  rcases member with ⟨_, help⟩ | ⟨_, help⟩ | ⟨spelled, seed⟩
  · exact .inl help
  · exact .inl help
  · exact .inr ⟨seed, spelled⟩

theorem find?_call (found : call.find? spelling = some switch) :
    switch = .help ∨ switch = .seed ∧ IsSeedSpelling spelling := by
  obtain ⟨earlier, later, listed, _⟩ := List.lookup_eq_some_iff.mp found
  have member : (spelling, switch) ∈ call.spellings := by simp [listed]
  refine (spellings_call member).imp_right fun ⟨seed, spelled⟩ => ⟨seed, ?_⟩
  rw [spelled]
  exact ⟨by decide, by decide⟩

/-- A beginning without the `s` would be one of `--help` as well. -/
theorem isSeedSpelling_of_candidates (only : call.candidates word = [(spelling, .seed, attached)]) :
    ∃ beginning, IsSeedSpelling beginning ∧ word = attach beginning attached := by
  have candidate : (spelling, Switch.seed, attached) ∈ call.candidates word := by simp [only]
  obtain rfl : spelling = "--seed" := by simpa using spellings_call (mem_of_candidates candidate)
  cases long : isShort word with
  | true =>
    -- a word with one dash stands for a spelling of two characters
    simp only [candidates, long, if_true, List.mem_filterMap] at candidate
    obtain ⟨⟨spelled, named⟩, _, found⟩ := candidate
    obtain ⟨same, found⟩ := Option.ite_none_right_eq_some.mp found
    cases found
    have length := congrArg List.length same
    simp at length
    omega
  | false =>
    obtain ⟨beginning, value, bare, rfl⟩ := exists_attach word
    obtain ⟨_, begins, rfl⟩ := (mem_candidates_attach bare long).mp candidate
    refine ⟨beginning, ⟨?_, begins⟩, rfl⟩
    by_cases enough : 3 ≤ beginning.toList.length
    · exact List.prefix_of_prefix_length_le (by decide) begins enough
    · have short : beginning.toList.length ≤ 2 := by omega
      have dashes : beginning.toList <+: "--".toList := List.prefix_of_prefix_length_le begins (by decide) short
      have help : ("--help", Switch.help, attached) ∈ call.candidates (attach beginning attached) :=
        (mem_candidates_attach bare long).mpr ⟨by simp [call], dashes.trans (by decide), rfl⟩
      rw [only] at help
      simp at help

/-- A word that a call reads as a switch asks for help or spells the seed. -/
theorem seed_of_read (read : call.read word = .ok (.switch switch short attached)) :
    switch = .help ∨ switch = .seed ∧ ∃ spelling, IsSeedSpelling spelling ∧ word = attach spelling attached := by
  unfold Menu.read at read
  split at read
  · next found =>
    cases read
    exact (find?_call found).imp_right fun ⟨seed, spelled⟩ => ⟨seed, word, spelled, rfl⟩
  · split at read
    · unfold readDashed at read
      split at read
      · next found =>
        cases read
        obtain ⟨⟨spelling, value⟩, split, found⟩ := Option.bind_eq_some_iff.mp found
        obtain ⟨named, known, same⟩ := Option.bind_eq_some_iff.mp found
        cases same
        exact (find?_call known).imp_right fun ⟨seed, spelled⟩ => ⟨seed, _, spelled, eq_of_splitAtEquals? split⟩
      · split at read
        · next spelling _ _ only =>
          cases read
          have listed := spellings_call (mem_of_candidates (only ▸ List.mem_singleton_self _))
          refine listed.imp_right fun ⟨seed, _⟩ => ⟨seed, ?_⟩
          subst seed
          exact isSeedSpelling_of_candidates only
        · split at read <;> cases read
        · cases read
    · cases read

theorem read_ne_plain (seed : IsSeedWord word) : call.read word ≠ .ok .plain := by
  obtain ⟨spelling, attached, spelled, rfl⟩ := seed
  have candidate : ("--seed", Switch.seed, attached) ∈ call.candidates (attach spelling attached) :=
    (mem_candidates_attach spelled.bare (spelled.isShort_attach attached)).mpr ⟨by simp [call], spelled.2, rfl⟩
  obtain ⟨rest, letters⟩ := spelled.prefix_dashes_attach attached
  intro read
  unfold Menu.read at read
  split at read
  · cases read
  · rw [← letters] at read
    change call.readDashed (attach spelling attached) = .ok .plain at read
    unfold readDashed at read
    split at read
    · cases read
    · split at read
      · cases read
      · next nothing =>
        rw [nothing] at candidate
        cases candidate
      · cases read

end Menu

end Primitives.CommandLine
