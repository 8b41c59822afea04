import Primitives.Proofs.Plan

/-!
Which seeds a plan can ask for: none, a number within the limit on digits, or a blank one (`sound_plan`). A blank seed
takes a word with the separator attached to it by an equals sign. A separator on its own is no value: it is read as one,
or it stands behind another one, where nothing is a switch (`parted_of_readAll`).
-/
namespace Primitives.CommandLine

/-! ### Readings of words -/

/-- One of the words ends with an equals sign and the separator. -/
def AttachesSeparator (words : List String) : Prop := ∃ word ∈ words, ∃ beginning, word = beginning ++ "=" ++ "--"

theorem eq_of_splitAtEquals? {word before after : String} (split : splitAtEquals? word = some (before, after)) :
    word = before ++ "=" ++ after := by
  have joined := List.takeWhile_append_dropWhile (p := (· != '=')) (l := word.toList)
  unfold splitAtEquals? at split
  split at split
  · cases split
  · next c rest remaining =>
    have equals : c = '=' := by
      have stopped := List.head?_dropWhile_not (· != '=') word.toList
      simpa [remaining] using stopped
    cases split
    rw [remaining, equals] at joined
    apply String.ext
    simpa using joined.symm

namespace Menu

/-- Seeds have long spellings only. -/
def SeedsLong (m : Menu) : Prop := ∀ entry ∈ m.spellings, entry.2 = .seed → isShort entry.1 = false

theorem seedsLong_top : top.SeedsLong := by
  unfold SeedsLong
  decide

theorem seedsLong_info : info.SeedsLong := by
  unfold SeedsLong
  decide

theorem seedsLong_call : call.SeedsLong := by
  unfold SeedsLong
  decide

variable {m : Menu} {word : String}

theorem attached_of_candidates {spelling value : String} (long : m.SeedsLong)
    (member : (spelling, Switch.seed, some value) ∈ m.candidates word) :
    ∃ beginning, word = beginning ++ "=" ++ value := by
  unfold candidates at member
  split at member
  · next short =>
    obtain ⟨⟨spelled, switch⟩, listed, found⟩ := List.mem_filterMap.mp member
    obtain ⟨same, found⟩ := Option.ite_none_right_eq_some.mp found
    cases found
    -- the first two letters of a word with a single dash are no long spelling
    have shortSpelling : isShort spelling = true := by
      simp only [isShort, same] at short ⊢
      generalize word.toList = letters at short
      rcases letters with _ | ⟨a, _ | ⟨b, rest⟩⟩ <;> exact short
    rw [long (spelling, .seed) listed rfl] at shortSpelling
    cases shortSpelling
  · obtain ⟨⟨spelled, switch⟩, listed, found⟩ := List.mem_filterMap.mp member
    obtain ⟨_, found⟩ := Option.ite_none_right_eq_some.mp found
    cases split : splitAtEquals? word with
    | none =>
      rw [split] at found
      cases found
    | some parts =>
      rw [split] at found
      cases found
      exact ⟨_, eq_of_splitAtEquals? split⟩

/-- A value is attached to the seed by an equals sign. -/
theorem attached_of_read {short : Bool} {value : String} (long : m.SeedsLong)
    (read : m.read word = .ok (.switch .seed short (some value))) : ∃ beginning, word = beginning ++ "=" ++ value := by
  unfold Menu.read at read
  split at read
  · cases read
  · split at read
    · unfold readDashed at read
      split at read
      · next found =>
        cases read
        obtain ⟨parts, split, known⟩ := Option.bind_eq_some_iff.mp found
        obtain ⟨switch, _, same⟩ := Option.bind_eq_some_iff.mp known
        cases same
        exact ⟨_, eq_of_splitAtEquals? split⟩
      · split at read
        · next spelling _ _ only =>
          cases read
          have member : (spelling, Switch.seed, some value) ∈ m.candidates word := by rw [only]; simp
          exact attached_of_candidates long member
        · split at read <;> cases read
        · cases read
    · cases read

theorem read_ne_separator (m : Menu) (word : String) : m.read word ≠ .ok .separator := by
  intro read
  unfold Menu.read readDashed at read
  repeat' split at read
  all_goals cases read

end Menu

/-- A plain separator does not follow a switch: it is one only behind another separator. -/
def Parted : List (String × Reading) → Prop
  | [] => True
  | (_, .plain) :: rest => Parted rest
  | (_, .separator) :: rest => Parted rest
  | _ :: rest => rest.head? ≠ some ("--", .plain) ∧ Parted rest

/-- What is known of a reading among those of a list of words. -/
structure Known (words : List String) (entry : String × Reading) : Prop where
  inside : entry.1 ∈ words
  separator : entry.2 = .separator → entry.1 = "--"
  attached : ∀ short value, entry.2 = .switch .seed short (some value) →
    ∃ beginning, entry.1 = beginning ++ "=" ++ value

theorem parted_plain (words : List String) : Parted (words.map fun word => (word, .plain)) := by
  induction words with
  | nil => trivial
  | cons word rest ih => exact ih

namespace Menu

variable {m : Menu} {words : List String} {readings : List (String × Reading)}

theorem readAll_cons {word : String} {rest : List String} (other : word ≠ "--")
    (read : m.readAll (word :: rest) = .ok readings) :
    ∃ reading later, m.read word = .ok reading ∧ m.readAll rest = .ok later ∧ readings = (word, reading) :: later := by
  rw [readAll, if_neg other] at read
  obtain ⟨reading, first, read⟩ := exists_of_bind_ok read
  obtain ⟨later, remaining, same⟩ := exists_of_bind_ok read
  cases same
  exact ⟨reading, later, first, remaining, rfl⟩

theorem head?_of_readAll (read : m.readAll words = .ok readings) : readings.head? ≠ some ("--", .plain) := by
  cases words with
  | nil =>
    cases read
    simp
  | cons word rest =>
    by_cases separates : word = "--"
    · rw [readAll, if_pos separates] at read
      cases read
      simp
    · obtain ⟨reading, later, _, _, rfl⟩ := readAll_cons separates read
      simp [separates]

theorem parted_of_readAll (read : m.readAll words = .ok readings) : Parted readings := by
  induction words generalizing readings with
  | nil =>
    cases read
    trivial
  | cons word rest ih =>
    by_cases separates : word = "--"
    · rw [readAll, if_pos separates] at read
      cases read
      exact parted_plain rest
    · obtain ⟨reading, later, _, remaining, rfl⟩ := readAll_cons separates read
      have parted := ih remaining
      have apart := head?_of_readAll remaining
      cases reading with
      | plain | separator => exact parted
      | stray | switch switch short attached => exact ⟨apart, parted⟩

theorem known_of_readAll (read : m.readAll words = .ok readings) (long : m.SeedsLong) :
    ∀ entry ∈ readings, Known words entry := by
  induction words generalizing readings with
  | nil =>
    cases read
    simp
  | cons word rest ih =>
    by_cases separates : word = "--"
    · rw [readAll, if_pos separates] at read
      cases read
      have later : ∀ other ∈ rest, Known (word :: rest) (other, .plain) := fun other member =>
        ⟨List.mem_cons_of_mem word member, by simp, by simp⟩
      simpa using And.intro ⟨List.mem_cons_self, fun _ => separates, by simp⟩ later
    · obtain ⟨reading, later, first, remaining, rfl⟩ := readAll_cons separates read
      refine List.forall_mem_cons.mpr ⟨⟨List.mem_cons_self, fun separator => ?_, fun short value same => ?_⟩, ?_⟩
      · cases separator
        exact absurd first (read_ne_separator m word)
      · cases same
        exact attached_of_read long first
      · intro entry member
        obtain ⟨inside, separator, attached⟩ := ih remaining entry member
        exact ⟨List.mem_cons_of_mem word inside, separator, attached⟩

theorem joined_none {switch : Switch} {letters : List Char} {choices : List Choice}
    (joined : m.joined switch letters = .ok choices) : ∀ choice ∈ choices, choice.2 = none := by
  induction letters generalizing switch choices with
  | nil =>
    cases joined
    simp
  | cons c rest ih =>
    unfold Menu.joined at joined
    split at joined
    · obtain ⟨others, later, same⟩ := exists_of_bind_ok joined
      cases same
      intro choice member
      rcases List.mem_cons.mp member with rfl | member
      · rfl
      · exact ih later choice member
    · cases joined

end Menu

/-- The words of an item are among the given ones. It makes the seed blank only if one of these attaches the
    separator. -/
structure Item.Within (words : List String) (item : Item) : Prop where
  inside : ∀ word ∈ item.words, word ∈ words
  blank : ∀ given choices, item = .choices given (.ok choices) → (.seed, some "--") ∈ choices → AttachesSeparator words

namespace Menu

variable {m : Menu} {words : List String}

theorem within_attached {word value : String} {switch : Switch} {short : Bool} (inside : word ∈ words)
    (attached : switch = .seed → ∃ beginning, word = beginning ++ "=" ++ value) :
    Item.Within words (.choices [word] (m.attached switch short value)) := by
  refine ⟨by simpa [Item.words] using inside, fun given choices same member => ?_⟩
  cases ended : m.attached switch short value with
  | error error =>
    rw [ended] at same
    cases same
  | ok found =>
    rw [ended] at same
    cases same
    unfold Menu.attached at ended
    split at ended
    · cases ended
      cases List.mem_singleton.mp member
      exact ⟨word, inside, attached rfl⟩
    · split at ended
      · cases joined_none ended _ member
      · cases ended

theorem within_group {readings : List (String × Reading)} (parted : Parted readings)
    (known : ∀ entry ∈ readings, Known words entry) : ∀ item ∈ m.group readings, item.Within words := by
  fun_induction m.group readings with
  | case1 => simp
  | case2 word rest ih =>
    obtain ⟨first, later⟩ := List.forall_mem_cons.mp known
    refine List.forall_mem_cons.mpr ⟨⟨?_, by simp⟩, ih parted later⟩
    simpa [Item.words] using first.inside
  | case3 word rest ih =>
    obtain ⟨first, later⟩ := List.forall_mem_cons.mp known
    refine List.forall_mem_cons.mpr ⟨⟨?_, by simp⟩, ih parted later⟩
    have separator : word = "--" := first.separator rfl
    simpa [Item.words, separator] using first.inside
  | case4 word rest ih =>
    obtain ⟨first, later⟩ := List.forall_mem_cons.mp known
    refine List.forall_mem_cons.mpr ⟨⟨?_, by simp⟩, ih parted.2 later⟩
    simpa [Item.words] using first.inside
  | case5 word switch short value rest ih =>
    obtain ⟨first, later⟩ := List.forall_mem_cons.mp known
    refine List.forall_mem_cons.mpr ⟨within_attached first.inside fun seed => ?_, ih parted.2 later⟩
    subst seed
    exact first.attached short value rfl
  | case6 word switch short takes value rest ih =>
    obtain ⟨first, later⟩ := List.forall_mem_cons.mp known
    obtain ⟨second, later⟩ := List.forall_mem_cons.mp later
    refine List.forall_mem_cons.mpr ⟨⟨?_, fun given choices same member => ?_⟩, ih parted.2 later⟩
    · simpa [Item.words] using And.intro first.inside second.inside
    · cases same
      cases List.mem_singleton.mp member
      exact absurd rfl parted.1
  | case7 word switch short takes rest other ih =>
    obtain ⟨first, later⟩ := List.forall_mem_cons.mp known
    refine List.forall_mem_cons.mpr ⟨⟨?_, by simp⟩, ih parted.2 later⟩
    simpa [Item.words] using first.inside
  | case8 word switch short rest takes ih =>
    obtain ⟨first, later⟩ := List.forall_mem_cons.mp known
    refine List.forall_mem_cons.mpr ⟨⟨?_, fun given choices same member => ?_⟩, ih parted.2 later⟩
    · simpa [Item.words] using first.inside
    · cases same
      cases List.mem_singleton.mp member

/-- The items of a list of words. -/
theorem within_items {items : List Item} (long : m.SeedsLong) (made : m.items words = .ok items) :
    ∀ item ∈ items, item.Within words := by
  unfold Menu.items at made
  cases read : m.readAll words with
  | error error =>
    rw [read] at made
    cases made
  | ok readings =>
    rw [read] at made
    cases made
    exact within_group (parted_of_readAll read) (known_of_readAll read long)

end Menu

/-! ### Seeds of plans -/

/-- A seed that words can ask for. -/
def SeedSetting.Sound (words : List String) : SeedSetting → Prop
  | .unset => True
  | .number n => Numeral.Writable n
  | .blank => AttachesSeparator words

theorem AttachesSeparator.mono {words more : List String} (attaches : AttachesSeparator words)
    (inside : ∀ word ∈ words, word ∈ more) : AttachesSeparator more := by
  obtain ⟨word, member, beginning, same⟩ := attaches
  exact ⟨word, inside word member, beginning, same⟩

theorem Item.Within.mono {words more : List String} {item : Item} (within : item.Within words)
    (inside : ∀ word ∈ words, word ∈ more) : item.Within more where
  inside := fun word member => inside word (within.inside word member)
  blank := fun given choices same member => (within.blank given choices same member).mono inside

namespace Settings

variable {menu : Menu} {settings after : Settings} {words : List String}

theorem sound_choose {choice : Choice} (sound : settings.seed.Sound words)
    (blank : choice = (.seed, some "--") → AttachesSeparator words)
    (chosen : settings.choose menu choice = .ok after) : after.seed.Sound words := by
  obtain ⟨switch, value⟩ := choice
  cases switch with
  | help | version => cases chosen
  | verbose =>
    cases chosen
    exact sound
  | area =>
    simp only [choose, withArea] at chosen
    split at chosen
    · cases chosen
      exact sound
    · split at chosen
      · cases chosen
        exact sound
      · cases chosen
  | seed =>
    simp only [choose, withSeed] at chosen
    split at chosen
    · next separates =>
      cases chosen
      cases value with
      | none => exact absurd separates (by decide)
      | some word => exact blank (by rw [show word = "--" from separates])
    · split at chosen
      · next read =>
        cases chosen
        exact Numeral.writable_of_read? read
      · cases chosen

theorem sound_foldlM {choices : List Choice} (sound : settings.seed.Sound words)
    (blank : (.seed, some "--") ∈ choices → AttachesSeparator words)
    (chosen : choices.foldlM (choose menu) settings = .ok after) : after.seed.Sound words := by
  induction choices generalizing settings with
  | nil =>
    cases chosen
    exact sound
  | cons choice rest ih =>
    rw [List.foldlM_cons] at chosen
    obtain ⟨next, first, chosen⟩ := exists_of_bind_ok chosen
    refine ih (sound_choose sound (fun same => ?_) first) (fun member => ?_) chosen
    · exact blank (by rw [same]; exact List.mem_cons_self)
    · exact blank (List.mem_cons_of_mem choice member)

theorem sound_applyAll {items : List Item} {others : List String} (sound : settings.seed.Sound words)
    (within : ∀ item ∈ items, item.Within words) (applied : settings.applyAll menu items = .ok (after, others)) :
    after.seed.Sound words := by
  induction items generalizing settings others with
  | nil =>
    cases applied
    exact sound
  | cons item rest ih =>
    obtain ⟨first, later⟩ := List.forall_mem_cons.mp within
    cases item with
    | choices given choices =>
      cases choices with
      | error error => cases applied
      | ok choices =>
        rw [applyAll] at applied
        obtain ⟨next, chosen, applied⟩ := exists_of_bind_ok applied
        exact ih (sound_foldlM sound (first.blank given choices rfl) chosen) later applied
    | plain word | separator | stray word =>
      simp only [applyAll] at applied
      obtain ⟨⟨next, words⟩, rest_, same⟩ := exists_of_bind_ok applied
      cases same
      exact ih sound later rest_

end Settings

section Plans

variable {words inner : List String} {settings : Settings} {level : Level}

theorem within_itemsOf {menu : Menu} {items : List Item} (long : menu.SeedsLong)
    (made : itemsOf menu words = .ok items) : ∀ item ∈ items, item.Within words := by
  unfold itemsOf at made
  cases parted : menu.items words with
  | error error =>
    rw [parted] at made
    cases made
  | ok found =>
    rw [parted] at made
    cases made
    exact Menu.within_items long parted

theorem sound_infoLevel (sound : settings.seed.Sound words) (inside : ∀ word ∈ inner, word ∈ words)
    (leveled : infoLevel settings inner = .ok level) : level.settings.seed.Sound words := by
  obtain ⟨items, made, leveled⟩ := exists_of_bind_ok leveled
  obtain ⟨⟨after, others⟩, applied, same⟩ := exists_of_bind_ok leveled
  cases same
  exact Settings.sound_applyAll sound
    (fun item member => (within_itemsOf Menu.seedsLong_info made item member).mono inside) applied

theorem sound_callLevel (sound : settings.seed.Sound words) (inside : ∀ word ∈ inner, word ∈ words)
    (leveled : callLevel settings inner = .ok level) : level.settings.seed.Sound words := by
  obtain ⟨items, made, leveled⟩ := exists_of_bind_ok leveled
  obtain ⟨⟨first, before⟩, appliedBefore, leveled⟩ := exists_of_bind_ok leveled
  obtain ⟨⟨second, after⟩, appliedAfter, leveled⟩ := exists_of_bind_ok leveled
  have within := fun item member => (within_itemsOf Menu.seedsLong_call made item member).mono inside
  have soundBefore : first.seed.Sound words := by
    refine Settings.sound_applyAll sound (fun item member => ?_) appliedBefore
    exact within item ((List.takeWhile_sublist _).subset member)
  have soundAfter : second.seed.Sound words := by
    refine Settings.sound_applyAll soundBefore (fun item member => ?_) appliedAfter
    exact within item ((List.dropWhile_sublist _).subset ((List.dropWhile_sublist _).subset member))
  dsimp only at leveled
  split at leveled
  · cases leveled
    exact soundAfter
  · cases leveled

theorem sound_commandLevel {name : String} (sound : settings.seed.Sound words)
    (inside : ∀ word ∈ inner, word ∈ words) (leveled : commandLevel settings name inner = .ok level) :
    level.settings.seed.Sound words := by
  unfold commandLevel at leveled
  split at leveled
  · exact sound_infoLevel sound inside leveled
  · split at leveled
    · exact sound_callLevel sound inside leveled
    · cases leveled

theorem planUnless_eq_ok {others : List String} {given accepted : Plan}
    (accepts : planUnless others given = .ok accepted) : accepted = given := by
  unfold planUnless at accepts
  split at accepts
  · cases accepts
    rfl
  · cases accepts

/-- A plan asks for a seed that has a numeral, or for none, or for a blank one that a word attaches. -/
theorem sound_plan {accepted : Plan} (planned : plan words = .ok accepted) : accepted.seed.Sound words := by
  obtain ⟨items, made, planned⟩ := exists_of_bind_ok planned
  obtain ⟨⟨settings, others⟩, applied, planned⟩ := exists_of_bind_ok planned
  have within := within_itemsOf Menu.seedsLong_top made
  have sound : settings.seed.Sound words :=
    Settings.sound_applyAll (show Settings.initial.seed.Sound words from trivial)
      (fun item member => within item ((List.takeWhile_sublist _).subset member)) applied
  dsimp only at planned
  split at planned
  · rw [planUnless_eq_ok planned]
    exact sound
  · rw [planUnless_eq_ok planned]
    exact sound
  · next first rest _ remaining =>
    obtain ⟨level, leveled, planned⟩ := exists_of_bind_ok planned
    rw [planUnless_eq_ok planned]
    refine sound_commandLevel sound (fun word member => ?_) leveled
    obtain ⟨item, among, inItem⟩ := List.mem_flatMap.mp member
    have listed : item ∈ items := by
      apply (List.dropWhile_sublist Item.isSwitch).subset
      rw [remaining]
      exact List.mem_cons_of_mem first among
    exact (within item listed).inside word inItem

end Plans

end Primitives.CommandLine
