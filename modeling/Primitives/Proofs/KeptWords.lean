import Primitives.Proofs.SeedSpelling

/-!
A call keeps its words. Grouping the words of a level takes each of them once and in order (`Grouped`), so that what a
call is made with are the words after its command, less the options of the seed and the separators that are taken out:
one next to the name and the first one among the arguments (`call_keeps_words`).
-/
namespace Primitives.CommandLine

/-- The item is a switch without an error: it has its value, if it takes one. -/
def Item.Complete (item : Item) : Prop := ∃ own choices, item = .choices own (.ok choices)

/-! ### Grouping -/

/-- How the words of a level make up its items: the first separator is the last item that is not plain, and a switch
    takes the next word only if that is plain. -/
inductive Grouped (m : Menu) : List String → List Item → Prop
  | nil : Grouped m [] []
  | separator (rest : List String) : Grouped m ("--" :: rest) (.separator :: rest.map .plain)
  | plain {word : String} {rest : List String} {items : List Item} : word ≠ "--" → m.read word = .ok .plain →
    Grouped m rest items → Grouped m (word :: rest) (.plain word :: items)
  | stray {word : String} {rest : List String} {items : List Item} : word ≠ "--" → m.read word = .ok .stray →
    Grouped m rest items → Grouped m (word :: rest) (.stray word :: items)
  | attached {word value : String} {switch : Switch} {short : Bool} {rest : List String} {items : List Item} :
    word ≠ "--" → m.read word = .ok (.switch switch short (some value)) → Grouped m rest items →
    Grouped m (word :: rest) (.choices [word] (m.attached switch short value) :: items)
  | valued {word value : String} {switch : Switch} {short : Bool} {rest : List String} {items : List Item} :
    word ≠ "--" → m.read word = .ok (.switch switch short none) → switch.takesValue = true →
    value ≠ "--" → m.read value = .ok .plain → Grouped m rest items →
    Grouped m (word :: value :: rest) (.choices [word, value] (.ok [(switch, some value)]) :: items)
  | missing {word : String} {switch : Switch} {short : Bool} {rest : List String} {items : List Item} :
    word ≠ "--" → m.read word = .ok (.switch switch short none) → switch.takesValue = true →
    (∀ value ∈ rest.head?, value ≠ "--" → m.read value ≠ .ok .plain) → Grouped m rest items →
    Grouped m (word :: rest) (.choices [word] (.error (.missingValue switch)) :: items)
  | single {word : String} {switch : Switch} {short : Bool} {rest : List String} {items : List Item} :
    word ≠ "--" → m.read word = .ok (.switch switch short none) → switch.takesValue = false → Grouped m rest items →
    Grouped m (word :: rest) (.choices [word] (.ok [(switch, none)]) :: items)

namespace Menu

variable {m : Menu} {words : List String}

theorem cons_of_readAll {word : String} {reading : Reading} {later : List (String × Reading)}
    (read : m.readAll words = .ok ((word, reading) :: later)) : ∃ rest, words = word :: rest ∧
      (word = "--" ∧ reading = .separator ∧ later = (rest.map fun other => (other, .plain)) ∨
        word ≠ "--" ∧ m.read word = .ok reading ∧ m.readAll rest = .ok later) := by
  cases words with
  | nil => cases read
  | cons first rest =>
    by_cases separates : first = "--"
    · rw [readAll, if_pos separates] at read
      cases read
      exact ⟨rest, rfl, .inl ⟨separates, rfl, rfl⟩⟩
    · obtain ⟨_, _, one, remaining, same⟩ := readAll_cons separates read
      cases same
      exact ⟨rest, rfl, .inr ⟨separates, one, remaining⟩⟩

/-- The case of `cons_of_readAll` for readings other than a separator. -/
theorem cons_of_readAll_ne {word : String} {reading : Reading} {later : List (String × Reading)}
    (read : m.readAll words = .ok ((word, reading) :: later)) (other : reading ≠ .separator) :
    ∃ rest, words = word :: rest ∧ word ≠ "--" ∧ m.read word = .ok reading ∧ m.readAll rest = .ok later := by
  obtain ⟨rest, same, ⟨_, separates, _⟩ | remaining⟩ := cons_of_readAll read
  · exact absurd separates other
  · exact ⟨rest, same, remaining⟩

theorem group_plain (m : Menu) (words : List String) :
    m.group (words.map fun word => (word, .plain)) = words.map .plain := by
  induction words with
  | nil => rfl
  | cons word rest ih => rw [List.map_cons, group, ih, List.map_cons]

theorem grouped_group {readings : List (String × Reading)} (read : m.readAll words = .ok readings) :
    Grouped m words (m.group readings) := by
  fun_induction m.group readings generalizing words with
  | case1 =>
    cases words with
    | nil => exact .nil
    | cons word rest =>
      by_cases separates : word = "--"
      · rw [readAll, if_pos separates] at read
        cases read
      · obtain ⟨_, _, _, _, same⟩ := readAll_cons separates read
        cases same
  | case2 word rest ih =>
    obtain ⟨later, rfl, other, one, remaining⟩ := cons_of_readAll_ne read (by simp)
    exact .plain other one (ih remaining)
  | case3 word rest ih =>
    obtain ⟨later, rfl, ⟨rfl, _, rfl⟩ | ⟨_, one, _⟩⟩ := cons_of_readAll read
    · rw [group_plain]
      exact .separator later
    · exact absurd one (read_ne_separator m word)
  | case4 word rest ih =>
    obtain ⟨later, rfl, other, one, remaining⟩ := cons_of_readAll_ne read (by simp)
    exact .stray other one (ih remaining)
  | case5 word switch short value rest ih =>
    obtain ⟨later, rfl, other, one, remaining⟩ := cons_of_readAll_ne read (by simp)
    exact .attached other one (ih remaining)
  | case6 word switch short takes value rest ih =>
    obtain ⟨later, rfl, other, one, remaining⟩ := cons_of_readAll_ne read (by simp)
    obtain ⟨last, rfl, plainValue, two, remaining⟩ := cons_of_readAll_ne remaining (by simp)
    exact .valued other one takes plainValue two (ih remaining)
  | case7 word switch short takes rest absent ih =>
    obtain ⟨later, rfl, other, one, remaining⟩ := cons_of_readAll_ne read (by simp)
    refine .missing other one takes (fun value member plainValue readPlain => ?_) (ih remaining)
    obtain ⟨last, rfl⟩ := List.head?_eq_some_iff.mp member
    obtain ⟨reading, others, two, _, same⟩ := readAll_cons plainValue remaining
    rw [readPlain] at two
    cases two
    exact absent value others same
  | case8 word switch short rest takes ih =>
    obtain ⟨later, rfl, other, one, remaining⟩ := cons_of_readAll_ne read (by simp)
    exact .single other one (by simpa using takes) (ih remaining)

end Menu

theorem grouped_of_itemsOf {menu : Menu} {words : List String} {items : List Item}
    (made : itemsOf menu words = .ok items) : Grouped menu words items := by
  unfold itemsOf Menu.items at made
  cases read : menu.readAll words with
  | error error =>
    rw [read] at made
    cases made
  | ok readings =>
    rw [read] at made
    cases made
    exact Menu.grouped_group read

/-- Separators and plain words all belong to the row that they begin. -/
theorem takeWhile_separator (rest : List String) :
    (Item.separator :: rest.map .plain).takeWhile (!·.isSwitch) = .separator :: rest.map .plain := by
  simp [Item.isSwitch]

theorem takeWhile_plain (word : String) (items : List Item) :
    (Item.plain word :: items).takeWhile (!·.isSwitch) = .plain word :: items.takeWhile (!·.isSwitch) :=
  List.takeWhile_cons_of_pos rfl

namespace Grouped

variable {m : Menu} {words : List String} {items : List Item}

theorem flatMap_map_plain (words : List String) : (words.map Item.plain).flatMap Item.words = words := by
  rw [List.flatMap_map]
  exact List.flatMap_singleton' words

/-- No word is lost, doubled or moved. -/
theorem flatMap_words (grouped : Grouped m words items) : items.flatMap Item.words = words := by
  induction grouped with
  | nil => rfl
  | separator rest =>
    rw [List.flatMap_cons, flatMap_map_plain]
    rfl
  | plain _ _ _ ih | stray _ _ _ ih | attached _ _ _ ih | valued _ _ _ _ _ _ ih | missing _ _ _ _ _ ih
  | single _ _ _ _ ih =>
    rw [List.flatMap_cons, ih]
    rfl

/-- The items behind the first switches are made of the words behind these. -/
theorem behind_switches (grouped : Grouped m words items) :
    ∃ later, words = (items.takeWhile Item.isSwitch).flatMap Item.words ++ later ∧
      Grouped m later (items.dropWhile Item.isSwitch) := by
  induction grouped with
  | nil => exact ⟨[], rfl, .nil⟩
  | separator rest => exact ⟨_, rfl, .separator rest⟩
  | plain other one later => exact ⟨_, rfl, .plain other one later⟩
  | stray _ _ _ ih | attached _ _ _ ih | valued _ _ _ _ _ _ ih | missing _ _ _ _ _ ih | single _ _ _ _ ih =>
    obtain ⟨later, rfl, behind⟩ := ih
    exact ⟨later, rfl, behind⟩

/-- The words of the first row are plain up to the separator, behind which there are no switches. -/
theorem row (grouped : Grouped m words items) :
    (∀ word ∈ ((items.takeWhile (!·.isSwitch)).flatMap Item.words).takeWhile (· != "--"), m.read word = .ok .plain) ∧
    ("--" ∈ (items.takeWhile (!·.isSwitch)).flatMap Item.words → items.dropWhile (!·.isSwitch) = []) := by
  induction grouped with
  | nil => simp
  | separator rest => simp [Item.isSwitch, Item.words]
  | @plain word rest items other one _ ih =>
    have behind : (Item.plain word :: items).dropWhile (!·.isSwitch) = items.dropWhile (!·.isSwitch) :=
      List.dropWhile_cons_of_pos rfl
    rw [takeWhile_plain, behind, List.flatMap_cons, Item.words, List.singleton_append,
      List.takeWhile_cons_of_pos (by simpa using other), List.forall_mem_cons]
    exact ⟨⟨one, ih.1⟩, fun member => ih.2 (List.mem_of_ne_of_mem (Ne.symm other) member)⟩
  | _ => simp [Item.isSwitch]

/-- How the items begin whose first word is read in a given way: what that word is, and whether it takes the next one,
    is settled by its reading. -/
def Begins (m : Menu) (word : String) (rest : List String) (items : List Item) : Reading → Prop
  | .plain => ∃ later, items = .plain word :: later ∧ Grouped m rest later
  | .stray => ∃ later, items = .stray word :: later ∧ Grouped m rest later
  | .separator => False
  | .switch switch short (some value) =>
    ∃ later, items = .choices [word] (m.attached switch short value) :: later ∧ Grouped m rest later
  | .switch switch _ none =>
    (switch.takesValue = false →
      ∃ later, items = .choices [word] (.ok [(switch, none)]) :: later ∧ Grouped m rest later) ∧
    ∀ value others, switch.takesValue = true → rest = value :: others → value ≠ "--" → m.read value = .ok .plain →
      ∃ later, items = .choices [word, value] (.ok [(switch, some value)]) :: later ∧ Grouped m others later

theorem begins {word : String} {rest : List String} {reading : Reading} (whole : Grouped m (word :: rest) items)
    (other : word ≠ "--") (read : m.read word = .ok reading) : Begins m word rest items reading := by
  cases whole with
  | separator => exact absurd rfl other
  | plain _ one later | stray _ one later | attached _ one later =>
    cases one.symm.trans read
    exact ⟨_, rfl, later⟩
  | valued _ one takes _ _ later =>
    cases one.symm.trans read
    refine ⟨fun single => Bool.noConfusion (takes.symm.trans single), fun value others _ same _ _ => ?_⟩
    cases same
    exact ⟨_, rfl, later⟩
  | missing _ one takes absent _ =>
    cases one.symm.trans read
    refine ⟨fun single => Bool.noConfusion (takes.symm.trans single), fun value others _ same standing two => ?_⟩
    subst same
    exact absurd two (absent value rfl standing)
  | single _ one takes later =>
    cases one.symm.trans read
    exact ⟨fun _ => ⟨_, rfl, later⟩, fun _ _ taking _ _ _ => Bool.noConfusion (takes.symm.trans taking)⟩

/-- Switches that have their values stay as they are when a plain word follows. -/
theorem append {before rest : List String} {first : List Item} {word : String} (grouped : Grouped m before first)
    (complete : ∀ item ∈ first, item.Complete) (plain : m.read word = .ok .plain) (other : word ≠ "--")
    (whole : Grouped m (before ++ word :: rest) items) :
    ∃ second, items = first ++ .plain word :: second ∧ Grouped m rest second := by
  induction grouped generalizing items with
  | nil => exact begins whole other plain
  | separator | plain | stray | missing =>
    obtain ⟨_, _, same⟩ := complete _ List.mem_cons_self
    cases same
  | attached separates one _ ih =>
    obtain ⟨later, rfl, remaining⟩ := begins whole separates one
    obtain ⟨second, rfl, behind⟩ := ih (List.forall_mem_cons.mp complete).2 remaining
    exact ⟨second, rfl, behind⟩
  | valued separates one takes standing two _ ih =>
    obtain ⟨later, rfl, remaining⟩ := (begins whole separates one).2 _ _ takes rfl standing two
    obtain ⟨second, rfl, behind⟩ := ih (List.forall_mem_cons.mp complete).2 remaining
    exact ⟨second, rfl, behind⟩
  | single separates one takes _ ih =>
    obtain ⟨later, rfl, remaining⟩ := (begins whole separates one).1 takes
    obtain ⟨second, rfl, behind⟩ := ih (List.forall_mem_cons.mp complete).2 remaining
    exact ⟨second, rfl, behind⟩

end Grouped

/-! ### Options of a call -/

/-- The words of one option with which a call sets the seed, and the value that it gives. -/
inductive SeedOption : List String → String → Prop
  | separate {spelling value : String} : IsSeedSpelling spelling → value ≠ "--" → SeedOption [spelling, value] value
  | attached {spelling value : String} : IsSeedSpelling spelling → SeedOption [spelling ++ "=" ++ value] value

/-- Words that are nothing but options of the seed. Each gives it a number, or leaves it blank by a separator. -/
inductive SeedOptions : List String → Prop
  | nil : SeedOptions []
  | cons {own rest : List String} {value : String} : SeedOption own value →
    value = "--" ∨ (Numeral.read? value).isSome = true → SeedOptions rest → SeedOptions (own ++ rest)

/-- An item that makes choices sets the seed or asks for help. -/
def Item.Seeds (item : Item) : Prop :=
  ∀ own choices, item = .choices own (.ok choices) →
    (∃ value, SeedOption own value ∧ choices = [(.seed, some value)]) ∨ ∃ value, (.help, value) ∈ choices

theorem Menu.mem_of_joined {m : Menu} {switch : Switch} {letters : List Char} {choices : List Choice}
    (joined : m.joined switch letters = .ok choices) : (switch, none) ∈ choices := by
  cases letters with
  | nil =>
    cases joined
    simp
  | cons c rest =>
    unfold Menu.joined at joined
    split at joined
    · obtain ⟨others, _, same⟩ := exists_of_bind_ok joined
      cases same
      simp
    · cases joined

theorem Grouped.seeds {words : List String} {items : List Item} (grouped : Grouped .call words items) :
    ∀ item ∈ items, item.Seeds := by
  induction grouped with
  | nil => simp
  | separator rest => simp [Item.Seeds]
  | plain _ _ _ ih | stray _ _ _ ih | missing _ _ _ _ _ ih =>
    exact List.forall_mem_cons.mpr ⟨by simp [Item.Seeds], ih⟩
  | @attached word value switch short _ _ _ one _ ih =>
    refine List.forall_mem_cons.mpr ⟨fun own choices same => ?_, ih⟩
    obtain ⟨rfl, made⟩ : [word] = own ∧ Menu.call.attached switch short value = .ok choices := by simpa using same
    unfold Menu.attached at made
    rcases Menu.seed_of_read one with rfl | ⟨rfl, spelling, spelled, rfl⟩
    · simp only [Switch.takesValue, Bool.false_eq_true, if_false] at made
      split at made
      · exact .inr ⟨none, Menu.mem_of_joined made⟩
      · cases made
    · cases made
      exact .inl ⟨value, .attached spelled, rfl⟩
  | @valued word value switch _ _ _ _ one takes standing _ _ ih =>
    refine List.forall_mem_cons.mpr ⟨fun own choices same => ?_, ih⟩
    cases same
    rcases Menu.seed_of_read one with rfl | ⟨rfl, spelling, spelled, rfl⟩
    · cases takes
    · exact .inl ⟨value, .separate spelled standing, rfl⟩
  | @single word switch _ _ _ _ one takes _ ih =>
    refine List.forall_mem_cons.mpr ⟨fun own choices same => ?_, ih⟩
    cases same
    rcases Menu.seed_of_read one with rfl | ⟨rfl, _⟩
    · exact .inr ⟨none, List.mem_singleton_self _⟩
    · cases takes

namespace Settings

variable {menu : Menu} {settings after : Settings}

theorem foldlM_ne_of_help {choices : List Choice} {value : Option String} (help : (.help, value) ∈ choices) :
    choices.foldlM (choose menu) settings ≠ .ok after := by
  intro chosen
  induction choices generalizing settings with
  | nil => cases help
  | cons choice rest ih =>
    rw [List.foldlM_cons] at chosen
    obtain ⟨next, first, chosen⟩ := exists_of_bind_ok chosen
    rcases List.mem_cons.mp help with rfl | later
    · cases first
    · exact ih later chosen

theorem value_of_withSeed {value : String} (set : settings.withSeed menu value = .ok after) :
    value = "--" ∨ (Numeral.read? value).isSome = true := by
  unfold withSeed at set
  split at set
  · next separates => exact .inl separates
  · split at set
    · next number => exact .inr (by rw [number]; rfl)
    · cases set

/-- Items that leave no word over are switches that have their values. -/
theorem complete_of_applyAll {items : List Item} (applied : settings.applyAll menu items = .ok (after, [])) :
    ∀ item ∈ items, item.Complete := by
  induction items generalizing settings with
  | nil => simp
  | cons item rest ih =>
    cases item with
    | choices own choices =>
      cases choices with
      | error error => cases applied
      | ok choices =>
        rw [applyAll] at applied
        obtain ⟨next, _, applied⟩ := exists_of_bind_ok applied
        exact List.forall_mem_cons.mpr ⟨⟨own, choices, rfl⟩, ih applied⟩
    | plain word | separator | stray word =>
      simp only [applyAll] at applied
      obtain ⟨⟨next, others⟩, _, same⟩ := exists_of_bind_ok applied
      simp [Item.words] at same

theorem seedOptions_of_applyAll {items : List Item} (seeds : ∀ item ∈ items, item.Seeds)
    (applied : settings.applyAll menu items = .ok (after, [])) : SeedOptions (items.flatMap Item.words) := by
  have complete := complete_of_applyAll applied
  induction items generalizing settings with
  | nil => exact .nil
  | cons item rest ih =>
    obtain ⟨first, later⟩ := List.forall_mem_cons.mp seeds
    obtain ⟨⟨own, choices, rfl⟩, completeLater⟩ := List.forall_mem_cons.mp complete
    rw [applyAll] at applied
    obtain ⟨next, chosen, remaining⟩ := exists_of_bind_ok applied
    rcases first own choices rfl with ⟨value, option, rfl⟩ | ⟨_, help⟩
    · rw [List.foldlM_cons] at chosen
      obtain ⟨_, set, _⟩ := exists_of_bind_ok chosen
      exact .cons option (value_of_withSeed set) (ih later remaining completeLater)
    · exact absurd chosen (foldlM_ne_of_help help)

end Settings

/-! ### The words of a call -/

/-- How the words after the command are parted: a row of words stands between options of the seed. No word of the row
    before its first separator spells the seed, and behind a separator there are no options. -/
structure Arranged (words opening row closing : List String) : Prop where
  joined : words = opening ++ row ++ closing
  opened : SeedOptions opening
  closed : SeedOptions closing
  unseeded : ∀ word ∈ row.takeWhile (· != "--"), ¬ IsSeedWord word
  last : "--" ∈ row → closing = []

/-- The name and the arguments that a row of words gives. One separator next to the name is taken out, the one before it
    if there is one, and the first separator behind that as well. -/
inductive Called : List String → String → List String → Prop
  | behind (name : String) (rest : List String) : Called ("--" :: name :: rest) name (rest.erase "--")
  | ahead {name : String} (rest : List String) : name ≠ "--" → Called (name :: "--" :: rest) name (rest.erase "--")
  | apart {name : String} {rest : List String} : name ≠ "--" → rest.head? ≠ some "--" →
    Called (name :: rest) name (rest.erase "--")

theorem Grouped.called {m : Menu} {words args : List String} {items : List Item} {name : String}
    (grouped : Grouped m words items) (callee : callee? (items.takeWhile (!·.isSwitch)) = some (name, args)) :
    Called ((items.takeWhile (!·.isSwitch)).flatMap Item.words) name args := by
  cases grouped with
  | nil => cases callee
  | separator rest =>
    rw [takeWhile_separator] at callee ⊢
    cases rest with
    | nil => cases callee
    | cons _ rest =>
      cases callee
      rw [List.map_cons, List.flatMap_cons, List.flatMap_cons, Grouped.flatMap_map_plain]
      exact .behind name rest
  | plain other _ later =>
    rw [takeWhile_plain] at callee ⊢
    cases later with
    | nil =>
      cases callee
      exact .apart other (by simp)
    | separator rest =>
      rw [takeWhile_separator] at callee ⊢
      cases callee
      rw [List.flatMap_cons, List.flatMap_cons, Grouped.flatMap_map_plain]
      exact .ahead rest other
    | plain standing _ _ =>
      rw [takeWhile_plain] at callee ⊢
      cases callee
      exact .apart other (by simpa [Item.words] using standing)
    | stray | attached | valued | missing | single =>
      cases callee
      exact .apart other (by simp [Item.isSwitch])
  | stray | attached | valued | missing | single => cases callee

theorem nil_of_planUnless {others : List String} {given accepted : Plan}
    (accepts : planUnless others given = .ok accepted) : others = [] := by
  unfold planUnless at accepts
  split at accepts
  · next empty => simpa using empty
  · cases accepts

/-- A call that leaves no word over is made with a row of its words. -/
theorem arranged_of_callLevel {settings : Settings} {words : List String} {level : Level}
    (leveled : callLevel settings words = .ok level) (taken : level.others = []) :
    ∃ opening row closing name args, Arranged words opening row closing ∧ Called row name args ∧
      level.command = .call name args := by
  obtain ⟨items, made, leveled⟩ := exists_of_bind_ok leveled
  obtain ⟨⟨first, before⟩, appliedBefore, leveled⟩ := exists_of_bind_ok leveled
  obtain ⟨⟨second, after⟩, appliedAfter, leveled⟩ := exists_of_bind_ok leveled
  dsimp only at leveled
  split at leveled
  · next name args callee =>
    cases leveled
    obtain ⟨rfl, rfl⟩ : before = [] ∧ after = [] := by simpa using taken
    have grouped := grouped_of_itemsOf made
    obtain ⟨later, split, behind⟩ := grouped.behind_switches
    have seedsBefore : ∀ item ∈ items.takeWhile Item.isSwitch, item.Seeds := fun item member =>
      grouped.seeds item ((List.takeWhile_sublist _).subset member)
    have seedsAfter : ∀ item ∈ (items.dropWhile Item.isSwitch).dropWhile (!·.isSwitch), item.Seeds :=
      fun item member => behind.seeds item ((List.dropWhile_sublist _).subset member)
    refine ⟨_, _, _, name, args, ⟨?_, Settings.seedOptions_of_applyAll seedsBefore appliedBefore,
      Settings.seedOptions_of_applyAll seedsAfter appliedAfter, ?_, ?_⟩, behind.called callee, rfl⟩
    · rw [List.append_assoc, ← List.flatMap_append, List.takeWhile_append_dropWhile, behind.flatMap_words]
      exact split
    · intro word member seed
      exact Menu.read_ne_plain seed (behind.row.1 word member)
    · intro separated
      rw [behind.row.2 separated]
      rfl
  · cases leveled

/-- A line without a command is made of switches that have their values. -/
theorem complete_of_plan {words : List String} {accepted : Plan} (planned : plan words = .ok accepted)
    (idle : accepted.command = none) :
    ∃ items, itemsOf .top words = .ok items ∧ ∀ item ∈ items, item.Complete := by
  obtain ⟨items, made, planned⟩ := exists_of_bind_ok planned
  obtain ⟨⟨settings, others⟩, applied, planned⟩ := exists_of_bind_ok planned
  dsimp only at planned
  split at planned
  · next nothing =>
    have whole : items.takeWhile Item.isSwitch = items := by
      simpa [nothing] using List.takeWhile_append_dropWhile (p := Item.isSwitch) (l := items)
    rw [whole, nil_of_planUnless planned] at applied
    exact ⟨items, made, Settings.complete_of_applyAll applied⟩
  · exact absurd (nil_of_planUnless planned) (by simp)
  · obtain ⟨level, _, planned⟩ := exists_of_bind_ok planned
    rw [planUnless_eq_ok planned] at idle
    cases idle

/-- The words behind the command are the words of its level. -/
theorem callLevel_of_plan {before words : List String} {idle accepted : Plan} (alone : plan before = .ok idle)
    (noCommand : idle.command = none) (planned : plan (before ++ "call" :: words) = .ok accepted) :
    ∃ settings level, callLevel settings words = .ok level ∧ level.others = [] ∧
      accepted.command = some level.command := by
  obtain ⟨first, madeBefore, complete⟩ := complete_of_plan alone noCommand
  obtain ⟨items, made, planned⟩ := exists_of_bind_ok planned
  obtain ⟨⟨settings, others⟩, _, planned⟩ := exists_of_bind_ok planned
  obtain ⟨second, rfl, behind⟩ := (grouped_of_itemsOf madeBefore).append complete
    (Menu.read_of_ordinary Menu.dashed_top (.inl (by decide))) (by decide) (grouped_of_itemsOf made)
  have switches : ∀ item ∈ first, item.isSwitch = true := by
    intro item member
    obtain ⟨own, choices, rfl⟩ := complete item member
    rfl
  have standing : ∀ item ∈ (Item.plain "call" :: second).head?, item.isSwitch = false := by simp [Item.isSwitch]
  dsimp only at planned
  rw [(span_isSwitch switches standing).2] at planned
  obtain ⟨level, leveled, planned⟩ := exists_of_bind_ok planned
  refine ⟨settings, level, ?_, ?_, ?_⟩
  · rw [behind.flatMap_words] at leveled
    exact leveled
  · exact (List.append_eq_nil_iff.mp (nil_of_planUnless planned)).2
  · rw [planUnless_eq_ok planned]

/-- A call is made with the words that it is given. If a line is accepted in which `call` stands behind options
    alone, the words after it are a row between options of the seed. The name and the arguments are the words of that
    row in their order; only a separator next to the name and the first one behind that are taken out. The program runs
    the call with just these words. -/
theorem call_keeps_words (before words : List String) {idle accepted : Plan} (alone : plan before = .ok idle)
    (noCommand : idle.command = none) (planned : plan (before ++ "call" :: words) = .ok accepted) :
    ∃ opening row closing name args, Arranged words opening row closing ∧ Called row name args ∧
      accepted.command = some (.call name args) ∧
      ∀ colors around, (run colors around (before ++ "call" :: words)).1 =
        runCall (colors && allowsColors around) around accepted name args := by
  obtain ⟨settings, level, leveled, taken, command⟩ := callLevel_of_plan alone noCommand planned
  obtain ⟨opening, row, closing, name, args, arranged, called, made⟩ := arranged_of_callLevel leveled taken
  rw [made] at command
  refine ⟨opening, row, closing, name, args, arranged, called, command, fun colors around => ?_⟩
  simp only [run_of_plan colors around planned, Plan.finish, command]

/-- Behind the separator, words that spell the seed and further separators are arguments. -/
theorem call_keeps_words_behind_separator :
    plan ["-v"] = .ok ⟨true, .unset, none⟩ ∧
    plan ["-v", "call", "--se=7", "print", "-1", "--", "--seed", "--"] =
      .ok ⟨true, .number 7, some (.call "print" ["-1", "--seed", "--"])⟩ ∧
    ∃ opening row closing, Arranged ["--se=7", "print", "-1", "--", "--seed", "--"] opening row closing ∧
      Called row "print" ["-1", "--seed", "--"] := by
  have alone : plan ["-v"] = .ok ⟨true, .unset, none⟩ := by rfl
  have planned : plan ["-v", "call", "--se=7", "print", "-1", "--", "--seed", "--"] =
      .ok ⟨true, .number 7, some (.call "print" ["-1", "--seed", "--"])⟩ := by rfl
  obtain ⟨opening, row, closing, name, args, arranged, called, command, _⟩ := call_keeps_words ["-v"] _ alone rfl planned
  cases command
  exact ⟨alone, planned, opening, row, closing, arranged, called⟩

/-- Two separators are taken out of this call, which has no options. -/
theorem call_drops_two_separators :
    plan ["call", "--", "print", "--", "a"] = .ok ⟨false, .unset, some (.call "print" ["a"])⟩ ∧
      ["--", "print", "--", "a"].count "--" = 2 ∧ ["print", "a"].count "--" = 0 := by
  refine ⟨by rfl, by decide, by decide⟩

end Primitives.CommandLine
