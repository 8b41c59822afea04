import Mathlib.Data.List.TakeWhile
import Primitives.CommandLine.Plan
import Primitives.Proofs.Effect
import Primitives.Proofs.Numeral

/-!
Which words of a command line are plain. A word without a dash at its beginning is, and so is a dash followed by
digits: no switch is spelled like that. Plain words and seeds may be mixed (`items_of_parts`). When the command `call`
stands among seeds and plain words, it calls the first of these with the others, and the last seed counts
(`plan_seeded`).
-/
namespace Primitives.CommandLine

/-- The word begins with no dash, or is a dash followed by digits. -/
def IsOrdinary (word : String) : Prop :=
  word.toList.head? ≠ some '-' ∨
    ∃ d digits, word.toList = '-' :: d :: digits ∧ ∀ c ∈ d :: digits, Character.isDigit c = true

theorem IsOrdinary.ne_separator {word : String} (ordinary : IsOrdinary word) : word ≠ "--" := by
  rintro rfl
  rcases ordinary with noDash | ⟨d, digits, same, numeric⟩
  · exact noDash (by decide)
  · have second : '-' = d := by simpa using congrArg (List.head? ∘ List.tail) same
    have digit := numeric d (by simp)
    rw [← second] at digit
    exact absurd digit (by decide)

theorem IsOrdinary.write (n : Int) : IsOrdinary (Numeral.write n) := by
  by_cases negative : n < 0
  · have spelled : (Numeral.write n).toList = '-' :: Nat.toDigits 10 n.natAbs := by
      rw [Numeral.toList_write, if_pos negative]
    cases magnitude : Nat.toDigits 10 n.natAbs with
    | nil => exact absurd magnitude Nat.toDigits_ne_nil
    | cons d digits =>
      rw [magnitude] at spelled
      refine .inr ⟨d, digits, spelled, fun c member => ?_⟩
      exact Character.isDigit_of_ascii (Numeral.isDigit_of_mem_digits (magnitude ▸ member))
  · refine .inl fun dash => ?_
    rw [Numeral.toList_write, if_neg negative] at dash
    exact absurd (Numeral.isDigit_of_mem_digits (List.mem_of_mem_head? dash)) (by decide)

theorem IsOrdinary.of_write? {v : Value} {word : String} (written : Literal.write? v = some word) :
    IsOrdinary word := by
  cases v with
  | boolean b =>
    cases written
    exact .inl (by cases b <;> decide)
  | integer n =>
    cases written
    exact .write n
  | text s =>
    cases written
    exact .inl (by simp)
  | nothing | foreign object => cases written

namespace Menu

/-- Every spelling is a dash followed by something that is no digit. -/
def Dashed (m : Menu) : Prop :=
  ∀ entry ∈ m.spellings, ∃ c rest, entry.1.toList = '-' :: c :: rest ∧ Character.isDigit c = false

theorem dashed_top : top.Dashed := by
  simp [Dashed, top]
  decide

theorem dashed_call : call.Dashed := by
  simp [Dashed, call]
  decide

variable {m : Menu} {word : String}

theorem find?_of_ordinary (dashed : m.Dashed) (ordinary : IsOrdinary word) : m.find? word = none := by
  rw [find?, List.lookup_eq_none_iff]
  intro entry member
  obtain ⟨c, rest, spelled, noDigit⟩ := dashed entry member
  rw [bne_iff_ne]
  rintro rfl
  rcases ordinary with noDash | ⟨d, digits, same, numeric⟩
  · exact noDash (by rw [spelled]; rfl)
  · rw [spelled] at same
    cases same
    rw [numeric c (by simp)] at noDigit
    cases noDigit

end Menu

section Numeric

variable {word : String} {d : Char} {digits : List Char} (spelled : word.toList = '-' :: d :: digits)
  (numeric : ∀ c ∈ d :: digits, Character.isDigit c = true)

include spelled numeric

theorem splitAtEquals?_of_numeric : splitAtEquals? word = none := by
  have noEquals : word.toList.dropWhile (· != '=') = [] := by
    rw [List.dropWhile_eq_nil_iff, spelled]
    intro c member
    rw [bne_iff_ne]
    rintro rfl
    rcases List.mem_cons.mp member with dash | digit
    · exact absurd dash (by decide)
    · exact absurd (numeric '=' digit) (by decide)
  rw [splitAtEquals?, noEquals]

theorem isShort_of_numeric : isShort word = true := by
  have digit := numeric d (by simp)
  have noDash : '-' ≠ d := by
    rintro rfl
    exact absurd digit (by decide)
  simp [isShort, spelled, List.isPrefixOf, noDash]

theorem looksNegative_of_numeric : looksNegative word = true := by
  have noFeed : (d :: digits).getLast? ≠ some '\n' := by
    intro last
    exact absurd (numeric '\n' (List.mem_of_getLast? last)) (by decide)
  have consumed : (d :: digits).dropWhile Character.isDigit = [] := by
    rw [List.dropWhile_eq_nil_iff]
    exact numeric
  simp only [looksNegative, spelled, if_neg noFeed, isUnsignedNumber, consumed]
  rfl

namespace Menu

theorem candidates_of_numeric {m : Menu} (dashed : m.Dashed) : m.candidates word = [] := by
  rw [candidates, if_pos (isShort_of_numeric spelled numeric), List.filterMap_eq_nil_iff]
  intro entry member
  obtain ⟨c, rest, same, noDigit⟩ := dashed entry member
  have other : c ≠ d := by
    rintro rfl
    rw [numeric c (by simp)] at noDigit
    cases noDigit
  simp [spelled, same, other]

theorem readDashed_of_numeric {m : Menu} (dashed : m.Dashed) : m.readDashed word = .ok .plain := by
  have unattached : m.findAttached? word = none := by
    rw [findAttached?, splitAtEquals?_of_numeric spelled numeric]
    rfl
  simp only [readDashed, unattached, candidates_of_numeric spelled numeric dashed,
    looksNegative_of_numeric spelled numeric, Bool.true_or, if_true]

end Menu

end Numeric

namespace Menu

variable {m : Menu}

/-- Ordinary words are plain at every level. -/
theorem read_of_ordinary {word : String} (dashed : m.Dashed) (ordinary : IsOrdinary word) :
    m.read word = .ok .plain := by
  rw [read, find?_of_ordinary dashed ordinary]
  rcases ordinary with noDash | ⟨d, digits, spelled, numeric⟩
  · split
    · next first => cases first
    · split
      · next dash => exact absurd (by rw [dash]; rfl) noDash
      · rfl
  · simp only [spelled]
    exact readDashed_of_numeric spelled numeric dashed

end Menu

/-! ### Seeds among plain words -/

/-- A part of a command line: a seed with its switch, or a plain word. -/
inductive Part where
  | seed (n : Int)
  | plain (word : String)

namespace Part

def words : Part → List String
  | .seed n => ["--seed", Numeral.write n]
  | .plain word => [word]

def item : Part → Item
  | .seed n => .choices ["--seed", Numeral.write n] (.ok [(.seed, some (Numeral.write n))])
  | .plain word => .plain word

def readings : Part → List (String × Reading)
  | .seed n => [("--seed", .switch .seed false none), (Numeral.write n, .plain)]
  | .plain word => [(word, .plain)]

/-- What is written as a plain word is taken for one. -/
def Proper : Part → Prop
  | .seed _ => True
  | .plain word => IsOrdinary word

theorem words_item (part : Part) : part.item.words = part.words := by cases part <;> rfl

theorem flatMap_words_item (parts : List Part) : (parts.map item).flatMap Item.words = parts.flatMap words := by
  rw [List.flatMap_map]
  exact congrArg (List.flatMap · parts) (funext words_item)

theorem flatMap_words_plain (plains : List String) : (plains.map plain).flatMap words = plains := by
  rw [List.flatMap_map]
  exact List.flatMap_singleton' plains

end Part

/-- Seeds one after the other, each with its switch. -/
def seedWords (seeds : List Int) : List String := seeds.flatMap fun n => ["--seed", Numeral.write n]

theorem flatMap_words_seed (seeds : List Int) : (seeds.map Part.seed).flatMap Part.words = seedWords seeds :=
  List.flatMap_map _ _ seeds

namespace Menu

variable {m : Menu}

/-- Items follow the parts of the command line one by one, at every level that has the seed. -/
theorem items_of_parts {parts : List Part} (dashed : m.Dashed) (seeds : m.find? "--seed" = some .seed)
    (proper : ∀ part ∈ parts, part.Proper) : m.items (parts.flatMap Part.words) = .ok (parts.map Part.item) := by
  have readings : m.readAll (parts.flatMap Part.words) = .ok (parts.flatMap Part.readings) := by
    induction parts with
    | nil => rfl
    | cons part rest ih =>
      have later := ih fun other member => proper other (by simp [member])
      have first := proper part (by simp)
      rw [List.flatMap_cons, List.flatMap_cons]
      cases part with
      | seed n =>
        have switch : m.read "--seed" = .ok (.switch .seed false none) := by
          rw [read, seeds]
          rfl
        simp only [Part.words, Part.readings, List.cons_append, List.nil_append, readAll, later,
          if_neg (show "--seed" ≠ "--" by decide), if_neg (IsOrdinary.write n).ne_separator, switch,
          read_of_ordinary dashed (.write n), ok_bind, pure_eq_ok]
      | plain word =>
        have ordinary : IsOrdinary word := first
        simp only [Part.words, Part.readings, List.cons_append, List.nil_append, readAll, later,
          if_neg ordinary.ne_separator, read_of_ordinary dashed ordinary, ok_bind, pure_eq_ok]
  have grouped : m.group (parts.flatMap Part.readings) = parts.map Part.item := by
    clear readings proper
    induction parts with
    | nil => rfl
    | cons part rest ih =>
      rw [List.flatMap_cons, List.map_cons, ← ih]
      cases part <;> simp [Part.readings, Part.item, group, Switch.takesValue]
  rw [items, readings, ← grouped]
  rfl

end Menu

namespace Settings

/-- The settings after seeds, of which the last one counts. -/
def seeded (settings : Settings) (seeds : List Int) : Settings :=
  { settings with seed := (seeds.getLast?.map .number).getD settings.seed }

theorem seeded_cons (settings : Settings) (n : Int) (rest : List Int) :
    settings.seeded (n :: rest) = { settings with seed := .number n }.seeded rest := by
  rw [seeded, seeded, List.getLast?_cons]
  cases rest.getLast? <;> rfl

theorem seeded_append (settings : Settings) (seeds others : List Int) :
    settings.seeded (seeds ++ others) = (settings.seeded seeds).seeded others := by
  simp only [seeded, List.getLast?_append]
  cases others.getLast? <;> rfl

theorem applyAll_seeds (menu : Menu) (settings : Settings) {seeds : List Int}
    (writable : ∀ n ∈ seeds, Numeral.Writable n) :
    settings.applyAll menu ((seeds.map Part.seed).map Part.item) = .ok (settings.seeded seeds, []) := by
  induction seeds generalizing settings with
  | nil => rfl
  | cons n rest ih =>
    have chosen : settings.choose menu (.seed, some (Numeral.write n)) = .ok { settings with seed := .number n } := by
      simp only [choose, withSeed, Option.getD_some, if_neg (IsOrdinary.write n).ne_separator,
        Numeral.read?_write (writable n (by simp))]
    have later := ih { settings with seed := .number n } fun other member => writable other (by simp [member])
    simp only [List.map_cons, Part.item, applyAll, List.foldlM_cons, chosen, ok_bind, List.foldlM_nil, pure_eq_ok,
      later, seeded_cons]

end Settings

section Switches

variable {switches plains : List Item}

/-- Switches before other items can be told from these. -/
theorem span_isSwitch (switching : ∀ item ∈ switches, item.isSwitch = true)
    (standing : ∀ item ∈ plains.head?, item.isSwitch = false) :
    (switches ++ plains).takeWhile Item.isSwitch = switches ∧
    (switches ++ plains).dropWhile Item.isSwitch = plains := by
  rw [List.takeWhile_append_of_pos switching, List.dropWhile_append_of_pos switching]
  cases plains with
  | nil => exact ⟨List.append_nil _, rfl⟩
  | cons item rest => simp [standing item rfl]

/-- The same for switches after other items. -/
theorem span_not_isSwitch (standing : ∀ item ∈ plains, item.isSwitch = false)
    (switching : ∀ item ∈ switches, item.isSwitch = true) :
    (plains ++ switches).takeWhile (!·.isSwitch) = plains ∧
    (plains ++ switches).dropWhile (!·.isSwitch) = switches := by
  have others : ∀ item ∈ plains, (!item.isSwitch) = true := fun item member => by rw [standing item member]; rfl
  rw [List.takeWhile_append_of_pos others, List.dropWhile_append_of_pos others]
  cases switches with
  | nil => exact ⟨List.append_nil _, rfl⟩
  | cons item rest => simp [switching item (by simp)]

end Switches

theorem isSwitch_of_seed (seeds : List Int) : ∀ item ∈ (seeds.map Part.seed).map Part.item, item.isSwitch = true := by
  simp [Part.item, Item.isSwitch]

theorem isSwitch_of_plain (words : List String) :
    ∀ item ∈ (words.map Part.plain).map Part.item, item.isSwitch = false := by
  simp [Part.item, Item.isSwitch]

theorem callee?_of_ordinary {name : String} {words : List String} (ordinary : ∀ word ∈ words, IsOrdinary word) :
    callee? (((name :: words).map Part.plain).map Part.item) = some (name, words) := by
  have kept : words.erase "--" = words := by
    refine List.erase_of_not_mem fun member => ?_
    exact (ordinary "--" member).ne_separator rfl
  have rejoined : ((words.map Part.plain).map Part.item).flatMap Item.words = words := by
    rw [Part.flatMap_words_item, Part.flatMap_words_plain]
  cases words with
  | nil => rfl
  | cons word later =>
    change some (name, ((((word :: later).map Part.plain).map Part.item).flatMap Item.words).erase "--") = _
    rw [rejoined, kept]

section Call

variable {name : String} {words : List String} {first second third : List Int}

/-- The parts of a call after its command. -/
def callParts (second : List Int) (name : String) (words : List String) (third : List Int) : List Part :=
  second.map .seed ++ (name :: words).map .plain ++ third.map .seed

theorem proper_of_call (named : IsOrdinary name) (ordinary : ∀ word ∈ words, IsOrdinary word) :
    ∀ part ∈ callParts second name words third, part.Proper := by
  intro part member
  simp only [callParts, List.mem_append, List.mem_map, List.mem_cons] at member
  rcases member with (⟨n, _, rfl⟩ | ⟨word, rfl | inside, rfl⟩) | ⟨n, _, rfl⟩
  · trivial
  · exact named
  · exact ordinary word inside
  · trivial

theorem words_callParts (second : List Int) (name : String) (words : List String) (third : List Int) :
    (callParts second name words third).flatMap Part.words = seedWords second ++ name :: words ++ seedWords third := by
  simp only [callParts, List.flatMap_append, flatMap_words_seed, Part.flatMap_words_plain]

theorem callLevel_seeded (settings : Settings) (writable : ∀ n ∈ second ++ third, Numeral.Writable n)
    (named : IsOrdinary name) (ordinary : ∀ word ∈ words, IsOrdinary word) :
    callLevel settings (seedWords second ++ name :: words ++ seedWords third) =
      .ok ⟨settings.seeded (second ++ third), .call name words, []⟩ := by
  let row := ((name :: words).map Part.plain).map Part.item
  have items : itemsOf .call (seedWords second ++ name :: words ++ seedWords third) =
      .ok ((second.map Part.seed).map Part.item ++ (row ++ (third.map Part.seed).map Part.item)) := by
    rw [← words_callParts, itemsOf, Menu.items_of_parts Menu.dashed_call rfl (proper_of_call named ordinary)]
    simp only [callParts, List.map_append, List.append_assoc, row]
    rfl
  have plainFirst : ∀ item ∈ (row ++ (third.map Part.seed).map Part.item).head?, item.isSwitch = false := by
    rintro item ⟨⟩
    rfl
  obtain ⟨before, onward⟩ := span_isSwitch (isSwitch_of_seed second) plainFirst
  obtain ⟨inside, after⟩ := span_not_isSwitch (isSwitch_of_plain (name :: words)) (isSwitch_of_seed third)
  have seededBefore := settings.applyAll_seeds .call fun n member => writable n (List.mem_append_left third member)
  have seededAfter := (settings.seeded second).applyAll_seeds .call fun n member =>
    writable n (List.mem_append_right second member)
  simp only [callLevel, items, ok_bind, before, onward, row, inside, after, seededBefore, seededAfter,
    callee?_of_ordinary ordinary, Settings.seeded_append, List.append_nil, pure_eq_ok]

/-- A call of ordinary words among seeds asks for just that, with the last one of the seeds. -/
theorem plan_seeded (first second third : List Int) (writable : ∀ n ∈ first ++ second ++ third, Numeral.Writable n)
    (named : IsOrdinary name) (ordinary : ∀ word ∈ words, IsOrdinary word) :
    plan (seedWords first ++ "call" :: (seedWords second ++ name :: words ++ seedWords third)) =
      .ok ⟨false, ((first ++ second ++ third).getLast?.map .number).getD .unset, some (.call name words)⟩ := by
  let called := callParts second name words third
  have proper : ∀ part ∈ first.map Part.seed ++ .plain "call" :: called, part.Proper := by
    intro part member
    rcases List.mem_append.mp member with seed | member
    · obtain ⟨n, _, rfl⟩ := List.mem_map.mp seed
      trivial
    · rcases List.mem_cons.mp member with rfl | member
      · exact .inl (by decide)
      · exact proper_of_call named ordinary part member
  have parts : seedWords first ++ "call" :: (seedWords second ++ name :: words ++ seedWords third) =
      (first.map Part.seed ++ .plain "call" :: called).flatMap Part.words := by
    rw [List.flatMap_append, List.flatMap_cons, flatMap_words_seed, words_callParts]
    rfl
  have items : itemsOf .top ((first.map Part.seed ++ .plain "call" :: called).flatMap Part.words) =
      .ok ((first.map Part.seed).map Part.item ++ .plain "call" :: called.map Part.item) := by
    rw [itemsOf, Menu.items_of_parts Menu.dashed_top rfl proper, List.map_append, List.map_cons]
    rfl
  have commandFirst : ∀ item ∈ (Item.plain "call" :: called.map Part.item).head?, item.isSwitch = false := by
    rintro item ⟨⟩
    rfl
  obtain ⟨before, onward⟩ := span_isSwitch (isSwitch_of_seed first) commandFirst
  rw [parts, List.append_assoc first]
  rw [List.append_assoc first] at writable
  have seeded := Settings.initial.applyAll_seeds .top fun n member => writable n (List.mem_append_left _ member)
  have level : commandLevel (Settings.initial.seeded first) "call" ((called.map Part.item).flatMap Item.words) =
      .ok ⟨Settings.initial.seeded (first ++ (second ++ third)), .call name words, []⟩ := by
    rw [Part.flatMap_words_item, words_callParts, commandLevel, if_neg (by decide), if_pos rfl, Settings.seeded_append]
    exact callLevel_seeded _ (fun n member => writable n (List.mem_append_right first member)) named ordinary
  simp only [plan, items, ok_bind, before, onward, seeded]
  change (commandLevel (Settings.initial.seeded first) "call" ((called.map Part.item).flatMap Item.words) >>= _) = _
  rw [level]
  rfl

/-- A call of ordinary words alone. -/
theorem plan_call (named : IsOrdinary name) (ordinary : ∀ word ∈ words, IsOrdinary word) :
    plan ("call" :: name :: words) = .ok ⟨false, .unset, some (.call name words)⟩ := by
  simpa [seedWords] using plan_seeded [] [] [] (by simp) named ordinary

end Call

end Primitives.CommandLine
