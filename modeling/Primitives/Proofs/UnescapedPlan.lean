import Primitives.CommandLine.Program
import Primitives.Proofs.PlannedSeed
import Primitives.Proofs.Unescaped

/-!
Plans of plain words. The words of a command line are read, grouped into items and taken by the levels; what is planned
is made of these words, and what stops a run shows these words, parts of its menu and quoted texts. So plain words have a
plain plan or stop the run with plain messages (`ends_plan`).
-/
namespace Primitives.CommandLine

/-! ### Messages -/

/-- The menu holds no escape character. -/
structure Menu.Plain (m : Menu) : Prop where
  program : Text.Plain m.program
  usage : Text.Plain m.usage
  details : ∀ line ∈ m.details, Text.Plain line
  spellings : ∀ entry ∈ m.spellings, Text.Plain entry.1

/-- The texts that the message of an error shows as they are. -/
def UsageError.parts : UsageError → List String
  | .ambiguous word spellings => word :: spellings
  | .invalidChoice argument _ _ => [argument]
  | .unrecognized words => words
  | _ => []

/-- What the error shows as it is, is plain. -/
def UsageError.Plain (error : UsageError) : Prop := ∀ part ∈ error.parts, Text.Plain part

def Stop.Plain : Stop → Prop
  | .help menu => menu.Plain
  | .version => True
  | .usage menu error => menu.Plain ∧ error.Plain

namespace Menu

theorem plain_top : top.Plain := by
  constructor <;> simp only [top, List.forall_mem_cons, List.not_mem_nil, false_implies, implies_true, and_true]
  all_goals
    and_intros <;> exact Text.plain_literal

theorem plain_info : info.Plain := by
  constructor <;> simp only [info, List.forall_mem_cons, List.not_mem_nil, false_implies, implies_true, and_true]
  all_goals
    and_intros <;> exact Text.plain_literal

theorem plain_call : call.Plain := by
  constructor <;> simp only [call, List.forall_mem_cons, List.not_mem_nil, false_implies, implies_true, and_true]
  all_goals
    and_intros <;> exact Text.plain_literal

theorem Plain.help {m : Menu} (plain : m.Plain) : Text.Plain m.help := by
  refine Text.lacks_append.mpr ⟨Text.lacks_intercalate Text.plain_literal ?_, Text.plain_literal⟩
  simpa using ⟨plain.usage, Text.plain_literal, plain.details⟩

end Menu

theorem Switch.plain_label (switch : Switch) : Text.Plain switch.label := by
  cases switch <;> exact Text.plain_literal

theorem UsageError.plain_message {error : UsageError} (plain : error.Plain) : Text.Plain error.message := by
  have quoted (choices : List String) : Text.Plain (", ".intercalate (choices.map Quoted.write)) :=
    Text.lacks_intercalate Text.plain_literal (by simp [Quoted.plain_write])
  -- the equations of `message` would have to compare its long texts, so its body is put in as it is
  delta message
  cases error with
  | ambiguous word spellings =>
    obtain ⟨first, others⟩ := List.forall_mem_cons.mp plain
    simp only [Text.lacks_append]
    exact ⟨⟨⟨Text.plain_literal, first⟩, Text.plain_literal⟩, Text.lacks_intercalate Text.plain_literal others⟩
  | missingValue switch =>
    simp only [Text.lacks_append]
    exact ⟨⟨Text.plain_literal, switch.plain_label⟩, Text.plain_literal⟩
  | ignoredValue switch value | invalidNumeral switch word =>
    simp only [Text.lacks_append]
    exact ⟨⟨⟨Text.plain_literal, switch.plain_label⟩, Text.plain_literal⟩, Quoted.plain_write _⟩
  | invalidChoice argument word choices =>
    have name : Text.Plain argument := plain argument List.mem_cons_self
    simp only [Text.lacks_append]
    refine ⟨⟨⟨⟨⟨⟨?_, name⟩, ?_⟩, Quoted.plain_write word⟩, ?_⟩, quoted choices⟩, ?_⟩ <;> exact Text.plain_literal
  | missingName => exact Text.plain_literal
  | unrecognized words =>
    simp only [Text.lacks_append]
    exact ⟨Text.plain_literal, Text.lacks_intercalate Text.plain_literal plain⟩

/-- A run that is stopped shows plain texts only. -/
theorem Stop.plain_finish {stop : Stop} (plain : stop.Plain) :
    Text.Plain stop.finish.output ∧ Text.Plain stop.finish.errors := by
  have empty : Text.Plain "" := Text.plain_literal
  cases stop with
  | help menu => exact ⟨Menu.Plain.help plain, empty⟩
  | version => exact ⟨Text.lacks_append.mpr ⟨Text.plain_literal, Text.plain_literal⟩, empty⟩
  | usage menu error =>
    obtain ⟨known, shown⟩ := plain
    refine ⟨empty, ?_⟩
    simp only [finish, Text.lacks_append]
    refine ⟨⟨⟨⟨⟨known.usage, ?_⟩, known.program⟩, ?_⟩, UsageError.plain_message shown⟩, ?_⟩ <;> exact Text.plain_literal

/-! ### Items -/

/-- The words of the item are plain, and so is the error if it has one. -/
structure Item.Plain (item : Item) : Prop where
  words : ∀ word ∈ item.words, Text.Plain word
  choices : ∀ given choices, item = .choices given choices → Ends (fun _ => True) UsageError.Plain choices

namespace Menu

variable {m : Menu}

theorem mem_of_candidates {word spelling : String} {switch : Switch} {attached : Option String}
    (member : (spelling, switch, attached) ∈ m.candidates word) : (spelling, switch) ∈ m.spellings := by
  unfold candidates at member
  split at member
  all_goals
    obtain ⟨⟨spelled, named⟩, listed, found⟩ := List.mem_filterMap.mp member
    obtain ⟨_, found⟩ := Option.ite_none_right_eq_some.mp found
    cases found
    exact listed

theorem ends_read {word : String} (plain : m.Plain) (plainWord : Text.Plain word) :
    Ends (fun _ => True) UsageError.Plain (m.read word) := by
  unfold read
  split
  · exact .ok trivial
  · split
    · unfold readDashed
      split
      · exact .ok trivial
      · split
        · exact .ok trivial
        · exact .ok trivial
        · refine .error (List.forall_mem_cons.mpr ⟨plainWord, fun spelling member => ?_⟩)
          obtain ⟨⟨spelled, switch, attached⟩, candidate, same⟩ := List.mem_map.mp member
          cases same
          exact plain.spellings _ (mem_of_candidates candidate)
    · exact .ok trivial

theorem ends_readAll {words : List String} (plain : m.Plain) (plainWords : ∀ word ∈ words, Text.Plain word) :
    Ends (fun readings => ∀ entry ∈ readings, Text.Plain entry.1) UsageError.Plain (m.readAll words) := by
  induction words with
  | nil => exact .ok (by simp)
  | cons word rest ih =>
    obtain ⟨first, later⟩ := List.forall_mem_cons.mp plainWords
    unfold readAll
    split
    · refine .ok (List.forall_mem_cons.mpr ⟨first, ?_⟩)
      simpa using later
    · refine (ends_read plain first).bind fun reading _ => (ih later).bind fun readings others => ?_
      exact .ok (List.forall_mem_cons.mpr ⟨first, others⟩)

theorem ends_joined (switch : Switch) (letters : List Char) :
    Ends (fun _ => True) UsageError.Plain (m.joined switch letters) := by
  induction letters generalizing switch with
  | nil => exact .ok trivial
  | cons c rest ih =>
    unfold joined
    split
    · next other _ => exact (ih other).bind fun _ _ => .ok trivial
    · exact .error (by simp [UsageError.Plain, UsageError.parts])

theorem ends_attached (switch : Switch) (short : Bool) (value : String) :
    Ends (fun _ => True) UsageError.Plain (m.attached switch short value) := by
  unfold attached
  split_ifs
  · exact .ok trivial
  · exact ends_joined switch _
  · exact .error (by simp [UsageError.Plain, UsageError.parts])

theorem plain_choices {words : List String} {choices : Except UsageError (List Choice)}
    (plain : ∀ word ∈ words, Text.Plain word) (ends : Ends (fun _ => True) UsageError.Plain choices) :
    (Item.choices words choices).Plain where
  words := plain
  choices := by
    rintro _ _ ⟨⟩
    exact ends

theorem plain_group {readings : List (String × Reading)} (plain : ∀ entry ∈ readings, Text.Plain entry.1) :
    ∀ item ∈ m.group readings, item.Plain := by
  fun_induction m.group readings with
  | case1 => simp
  | case2 word rest ih | case4 word rest ih =>
    obtain ⟨first, later⟩ := List.forall_mem_cons.mp plain
    exact List.forall_mem_cons.mpr ⟨⟨by simpa [Item.words] using first, by simp⟩, ih later⟩
  | case3 word rest ih =>
    obtain ⟨_, later⟩ := List.forall_mem_cons.mp plain
    have separator : Text.Plain "--" := Text.plain_literal
    exact List.forall_mem_cons.mpr ⟨⟨by simpa [Item.words] using separator, by simp⟩, ih later⟩
  | case5 word switch short value rest ih =>
    obtain ⟨first, later⟩ := List.forall_mem_cons.mp plain
    exact List.forall_mem_cons.mpr ⟨plain_choices (by simpa using first) (ends_attached switch short value), ih later⟩
  | case6 word switch short takes value rest ih =>
    obtain ⟨first, later⟩ := List.forall_mem_cons.mp plain
    obtain ⟨second, later⟩ := List.forall_mem_cons.mp later
    exact List.forall_mem_cons.mpr ⟨plain_choices (by simpa using ⟨first, second⟩) (.ok trivial), ih later⟩
  | case7 word switch short takes rest other ih =>
    obtain ⟨first, later⟩ := List.forall_mem_cons.mp plain
    refine List.forall_mem_cons.mpr ⟨plain_choices (by simpa using first) (.error ?_), ih later⟩
    simp [UsageError.Plain, UsageError.parts]
  | case8 word switch short rest takes ih =>
    obtain ⟨first, later⟩ := List.forall_mem_cons.mp plain
    exact List.forall_mem_cons.mpr ⟨plain_choices (by simpa using first) (.ok trivial), ih later⟩

end Menu

theorem ends_itemsOf {menu : Menu} {words : List String} (plain : menu.Plain)
    (plainWords : ∀ word ∈ words, Text.Plain word) :
    Ends (fun items => ∀ item ∈ items, item.Plain) Stop.Plain (itemsOf menu words) := by
  have read := Menu.ends_readAll plain plainWords
  unfold itemsOf Menu.items
  generalize menu.readAll words = result at read
  cases read with
  | error isPlain => exact .error ⟨plain, isPlain⟩
  | ok arePlain => exact .ok (Menu.plain_group arePlain)

/-! ### Levels -/

namespace Settings

variable {menu : Menu}

theorem ends_choose (plain : menu.Plain) (settings : Settings) (choice : Choice) :
    Ends (fun _ => True) Stop.Plain (settings.choose menu choice) := by
  obtain ⟨switch, value⟩ := choice
  cases switch with
  | help => exact .error plain
  | version => exact .error trivial
  | verbose => exact .ok trivial
  | seed =>
    rw [choose, withSeed]
    split_ifs
    · exact .ok trivial
    · split
      · exact .ok trivial
      · exact .error ⟨plain, by simp [UsageError.Plain, UsageError.parts]⟩
  | area =>
    have named := Switch.area.plain_label
    rw [choose, withArea]
    split_ifs
    · exact .ok trivial
    · split
      · exact .ok trivial
      · exact .error ⟨plain, by simpa [UsageError.Plain, UsageError.parts] using named⟩

theorem ends_foldlM (plain : menu.Plain) (settings : Settings) (choices : List Choice) :
    Ends (fun _ => True) Stop.Plain (choices.foldlM (choose menu) settings) := by
  induction choices generalizing settings with
  | nil => exact .ok trivial
  | cons choice rest ih =>
    rw [List.foldlM_cons]
    exact (ends_choose plain settings choice).bind fun after _ => ih after

theorem ends_applyAll (plain : menu.Plain) (settings : Settings) {items : List Item}
    (plainItems : ∀ item ∈ items, item.Plain) :
    Ends (fun applied => ∀ word ∈ applied.2, Text.Plain word) Stop.Plain (settings.applyAll menu items) := by
  induction items generalizing settings with
  | nil => exact .ok (by simp)
  | cons item rest ih =>
    obtain ⟨first, later⟩ := List.forall_mem_cons.mp plainItems
    cases item with
    | choices given choices =>
      cases first.choices given choices rfl with
      | error isPlain => exact .error ⟨plain, isPlain⟩
      | ok _ => exact (ends_foldlM plain settings _).bind fun after _ => ih after later
    | plain word | separator | stray word =>
      refine (ih settings later).bind fun applied others => .ok ?_
      exact List.forall_mem_append.mpr ⟨first.words, others⟩

end Settings

def Command.Plain : Command → Prop
  | .info _ => True
  | .call name args => Text.Plain name ∧ ∀ word ∈ args, Text.Plain word

structure Level.Plain (level : Level) : Prop where
  command : level.command.Plain
  others : ∀ word ∈ level.others, Text.Plain word

theorem plain_flatMap_words {items : List Item} (plain : ∀ item ∈ items, item.Plain) :
    ∀ word ∈ items.flatMap Item.words, Text.Plain word := by
  intro word member
  obtain ⟨item, among, inItem⟩ := List.mem_flatMap.mp member
  exact (plain item among).words word inItem

theorem plain_callee? {items : List Item} {name : String} {args : List String} (plain : ∀ item ∈ items, item.Plain)
    (called : callee? items = some (name, args)) : Text.Plain name ∧ ∀ word ∈ args, Text.Plain word := by
  have parts {rest : List Item} (named : (Item.plain name).Plain) (later : ∀ item ∈ rest, item.Plain) :
      Text.Plain name ∧ ∀ word ∈ (rest.flatMap Item.words).erase "--", Text.Plain word :=
    ⟨named.words name (by simp [Item.words]), fun word member =>
      plain_flatMap_words later word (List.mem_of_mem_erase member)⟩
  unfold callee? at called
  split at called
  · cases called
    obtain ⟨_, named, later⟩ : _ ∧ _ ∧ _ := by simpa only [List.forall_mem_cons] using plain
    exact parts named later
  · cases called
    obtain ⟨named, _, later⟩ : _ ∧ _ ∧ _ := by simpa only [List.forall_mem_cons] using plain
    exact parts named later
  · cases called
    obtain ⟨named, later⟩ := List.forall_mem_cons.mp plain
    exact parts named later
  · cases called

section Levels

variable {words : List String} (settings : Settings) (plain : ∀ word ∈ words, Text.Plain word)

include plain

theorem ends_infoLevel : Ends Level.Plain Stop.Plain (infoLevel settings words) := by
  refine (ends_itemsOf Menu.plain_info plain).bind fun items plainItems => ?_
  exact (Settings.ends_applyAll Menu.plain_info settings plainItems).bind fun applied others => .ok ⟨trivial, others⟩

theorem ends_callLevel : Ends Level.Plain Stop.Plain (callLevel settings words) := by
  refine (ends_itemsOf Menu.plain_call plain).bind fun items plainItems => ?_
  have behind : ∀ item ∈ items.dropWhile Item.isSwitch, item.Plain := fun item member =>
    plainItems item ((List.dropWhile_sublist _).subset member)
  refine (Settings.ends_applyAll Menu.plain_call settings fun item member =>
    plainItems item ((List.takeWhile_sublist _).subset member)).bind fun ⟨between, before⟩ plainBefore => ?_
  refine (Settings.ends_applyAll Menu.plain_call between fun item member =>
    behind item ((List.dropWhile_sublist _).subset member)).bind fun ⟨last, after⟩ plainAfter => ?_
  dsimp only
  split
  · next name args called =>
    refine .ok ⟨plain_callee? (fun item member => ?_) called, List.forall_mem_append.mpr ⟨plainBefore, plainAfter⟩⟩
    exact behind item ((List.takeWhile_sublist _).subset member)
  · exact .error ⟨Menu.plain_call, by simp [UsageError.Plain, UsageError.parts]⟩

theorem ends_commandLevel (name : String) : Ends Level.Plain Stop.Plain (commandLevel settings name words) := by
  unfold commandLevel
  split_ifs
  · exact ends_infoLevel settings plain
  · exact ends_callLevel settings plain
  · have argument : Text.Plain "command" := Text.plain_literal
    exact .error ⟨Menu.plain_top, by simpa [UsageError.Plain, UsageError.parts] using argument⟩

end Levels

def Plan.Plain (plan : Plan) : Prop := ∀ command, plan.command = some command → command.Plain

theorem ends_planUnless {others : List String} {plan : Plan} (plain : plan.Plain)
    (plainOthers : ∀ word ∈ others, Text.Plain word) : Ends Plan.Plain Stop.Plain (planUnless others plan) := by
  unfold planUnless
  split
  · exact .ok plain
  · exact .error ⟨Menu.plain_top, plainOthers⟩

/-- Plain words have a plain plan, or stop the run with plain messages. -/
theorem ends_plan {words : List String} (plain : ∀ word ∈ words, Text.Plain word) :
    Ends Plan.Plain Stop.Plain (plan words) := by
  refine (ends_itemsOf Menu.plain_top plain).bind fun items plainItems => ?_
  refine (Settings.ends_applyAll Menu.plain_top .initial fun item member =>
    plainItems item ((List.takeWhile_sublist _).subset member)).bind fun ⟨settings, others⟩ plainOthers => ?_
  have idle (verbose : Bool) (seed : SeedSetting) : Plan.Plain ⟨verbose, seed, none⟩ := by simp [Plan.Plain]
  dsimp only
  split
  · exact ends_planUnless (idle _ _) plainOthers
  · refine ends_planUnless (idle _ _) (List.forall_mem_append.mpr ⟨plainOthers, ?_⟩)
    exact List.forall_mem_singleton.mpr Text.plain_literal
  · next first rest _ remaining =>
    have later : ∀ item ∈ rest, item.Plain := by
      intro item member
      apply plainItems item
      apply (List.dropWhile_sublist Item.isSwitch).subset
      rw [remaining]
      exact List.mem_cons_of_mem first member
    refine (ends_commandLevel settings (plain_flatMap_words later) first.word).bind fun level isPlain => ?_
    refine ends_planUnless ?_ (List.forall_mem_append.mpr ⟨plainOthers, isPlain.others⟩)
    rintro _ ⟨⟩
    exact isPlain.command

end Primitives.CommandLine
