import Primitives.CommandLine.Word
import Primitives.Registry

/-!
Plans: what the words of a command line ask for. The switches of the top level act first, then a command takes
all words that are left. The command `call` takes its name and arguments from the first row of plain words.
Words that no level takes are reported together, after everything else.

A separator is taken out of the value of a switch, of the name and of the arguments, as argparse does in its earlier 3.11
releases. Newer ones, such as 3.11.10, leave the values of switches alone and report `--seed=--` as no number.
-/
namespace Primitives.CommandLine

/-- The seed that was asked for. A seed whose value is the separator is `blank`: the separator is taken out and
    nothing is left of it. -/
inductive SeedSetting where
  | unset
  | number (n : Int)
  | blank
deriving DecidableEq, Repr

structure Settings where
  verbose : Bool
  seed : SeedSetting
  area : Option Area
deriving DecidableEq, Repr

def Settings.initial : Settings := ⟨false, .unset, none⟩

/-- Why a command line is not carried out: it asks for help or for the version, or it has an error. -/
inductive Stop where
  | help (menu : Menu)
  | version
  | usage (menu : Menu) (error : UsageError)
deriving DecidableEq, Repr

inductive Command where
  | info (area : Option Area)
  | call (name : String) (args : List String)
deriving DecidableEq, Repr

def Command.names : List String := ["info", "call"]

structure Plan where
  verbose : Bool
  seed : SeedSetting
  command : Option Command
deriving DecidableEq, Repr

namespace Settings

def withSeed (menu : Menu) (settings : Settings) (word : String) : Except Stop Settings :=
  if word = "--" then .ok { settings with seed := .blank }
  else
    match Numeral.read? word with
    | some n => .ok { settings with seed := .number n }
    | none => .error (.usage menu (.invalidNumeral .seed word))

def withArea (menu : Menu) (settings : Settings) (word : String) : Except Stop Settings :=
  if word = "--" then .ok { settings with area := none }
  else
    match Area.ofName? word with
    | some area => .ok { settings with area := some area }
    | none => .error (.usage menu (.invalidChoice Switch.area.label word (Area.all.map Area.name)))

def choose (menu : Menu) (settings : Settings) : Choice → Except Stop Settings
  | (.help, _) => .error (.help menu)
  | (.version, _) => .error .version
  | (.verbose, _) => .ok { settings with verbose := true }
  | (.seed, value) => settings.withSeed menu (value.getD "")
  | (.area, value) => settings.withArea menu (value.getD "")

/-- The effect of the switches among the items in their order, and the words of all other items. -/
def applyAll (menu : Menu) (settings : Settings) : List Item → Except Stop (Settings × List String)
  | [] => .ok (settings, [])
  | .choices _ (.ok choices) :: rest => do
    let settings ← choices.foldlM (choose menu) settings
    settings.applyAll menu rest
  | .choices _ (.error error) :: _ => .error (.usage menu error)
  | item :: rest => do
    let (settings, others) ← settings.applyAll menu rest
    return (settings, item.words ++ others)

end Settings

/-- The items of a list of words at one level. -/
def itemsOf (menu : Menu) (words : List String) : Except Stop (List Item) :=
  (menu.items words).mapError (.usage menu)

/-- The name and the arguments that a row of plain words gives. A separator directly before or after the name
    is dropped with it, and the first separator among the arguments is dropped as well. -/
def callee? : List Item → Option (String × List String)
  | .separator :: .plain name :: rest => some (name, (rest.flatMap Item.words).erase "--")
  | .plain name :: .separator :: rest => some (name, (rest.flatMap Item.words).erase "--")
  | .plain name :: rest => some (name, (rest.flatMap Item.words).erase "--")
  | _ => none

/-- What a level makes of its words: settings, a command and the words it does not take. -/
structure Level where
  settings : Settings
  command : Command
  others : List String

def infoLevel (settings : Settings) (words : List String) : Except Stop Level := do
  let (settings, others) ← settings.applyAll .info (← itemsOf .info words)
  return ⟨settings, .info settings.area, others⟩

def callLevel (settings : Settings) (words : List String) : Except Stop Level := do
  let items ← itemsOf .call words
  let afterSwitches := items.dropWhile Item.isSwitch
  let row := afterSwitches.takeWhile (!·.isSwitch)
  let (settings, before) ← settings.applyAll .call (items.takeWhile Item.isSwitch)
  let (settings, after) ← settings.applyAll .call (afterSwitches.dropWhile (!·.isSwitch))
  match callee? row with
  | some (name, args) => return ⟨settings, .call name args, before ++ after⟩
  | none => .error (.usage .call .missingName)

def commandLevel (settings : Settings) (name : String) (words : List String) : Except Stop Level :=
  if name = "info" then infoLevel settings words
  else if name = "call" then callLevel settings words
  else .error (.usage .top (.invalidChoice "command" name Command.names))

/-- The plan, provided that no words are left over. -/
def planUnless (others : List String) (plan : Plan) : Except Stop Plan :=
  if others.isEmpty then .ok plan else .error (.usage .top (.unrecognized others))

/-- What the words of a command line ask for. -/
def plan (words : List String) : Except Stop Plan := do
  let items ← itemsOf .top words
  let (settings, others) ← Settings.initial.applyAll .top (items.takeWhile Item.isSwitch)
  match items.dropWhile Item.isSwitch with
  | [] => planUnless others ⟨settings.verbose, settings.seed, none⟩
  | [.separator] => planUnless (others ++ ["--"]) ⟨settings.verbose, settings.seed, none⟩
  | first :: rest =>
    let level ← commandLevel settings first.word (rest.flatMap Item.words)
    planUnless (others ++ level.others) ⟨level.settings.verbose, level.settings.seed, some level.command⟩

end Primitives.CommandLine
