import Primitives.CommandLine.Menu
import Primitives.Character.Digit
import Primitives.Quoted

/-!
Words of the command line. A word that begins with a dash is a switch, unless it is a single dash, looks like
a negative number or holds a space and is no known switch. A long spelling may be cut to any beginning that
only one switch of the menu has. A value may be attached by an equals sign, and short switches that take no
value may be joined in one word. The first `--` separates the switches from plain words.

The rules are those of argparse in its earlier 3.11 releases, where a switch may have the separator for its value and
loses it then. Newer ones, such as 3.11.10, take the separator out of plain words only.
-/
namespace Primitives.CommandLine

/-- What is wrong with the words of a command line. -/
inductive UsageError where
  /-- A beginning that more than one spelling has. -/
  | ambiguous (word : String) (spellings : List String)
  /-- A switch without the value it takes. -/
  | missingValue (switch : Switch)
  /-- A switch with a value that it does not take. -/
  | ignoredValue (switch : Switch) (value : String)
  /-- A value that is no numeral. -/
  | invalidNumeral (switch : Switch) (word : String)
  /-- A word that is not among the choices for an argument. -/
  | invalidChoice (argument word : String) (choices : List String)
  /-- A call without the name of a function. -/
  | missingName
  /-- Words that nothing takes. -/
  | unrecognized (words : List String)
deriving DecidableEq, Repr

def UsageError.message : UsageError → String
  | .ambiguous word spellings =>
    "ambiguous option: " ++ word ++ " could match " ++ ", ".intercalate spellings
  | .missingValue switch => "argument " ++ switch.label ++ ": expected one argument"
  | .ignoredValue switch value =>
    "argument " ++ switch.label ++ ": ignored explicit argument " ++ Quoted.write value
  | .invalidNumeral switch word => "argument " ++ switch.label ++ ": invalid int value: " ++ Quoted.write word
  | .invalidChoice argument word choices =>
    "argument " ++ argument ++ ": invalid choice: " ++ Quoted.write word ++ " (choose from " ++
      ", ".intercalate (choices.map Quoted.write) ++ ")"
  | .missingName => "the following arguments are required: name, args"
  | .unrecognized words => "unrecognized arguments: " ++ " ".intercalate words

/-- What a word is taken for at one level. -/
inductive Reading where
  | plain
  | separator
  /-- A word that looks like a switch and is none. -/
  | stray
  /-- A switch, spelled with one dash or with two, and the value attached to it. -/
  | switch (switch : Switch) (short : Bool) (attached : Option String)
deriving DecidableEq, Repr

/-- The parts of a word before and after its first equals sign. -/
def splitAtEquals? (word : String) : Option (String × String) :=
  match word.toList.dropWhile (· != '=') with
  | [] => none
  | _ :: after => some (String.ofList (word.toList.takeWhile (· != '=')), String.ofList after)

/-- Whether a spelling has a single dash. -/
def isShort (spelling : String) : Bool := !("--".toList.isPrefixOf spelling.toList)

/-- Whether characters are digits, or digits after a decimal point and possibly before it. -/
def isUnsignedNumber (cs : List Char) : Bool :=
  match cs.dropWhile Character.isDigit with
  | [] => !cs.isEmpty
  | '.' :: fraction => !fraction.isEmpty && fraction.all Character.isDigit
  | _ => false

/-- Whether a word looks like a negative number, possibly with a line feed at its end. -/
def looksNegative (word : String) : Bool :=
  match word.toList with
  | '-' :: cs => isUnsignedNumber (if cs.getLast? = some '\n' then cs.dropLast else cs)
  | _ => false

namespace Menu

/-- The spellings that a word which is no full spelling may stand for, with the values attached to them: the
    long ones that begin like it, or the short one of its first letter. -/
def candidates (m : Menu) (word : String) : List (String × Switch × Option String) :=
  if isShort word then
    m.spellings.filterMap fun (spelling, switch) =>
      if spelling.toList = word.toList.take 2 then
        some (spelling, switch, some (String.ofList (word.toList.drop 2)))
      else none
  else
    let (beginning, attached) := match splitAtEquals? word with
      | some (before, after) => (before, some after)
      | none => (word, none)
    m.spellings.filterMap fun (spelling, switch) =>
      if beginning.toList.isPrefixOf spelling.toList then some (spelling, switch, attached) else none

/-- The switch whose full spelling stands before the first equals sign, with the value after that. -/
def findAttached? (m : Menu) (word : String) : Option (String × Switch × String) := do
  let (spelling, value) ← splitAtEquals? word
  return (spelling, ← m.find? spelling, value)

/-- What a word that begins with a dash and is longer is taken for, if it is no full spelling. -/
def readDashed (m : Menu) (word : String) : Except UsageError Reading :=
  match m.findAttached? word with
  | some (spelling, switch, value) => .ok (.switch switch (isShort spelling) (some value))
  | none =>
    match m.candidates word with
    | [(spelling, switch, attached)] => .ok (.switch switch (isShort spelling) attached)
    | [] => .ok (if looksNegative word || word.toList.contains ' ' then .plain else .stray)
    | several => .error (.ambiguous word (several.map Prod.fst))

/-- What a word before the separator is taken for. -/
def read (m : Menu) (word : String) : Except UsageError Reading :=
  match m.find? word with
  | some switch => .ok (.switch switch (isShort word) none)
  | none =>
    match word.toList with
    | '-' :: _ :: _ => m.readDashed word
    | _ => .ok .plain

/-- What the words are taken for. All of them are read before any of them acts. -/
def readAll (m : Menu) : List String → Except UsageError (List (String × Reading))
  | [] => .ok []
  | word :: rest =>
    if word = "--" then .ok ((word, .separator) :: rest.map fun later => (later, .plain))
    else do
      let reading ← m.read word
      return (word, reading) :: (← m.readAll rest)

end Menu

/-- A switch that was set, and its value. -/
abbrev Choice := Switch × Option String

/-- The items that words are grouped into: a switch stands together with the word that is its value. -/
inductive Item where
  | plain (word : String)
  | separator
  | stray (word : String)
  | choices (words : List String) (choices : Except UsageError (List Choice))

namespace Item

def words : Item → List String
  | .plain word => [word]
  | .separator => ["--"]
  | .stray word => [word]
  | .choices words _ => words

def word (item : Item) : String := item.words.headD ""

/-- Whether an item looks like a switch. -/
def isSwitch : Item → Bool
  | .stray _ => true
  | .choices _ _ => true
  | _ => false

end Item

namespace Menu

/-- A switch without a value to which other letters are joined. Each of them has to be such a switch too; if
    one is not, it and those after it are a value that the switch before them does not take. -/
def joined (m : Menu) : Switch → List Char → Except UsageError (List Choice)
  | switch, [] => .ok [(switch, none)]
  | switch, c :: rest =>
    match m.find? (String.ofList ['-', c]) with
    | some next => do return (switch, none) :: (← m.joined next rest)
    | none => .error (.ignoredValue switch (String.ofList (c :: rest)))

/-- A switch with something attached to it. -/
def attached (m : Menu) (switch : Switch) (short : Bool) (value : String) : Except UsageError (List Choice) :=
  if switch.takesValue then .ok [(switch, some value)]
  else if short && !value.isEmpty then m.joined switch value.toList
  else .error (.ignoredValue switch value)

def group (m : Menu) : List (String × Reading) → List Item
  | [] => []
  | (word, .plain) :: rest => .plain word :: m.group rest
  | (_, .separator) :: rest => .separator :: m.group rest
  | (word, .stray) :: rest => .stray word :: m.group rest
  | (word, .switch switch short (some value)) :: rest =>
    .choices [word] (m.attached switch short value) :: m.group rest
  | (word, .switch switch _ none) :: rest =>
    if switch.takesValue then
      match rest with
      | (value, .plain) :: rest => .choices [word, value] (.ok [(switch, some value)]) :: m.group rest
      | rest => .choices [word] (.error (.missingValue switch)) :: m.group rest
    else .choices [word] (.ok [(switch, none)]) :: m.group rest

/-- The items of a list of words. -/
def items (m : Menu) (words : List String) : Except UsageError (List Item) := m.group <$> m.readAll words

end Menu

end Primitives.CommandLine
