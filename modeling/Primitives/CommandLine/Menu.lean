/-!
Menus: what each level of the command line knows. The top level has the commands `info` and `call`, each of
which has a level of its own. A menu lists the spellings of its switches in the order in which they are
searched, and holds its usage line and its help.
-/
namespace Primitives.CommandLine

inductive Switch where
  | help
  | version
  | verbose
  | seed
  | area
deriving DecidableEq, Repr

namespace Switch

/-- Whether a switch is followed by a value. -/
def takesValue : Switch → Bool
  | .seed => true
  | .area => true
  | _ => false

def label : Switch → String
  | .help => "-h/--help"
  | .version => "-V/--version"
  | .verbose => "-v/--verbose"
  | .seed => "--seed"
  | .area => "--module"

end Switch

structure Menu where
  program : String
  spellings : List (String × Switch)
  usage : String
  details : List String
deriving DecidableEq, Repr

namespace Menu

/-- The help of a level: its usage line, an empty line and the details. -/
def help (m : Menu) : String := "\n".intercalate (m.usage :: "" :: m.details) ++ "\n"

def find? (m : Menu) (spelling : String) : Option Switch := m.spellings.lookup spelling

def top : Menu where
  program := "primlib"
  spellings :=
    [ ("-h", .help), ("--help", .help), ("-V", .version), ("--version", .version), ("-v", .verbose),
      ("--verbose", .verbose), ("--seed", .seed) ]
  usage := "usage: primlib [-h] [-V] [-v] [--seed SEED] \x7binfo,call\x7d ..."
  details :=
    [ "primlib - primitive runtime library",
      "",
      "positional arguments:",
      "  \x7binfo,call\x7d    Available commands",
      "    info         List registered functions",
      "    call         Call a registered function",
      "",
      "options:",
      "  -h, --help     show this help message and exit",
      "  -V, --version  show program's version number and exit",
      "  -v, --verbose  Enable debug logging",
      "  --seed SEED    Seed for the random source (default: $PRIMLIB_SEED or OS",
      "                 entropy)" ]

/-- The level of the command that lists definitions. -/
def info : Menu where
  program := "primlib info"
  spellings := [("-h", .help), ("--help", .help), ("--module", .area)]
  usage := "usage: primlib info [-h] [--module \x7bio,string,math,random\x7d]"
  details :=
    [ "options:",
      "  -h, --help            show this help message and exit",
      "  --module \x7bio,string,math,random\x7d",
      "                        Only list functions of this module" ]

/-- The level of the command that calls a registered name. -/
def call : Menu where
  program := "primlib call"
  spellings := [("-h", .help), ("--help", .help), ("--seed", .seed)]
  usage := "usage: primlib call [-h] [--seed SEED] name [args ...]"
  details :=
    [ "positional arguments:",
      "  name         Function name, e.g. starts_with",
      "  args         Arguments: true/false, integers, \"quoted\" words and anything",
      "               else are text",
      "",
      "options:",
      "  -h, --help   show this help message and exit",
      "  --seed SEED  Seed for the random source" ]

end Menu

end Primitives.CommandLine
