import Augury.Command.Arguments

/-!
# Help texts

What the program prints when it is asked for help or for its version.
-/

set_option autoImplicit false

namespace Augury.Command

def ofLines (lines : List String) : String :=
  String.join (lines.map fun line => line ++ "\n")

def programHelp : String :=
  ofLines [
    "Game-master helpers for the spells campaign tool",
    "",
    "Usage: spells <COMMAND>",
    "",
    "Commands:",
    "  oracle  Parse and resolve oracle text with choices, tables, and dice",
    "  roll    Roll a dice expression such as 3d6 or 1d20+4",
    "  parse   Show how oracle text is parsed, without resolving it",
    "  help    Print this message or the help of the given subcommand(s)",
    "",
    "Options:",
    "  -h, --help     Print help",
    "  -V, --version  Print version"]

def resolveHelp : String :=
  ofLines [
    "Parse and resolve oracle text with choices, tables, and dice",
    "",
    "Oracle text mixes plain prose with choices `\x7boption1|option2\x7d`, table references `[table_name]` and dice such as `1d4` or `2d6+1`. Prints JSON with the original input and the resolved result.",
    "",
    "Usage: spells oracle [OPTIONS] <TEXT>",
    "",
    "Arguments:",
    "  <TEXT>",
    "          The oracle text to resolve",
    "",
    "Options:",
    "  -t, --tables <TABLES>",
    "          JSON file mapping table names to oracle text",
    "",
    "  -s, --seed <SEED>",
    "          RNG seed for reproducible results (default: current time)",
    "",
    "      --max-depth <MAX_DEPTH>",
    "          How deeply table references may nest",
    "          ",
    "          [default: 32]",
    "",
    "  -h, --help",
    "          Print help (see a summary with '-h')",
    "",
    "  -V, --version",
    "          Print version"]

def resolveShortHelp : String :=
  ofLines [
    "Parse and resolve oracle text with choices, tables, and dice",
    "",
    "Usage: spells oracle [OPTIONS] <TEXT>",
    "",
    "Arguments:",
    "  <TEXT>  The oracle text to resolve",
    "",
    "Options:",
    "  -t, --tables <TABLES>        JSON file mapping table names to oracle text",
    "  -s, --seed <SEED>            RNG seed for reproducible results (default: current time)",
    "      --max-depth <MAX_DEPTH>  How deeply table references may nest [default: 32]",
    "  -h, --help                   Print help (see more with '--help')",
    "  -V, --version                Print version"]

def rollHelp : String :=
  ofLines [
    "Roll a dice expression such as 3d6 or 1d20+4",
    "",
    "Usage: spells roll [OPTIONS] <EXPRESSION>",
    "",
    "Arguments:",
    "  <EXPRESSION>  Dice expression in NdM, NdM+K or NdM-K notation",
    "",
    "Options:",
    "  -s, --seed <SEED>  RNG seed for reproducible results (default: current time)",
    "  -h, --help         Print help",
    "  -V, --version      Print version"]

def parseHelp : String :=
  ofLines [
    "Show how oracle text is parsed, without resolving it",
    "",
    "Usage: spells parse <TEXT>",
    "",
    "Arguments:",
    "  <TEXT>  The oracle text to parse",
    "",
    "Options:",
    "  -h, --help     Print help",
    "  -V, --version  Print version"]

def helpHelp : String :=
  ofLines [
    "Print this message or the help of the given subcommand(s)",
    "",
    "Usage: spells help [COMMAND]...",
    "",
    "Arguments:",
    "  [COMMAND]...  Print help for the subcommand(s)"]

def Topic.text (detailed : Bool) : Topic → String
  | .program => programHelp
  | .subcommand .resolve => if detailed then resolveHelp else resolveShortHelp
  | .subcommand .roll => rollHelp
  | .subcommand .parse => parseHelp
  | .help => helpHelp

/-- The line with the version of the program or of one of its subcommands. -/
def versionText : Option Subcommand → String
  | none => "spells 0.1.0\n"
  | some subcommand => "spells-" ++ subcommand.name ++ " 0.1.0\n"

end Augury.Command
