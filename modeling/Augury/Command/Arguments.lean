import Augury.Prompt.Resolution
import Augury.Text.Numeral
import Augury.Text.Split

/-!
# Command-line arguments

The arguments of the program name a subcommand and give it one operand and some settings.  They are read
from left to right.  A request for help or for the version takes effect where it stands: what follows it
is not looked at, while a fault in front of it still counts.

A setting is given once at most, as `--name value`, `--name=value`, `-n value`, `-nvalue` or `-n=value`.
An argument that starts with a hyphen is neither an operand nor the value of a setting, the hyphen on
its own excepted.  Behind `--` every argument is an operand.
-/

set_option autoImplicit false

namespace Augury.Command

inductive Subcommand where
  | resolve
  | roll
  | parse
deriving Repr, DecidableEq

def Subcommand.name : Subcommand → String
  | .resolve => "oracle"
  | .roll => "roll"
  | .parse => "parse"

def Subcommand.ofName? (name : String) : Option Subcommand :=
  [.resolve, .roll, .parse].find? fun s => s.name == name

/-- The settings of subcommands. -/
inductive Setting where
  | tables
  | seed
  | limit
deriving Repr, DecidableEq

def Setting.ofName? (name : String) : Option Setting :=
  if name = "tables" then some .tables
  else if name = "seed" then some .seed
  else if name = "max-depth" then some .limit
  else none

def Setting.ofLetter? (letter : Char) : Option Setting :=
  if letter = 't' then some .tables
  else if letter = 's' then some .seed
  else none

/-- Whether a subcommand has a setting. -/
def Subcommand.allows : Subcommand → Setting → Bool
  | .resolve, _ => true
  | .roll, setting => setting == .seed
  | .parse, _ => false

/-! ## One argument -/

/-- What a single argument is, on its own. -/
inductive Argument where
  | operand (text : String)
  | setting (which : Setting) (value : Option String)
  | help (detailed : Bool)
  | version
  | endOfSettings
  | unknown
deriving Repr, DecidableEq

/-- The argument of a setting that may be allowed. -/
def Argument.ofSetting? (allowed : Setting → Bool) (setting : Option Setting)
    (value : Option String) : Argument :=
  match setting with
  | some which => if allowed which then .setting which value else .unknown
  | none => .unknown

/-- The argument with two hyphens in front of the given text. -/
def Argument.ofLong (allowed : Setting → Bool) (cs : List Char) : Argument :=
  match Text.breakAt? (· = '=') cs with
  | some (name, _, value) =>
    .ofSetting? allowed (Setting.ofName? (String.ofList name)) (some (String.ofList value))
  | none =>
    let name := String.ofList cs
    if name = "help" then .help true
    else if name = "version" then .version
    else .ofSetting? allowed (Setting.ofName? name) none

/-- The argument with one hyphen in front of a letter and the given text.  The text behind the letter of
a setting is its value; behind any other letter it has no say. -/
def Argument.ofShort (allowed : Setting → Bool) (letter : Char) (cs : List Char) : Argument :=
  if letter = 'h' then .help false
  else if letter = 'V' then .version
  else
    let value := match cs with
      | [] => none
      | '=' :: value => some (String.ofList value)
      | value => some (String.ofList value)
    .ofSetting? allowed (Setting.ofLetter? letter) value

/-- What an argument is where the given settings are allowed. -/
def Argument.read (allowed : Setting → Bool) (text : String) : Argument :=
  match text.toList with
  | ['-', '-'] => .endOfSettings
  | '-' :: '-' :: cs => .ofLong allowed cs
  | '-' :: letter :: cs => .ofShort allowed letter cs
  | _ => .operand text

/-! ## All arguments -/

/-- What a subcommand is to do. -/
inductive Job where
  | resolve (text : String) (tables : Option String) (seed : Option UInt64) (limit : Nat)
  | roll (expression : String) (seed : Option UInt64)
  | parse (text : String)
deriving Repr, DecidableEq

inductive Topic where
  | program
  | subcommand (which : Subcommand)
  | help
deriving Repr, DecidableEq

/-- What the program is to do. -/
inductive Invocation where
  | help (topic : Topic) (detailed : Bool)
  | version (subcommand : Option Subcommand)
  | job (job : Job)
deriving Repr, DecidableEq

/-- What has been read of the arguments of a subcommand. -/
structure Draft where
  operand : Option String := none
  tables : Option String := none
  seed : Option UInt64 := none
  limit : Option Nat := none
deriving Repr, DecidableEq

/-- The value of a number with an optional plus sign that fits 64 bits. -/
def number? (text : String) : Option Nat :=
  match text.toList with
  | '+' :: cs => Text.numeralBelow? UInt64.size cs
  | cs => Text.numeralBelow? UInt64.size cs

/-- Adds the operand; nothing when there is one already. -/
def Draft.addOperand? (d : Draft) (text : String) : Option Draft :=
  if d.operand.isSome then none else some { d with operand := some text }

/-- Gives a setting a value; nothing when it has one already or the value is not acceptable. -/
def Draft.set? (d : Draft) (value : String) : Setting → Option Draft
  | .tables =>
    if d.tables.isSome || value.isEmpty then none else some { d with tables := some value }
  | .seed =>
    if d.seed.isSome then none
    else (number? value).map fun seed => { d with seed := some (UInt64.ofNat seed) }
  | .limit =>
    if d.limit.isSome then none
    else (number? value).map fun limit => { d with limit := some limit }

/-- The job of a subcommand whose arguments have all been read; nothing without an operand. -/
def Draft.job? (d : Draft) (subcommand : Subcommand) : Option Job := do
  let operand ← d.operand
  match subcommand with
  | .resolve => pure (.resolve operand d.tables d.seed (d.limit.getD Prompt.defaultLimit))
  | .roll => pure (.roll operand d.seed)
  | .parse => pure (.parse operand)

/-- Reads the arguments of a subcommand, after those that a draft holds. -/
def Subcommand.read? (subcommand : Subcommand) : Draft → List String → Option Invocation
  | d, [] => (d.job? subcommand).map .job
  | d, argument :: rest =>
    match Argument.read subcommand.allows argument with
    | .operand text => do subcommand.read? (← d.addOperand? text) rest
    | .setting which (some value) => do subcommand.read? (← d.set? value which) rest
    | .setting which none =>
      match rest with
      | [] => none
      | value :: rest =>
        match Argument.read subcommand.allows value with
        | .operand value => do subcommand.read? (← d.set? value which) rest
        | _ => none
    | .help detailed => some (.help (.subcommand subcommand) detailed)
    | .version => some (.version (some subcommand))
    | .endOfSettings => do
      let d ← rest.foldlM Draft.addOperand? d
      (d.job? subcommand).map .job
    | .unknown => none

def readTopic? : List String → Option Topic
  | [] => some .program
  | [name] =>
    if name = "help" then some .help else (Subcommand.ofName? name).map .subcommand
  | _ => none

/-- Reads the arguments of the program; nothing when they are not acceptable. -/
def Invocation.read? : List String → Option Invocation
  | [] => none
  | argument :: rest =>
    match Argument.read (fun _ => false) argument with
    | .help detailed => some (.help .program detailed)
    | .version => some (.version none)
    | .operand name =>
      if name = "help" then (readTopic? rest).map (.help · true)
      else do (← Subcommand.ofName? name).read? {} rest
    | _ => none

end Augury.Command
