import Augury.Command.Help
import Augury.Json.Parsing
import Augury.Json.Pretty
import Augury.Prompt.Encoding
import Augury.Prompt.Report
import Augury.Random.Seeded

/-!
# Running the program

The program turns its arguments into an outcome: an exit code and what it prints on the standard output
and on the standard error.  A job that succeeds prints one JSON document and exits with 0; one that fails
prints a message, below a report when the fault has a place in the text it was given, and exits with 1;
arguments that are not acceptable end with 2.

All that the program needs of its surroundings is an `Environment`: the files by their names and a clock
to take a seed from.
-/

set_option autoImplicit false

namespace Augury.Command

/-- Why a file cannot be read. -/
inductive FileError where
  | missing
  | directory
  | other (message : String)
deriving Repr, DecidableEq

def FileError.message : FileError → String
  | .missing => "No such file or directory (os error 2)"
  | .directory => "Is a directory (os error 21)"
  | .other message => message

/-- What the program needs of its surroundings, in the effects `m`. -/
structure Environment (m : Type → Type) where
  file : String → m (Except FileError ByteArray)
  clock : m UInt64

/-- Why a job fails. -/
inductive Failure where
  | unreadableFile (file message : String)
  | malformedTables (file detail : String)
  | notDice (cause : Dice.Error)
  | roll (cause : Dice.Error)
  | resolve (text : String) (cause : Prompt.Error)
  | parse (text : String) (cause : Prompt.Error)
deriving Repr, DecidableEq

def Failure.message : Failure → String
  | .unreadableFile file message => "cannot read " ++ file ++ ": " ++ message
  | .malformedTables file detail => "invalid tables file " ++ file ++ ": " ++ detail
  | .notDice cause => cause.message
  | .roll cause => "failed to roll: " ++ cause.message
  | .resolve _ cause => "failed to resolve oracle: " ++ cause.message
  | .parse _ cause => "failed to parse oracle: " ++ cause.message

/-- The report about a failure, if it has a place in the text that was given. -/
def Failure.report? : Failure → Option String
  | .resolve text cause | .parse text cause =>
    (Prompt.Report.of? text cause).map (Prompt.Report.render · "input")
  | _ => none

/-- How the program ends. -/
structure Outcome where
  code : UInt32
  stdout : String := ""
  stderr : String := ""
deriving Repr, DecidableEq

def Outcome.ofResult : Except Failure Json → Outcome
  | .ok document => { code := 0, stdout := document.pretty ++ "\n" }
  | .error failure =>
    { code := 1, stderr := failure.report?.getD "" ++ "error: " ++ failure.message ++ "\n" }

/-- The outcome of arguments that are not acceptable. -/
def Outcome.misuse : Outcome :=
  { code := 2, stderr := "error: unacceptable arguments\n\nFor more information, try '--help'.\n" }

variable {m : Type → Type} [Monad m]

def loadTables (env : Environment m) (file : String) : ExceptT Failure m Prompt.Tables := do
  match ← (env.file file : m _) with
  | .error fault => throw (.unreadableFile file fault.message)
  | .ok bytes =>
    match String.fromUTF8? bytes with
    | none => throw (.unreadableFile file "stream did not contain valid UTF-8")
    | some content =>
      match Json.parse? content with
      | none => throw (.malformedTables file "not a JSON document")
      | some document =>
        match Prompt.Tables.ofJson? document with
        | none => throw (.malformedTables file "not an object of strings")
        | some tables => pure tables

/-- The random source for a seed, or for the time when no seed is given. -/
def seededSource (env : Environment m) : Option UInt64 → m Random.Seeded
  | some seed => pure (Random.Seeded.ofSeed seed)
  | none => do return Random.Seeded.ofSeed (← env.clock)

def Job.perform (env : Environment m) : Job → ExceptT Failure m Json
  | .resolve text file seed limit => do
    let tables ← match file with
      | some file => loadTables env file
      | none => pure ∅
    let source ← (seededSource env seed : m _)
    match ((Prompt.resolve tables limit text).run source).1 with
    | .error cause => throw (.resolve text cause)
    | .ok result => pure (.object [("input", .string text), ("result", .string result)])
  | .roll expression seed =>
    match Dice.parse expression with
    | .error cause => throw (.notDice cause)
    | .ok dice => do
      let source ← (seededSource env seed : m _)
      match (dice.roll.run source).1 with
      | .error cause => throw (.roll cause)
      | .ok rolled => pure (.object (("expression", .string expression) :: rolled.members))
  | .parse text =>
    match Prompt.parse text with
    | .error unclosed => throw (.parse text (.unclosed unclosed))
    | .ok nodes => pure
        (.object [("input", .string text), ("nodes", .array (nodes.map Prompt.Node.toJson))])

def Invocation.perform (env : Environment m) : Invocation → m Outcome
  | .help topic detailed => pure { code := 0, stdout := topic.text detailed }
  | .version subcommand => pure { code := 0, stdout := versionText subcommand }
  | .job j => do return Outcome.ofResult (← (j.perform env).run)

def run (env : Environment m) (arguments : List String) : m Outcome :=
  match Invocation.read? arguments with
  | none => pure Outcome.misuse
  | some invocation => invocation.perform env

end Augury.Command
