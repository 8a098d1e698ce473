import Augury.Dice.Encoding
import Augury.Prompt.Node
import Augury.Prompt.Tables

/-!
# Nodes and tables in JSON

A node is an object whose member `kind` names the kind of node; its other members stand beside it, those
of dice included.  Reading allows members besides these; in the dice of a node an object without members
is nothing just as `null` is.  As with dice, the form as a list is left out: `Node.ofJson?` refuses a list,
also one that starts with the name of the kind.

Tables are an object that holds the text of each table under its name.
-/

set_option autoImplicit false

namespace Augury.Prompt

def Node.members : Node → List (String × Json)
  | .text value => [("kind", .string "text"), ("value", .string value)]
  | .choice options => [("kind", .string "choice"), ("options", .array (options.map Json.string))]
  | .table name => [("kind", .string "table"), ("name", .string name)]
  | .dice d => ("kind", .string "dice") :: d.members

def Node.toJson (n : Node) : Json :=
  .object n.members

def Node.ofJson? (value : Json) : Option Node := do
  match ← (← value.member? "kind").text? with
  | "text" => return .text (← (← value.member? "value").text?)
  | "choice" => return .choice (← (← (← value.member? "options").items?).mapM Json.text?)
  | "table" => return .table (← (← value.member? "name").text?)
  | "dice" => return .dice (← Dice.ofMembers? Json.isVacant value)
  | _ => none

/-- Reads tables from their JSON form; of two members with one name the later one counts. -/
def Tables.ofJson? : Json → Option Tables
  | .object members => do
    let entries ← members.mapM fun member => do return (member.1, ← member.2.text?)
    pure (Tables.ofList entries)
  | _ => none

end Augury.Prompt
