import Augury.Dice.Basic

/-!
# The nodes of a prompt

A prompt is prose in which three kinds of directives leave something to chance or to a table: choices
such as `{north|south}`, table references such as `[weather]`, and dice such as `2d6+1`.  A prompt is
read as the list of its nodes, and `Node.render` writes a node as it stands in a prompt.
-/

set_option autoImplicit false

namespace Augury.Prompt

/-- A piece of a prompt. -/
inductive Node where
  | text (value : String)
  /-- A choice between options; the options are not prompts themselves. -/
  | choice (options : List String)
  | table (name : String)
  | dice (dice : Dice)
deriving Repr, DecidableEq

def Node.render : Node → String
  | .text value => value
  | .choice options => "\x7b" ++ "|".intercalate options ++ "\x7d"
  | .table name => "[" ++ name ++ "]"
  | .dice d => d.render

def render (nodes : List Node) : String :=
  String.join (nodes.map Node.render)

end Augury.Prompt
