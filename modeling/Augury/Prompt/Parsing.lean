import Augury.Prompt.Error
import Augury.Prompt.Node
import Augury.Prompt.Token

/-!
# Reading a prompt

The nodes of a prompt are its tokens with neighbouring pieces of literal text joined, so that no two
text nodes stand side by side and no text node is empty.  A block that is never closed makes the whole
prompt unreadable.
-/

set_option autoImplicit false

namespace Augury.Prompt

/-- Puts the node of a token in front of others; literal text in front of a text node joins it. -/
def Node.cons : Token → List Node → List Node
  | .literal cs, .text value :: nodes => .text (String.ofList cs ++ value) :: nodes
  | .literal cs, nodes => .text (String.ofList cs) :: nodes
  | .block .choice body, nodes => .choice ((Text.splitOn '|' body).map String.ofList) :: nodes
  | .block .table body, nodes => .table (String.ofList body) :: nodes
  | .dice _ value, nodes => .dice value :: nodes

def Node.ofTokens (tokens : List Token) : List Node :=
  tokens.foldr Node.cons []

def parse (text : String) : Except Unclosed (List Node) :=
  let cs := text.toList
  match tokenize cs with
  | (tokens, none) => .ok (Node.ofTokens tokens)
  | (_, some (block, rest)) =>
    let stop := Text.byteLength cs
    .error { block, span := { start := stop - Text.byteLength rest, stop } }

end Augury.Prompt
