/-!
# Blocks

A block is a stretch of a prompt between an opening and a closing character.  Braces hold a choice and
square brackets a table reference.  A block reaches up to the first closing character of its own kind,
whatever stands in between, so that blocks do not nest.
-/

set_option autoImplicit false

namespace Augury.Prompt

inductive Block where
  | choice
  | table
deriving Repr, DecidableEq

def Block.opener : Block → Char
  | .choice => '{'
  | .table => '['

def Block.closer : Block → Char
  | .choice => '}'
  | .table => ']'

def Block.ofOpener? : Char → Option Block
  | '{' => some .choice
  | '[' => some .table
  | _ => none

theorem Block.ofOpener?_opener (b : Block) : Block.ofOpener? b.opener = some b := by
  cases b <;> rfl

theorem Block.opener_of_ofOpener? {c : Char} {b : Block} (h : Block.ofOpener? c = some b) :
    b.opener = c := by
  unfold Block.ofOpener? at h
  split at h <;> simp_all <;> subst h <;> rfl

end Augury.Prompt
