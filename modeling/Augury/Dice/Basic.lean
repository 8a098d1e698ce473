/-!
# Dice and modifiers

Dice are a number of equal dice to roll together, with an optional number to add to or to subtract
from their sum.  They are written as in `2d6`, `1d20+4` and `3d4-2`.

Counts, sides and modifiers are 32-bit words.  Dice without any die or without any side can be written
down; only rolling refuses them.
-/

set_option autoImplicit false

namespace Augury

/-- Whether a modifier is added or subtracted. -/
inductive Sign where
  | plus
  | minus
deriving Repr, DecidableEq

def Sign.ofChar? : Char → Option Sign
  | '+' => some .plus
  | '-' => some .minus
  | _ => none

def Sign.toChar : Sign → Char
  | .plus => '+'
  | .minus => '-'

def Sign.render (s : Sign) : String :=
  String.singleton s.toChar

theorem Sign.ofChar?_toChar (s : Sign) : Sign.ofChar? s.toChar = some s := by
  cases s <;> rfl

/-- A number to add to or to subtract from a sum of dice. -/
structure Modifier where
  sign : Sign
  value : UInt32
deriving Repr, DecidableEq

def Modifier.apply (m : Modifier) (sum : Int) : Int :=
  match m.sign with
  | .plus => sum + m.value.toNat
  | .minus => sum - m.value.toNat

def Modifier.render (m : Modifier) : String :=
  m.sign.render ++ m.value.toNat.repr

/-- Equal dice to roll together, and what to make of their sum. -/
structure Dice where
  count : UInt32
  sides : UInt32
  modifier : Option Modifier := none
deriving Repr, DecidableEq

/-- The total that a sum of the dice comes to. -/
def Dice.total (d : Dice) (sum : Int) : Int :=
  match d.modifier with
  | none => sum
  | some m => m.apply sum

/-- The text of dice, without leading zeros. -/
def Dice.render (d : Dice) : String :=
  d.count.toNat.repr ++ "d" ++ d.sides.toNat.repr ++
    match d.modifier with
    | none => ""
    | some m => m.render

end Augury
