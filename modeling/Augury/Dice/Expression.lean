import Augury.Dice.Error
import Augury.Text.Blank
import Augury.Text.Numeral
import Augury.Text.Split

/-!
# Reading a dice expression

A text that is to be one dice expression and nothing else: white space around it is dropped, the first
`d` separates the count from the sides, and the first sign behind it separates the sides from the
modifier.  Each of the two or three pieces has to be a numeral that fits 32 bits.
-/

set_option autoImplicit false

namespace Augury

/-- Reads the sides and the modifier, which follow the first `d` of an expression. -/
def Dice.readTail? (count : UInt32) (cs : List Char) : Option Dice :=
  match Text.breakAt? (fun c => (Sign.ofChar? c).isSome) cs with
  | none => do
    let sides ← Text.word? cs
    pure { count, sides }
  | some (sides, mark, value) => do
    let sides ← Text.word? sides
    let sign ← Sign.ofChar? mark
    let value ← Text.word? value
    pure { count, sides, modifier := some { sign, value } }

/-- Reads dice from an expression without white space around it. -/
def Dice.read? (cs : List Char) : Option Dice := do
  let (count, _, tail) ← Text.breakAt? (· = 'd') cs
  let count ← Text.word? count
  Dice.readTail? count tail

/-- Reads dice from an expression.  The error keeps the text as it was given. -/
def Dice.parse (text : String) : Except Dice.Error Dice :=
  match Dice.read? (Text.trim text.toList) with
  | some dice => .ok dice
  | none => .error (.unreadable text)

end Augury
