import Augury.Dice.Basic
import Augury.Text.Quoted

/-!
# What can be wrong with dice

A text may not be dice at all, and dice may be refused when they are rolled: because there is no die
or no side, or because there are too many dice.
-/

set_option autoImplicit false

namespace Augury

/-- Why dice cannot be read or rolled.  An expression is the text of the dice that were refused. -/
inductive Dice.Error where
  | notPositive (expression : String)
  | tooMany (expression : String) (limit : UInt32)
  | unreadable (text : String)
deriving Repr, DecidableEq

def Dice.Error.message : Dice.Error → String
  | .notPositive expression =>
    "invalid dice expression " ++ expression ++ ": dice count and sides must be positive"
  | .tooMany expression limit =>
    "too many dice in " ++ expression ++ ": at most " ++ limit.toNat.repr ++
      " may be rolled at once"
  | .unreadable text => "cannot parse dice expression: " ++ Text.quoted text

end Augury
