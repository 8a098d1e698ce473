import Augury.Dice.Roll
import Augury.Json.Basic

/-!
# Dice in JSON

Dice are an object with the members `count`, `sides` and `modifier`; the modifier is `null` or an object
with the members `sign` and `value`.  Reading allows members besides these, and dice without a modifier
may leave that member out.  Nothing is converted: a count is a number and never a text of digits.

A sign is written as its name.  Reading also knows the long form of a name, an object with the name for
its one member and nothing for the value of that member.  What counts as nothing depends on where the
dice stand and is a parameter here.

Dice and modifiers also have a form as a list, which holds the values of the members in their order and
leaves out the names.  It is never written, and it is not described here: `Dice.ofJson?` and
`Modifier.ofJson?` are about objects and refuse every list.
-/

set_option autoImplicit false

namespace Augury

def Sign.name : Sign → String
  | .plus => "Plus"
  | .minus => "Minus"

def Sign.ofName? (name : String) : Option Sign :=
  if name = "Plus" then some .plus
  else if name = "Minus" then some .minus
  else none

def Modifier.members (m : Modifier) : List (String × Json) :=
  [("sign", .string m.sign.name), ("value", .nat m.value.toNat)]

def Modifier.toJson (m : Modifier) : Json :=
  .object m.members

/-- Reads a sign from its name or from the long form of it. -/
def Sign.ofJson? (isNothing : Json → Bool) : Json → Option Sign
  | .string name => Sign.ofName? name
  | value => do
    let (name, content) ← value.soleMember?
    if isNothing content then Sign.ofName? name else none

def Modifier.ofJson? (isNothing : Json → Bool) (value : Json) : Option Modifier := do
  let sign ← Sign.ofJson? isNothing (← value.member? "sign")
  let amount ← (← value.member? "value").word?
  pure { sign, value := amount }

def Dice.members (d : Dice) : List (String × Json) :=
  [("count", .nat d.count.toNat), ("sides", .nat d.sides.toNat),
    ("modifier", match d.modifier with
      | none => .null
      | some m => m.toJson)]

def Dice.toJson (d : Dice) : Json :=
  .object d.members

/-- Reads the modifier of dice from the member that holds it, if there is one. -/
def Modifier.ofMember? (isNothing : Json → Bool) : Option Json → Option (Option Modifier)
  | none | some .null => some none
  | some value => (Modifier.ofJson? isNothing value).map some

/-- Reads dice from the members of an object. -/
def Dice.ofMembers? (isNothing : Json → Bool) (value : Json) : Option Dice := do
  let count ← (← value.member? "count").word?
  let sides ← (← value.member? "sides").word?
  let modifier ← Modifier.ofMember? isNothing (value.member? "modifier")
  pure { count, sides, modifier }

/-- Reads dice from their JSON form.  In dice of their own only `null` is nothing. -/
def Dice.ofJson? (value : Json) : Option Dice :=
  Dice.ofMembers? Json.isNull value

def Roll.members (r : Roll) : List (String × Json) :=
  [("total", .int r.total),
    ("breakdown", .array (r.breakdown.map fun shown => .nat shown.toNat))]

def Roll.toJson (r : Roll) : Json :=
  .object r.members

end Augury
