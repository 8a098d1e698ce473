/-!
# JSON values

The values of JSON documents.  An object keeps its members in the order of the document, repeated
names included; where one value per name is asked for, the last member with the name counts.

A number that is written without a fraction and without an exponent is an integer.  Every other number
keeps its text, and so does `-0`, which is no integer: numbers of that kind are data here, nothing is
computed from them.
-/

set_option autoImplicit false

namespace Augury

/-- A number in a JSON document. -/
inductive Json.Number where
  | integer (value : Int)
  | other (text : String)
deriving Repr, DecidableEq

/-- A JSON value. -/
inductive Json where
  | null
  | bool (value : Bool)
  | number (value : Json.Number)
  | string (value : String)
  | array (items : List Json)
  | object (members : List (String × Json))
deriving Repr

namespace Json

def int (value : Int) : Json := .number (.integer value)

def nat (value : Nat) : Json := .int value

/-- The member of an object with the given name: the last one, if the name is repeated. -/
def member? (name : String) : Json → Option Json
  | .object members => members.reverse.lookup name
  | _ => none

/-- The member of an object that has members of one name only: the last of them. -/
def soleMember? : Json → Option (String × Json)
  | .object members =>
    match members.reverse with
    | [] => none
    | (name, value) :: rest =>
      if rest.all fun other => other.1 == name then some (name, value) else none
  | _ => none

def isNull : Json → Bool
  | .null => true
  | _ => false

/-- Whether a value is `null` or an object without members. -/
def isVacant : Json → Bool
  | .null | .object [] => true
  | _ => false

def text? : Json → Option String
  | .string value => some value
  | _ => none

def items? : Json → Option (List Json)
  | .array items => some items
  | _ => none

def int? : Json → Option Int
  | .number (.integer value) => some value
  | _ => none

/-- The value of an integer that fits 32 bits without a sign. -/
def word? (value : Json) : Option UInt32 :=
  match value.int? with
  | some (.ofNat n) => if n < UInt32.size then some (UInt32.ofNat n) else none
  | _ => none

end Json

end Augury
