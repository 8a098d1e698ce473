import Augury.Json.Basic

/-!
# Printing a JSON document

A document is printed with two blanks of margin for each level of nesting and one item or member on a
line; an array or object without any stays on one line.  Of the characters of a string only the quote,
the backslash and the control characters below U+0020 are escaped.
-/

set_option autoImplicit false

namespace Augury.Json

def Number.render : Number → String
  | .integer value => value.repr
  | .other text => text

/-- The escape of a control character by its code point, in four lower-case hexadecimal digits. -/
def controlEscape (c : Char) : List Char :=
  let n := c.toNat
  ['\\', 'u', '0', '0', Nat.digitChar (n / 16), Nat.digitChar (n % 16)]

/-- The way a character is written in a string. -/
def escapeChar (c : Char) : List Char :=
  match c with
  | '"' => ['\\', '"']
  | '\\' => ['\\', '\\']
  | '\x08' => ['\\', 'b']
  | '\x0c' => ['\\', 'f']
  | '\n' => ['\\', 'n']
  | '\r' => ['\\', 'r']
  | '\t' => ['\\', 't']
  | c => if c.toNat < 0x20 then controlEscape c else [c]

def quote (value : String) : String :=
  String.ofList ('"' :: value.toList.flatMap escapeChar ++ ['"'])

/-- The blanks in front of a line at a level of nesting. -/
def margin (level : Nat) : String :=
  String.ofList (List.replicate (2 * level) ' ')

/-- The lines of an array or object that starts at a level of nesting, given its brackets and its
parts. -/
def bracketed (level : Nat) (opening closing : String) (parts : List String) : String :=
  if parts.isEmpty then opening ++ closing
  else
    opening ++ "\n" ++ ",\n".intercalate (parts.map fun part => margin (level + 1) ++ part) ++
      "\n" ++ margin level ++ closing

/-- A value as it is printed at a level of nesting, without the margin of its first line. -/
def prettyAt (level : Nat) : Json → String
  | .null => "null"
  | .bool true => "true"
  | .bool false => "false"
  | .number value => value.render
  | .string value => quote value
  | .array items => bracketed level "[" "]" (items.map fun item => prettyAt (level + 1) item)
  | .object members =>
    bracketed level "\x7b" "\x7d"
      (members.map fun member => quote member.1 ++ ": " ++ prettyAt (level + 1) member.2)
termination_by value => sizeOf value
decreasing_by
  · decreasing_tactic
  · next hmem =>
    have hlt := List.sizeOf_lt_of_mem hmem
    have hpair : sizeOf member = 1 + sizeOf member.1 + sizeOf member.2 := by
      cases member; simp
    simp only [Json.object.sizeOf_spec]
    omega

/-- A value as a document of its own. -/
def pretty (value : Json) : String :=
  prettyAt 0 value

end Augury.Json
