import Augury.Text.Combining
import Augury.Text.Unprintable

/-!
# Quoted text

A text in double quotes as messages show it: a quote, a backslash, the null character, the tab and
the two line ends have an escape of one letter, and every other character that could not be seen on
its own is written by its code point in hexadecimal: unprintable characters, fillers, and combining
characters other than letters.
-/

set_option autoImplicit false

namespace Augury.Text

/-- The escape of a character by its code point, in lower-case hexadecimal without leading zeros. -/
def codePointEscape (c : Char) : List Char :=
  ['\\', 'u', '{'] ++ Nat.toDigits 16 c.toNat ++ ['}']

/-- Whether a character could not be seen between quotes, or not as a character of its own. -/
def isHidden (c : Char) : Bool :=
  isUnprintable c || isFiller c || (isCombining c && !isSoundMark c)

/-- The way a character is written between quotes. -/
def quotedChar (c : Char) : List Char :=
  match c with
  | '\x00' => ['\\', '0']
  | '\t' => ['\\', 't']
  | '\r' => ['\\', 'r']
  | '\n' => ['\\', 'n']
  | '"' => ['\\', '"']
  | '\\' => ['\\', '\\']
  | c => if isHidden c then codePointEscape c else [c]

/-- A text between double quotes, with the escapes it needs. -/
def quoted (s : String) : String :=
  String.ofList ('"' :: s.toList.flatMap quotedChar ++ ['"'])

end Augury.Text
