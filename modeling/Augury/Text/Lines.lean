/-!
# Lines of a text

A line ends at a carriage return, a line feed, both in this order, a vertical tab, a form feed, the
next-line character or one of the separators U+2028 and U+2029.  A line keeps its terminator, so that
the lines of a text make up the text; a terminator at the very end opens no further line.
-/

set_option autoImplicit false

namespace Augury.Text

def isLineEnd (c : Char) : Bool :=
  let n := c.toNat
  (0x0a ≤ n && n ≤ 0x0d) || n == 0x85 || n == 0x2028 || n == 0x2029

/-- The lines of a text, each with its terminator. -/
def lines : List Char → List (List Char)
  | [] => []
  | '\r' :: '\n' :: cs => ['\r', '\n'] :: lines cs
  | c :: cs =>
    if isLineEnd c then [c] :: lines cs
    else match lines cs with
      | [] => [[c]]
      | line :: rest => (c :: line) :: rest

/-- The lines of a text make up the text. -/
theorem flatten_lines (cs : List Char) : (lines cs).flatten = cs := by
  fun_induction lines cs with
  | case1 => rfl
  | case2 cs ih => simp [ih]
  | case3 c cs _ _ ih => simp [ih]
  | case4 c cs _ _ h ih => rw [h] at ih; simp at ih; simp [← ih]
  | case5 c cs _ _ line rest h ih => rw [h] at ih; simp at ih; simp [← ih]

/-- A place in a text by lines: the number of lines before the line that holds it, the number of
characters before it in that line, and the line with its terminator. -/
structure Location where
  row : Nat
  column : Nat
  line : List Char
deriving Repr, DecidableEq

/-- The location of the place after `offset` characters, given the lines of the text.  Places at or
behind the end of the text belong to its last line; an empty text has one empty line. -/
def locate : List (List Char) → Nat → Location
  | [], offset => { row := 0, column := offset, line := [] }
  | [line], offset => { row := 0, column := offset, line }
  | line :: next :: rest, offset =>
    if offset < line.length then { row := 0, column := offset, line }
    else
      let location := locate (next :: rest) (offset - line.length)
      { location with row := location.row + 1 }

end Augury.Text
