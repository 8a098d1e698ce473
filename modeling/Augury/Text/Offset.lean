/-!
# Places in a text

Messages give a place in a text as a count of UTF-8 bytes, reports as a count of characters.
`byteLength` measures a text in bytes, and `charsBefore?` turns a byte offset into the number of
characters in front of it.
-/

set_option autoImplicit false

namespace Augury.Text

/-- The length of a text in UTF-8 bytes. -/
def byteLength (cs : List Char) : Nat :=
  cs.foldr (fun c length => c.utf8Size + length) 0

@[simp] theorem byteLength_nil : byteLength [] = 0 := rfl

@[simp] theorem byteLength_cons (c : Char) (cs : List Char) :
    byteLength (c :: cs) = c.utf8Size + byteLength cs := rfl

@[simp] theorem byteLength_append (cs ds : List Char) :
    byteLength (cs ++ ds) = byteLength cs + byteLength ds := by
  induction cs with
  | nil => simp
  | cons c cs ih => rw [List.cons_append, byteLength_cons, ih, byteLength_cons, Nat.add_assoc]

/-- The number of characters in front of a byte offset; nothing when the offset lies beyond the text
or inside a character. -/
def charsBefore? (cs : List Char) (offset : Nat) : Option Nat :=
  if offset = 0 then some 0
  else match cs with
    | [] => none
    | c :: rest =>
      if offset < c.utf8Size then none
      else (charsBefore? rest (offset - c.utf8Size)).map (· + 1)

/-- A stretch of a text, from the byte offset `start` up to the byte offset `stop`. -/
structure Span where
  start : Nat
  stop : Nat
deriving Repr, DecidableEq

end Augury.Text
