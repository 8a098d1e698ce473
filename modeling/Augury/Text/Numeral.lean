/-!
# Decimal numerals

A numeral is a non-empty run of ASCII digits.  Leading zeros are allowed and a sign is not part of
a numeral.  Every number that a text of this library holds is read here: `leadingDigits`
and `afterDigits` cut the longest run of digits off the front of a text, `numeral?` gives the value of a run, and `word?`
accepts the runs whose value fits 32 bits.

The digits of other scripts are no digits here.
-/

set_option autoImplicit false

namespace Augury.Text

/-- The longest run of ASCII digits at the front of a text. -/
def leadingDigits (cs : List Char) : List Char :=
  cs.takeWhile Char.isDigit

/-- What follows the longest run of ASCII digits at the front of a text. -/
def afterDigits (cs : List Char) : List Char :=
  cs.dropWhile Char.isDigit

/-- The value of a numeral; nothing for the empty text and for a text with any other character. -/
def numeral? (cs : List Char) : Option Nat :=
  if !cs.isEmpty && cs.all Char.isDigit then some (Nat.ofDigitChars 10 cs 0) else none

/-- The value of a numeral that lies below `bound`. -/
def numeralBelow? (bound : Nat) (cs : List Char) : Option Nat :=
  (numeral? cs).filter (· < bound)

/-- The value of a numeral that fits 32 bits. -/
def word? (cs : List Char) : Option UInt32 :=
  (numeralBelow? UInt32.size cs).map UInt32.ofNat

theorem leadingDigits_append_afterDigits (cs : List Char) :
    leadingDigits cs ++ afterDigits cs = cs :=
  List.takeWhile_append_dropWhile

theorem isDigit_of_mem_leadingDigits {cs : List Char} {c : Char} (h : c ∈ leadingDigits cs) :
    c.isDigit = true := by
  unfold leadingDigits at h
  induction cs with
  | nil => simp at h
  | cons x xs ih =>
    rw [List.takeWhile_cons] at h
    split at h
    · next hx =>
      rcases List.mem_cons.mp h with rfl | h
      · exact hx
      · exact ih h
    · simp at h

theorem isDigit_of_afterDigits {cs rest : List Char} {c : Char} (h : afterDigits cs = c :: rest) :
    c.isDigit = false := by
  unfold afterDigits at h
  have hhead := List.head?_dropWhile_not Char.isDigit cs
  rw [h] at hhead
  simpa using hhead

end Augury.Text
