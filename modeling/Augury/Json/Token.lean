import Augury.Json.Basic
import Augury.Text.Numeral

/-!
# The tokens of a JSON document

A document is cut into brackets, commas, colons, strings, numbers and the three words `true`, `false`
and `null`, with white space between them dropped.  Nothing is allowed beyond what every reader of JSON
takes: strings hold no raw control characters, numbers have no leading zeros, and an escaped surrogate has
to be one of a pair.
-/

set_option autoImplicit false

namespace Augury.Json

/-- A token of a JSON document. -/
inductive Token where
  | braceOpen
  | braceClose
  | bracketOpen
  | bracketClose
  | comma
  | colon
  | null
  | bool (value : Bool)
  | number (value : Number)
  | string (value : String)
deriving Repr, DecidableEq

def isGap (c : Char) : Bool :=
  c == ' ' || c == '\t' || c == '\n' || c == '\r'

/-! ## Strings -/

/-- A piece of a string: a character, or sixteen bits that were given by their hexadecimal digits. -/
inductive Piece where
  | char (c : Char)
  | unit (bits : Nat)
deriving Repr, DecidableEq

def hexDigit? (c : Char) : Option Nat :=
  if '0' ≤ c && c ≤ '9' then some (c.toNat - '0'.toNat)
  else if 'a' ≤ c && c ≤ 'f' then some (c.toNat - 'a'.toNat + 10)
  else if 'A' ≤ c && c ≤ 'F' then some (c.toNat - 'A'.toNat + 10)
  else none

def hexUnit? (a b c d : Char) : Option Nat := do
  let a ← hexDigit? a
  let b ← hexDigit? b
  let c ← hexDigit? c
  let d ← hexDigit? d
  pure (((a * 16 + b) * 16 + c) * 16 + d)

/-- The character that an escape of one letter stands for. -/
def letterEscape? : Char → Option Char
  | '"' => some '"'
  | '\\' => some '\\'
  | '/' => some '/'
  | 'b' => some '\x08'
  | 'f' => some '\x0c'
  | 'n' => some '\n'
  | 'r' => some '\r'
  | 't' => some '\t'
  | _ => none

/-- Whether a character may stand in a string without an escape, as far as it is no quote. -/
def isRaw (c : Char) : Bool :=
  0x20 ≤ c.toNat && c != '\\'

/-- The pieces of a string behind its opening quote, and what follows its closing quote. -/
def pieces? : List Char → Option (List Piece × List Char)
  | [] => none
  | '"' :: rest => some ([], rest)
  | '\\' :: 'u' :: a :: b :: c :: d :: cs => do
    let bits ← hexUnit? a b c d
    let (pieces, rest) ← pieces? cs
    pure (.unit bits :: pieces, rest)
  | '\\' :: letter :: cs => do
    let c ← letterEscape? letter
    let (pieces, rest) ← pieces? cs
    pure (.char c :: pieces, rest)
  | c :: cs =>
    if isRaw c then do
      let (pieces, rest) ← pieces? cs
      pure (.char c :: pieces, rest)
    else none

def isHighSurrogate (bits : Nat) : Bool :=
  0xd800 ≤ bits && bits < 0xdc00

def isLowSurrogate (bits : Nat) : Bool :=
  0xdc00 ≤ bits && bits < 0xe000

/-- The characters that pieces stand for; nothing when a surrogate has no partner. -/
def joinPieces? : List Piece → Option (List Char)
  | [] => some []
  | .char c :: pieces => (joinPieces? pieces).map (c :: ·)
  | .unit bits :: pieces =>
    if isHighSurrogate bits then
      match pieces with
      | .unit low :: pieces =>
        if isLowSurrogate low then
          let c := Char.ofNat (0x10000 + (bits - 0xd800) * 0x400 + (low - 0xdc00))
          (joinPieces? pieces).map (c :: ·)
        else none
      | _ => none
    else if isLowSurrogate bits then none
    else (joinPieces? pieces).map (Char.ofNat bits :: ·)

/-- Reads a string behind its opening quote: its text, and what follows its closing quote. -/
def scanString? (cs : List Char) : Option (String × List Char) := do
  let (pieces, rest) ← pieces? cs
  let text ← joinPieces? pieces
  pure (String.ofList text, rest)

/-! ## Numbers -/

/-- Cuts the whole part off the front of a number without its sign: a zero, or digits that start with
no zero. -/
def wholePart : List Char → List Char × List Char
  | '0' :: cs => (['0'], cs)
  | cs => (Text.leadingDigits cs, Text.afterDigits cs)

/-- Cuts a fraction off the front of a text; the empty text when there is none. -/
def fractionPart : List Char → List Char × List Char
  | '.' :: cs =>
    if (Text.leadingDigits cs).isEmpty then ([], '.' :: cs)
    else ('.' :: Text.leadingDigits cs, Text.afterDigits cs)
  | cs => ([], cs)

def exponentSign : List Char → List Char × List Char
  | '+' :: cs => (['+'], cs)
  | '-' :: cs => (['-'], cs)
  | cs => ([], cs)

/-- Cuts an exponent off the front of a text; the empty text when there is none. -/
def exponentPart : List Char → List Char × List Char
  | [] => ([], [])
  | mark :: cs =>
    if mark = 'e' ∨ mark = 'E' then
      let (sign, digits) := exponentSign cs
      if (Text.leadingDigits digits).isEmpty then ([], mark :: cs)
      else (mark :: sign ++ Text.leadingDigits digits, Text.afterDigits digits)
    else ([], mark :: cs)

/-- Reads a number without its sign off the front of a text. -/
def scanUnsigned? (negative : Bool) (cs : List Char) : Option (Number × List Char) :=
  let (whole, rest) := wholePart cs
  if whole.isEmpty then none
  else
    let (fraction, rest) := fractionPart rest
    let (exponent, rest) := exponentPart rest
    let magnitude := Nat.ofDigitChars 10 whole 0
    if fraction.isEmpty && exponent.isEmpty && !(negative && magnitude == 0) then
      some (.integer (if negative then -magnitude else magnitude), rest)
    else
      let sign := if negative then ['-'] else []
      some (.other (String.ofList (sign ++ whole ++ fraction ++ exponent)), rest)

def scanNumber? : List Char → Option (Number × List Char)
  | '-' :: cs => scanUnsigned? true cs
  | cs => scanUnsigned? false cs

/-! ## Tokens -/

def dropWord? : List Char → List Char → Option (List Char)
  | [], cs => some cs
  | w :: word, c :: cs => if w = c then dropWord? word cs else none
  | _ :: _, [] => none

/-- The first token of a text that starts with no white space, and the rest of the text. -/
def Token.next? : List Char → Option (Token × List Char)
  | '\x7b' :: cs => some (.braceOpen, cs)
  | '\x7d' :: cs => some (.braceClose, cs)
  | '[' :: cs => some (.bracketOpen, cs)
  | ']' :: cs => some (.bracketClose, cs)
  | ',' :: cs => some (.comma, cs)
  | ':' :: cs => some (.colon, cs)
  | '"' :: cs => (scanString? cs).map fun (value, rest) => (.string value, rest)
  | 'n' :: cs => (dropWord? ['u', 'l', 'l'] cs).map fun rest => (.null, rest)
  | 't' :: cs => (dropWord? ['r', 'u', 'e'] cs).map fun rest => (.bool true, rest)
  | 'f' :: cs => (dropWord? ['a', 'l', 's', 'e'] cs).map fun rest => (.bool false, rest)
  | cs => (scanNumber? cs).map fun (value, rest) => (.number value, rest)

/-! ## Each token takes up part of the text -/

theorem length_lt_of_pieces? {cs rest : List Char} {ps : List Piece}
    (h : pieces? cs = some (ps, rest)) : rest.length < cs.length := by
  fun_induction pieces? cs generalizing ps rest with
  | case1 => simp at h
  | case2 cs => simp only [Option.some.injEq, Prod.mk.injEq] at h; simp [h.2]
  | case3 a b c d cs ih =>
    simp only [Option.bind_eq_bind, Option.bind_eq_some_iff, Option.pure_def, Option.some.injEq,
      Prod.mk.injEq] at h
    obtain ⟨-, -, ⟨ps', rest'⟩, hcs, -, rfl⟩ := h
    have := ih hcs
    simp only [List.length_cons]
    omega
  | case4 letter cs _ ih =>
    simp only [Option.bind_eq_bind, Option.bind_eq_some_iff, Option.pure_def, Option.some.injEq,
      Prod.mk.injEq] at h
    obtain ⟨-, -, ⟨ps', rest'⟩, hcs, -, rfl⟩ := h
    have := ih hcs
    simp only [List.length_cons]
    omega
  | case5 c cs _ _ _ _ ih =>
    simp only [Option.bind_eq_bind, Option.bind_eq_some_iff, Option.pure_def, Option.some.injEq,
      Prod.mk.injEq] at h
    obtain ⟨⟨ps', rest'⟩, hcs, -, rfl⟩ := h
    have := ih hcs
    simp only [List.length_cons]
    omega
  | case6 => simp at h

theorem length_lt_of_scanString? {cs rest : List Char} {value : String}
    (h : scanString? cs = some (value, rest)) : rest.length < cs.length := by
  simp only [scanString?, Option.bind_eq_bind, Option.bind_eq_some_iff, Option.pure_def,
    Option.some.injEq, Prod.mk.injEq] at h
  obtain ⟨⟨ps, rest'⟩, hps, -, -, -, rfl⟩ := h
  exact length_lt_of_pieces? hps

theorem append_wholePart (cs : List Char) : (wholePart cs).1 ++ (wholePart cs).2 = cs := by
  unfold wholePart
  split
  · rfl
  · exact Text.leadingDigits_append_afterDigits cs

theorem append_fractionPart (cs : List Char) :
    (fractionPart cs).1 ++ (fractionPart cs).2 = cs := by
  unfold fractionPart
  split
  · next cs =>
    split
    · rfl
    · simp [Text.leadingDigits_append_afterDigits]
  · rfl

theorem append_exponentSign (cs : List Char) :
    (exponentSign cs).1 ++ (exponentSign cs).2 = cs := by
  unfold exponentSign
  split <;> rfl

theorem append_exponentPart (cs : List Char) :
    (exponentPart cs).1 ++ (exponentPart cs).2 = cs := by
  unfold exponentPart
  split
  · rfl
  · next mark cs =>
    split
    · simp only
      split
      · rfl
      · simp only [List.append_assoc, List.cons_append,
          Text.leadingDigits_append_afterDigits, append_exponentSign]
    · rfl

/-- What follows a number is shorter than the text, since the whole part holds a digit. -/
theorem length_lt_of_scanUnsigned? {negative : Bool} {cs rest : List Char} {n : Number}
    (h : scanUnsigned? negative cs = some (n, rest)) : rest.length < cs.length := by
  have hwhole := congrArg List.length (append_wholePart cs)
  have hfraction := congrArg List.length (append_fractionPart (wholePart cs).2)
  have hexponent := congrArg List.length
    (append_exponentPart (fractionPart (wholePart cs).2).2)
  simp only [List.length_append] at hwhole hfraction hexponent
  simp only [scanUnsigned?] at h
  split at h
  · simp at h
  · next hne =>
    have hpos : 0 < (wholePart cs).1.length := by
      rw [List.length_pos_iff]
      simpa using hne
    split at h <;>
    · simp only [Option.some.injEq, Prod.mk.injEq] at h
      rw [← h.2]
      omega

theorem length_lt_of_scanNumber? {cs rest : List Char} {n : Number}
    (h : scanNumber? cs = some (n, rest)) : rest.length < cs.length := by
  unfold scanNumber? at h
  split at h
  · have := length_lt_of_scanUnsigned? h
    rw [List.length_cons]
    omega
  · exact length_lt_of_scanUnsigned? h

theorem length_le_of_dropWord? {word cs rest : List Char} (h : dropWord? word cs = some rest) :
    rest.length ≤ cs.length := by
  fun_induction dropWord? word cs with
  | case1 => simp_all
  | case2 w word cs ih => have := ih h; rw [List.length_cons]; omega
  | case3 => simp at h
  | case4 => simp at h

theorem length_lt_of_next? {cs rest : List Char} {t : Token}
    (h : Token.next? cs = some (t, rest)) : rest.length < cs.length := by
  unfold Token.next? at h
  split at h
  case h_7 =>
    simp only [Option.map_eq_some_iff, Prod.exists, Prod.mk.injEq] at h
    obtain ⟨_, _, h, -, rfl⟩ := h
    have := length_lt_of_scanString? h
    rw [List.length_cons]
    omega
  case h_11 =>
    simp only [Option.map_eq_some_iff, Prod.exists, Prod.mk.injEq] at h
    obtain ⟨_, _, h, -, rfl⟩ := h
    exact length_lt_of_scanNumber? h
  all_goals
    simp only [Option.map_eq_some_iff, Option.some.injEq, Prod.mk.injEq] at h
    first
    | (rw [← h.2, List.length_cons]; omega)
    | (obtain ⟨_, h, -, rfl⟩ := h
       have := length_le_of_dropWord? h
       rw [List.length_cons]
       omega)

/-- The tokens of a document; nothing when some part of it is no token. -/
def tokenize? : List Char → Option (List Token)
  | [] => some []
  | c :: cs =>
    if isGap c then tokenize? cs
    else match _h : Token.next? (c :: cs) with
      | none => none
      | some (token, rest) => (tokenize? rest).map (token :: ·)
termination_by cs => cs.length
decreasing_by
  · simp
  · exact length_lt_of_next? _h

end Augury.Json
