import Augury.Dice.Basic
import Augury.Prompt.Block
import Augury.Text.Numeral
import Augury.Text.Split

/-!
# The tokens of a prompt

A prompt is cut into tokens from left to right: blocks, dice, and runs of literal text.  The character
at which a token starts settles what is looked for.  An opening character starts a block.  A digit
starts a run of digits, which is the count of dice when a `d` and a second run of digits follow it at
once and both numbers fit 32 bits; a sign and a third run join the dice when that number fits too.
Otherwise the run of digits alone is literal text, and the search goes on behind it.

`Token.source` is the text that a token was cut from: the sources of all tokens, and the part behind an
opening character whose block is never closed, make up the prompt (`tokenize_sources`).
-/

set_option autoImplicit false

namespace Augury.Prompt

/-- Reads a modifier off the front of a text: the modifier, the text it takes up, and what follows.  All
the digits behind the sign belong to it, or it is no modifier. -/
def scanModifier? : List Char → Option (Modifier × List Char × List Char)
  | [] => none
  | mark :: cs =>
    match Sign.ofChar? mark, Text.word? (Text.leadingDigits cs) with
    | some sign, some value =>
      some ({ sign, value }, mark :: Text.leadingDigits cs, Text.afterDigits cs)
    | _, _ => none

/-- Reads the rest of dice behind the digits of their count: the dice, the text that they take up
behind the count, and what follows. -/
def scanDice? (count : List Char) : List Char → Option (Dice × List Char × List Char)
  | 'd' :: cs =>
    match Text.word? count, Text.word? (Text.leadingDigits cs) with
    | some count, some sides =>
      match scanModifier? (Text.afterDigits cs) with
      | some (modifier, used, rest) =>
        some ({ count, sides, modifier := some modifier },
          'd' :: Text.leadingDigits cs ++ used, rest)
      | none => some ({ count, sides }, 'd' :: Text.leadingDigits cs, Text.afterDigits cs)
    | _, _ => none
  | _ => none

/-- A token of a prompt. -/
inductive Token where
  | literal (text : List Char)
  | block (kind : Block) (body : List Char)
  | dice (source : List Char) (value : Dice)
deriving Repr, DecidableEq

def Token.source : Token → List Char
  | .literal text => text
  | .block kind body => kind.opener :: body ++ [kind.closer]
  | .dice source _ => source

/-- Whether a character is literal text wherever it stands: it neither opens a block nor can it be
part of the count of dice. -/
def isPlain (c : Char) : Bool :=
  (Block.ofOpener? c).isNone && !c.isDigit

/-- The token that starts with a run of digits, given what follows the run, and the rest of the
text. -/
def Token.ofDigits (digits cs : List Char) : Token × List Char :=
  match scanDice? digits cs with
  | some (value, used, rest) => (.dice (digits ++ used) value, rest)
  | none => (.literal digits, cs)

/-- The first token of a text, given its first character and what follows, and the rest of the text.
The error is the kind of a block that is never closed. -/
def Token.next (c : Char) (cs : List Char) : Except Block (Token × List Char) :=
  match Block.ofOpener? c with
  | some kind =>
    match Text.breakAt? (· = kind.closer) cs with
    | some (body, _, rest) => .ok (.block kind body, rest)
    | none => .error kind
  | none =>
    if c.isDigit then
      .ok (Token.ofDigits (Text.leadingDigits (c :: cs)) (Text.afterDigits (c :: cs)))
    else
      .ok (.literal (c :: cs.takeWhile isPlain), cs.dropWhile isPlain)

theorem append_of_scanModifier? {cs used rest : List Char} {m : Modifier}
    (h : scanModifier? cs = some (m, used, rest)) : used ++ rest = cs := by
  cases cs with
  | nil => simp [scanModifier?] at h
  | cons mark cs =>
    simp only [scanModifier?] at h
    split at h
    · simp only [Option.some.injEq, Prod.mk.injEq] at h
      obtain ⟨-, rfl, rfl⟩ := h
      rw [List.cons_append, Text.leadingDigits_append_afterDigits]
    · simp at h

theorem append_of_scanDice? {count cs used rest : List Char} {d : Dice}
    (h : scanDice? count cs = some (d, used, rest)) : used ++ rest = cs := by
  unfold scanDice? at h
  split at h
  · split at h
    · split at h
      · next hm =>
        simp only [Option.some.injEq, Prod.mk.injEq] at h
        obtain ⟨-, rfl, rfl⟩ := h
        rw [List.append_assoc, append_of_scanModifier? hm, List.cons_append,
          Text.leadingDigits_append_afterDigits]
      · simp only [Option.some.injEq, Prod.mk.injEq] at h
        obtain ⟨-, rfl, rfl⟩ := h
        rw [List.cons_append, Text.leadingDigits_append_afterDigits]
    · simp at h
  · simp at h

theorem append_ofDigits (digits cs : List Char) :
    (Token.ofDigits digits cs).1.source ++ (Token.ofDigits digits cs).2 = digits ++ cs := by
  unfold Token.ofDigits
  split
  · next h => simp only [Token.source, List.append_assoc, append_of_scanDice? h]
  · rfl

theorem append_of_next {c : Char} {cs rest : List Char} {t : Token}
    (h : Token.next c cs = .ok (t, rest)) : t.source ++ rest = c :: cs := by
  unfold Token.next at h
  split at h
  · next hkind =>
    split at h
    · next hbreak =>
      simp only [Except.ok.injEq, Prod.mk.injEq] at h
      obtain ⟨rfl, rfl⟩ := h
      obtain ⟨rfl, hmark, -⟩ := Text.breakAt?_eq_some_iff.mp hbreak
      simp_all [Token.source, Block.opener_of_ofOpener? hkind]
    · simp at h
  · split at h
    · have happ := append_ofDigits (Text.leadingDigits (c :: cs)) (Text.afterDigits (c :: cs))
      rw [Text.leadingDigits_append_afterDigits] at happ
      rw [Except.ok.injEq] at h
      rwa [h] at happ
    · simp only [Except.ok.injEq, Prod.mk.injEq] at h
      obtain ⟨rfl, rfl⟩ := h
      simp [Token.source, List.takeWhile_append_dropWhile]

theorem length_source_pos_of_next {c : Char} {cs rest : List Char} {t : Token}
    (h : Token.next c cs = .ok (t, rest)) : 0 < t.source.length := by
  unfold Token.next at h
  split at h
  · split at h
    · simp only [Except.ok.injEq, Prod.mk.injEq] at h
      obtain ⟨rfl, -⟩ := h
      simp [Token.source]
    · simp at h
  · split at h
    · next hc =>
      rw [Except.ok.injEq] at h
      unfold Token.ofDigits at h
      split at h <;> cases h <;> simp [Token.source, Text.leadingDigits, hc]
    · simp only [Except.ok.injEq, Prod.mk.injEq] at h
      obtain ⟨rfl, -⟩ := h
      simp [Token.source]

theorem length_lt_of_next {c : Char} {cs rest : List Char} {t : Token}
    (h : Token.next c cs = .ok (t, rest)) : rest.length < (c :: cs).length := by
  rw [← append_of_next h, List.length_append]
  have := length_source_pos_of_next h
  omega

/-- The tokens of a text, up to its end or to an opening character whose block is never closed; in the
latter case also the kind of the block and the text from its opening character on. -/
def tokenize : List Char → List Token × Option (Block × List Char)
  | [] => ([], none)
  | c :: cs =>
    match _h : Token.next c cs with
    | .error kind => ([], some (kind, c :: cs))
    | .ok (token, rest) =>
      let (tokens, unclosed) := tokenize rest
      (token :: tokens, unclosed)
termination_by cs => cs.length
decreasing_by exact length_lt_of_next _h

def unread : Option (Block × List Char) → List Char
  | none => []
  | some (_, rest) => rest

/-- The sources of the tokens and the part that they leave make up the text. -/
theorem tokenize_sources (cs : List Char) :
    ((tokenize cs).1.flatMap Token.source) ++ unread (tokenize cs).2 = cs := by
  fun_induction tokenize cs with
  | case1 => rfl
  | case2 c cs kind h => rfl
  | case3 c cs token rest h tokens unclosed hrest ih =>
    simp only [hrest] at ih
    simp only [List.flatMap_cons, List.append_assoc, ih]
    exact append_of_next h

end Augury.Prompt
