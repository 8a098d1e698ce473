import Augury.Proofs.Reading
import Mathlib.Data.List.TakeWhile

/-!
# Lexers

A lexer tells opening characters, runs of digits and everything else apart, and takes the longest stretch of
its kind off the front of a text (`Lexer.TakesLongest`).  What is in front is settled by its first character,
and every character is in front of something, so that there is one such lexer and it never finds an error
(`Lexer.takesLongest_iff`).
-/

set_option autoImplicit false

namespace Augury.Prompt

open Text (byteLength)

/-- The kinds of things that a lexer tells apart. -/
inductive Lexeme where
  | opener (kind : Block)
  | digits
  | plain
deriving Repr, DecidableEq

/-- The texts of a kind: one opening character, or a stretch of digits or of plain characters. -/
def Lexeme.Matches : Lexeme → List Char → Prop
  | .opener kind, cs => cs = [kind.opener]
  | .digits, cs => cs ≠ [] ∧ ∀ c ∈ cs, c.isDigit = true
  | .plain, cs => cs ≠ [] ∧ ∀ c ∈ cs, isPlain c = true

/-- What is found at the front of a text, and the number of bytes that it takes up.  There is nothing at the
end of the text, and an error instead of a lexeme where no lexeme matches. -/
abbrev Lexer := List Char → Option (Option Lexeme × Nat)

/-- A lexer finds a lexeme wherever one matches, and no lexeme matches more than what it takes. -/
structure Lexer.TakesLongest (lexer : Lexer) : Prop where
  nil : lexer [] = none
  exists_longest : ∀ {lexeme : Lexeme} {front cs : List Char}, lexeme.Matches front → front <+: cs →
    ∃ (found : Lexeme) (taken : List Char), lexer cs = some (some found, byteLength taken) ∧
      found.Matches taken ∧ taken <+: cs ∧
      ∀ (other : Lexeme) (longer : List Char), other.Matches longer → longer <+: cs →
        longer.length ≤ taken.length

/-! ## The lexeme of a character -/

/-- The only lexeme that can start with a character. -/
def Lexeme.ofChar (c : Char) : Lexeme :=
  match Block.ofOpener? c with
  | some kind => .opener kind
  | none => if c.isDigit then .digits else .plain

/-- The longest text at the front that the lexeme of the first character matches. -/
def Lexeme.longest (c : Char) (cs : List Char) : List Char :=
  match Lexeme.ofChar c with
  | .opener _ => [c]
  | .digits => (c :: cs).takeWhile Char.isDigit
  | .plain => (c :: cs).takeWhile isPlain

/-- The lexer that goes by the first character. -/
def Lexer.greedy : Lexer
  | [] => none
  | c :: cs => some (some (.ofChar c), byteLength (Lexeme.longest c cs))

namespace Lexeme

variable {lexeme : Lexeme} {c : Char} {front cs : List Char}

theorem ofChar_of_ofOpener? {kind : Block} (h : Block.ofOpener? c = some kind) :
    ofChar c = .opener kind := by
  rw [ofChar, h]

theorem ofChar_of_isDigit (hopener : Block.ofOpener? c = none) (hdigit : c.isDigit = true) :
    ofChar c = .digits := by
  simp only [ofChar, hopener, hdigit, ↓reduceIte]

theorem ofChar_of_not_isDigit (hopener : Block.ofOpener? c = none) (hdigit : c.isDigit = false) :
    ofChar c = .plain := by
  simp only [ofChar, hopener, hdigit, Bool.false_eq_true, ↓reduceIte]

theorem ne_nil_of_matches (h : lexeme.Matches front) : front ≠ [] := by
  cases lexeme with
  | opener kind =>
    rintro rfl
    cases h
  | digits => exact h.1
  | plain => exact h.1

theorem eq_ofChar_of_matches (h : lexeme.Matches (c :: front)) : lexeme = ofChar c := by
  cases lexeme with
  | opener kind =>
    obtain ⟨rfl, -⟩ := List.cons.inj h
    rw [ofChar_of_ofOpener? (Block.ofOpener?_opener kind)]
  | digits =>
    have hdigit : c.isDigit = true := h.2 c (List.mem_cons_self ..)
    exact (ofChar_of_isDigit (Block.ofOpener?_of_isDigit hdigit) hdigit).symm
  | plain =>
    obtain ⟨hopener, hdigit⟩ := isPlain_eq_true_iff.mp (h.2 c (List.mem_cons_self ..))
    exact (ofChar_of_not_isDigit hopener hdigit).symm

theorem takeWhile_cons_matches {p : Char → Bool} (hc : p c = true) (cs : List Char) :
    (c :: cs).takeWhile p ≠ [] ∧ ∀ x ∈ (c :: cs).takeWhile p, p x = true := by
  constructor
  · rw [List.takeWhile_cons_of_pos hc]
    exact List.cons_ne_nil _ _
  · exact fun x hx => List.mem_takeWhile_imp hx

theorem matches_longest (c : Char) (cs : List Char) : (ofChar c).Matches (longest c cs) := by
  cases hopener : Block.ofOpener? c with
  | some kind =>
    rw [longest, ofChar_of_ofOpener? hopener, ← Block.opener_of_ofOpener? hopener]
    rfl
  | none =>
    cases hdigit : c.isDigit with
    | true =>
      rw [longest, ofChar_of_isDigit hopener hdigit]
      exact takeWhile_cons_matches hdigit cs
    | false =>
      rw [longest, ofChar_of_not_isDigit hopener hdigit]
      exact takeWhile_cons_matches (isPlain_eq_true_iff.mpr ⟨hopener, hdigit⟩) cs

theorem longest_prefix_cons (c : Char) (cs : List Char) : longest c cs <+: c :: cs := by
  unfold longest
  split
  · exact ⟨cs, rfl⟩
  · exact List.takeWhile_prefix _
  · exact List.takeWhile_prefix _

theorem prefix_takeWhile {p : Char → Bool} (h : ∀ x ∈ front, p x = true) (hfront : front <+: cs) :
    front <+: cs.takeWhile p := by
  obtain ⟨back, rfl⟩ := hfront
  rw [List.takeWhile_append_of_pos h]
  exact List.prefix_append ..

/-- Whatever matches at the front is of the kind of the first character, and reaches no further. -/
theorem prefix_longest (h : lexeme.Matches front) (hfront : front <+: c :: cs) :
    lexeme = ofChar c ∧ front <+: longest c cs := by
  obtain ⟨first, more, rfl⟩ := List.exists_cons_of_ne_nil (ne_nil_of_matches h)
  obtain ⟨rfl, -⟩ := List.cons_prefix_cons.mp hfront
  obtain rfl := eq_ofChar_of_matches h
  refine ⟨rfl, ?_⟩
  unfold longest
  cases hlexeme : ofChar first with
  | opener kind =>
    rw [hlexeme] at h
    obtain ⟨-, rfl⟩ := List.cons.inj h
    exact List.prefix_refl _
  | digits =>
    rw [hlexeme] at h
    exact prefix_takeWhile h.2 hfront
  | plain =>
    rw [hlexeme] at h
    exact prefix_takeWhile h.2 hfront

end Lexeme

theorem Lexer.takesLongest_greedy : greedy.TakesLongest where
  nil := rfl
  exists_longest := by
    intro lexeme front cs hmatch hfront
    cases cs with
    | nil => exact absurd (List.prefix_nil.mp hfront) (Lexeme.ne_nil_of_matches hmatch)
    | cons c cs =>
      refine ⟨_, _, rfl, Lexeme.matches_longest c cs, Lexeme.longest_prefix_cons c cs, ?_⟩
      intro other longer hother hlonger
      exact (Lexeme.prefix_longest hother hlonger).2.length_le

/-- There is one lexer that takes the longest stretches. -/
theorem Lexer.takesLongest_iff {lexer : Lexer} : lexer.TakesLongest ↔ lexer = greedy := by
  constructor
  · intro h
    funext cs
    cases cs with
    | nil => exact h.nil
    | cons c cs =>
      have hlongest := Lexeme.matches_longest c cs
      have hfront := Lexeme.longest_prefix_cons c cs
      obtain ⟨found, taken, hlexer, hmatch, htaken, hmax⟩ := h.exists_longest hlongest hfront
      obtain ⟨rfl, hsub⟩ := Lexeme.prefix_longest hmatch htaken
      rw [hlexer, hsub.eq_of_length_le (hmax _ _ hlongest hfront)]
      rfl
  · rintro rfl
    exact takesLongest_greedy

end Augury.Prompt
