import Augury.Dice.Expression
import Augury.Proofs.ByteOffsets
import Augury.Proofs.DiceNotation

/-!
# Reading dice by byte offsets

Dice can be read with offsets instead of parts of a text: the digits behind a mark are counted in bytes, and
what is read next is sliced off at the offset that comes out.  `Prompt.diceBytes` scans a prompt for dice in
this way, and `Dice.parseBytes` reads an expression.  Every slice they take is where the text can be cut, and
they find what reading by parts finds (`Prompt.diceBytes_eq`, `Dice.parseBytes_eq`).
-/

set_option autoImplicit false

namespace Augury

open Text (Misplaced byteLength digitBytes leadingDigits afterDigits offsetOf? slice sliceFrom sliceTo
  word?)

/-! ## Dice in a prompt -/

namespace Prompt

/-- Reads a modifier off the front of a text: the modifier and the number of bytes that it takes up. -/
def modifierBytes (tail : List Char) : Except Misplaced (Option (Modifier × Nat)) :=
  match tail.head?.bind Sign.ofChar? with
  | none => return none
  | some sign => do
    let width := digitBytes (← sliceFrom tail 1)
    if width = 0 then return none
    match word? (← slice tail 1 (width + 1)) with
    | none => return none
    | some value => return some ({ sign, value }, 1 + width)

/-- Reads the rest of dice behind the digits of their count: the dice and the number of bytes that they take
up behind the count. -/
def diceBytes (count rest : List Char) : Except Misplaced (Option (Dice × Nat)) :=
  match rest with
  | 'd' :: tail => do
    let width := digitBytes tail
    if width = 0 then return none
    match word? count, word? (← sliceTo tail width) with
    | some count, some sides =>
      match ← modifierBytes (← sliceFrom tail width) with
      | some (modifier, used) =>
        return some ({ count, sides, modifier := some modifier }, 1 + width + used)
      | none => return some ({ count, sides }, 1 + width)
    | _, _ => return none
  | _ => return none

theorem word?_leadingDigits_of_digitBytes {cs : List Char} (h : digitBytes cs = 0) :
    word? (leadingDigits cs) = none := by
  by_cases hne : leadingDigits cs = []
  · rw [hne, Text.word?_nil]
  · have hpos := Text.byteLength_pos hne
    rw [← Text.digitBytes_eq] at hpos
    omega

/-- Every slice on the way to a modifier is well placed, and the modifier is the one in front. -/
theorem modifierBytes_eq (tail : List Char) :
    modifierBytes tail =
      pure ((scanModifier? tail).map fun found => (found.1, byteLength found.2.1)) := by
  cases tail with
  | nil => rfl
  | cons mark cs =>
    unfold modifierBytes
    simp only [List.head?_cons, Option.bind_some, scanModifier?]
    cases hsign : Sign.ofChar? mark with
    | none => rfl
    | some sign =>
      have hmark : byteLength [mark] = 1 := by
        rw [Sign.ofChar?_eq_some_iff.mp hsign]
        cases sign <;> rfl
      have hfrom : sliceFrom (mark :: cs) 1 = pure cs := by
        rw [← hmark]
        exact Text.sliceFrom_append [mark] cs
      have hslice : slice (mark :: cs) 1 (digitBytes cs + 1) = pure (leadingDigits cs) := by
        have hcut := Text.slice_append [mark] (leadingDigits cs) (afterDigits cs)
        rwa [List.append_assoc, Text.leadingDigits_append_afterDigits, hmark, ← Text.digitBytes_eq,
          Nat.add_comm] at hcut
      simp only [hfrom, pure_bind, hslice]
      split
      · next hwidth =>
        rw [word?_leadingDigits_of_digitBytes hwidth]
        rfl
      · cases word? (leadingDigits cs) with
        | none => rfl
        | some value =>
          have hused : byteLength (mark :: leadingDigits cs) = 1 + digitBytes cs := by
            rw [Text.digitBytes_eq, ← hmark]
            exact Text.byteLength_append [mark] (leadingDigits cs)
          simp only [Option.map_some, hused]

/-- Every slice on the way to dice is well placed, and the dice are the ones in front. -/
theorem diceBytes_eq (count cs : List Char) :
    diceBytes count cs =
      pure ((scanDice? count cs).map fun found => (found.1, byteLength found.2.1)) := by
  unfold diceBytes
  split
  · next tail =>
    have hwidth : digitBytes tail = byteLength (leadingDigits tail) := Text.digitBytes_eq tail
    have hto : sliceTo tail (digitBytes tail) = pure (leadingDigits tail) := by
      have hcut := Text.sliceTo_append (leadingDigits tail) (afterDigits tail)
      rwa [Text.leadingDigits_append_afterDigits, ← hwidth] at hcut
    have hfrom : sliceFrom tail (digitBytes tail) = pure (afterDigits tail) := by
      have hcut := Text.sliceFrom_append (leadingDigits tail) (afterDigits tail)
      rwa [Text.leadingDigits_append_afterDigits, ← hwidth] at hcut
    have hused : byteLength ('d' :: leadingDigits tail) = 1 + digitBytes tail := by
      rw [hwidth]
      rfl
    simp only [hto, hfrom, pure_bind, scanDice?]
    split
    · next hzero =>
      rw [word?_leadingDigits_of_digitBytes hzero]
      cases word? count <;> rfl
    · cases word? count with
      | none => rfl
      | some n =>
        cases word? (leadingDigits tail) with
        | none => rfl
        | some sides =>
          simp only [modifierBytes_eq, pure_bind]
          cases scanModifier? (afterDigits tail) with
          | none => simp only [Option.map_none, Option.map_some, hused]
          | some found =>
            simp only [Option.map_some, Text.byteLength_append, hused]
  · next hnone =>
    rw [scanDice?]
    · rfl
    · exact hnone

end Prompt

/-! ## Expressions of dice -/

namespace Dice

/-- Cuts what follows the first `d` of an expression at its first sign: the sides, and the modifier if there
is a sign; nothing when the value of the modifier is no numeral. -/
def cutTail (rest : List Char) : Except Misplaced (Option (List Char × Option Modifier)) :=
  match offsetOf? (fun c => (Sign.ofChar? c).isSome) rest with
  | none => return some (rest, none)
  | some offset => do
    let sign := (← sliceFrom rest offset).head?.bind Sign.ofChar?
    match word? (← sliceFrom rest (offset + 1)) with
    | none => return none
    | some value =>
      return some (← sliceTo rest offset, sign.map fun sign => { sign, value })

/-- Reads dice from an expression, which it slices at the place of the sign. -/
def parseBytes (text : String) : Except Misplaced (Except Dice.Error Dice) :=
  match Text.breakAt? (· = 'd') (Text.trim text.toList) with
  | none => return .error (.unreadable text)
  | some (count, _, rest) => do
    match ← cutTail rest with
    | none => return .error (.unreadable text)
    | some (sides, modifier) =>
      match word? count, word? sides with
      | some count, some sides => return .ok { count, sides, modifier }
      | _, _ => return .error (.unreadable text)

/-- Both sides of a sign can be cut off, because a sign is one byte, and what is cut off is what reading by
parts takes for the sides and the modifier. -/
theorem exists_cutTail_eq (rest : List Char) :
    ∃ cut, cutTail rest = pure cut ∧ ∀ count, readTail? count rest =
      cut.bind fun cut => (word? cut.1).map fun sides => { count, sides, modifier := cut.2 } := by
  unfold cutTail readTail?
  rw [Text.offsetOf?_eq_map_breakAt?]
  cases hbreak : Text.breakAt? (fun c => (Sign.ofChar? c).isSome) rest with
  | none =>
    refine ⟨some (rest, none), rfl, fun count => ?_⟩
    simp only [Option.bind_some]
    cases word? rest <;> rfl
  | some cut =>
    obtain ⟨sides, mark, value⟩ := cut
    obtain ⟨rfl, hmark, -⟩ := Text.breakAt?_eq_some_iff.mp hbreak
    obtain ⟨sign, hsign⟩ := Option.isSome_iff_exists.mp hmark
    have hwidth : byteLength (sides ++ [mark]) = byteLength sides + 1 := by
      rw [Text.byteLength_append, Sign.ofChar?_eq_some_iff.mp hsign]
      cases sign <;> rfl
    have hvalue : sliceFrom (sides ++ mark :: value) (byteLength sides + 1) = pure value := by
      rw [← hwidth, List.append_cons]
      exact Text.sliceFrom_append (sides ++ [mark]) value
    refine ⟨(word? value).map fun value => (sides, some { sign, value }), ?_, fun count => ?_⟩
    · simp only [Option.map_some, Text.sliceFrom_append, Text.sliceTo_append, hvalue, pure_bind,
        List.head?_cons, Option.bind_some, hsign]
      cases word? value <;> rfl
    · simp only [hsign]
      cases word? value with
      | none => cases word? sides <;> rfl
      | some value =>
        simp only [Option.map_some, Option.bind_some]
        cases word? sides <;> rfl

/-- Every slice of an expression is well placed, and the expression is read as by its parts. -/
theorem parseBytes_eq (text : String) : parseBytes text = pure (Dice.parse text) := by
  unfold parseBytes Dice.parse read?
  cases hmark : Text.breakAt? (· = 'd') (Text.trim text.toList) with
  | none => rfl
  | some cut =>
    obtain ⟨count, mark, rest⟩ := cut
    obtain ⟨cut, hcut, hread⟩ := exists_cutTail_eq rest
    simp only [hcut, pure_bind, Option.bind_eq_bind, Option.bind_some, hread]
    cases cut with
    | none => cases word? count <;> rfl
    | some cut =>
      obtain ⟨sides, modifier⟩ := cut
      simp only [Option.bind_some]
      cases word? count <;> cases word? sides <;> rfl

end Dice

end Augury
