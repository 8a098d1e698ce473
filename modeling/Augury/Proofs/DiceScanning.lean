import Augury.Proofs.DiceGrammar
import Augury.Proofs.Reports

/-!
# Dice behind the digits of their count

Scanning a prompt for dice takes whole runs of digits.  A run that does not fit 32 bits is never cut down to
a number that does: it is no number of sides, and behind a sign it is no value of a modifier, which leaves the
dice without one (`scanDice?_maximal_munch`).
-/

set_option autoImplicit false

namespace Augury.Prompt

open Text (IsBoundary IsRun Oversized byteLength leadingDigits startsWithDigit word?)

/-- A text starts with a mark and a run of digits, all that stand there, whose value fits 32 bits. -/
structure WordBehind (mark : Char) (run back cs : List Char) : Prop where
  text : cs = mark :: run ++ back
  isRun : IsRun [mark] run back
  fits : Nat.ofDigitChars 10 run 0 < 2 ^ 32

theorem not_oversized_iff {run : List Char} :
    ¬ Oversized run ↔ Nat.ofDigitChars 10 run 0 < 2 ^ 32 :=
  Nat.not_le

theorem exists_wordBehind_iff {mark : Char} (hmark : mark.isDigit = false) {cs : List Char} :
    (∃ run back, WordBehind mark run back cs) ↔
      ∃ tail, cs = mark :: tail ∧ word? (leadingDigits tail) ≠ none := by
  have hfront : Text.endsWithDigit [mark] = false := hmark
  constructor
  · rintro ⟨run, back, rfl, hrun, hfits⟩
    refine ⟨run ++ back, rfl, ?_⟩
    rw [ne_eq, ← Text.forall_run_oversized_iff hfront]
    intro hoversized
    exact not_oversized_iff.mpr hfits (hoversized run back rfl hrun)
  · rintro ⟨tail, rfl, hword⟩
    rw [ne_eq, ← Text.forall_run_oversized_iff hfront] at hword
    push Not at hword
    obtain ⟨run, back, rfl, hrun, hfits⟩ := hword
    exact ⟨run, back, rfl, hrun, not_oversized_iff.mp hfits⟩

theorem wordBehind_of_isNumeralOf {mark : Char} (hmark : mark.isDigit = false) {word : UInt32}
    {run back : List Char} (hrun : Text.IsNumeralOf word.toNat run)
    (hback : startsWithDigit back = false) : WordBehind mark run back (mark :: run ++ back) where
  text := rfl
  isRun := ⟨Text.ne_nil_of_isNumeralOf hrun, Text.isDigit_of_isNumeralOf hrun, hmark, hback⟩
  fits := by
    rw [Text.ofDigitChars_of_isNumeralOf hrun]
    exact word.toNat_lt

theorem exists_scanDice?_iff {count cs : List Char} (hne : count ≠ [])
    (hdigits : ∀ c ∈ count, c.isDigit = true) :
    (∃ d used rest, scanDice? count cs = some (d, used, rest)) ↔
      Nat.ofDigitChars 10 count 0 < 2 ^ 32 ∧ ∃ sides back, WordBehind 'd' sides back cs := by
  have hcount : word? count ≠ none ↔ Nat.ofDigitChars 10 count 0 < 2 ^ 32 := by
    rw [ne_eq, Text.word?_eq_none_iff hne hdigits, not_oversized_iff]
  have hsome : (∃ d used rest, scanDice? count cs = some (d, used, rest)) ↔
      scanDice? count cs ≠ none := by
    simp only [Option.ne_none_iff_exists', Prod.exists]
  rw [hsome, ne_eq, scanDice?_eq_none_iff, exists_wordBehind_iff rfl, ← hcount]
  push Not
  constructor
  · rintro ⟨tail, rfl, hword, hsides⟩
    exact ⟨hword, tail, rfl, hsides⟩
  · rintro ⟨hword, tail, rfl, hsides⟩
    exact ⟨tail, rfl, hword, hsides⟩

theorem parse_ofList_of_writtenAs {d : Dice} {numerals : List (List Char)} {cs : List Char}
    (h : d.WrittenAs numerals cs) : Dice.parse (String.ofList cs) = .ok d := by
  have htrim : Text.trim ([] ++ cs ++ []) = cs := h.trim_between (by simp) (by simp)
  rw [List.nil_append, List.append_nil] at htrim
  rw [Dice.parse_eq_ok_iff, String.toList_ofList, htrim]
  exact ⟨numerals, h⟩

/-- **Scanning for dice takes whole runs of digits.**  Behind the digits of a count, dice are found exactly
when a `d` and a run of digits follow and both numbers fit 32 bits.  The run is taken whole and so is one
behind a sign that follows it, if its value fits 32 bits; any other sign stays outside, and the dice have no
modifier.  What the dice take up ends between two characters and not in front of a digit, and together with
the count it is an expression of the same dice. -/
theorem scanDice?_maximal_munch {count : List Char} (hne : count ≠ [])
    (hdigits : ∀ c ∈ count, c.isDigit = true) (cs : List Char) :
    ((∃ d used rest, scanDice? count cs = some (d, used, rest)) ↔
        Nat.ofDigitChars 10 count 0 < 2 ^ 32 ∧ ∃ sides back, WordBehind 'd' sides back cs) ∧
      ∀ d used rest, scanDice? count cs = some (d, used, rest) →
        d.count.toNat = Nat.ofDigitChars 10 count 0 ∧
        (∃ sides back, WordBehind 'd' sides back cs ∧
          d.sides.toNat = Nat.ofDigitChars 10 sides 0 ∧
          ((∃ m value, WordBehind m.sign.toChar value rest back ∧ d.modifier = some m ∧
              m.value.toNat = Nat.ofDigitChars 10 value 0 ∧
              used = 'd' :: sides ++ m.sign.toChar :: value) ∨
            (∀ (sign : Sign) value more, ¬ WordBehind sign.toChar value more back) ∧
              d.modifier = none ∧ used = 'd' :: sides ∧ rest = back)) ∧
        cs = used ++ rest ∧ byteLength used ≤ byteLength cs ∧ IsBoundary cs (byteLength used) ∧
        startsWithDigit rest = false ∧ Dice.parse (String.ofList (count ++ used)) = .ok d := by
  refine ⟨exists_scanDice?_iff hne hdigits, ?_⟩
  intro d used rest hscan
  obtain ⟨⟨numerals, hwritten⟩, rfl, hrest, hmodifier⟩ := scanDice?_eq_some_iff.mp hscan
  have hlength : byteLength used ≤ byteLength (used ++ rest) := by simp
  have hboundary : IsBoundary (used ++ rest) (byteLength used) :=
    ⟨used, List.prefix_append used rest, rfl⟩
  refine ⟨?_, ?_, rfl, hlength, hboundary, hrest, parse_ofList_of_writtenAs hwritten⟩
  · obtain ⟨c, more, tail, hnumerals, -, hcount⟩ := hwritten.exists_count
    obtain ⟨rfl, -⟩ := List.cons.inj hnumerals
    exact (Text.ofDigitChars_of_isNumeralOf hcount).symm
  · generalize htext : count ++ used = text at hwritten
    cases hwritten with
    | @plain count' sides _ s hcount hsides =>
      obtain rfl := List.append_cancel_left htext
      refine ⟨s, rest, wordBehind_of_isNumeralOf rfl hsides hrest,
        (Text.ofDigitChars_of_isNumeralOf hsides).symm, .inr ⟨?_, rfl, rfl, rfl⟩⟩
      intro sign value more hvalue
      obtain ⟨tail, htail, hword⟩ :=
        (exists_wordBehind_iff sign.isDigit_toChar).mp ⟨value, more, hvalue⟩
      exact hword (scanModifier?_eq_none_iff.mp (hmodifier rfl) sign tail htail)
    | @modified count' sides m _ s v hcount hsides hvalue =>
      rw [List.append_assoc] at htext
      obtain rfl := List.append_cancel_left htext
      have hsign : startsWithDigit (m.sign.toChar :: v ++ rest) = false := m.sign.isDigit_toChar
      refine ⟨s, m.sign.toChar :: v ++ rest, ?_, (Text.ofDigitChars_of_isNumeralOf hsides).symm,
        .inl ⟨m, v, wordBehind_of_isNumeralOf m.sign.isDigit_toChar hvalue hrest, rfl,
          (Text.ofDigitChars_of_isNumeralOf hvalue).symm, rfl⟩⟩
      rw [List.append_assoc]
      exact wordBehind_of_isNumeralOf rfl hsides hsign

/-- A value that is too large stays outside of the dice, and so does what follows a value that fits. -/
theorem scanDice?_maximal_munch_oversized :
    let plain : Dice := { count := 7, sides := 6 }
    let modified : Dice := { count := 7, sides := 6, modifier := some { sign := .minus, value := 1 } }
    let large := "d06+4294967296é".toList
    let small := "d6-001é2".toList
    (['0', '7'] ≠ [] ∧ ∀ c ∈ ['0', '7'], c.isDigit = true) ∧
      (scanDice? ['0', '7'] large = some (plain, "d06".toList, "+4294967296é".toList) ∧
        IsBoundary large 3 ∧ Dice.parse "07d06" = .ok plain) ∧
      scanDice? ['0', '7'] small = some (modified, "d6-001".toList, "é2".toList) ∧
        IsBoundary small 6 ∧ Dice.parse "07d6-001" = .ok modified := by
  intro plain modified large small
  have hne : ['0', '7'] ≠ [] := by simp
  have hdigits : ∀ c ∈ ['0', '7'], c.isDigit = true := by simp
  have hlarge : scanDice? ['0', '7'] large = some (plain, "d06".toList, "+4294967296é".toList) := by
    decide
  have hsmall : scanDice? ['0', '7'] small = some (modified, "d6-001".toList, "é2".toList) := by
    decide
  obtain ⟨-, hmunch⟩ := scanDice?_maximal_munch hne hdigits large
  obtain ⟨-, hmunch'⟩ := scanDice?_maximal_munch hne hdigits small
  obtain ⟨-, -, -, -, hplain, -, hreadPlain⟩ := hmunch _ _ _ hlarge
  obtain ⟨-, -, -, -, hmodified, -, hreadModified⟩ := hmunch' _ _ _ hsmall
  exact ⟨⟨hne, hdigits⟩, ⟨hlarge, hplain, hreadPlain⟩, hsmall, hmodified, hreadModified⟩

end Augury.Prompt
