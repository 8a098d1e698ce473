import Augury.Prompt.Token
import Augury.Proofs.DigitRuns

/-!
# Dice notation

`Dice.WrittenAs` says which texts are dice and which numerals they are made of.  `Dice.render` is the
shortest of these texts and the only one without a needless zero
(`Dice.eq_render_iff_of_writtenAs`).  Scanning a prompt takes dice whole: it finds exactly the texts of
dice that nothing behind them could extend (`scanDice?_eq_some_iff`).
-/

set_option autoImplicit false

namespace Augury

open Text (IsNumeralOf HasNeedlessZero startsWithDigit leadingDigits word?)

/-- The texts of dice, each with its numerals from left to right.  Any numeral may have zeros in
front. -/
inductive Dice.WrittenAs : Dice → List (List Char) → List Char → Prop where
  | plain {count sides : UInt32} {c s : List Char} (hcount : IsNumeralOf count.toNat c)
      (hsides : IsNumeralOf sides.toNat s) :
      WrittenAs { count, sides } [c, s] (c ++ 'd' :: s)
  | modified {count sides : UInt32} {m : Modifier} {c s v : List Char}
      (hcount : IsNumeralOf count.toNat c) (hsides : IsNumeralOf sides.toNat s)
      (hvalue : IsNumeralOf m.value.toNat v) :
      WrittenAs { count, sides, modifier := some m } [c, s, v]
        (c ++ 'd' :: s ++ m.sign.toChar :: v)

@[simp] theorem Sign.isDigit_toChar (s : Sign) : s.toChar.isDigit = false := by
  cases s <;> rfl

theorem Sign.ofChar?_eq_some_iff {c : Char} {s : Sign} :
    Sign.ofChar? c = some s ↔ c = s.toChar := by
  constructor
  · intro h
    unfold Sign.ofChar? at h
    split at h <;> cases h <;> rfl
  · rintro rfl
    exact s.ofChar?_toChar

namespace Dice

variable {d : Dice} {numerals : List (List Char)} {text : List Char}

theorem toList_render (d : Dice) :
    d.render.toList = d.count.toNat.repr.toList ++ 'd' :: d.sides.toNat.repr.toList ++
      match d.modifier with
      | none => []
      | some m => m.sign.toChar :: m.value.toNat.repr.toList := by
  obtain ⟨count, sides, modifier⟩ := d
  cases modifier with
  | none => simp [render]
  | some m => simp [render, Modifier.render, Sign.render]

theorem exists_writtenAs_render (d : Dice) : ∃ numerals, d.WrittenAs numerals d.render.toList := by
  rw [toList_render]
  obtain ⟨count, sides, modifier⟩ := d
  have hcount := Text.isNumeralOf_repr count.toNat
  have hsides := Text.isNumeralOf_repr sides.toNat
  cases modifier with
  | none =>
    have h := WrittenAs.plain hcount hsides
    exact ⟨_, by simpa using h⟩
  | some m => exact ⟨_, .modified hcount hsides (Text.isNumeralOf_repr m.value.toNat)⟩

theorem WrittenAs.exists_count (h : d.WrittenAs numerals text) :
    ∃ c more tail, numerals = c :: more ∧ text = c ++ 'd' :: tail ∧ IsNumeralOf d.count.toNat c := by
  cases h with
  | @plain count sides c s hcount hsides => exact ⟨c, _, s, rfl, rfl, hcount⟩
  | @modified count sides m c s v hcount hsides hvalue =>
    exact ⟨c, _, s ++ m.sign.toChar :: v, rfl, by simp, hcount⟩

theorem WrittenAs.ne_nil (h : d.WrittenAs numerals text) : text ≠ [] := by
  obtain ⟨c, more, tail, -, rfl, -⟩ := h.exists_count
  simp

theorem WrittenAs.startsWithDigit_append (h : d.WrittenAs numerals text) (rest : List Char) :
    startsWithDigit (text ++ rest) = true := by
  obtain ⟨c, more, tail, -, rfl, hc⟩ := h.exists_count
  rw [List.append_assoc, Text.startsWithDigit_append (Text.ne_nil_of_isNumeralOf hc)]
  exact Text.startsWithDigit_of_isNumeralOf hc

theorem WrittenAs.endsWithDigit (h : d.WrittenAs numerals text) : Text.endsWithDigit text = true := by
  cases h with
  | plain hcount hsides =>
    rw [Text.endsWithDigit_append _ (by simp),
      Text.endsWithDigit_cons _ (Text.ne_nil_of_isNumeralOf hsides)]
    exact Text.endsWithDigit_of_isNumeralOf hsides
  | modified hcount hsides hvalue =>
    rw [Text.endsWithDigit_append _ (by simp),
      Text.endsWithDigit_cons _ (Text.ne_nil_of_isNumeralOf hvalue)]
    exact Text.endsWithDigit_of_isNumeralOf hvalue

theorem WrittenAs.word?_leadingDigits (h : d.WrittenAs numerals text) (rest : List Char) :
    word? (leadingDigits (text ++ rest)) = some d.count := by
  obtain ⟨c, more, tail, -, rfl, hc⟩ := h.exists_count
  rw [List.append_assoc, Text.leadingDigits_of_isDigit (Text.isDigit_of_isNumeralOf hc) rfl]
  exact Text.word?_eq_some_iff.mpr hc

/-- A text of dice is the rendered one exactly when none of its numerals has a needless zero. -/
theorem eq_render_iff_of_writtenAs (h : d.WrittenAs numerals text) :
    text = d.render.toList ↔ ∀ numeral ∈ numerals, ¬ HasNeedlessZero numeral := by
  have hrepr := fun n : Nat => Text.isDigit_of_isNumeralOf (Text.isNumeralOf_repr n)
  rw [toList_render]
  cases h with
  | @plain count sides c s hcount hsides =>
    have hc := Text.isDigit_of_isNumeralOf hcount
    rw [List.append_nil, Text.append_cons_eq_append_cons_iff hc (hrepr _) rfl,
      Text.eq_repr_iff_of_isNumeralOf hcount, Text.eq_repr_iff_of_isNumeralOf hsides]
    simp
  | @modified count sides m c s v hcount hsides hvalue =>
    have hc := Text.isDigit_of_isNumeralOf hcount
    have hs := Text.isDigit_of_isNumeralOf hsides
    simp only [List.append_assoc, List.cons_append]
    rw [Text.append_cons_eq_append_cons_iff hc (hrepr _) rfl,
      Text.append_cons_eq_append_cons_iff hs (hrepr _) m.sign.isDigit_toChar,
      Text.eq_repr_iff_of_isNumeralOf hcount, Text.eq_repr_iff_of_isNumeralOf hsides,
      Text.eq_repr_iff_of_isNumeralOf hvalue]
    simp

theorem WrittenAs.length_render_le (h : d.WrittenAs numerals text) :
    d.render.toList.length ≤ text.length := by
  rw [toList_render]
  cases h with
  | plain hcount hsides =>
    have hc := Text.length_repr_le_of_isNumeralOf hcount
    have hs := Text.length_repr_le_of_isNumeralOf hsides
    simp only [List.append_nil, List.length_append, List.length_cons]
    omega
  | modified hcount hsides hvalue =>
    have hc := Text.length_repr_le_of_isNumeralOf hcount
    have hs := Text.length_repr_le_of_isNumeralOf hsides
    have hv := Text.length_repr_le_of_isNumeralOf hvalue
    simp only [List.length_append, List.length_cons]
    omega

end Dice

namespace Prompt

/-- The value of a modifier is the digits behind its sign, all of them. -/
theorem scanModifier?_eq_some_iff {cs used rest : List Char} {m : Modifier} :
    scanModifier? cs = some (m, used, rest) ↔
      ∃ v, used = m.sign.toChar :: v ∧ IsNumeralOf m.value.toNat v ∧ cs = used ++ rest ∧
        startsWithDigit rest = false := by
  constructor
  · intro h
    cases cs with
    | nil => simp [scanModifier?] at h
    | cons mark cs =>
      simp only [scanModifier?] at h
      split at h
      · next sign value hsign hvalue =>
        simp only [Option.some.injEq, Prod.mk.injEq] at h
        obtain ⟨rfl, rfl, rfl⟩ := h
        rw [Sign.ofChar?_eq_some_iff] at hsign
        refine ⟨leadingDigits cs, by rw [hsign], Text.word?_eq_some_iff.mp hvalue, ?_,
          Text.startsWithDigit_afterDigits cs⟩
        rw [List.cons_append, Text.leadingDigits_append_afterDigits]
      · simp at h
  · rintro ⟨v, rfl, hv, rfl, hrest⟩
    have hdigits := Text.isDigit_of_isNumeralOf hv
    simp only [List.cons_append, scanModifier?, Sign.ofChar?_toChar,
      Text.leadingDigits_of_isDigit hdigits hrest, Text.afterDigits_of_isDigit hdigits hrest,
      Text.word?_eq_some_iff.mpr hv]

theorem scanModifier?_eq_none_iff {cs : List Char} :
    scanModifier? cs = none ↔
      ∀ (sign : Sign) (tail : List Char), cs = sign.toChar :: tail →
        word? (leadingDigits tail) = none := by
  constructor
  · rintro h sign tail rfl
    simp only [scanModifier?, Sign.ofChar?_toChar] at h
    cases hword : word? (leadingDigits tail) with
    | none => rfl
    | some value => simp [hword] at h
  · intro h
    cases cs with
    | nil => rfl
    | cons mark cs =>
      simp only [scanModifier?]
      split
      · next sign value hsign hvalue =>
        rw [h sign cs (by rw [Sign.ofChar?_eq_some_iff.mp hsign])] at hvalue
        contradiction
      · rfl

/-- Scanning finds the texts of dice with the given count that what follows does not extend: no digit
follows, and no modifier follows dice that have none. -/
theorem scanDice?_eq_some_iff {count cs used rest : List Char} {d : Dice} :
    scanDice? count cs = some (d, used, rest) ↔
      (∃ numerals, d.WrittenAs (count :: numerals) (count ++ used)) ∧ cs = used ++ rest ∧
        startsWithDigit rest = false ∧ (d.modifier = none → scanModifier? rest = none) := by
  constructor
  · intro h
    unfold scanDice? at h
    split at h
    · next tail =>
      split at h
      · next c s hc hs =>
        have hcount := Text.word?_eq_some_iff.mp hc
        have hsides := Text.word?_eq_some_iff.mp hs
        have happ := Text.leadingDigits_append_afterDigits tail
        split at h
        · next m modifier rest' hm =>
          simp only [Option.some.injEq, Prod.mk.injEq] at h
          obtain ⟨rfl, rfl, rfl⟩ := h
          obtain ⟨v, rfl, hv, htail, hrest⟩ := scanModifier?_eq_some_iff.mp hm
          refine ⟨⟨_, by simpa using Dice.WrittenAs.modified hcount hsides hv⟩, ?_, hrest, by simp⟩
          rw [List.append_assoc, ← htail, List.cons_append, happ]
        · next hm =>
          simp only [Option.some.injEq, Prod.mk.injEq] at h
          obtain ⟨rfl, rfl, rfl⟩ := h
          refine ⟨⟨_, .plain hcount hsides⟩, ?_, Text.startsWithDigit_afterDigits tail,
            fun _ => hm⟩
          rw [List.cons_append, happ]
      · simp at h
    · simp at h
  · rintro ⟨⟨numerals, hwritten⟩, rfl, hrest, hmodifier⟩
    generalize htext : count ++ used = text at hwritten
    cases hwritten with
    | @plain count' sides _ s hcount hsides =>
      obtain rfl := List.append_cancel_left htext
      have hdigits := Text.isDigit_of_isNumeralOf hsides
      simp only [List.cons_append, scanDice?, Text.leadingDigits_of_isDigit hdigits hrest,
        Text.afterDigits_of_isDigit hdigits hrest, Text.word?_eq_some_iff.mpr hcount,
        Text.word?_eq_some_iff.mpr hsides, hmodifier rfl]
    | @modified count' sides m _ s v hcount hsides hvalue =>
      rw [List.append_assoc] at htext
      obtain rfl := List.append_cancel_left htext
      have hdigits := Text.isDigit_of_isNumeralOf hsides
      have hsign : startsWithDigit (m.sign.toChar :: (v ++ rest)) = false := m.sign.isDigit_toChar
      have hm : scanModifier? (m.sign.toChar :: (v ++ rest)) =
          some (m, m.sign.toChar :: v, rest) :=
        scanModifier?_eq_some_iff.mpr ⟨v, rfl, hvalue, rfl, hrest⟩
      simp only [List.cons_append, List.append_assoc, scanDice?,
        Text.leadingDigits_of_isDigit hdigits hsign, Text.afterDigits_of_isDigit hdigits hsign,
        Text.word?_eq_some_iff.mpr hcount, Text.word?_eq_some_iff.mpr hsides, hm]

theorem scanDice?_eq_none_iff {count cs : List Char} :
    scanDice? count cs = none ↔
      ∀ tail, cs = 'd' :: tail → word? count = none ∨ word? (leadingDigits tail) = none := by
  constructor
  · rintro h tail rfl
    simp only [scanDice?] at h
    split at h
    · split at h <;> simp at h
    · next hnone =>
      by_contra hsome
      rw [not_or, ← ne_eq, ← ne_eq, Option.ne_none_iff_exists', Option.ne_none_iff_exists'] at hsome
      obtain ⟨⟨c, hc⟩, s, hs⟩ := hsome
      exact hnone c s hc hs
  · intro h
    unfold scanDice?
    split
    · next tail =>
      rcases h tail rfl with hc | hs
      · rw [hc]
      · rw [hs]
        split <;> simp_all
    · rfl

end Prompt

end Augury
