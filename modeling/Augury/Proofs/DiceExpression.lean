import Augury.Dice.Expression
import Augury.Proofs.Emission
import Augury.Proofs.ReadBack

/-!
# Dice on their own and dice in a prompt

Dice are read in two places: as an expression of their own, which is cut at the first `d` and then at the
first sign, and in a prompt, which is scanned from left to right by runs of digits.  Both accept the same
texts: those that `Dice.WrittenAs` describes (`Dice.read?_eq_some_iff`, `parse_eq_ok_dice_iff`).  So dice
that are read from an expression are the one node of the expression as a prompt, and resolving that prompt
is rolling the dice (`parse_eq_ok_iff_parse_trim_eq_ok`).
-/

set_option autoImplicit false

namespace Augury

open Augury.Random (Recorded Script Source)
open Text (IsNumeralOf breakAt? word?)

/-! ## Cuts behind digits -/

theorem Sign.ofChar?_of_isDigit {c : Char} (hc : c.isDigit = true) : Sign.ofChar? c = none := by
  cases hsign : Sign.ofChar? c with
  | none => rfl
  | some sign =>
    rw [Sign.ofChar?_eq_some_iff.mp hsign, Sign.isDigit_toChar] at hc
    contradiction

section Cuts

variable {mark : Char → Bool} {n : Nat} {run : List Char}

/-- A mark that is no digit cuts behind the numeral in front of it. -/
theorem breakAt?_numeral_append (hmark : ∀ c, c.isDigit = true → mark c = false)
    (hrun : IsNumeralOf n run) {c : Char} (hc : mark c = true) (rest : List Char) :
    breakAt? mark (run ++ c :: rest) = some (run, c, rest) := by
  rw [Text.breakAt?_eq_some_iff]
  refine ⟨rfl, hc, ?_⟩
  intro x hx
  exact hmark x (Text.isDigit_of_isNumeralOf hrun x hx)

theorem breakAt?_numeral (hmark : ∀ c, c.isDigit = true → mark c = false)
    (hrun : IsNumeralOf n run) : breakAt? mark run = none := by
  rw [Text.breakAt?_eq_none_iff]
  intro x hx
  exact hmark x (Text.isDigit_of_isNumeralOf hrun x hx)

end Cuts

/-! ## Expressions -/

namespace Dice

/-- Behind the first `d` stand the sides alone, or the sides, a sign and the value of a modifier. -/
theorem readTail?_eq_some_iff {count : UInt32} {cs : List Char} {d : Dice} :
    readTail? count cs = some d ↔ d.count = count ∧
      ((d.modifier = none ∧ IsNumeralOf d.sides.toNat cs) ∨
        ∃ m s v, d.modifier = some m ∧ cs = s ++ m.sign.toChar :: v ∧
          IsNumeralOf d.sides.toNat s ∧ IsNumeralOf m.value.toNat v) := by
  have hdigit : ∀ c : Char, c.isDigit = true → (Sign.ofChar? c).isSome = false := by
    intro c hc
    rw [Sign.ofChar?_of_isDigit hc]
    rfl
  unfold readTail?
  constructor
  · intro h
    split at h
    next hcut =>
      obtain ⟨sides, hsides, hd⟩ := Option.bind_eq_some_iff.mp h
      obtain rfl := Option.some.inj hd
      exact ⟨rfl, .inl ⟨rfl, Text.word?_eq_some_iff.mp hsides⟩⟩
    next s mark v hcut =>
      obtain ⟨sides, hsides, h⟩ := Option.bind_eq_some_iff.mp h
      obtain ⟨sign, hsign, h⟩ := Option.bind_eq_some_iff.mp h
      obtain ⟨value, hvalue, hd⟩ := Option.bind_eq_some_iff.mp h
      obtain rfl := Option.some.inj hd
      obtain ⟨hcs, -, -⟩ := Text.breakAt?_eq_some_iff.mp hcut
      rw [Sign.ofChar?_eq_some_iff.mp hsign] at hcs
      exact ⟨rfl, .inr ⟨{ sign, value }, s, v, rfl, hcs, Text.word?_eq_some_iff.mp hsides,
        Text.word?_eq_some_iff.mp hvalue⟩⟩
  · obtain ⟨count', sides, modifier⟩ := d
    rintro ⟨rfl, ⟨rfl, hsides⟩ | ⟨m, s, v, rfl, rfl, hsides, hvalue⟩⟩
    · rw [breakAt?_numeral hdigit hsides]
      simp only [Text.word?_eq_some_iff.mpr hsides]
      rfl
    · have hsign : (Sign.ofChar? m.sign.toChar).isSome = true := by
        rw [Sign.ofChar?_toChar]
        rfl
      rw [breakAt?_numeral_append hdigit hsides hsign]
      simp only [Text.word?_eq_some_iff.mpr hsides, Text.word?_eq_some_iff.mpr hvalue,
        Sign.ofChar?_toChar]
      rfl

/-- The texts that are read as dice are the texts of the dice. -/
theorem read?_eq_some_iff {cs : List Char} {d : Dice} :
    read? cs = some d ↔ ∃ numerals, d.WrittenAs numerals cs := by
  have hdigit : ∀ c : Char, c.isDigit = true → decide (c = 'd') = false := by
    intro c hc
    rw [decide_eq_false_iff_not]
    rintro rfl
    contradiction
  unfold read?
  constructor
  · intro h
    obtain ⟨⟨c, mark, tail⟩, hcut, h⟩ := Option.bind_eq_some_iff.mp h
    obtain ⟨count, hcount, htail⟩ := Option.bind_eq_some_iff.mp h
    obtain ⟨rfl, hmark, -⟩ := Text.breakAt?_eq_some_iff.mp hcut
    obtain rfl := of_decide_eq_true hmark
    have hc := Text.word?_eq_some_iff.mp hcount
    obtain ⟨count', sides, modifier⟩ := d
    obtain ⟨rfl, ⟨rfl, hsides⟩ | ⟨m, s, v, rfl, rfl, hsides, hvalue⟩⟩ :=
      readTail?_eq_some_iff.mp htail
    · exact ⟨[c, tail], .plain hc hsides⟩
    · refine ⟨[c, s, v], ?_⟩
      have hwritten := WrittenAs.modified hc hsides hvalue
      rwa [List.append_assoc, List.cons_append] at hwritten
  · rintro ⟨numerals, hwritten⟩
    cases hwritten with
    | @plain count sides c s hcount hsides =>
      have htail : readTail? count s = some { count, sides } :=
        readTail?_eq_some_iff.mpr ⟨rfl, .inl ⟨rfl, hsides⟩⟩
      rw [breakAt?_numeral_append hdigit hcount rfl]
      simp only [Text.word?_eq_some_iff.mpr hcount, Option.bind_eq_bind, Option.bind_some, htail]
    | @modified count sides m c s v hcount hsides hvalue =>
      have htail : readTail? count (s ++ m.sign.toChar :: v) =
          some { count, sides, modifier := some m } :=
        readTail?_eq_some_iff.mpr ⟨rfl, .inr ⟨m, s, v, rfl, rfl, hsides, hvalue⟩⟩
      rw [List.append_assoc, List.cons_append, breakAt?_numeral_append hdigit hcount rfl]
      simp only [Text.word?_eq_some_iff.mpr hcount, Option.bind_eq_bind, Option.bind_some, htail]

theorem parse_eq_ok_iff {text : String} {d : Dice} :
    Dice.parse text = .ok d ↔ ∃ numerals, d.WrittenAs numerals (Text.trim text.toList) := by
  rw [← read?_eq_some_iff]
  unfold Dice.parse
  cases read? (Text.trim text.toList) with
  | none => simp
  | some dice => simp

variable {σ : Type} [Source σ]

/-- Rolls dice and records every draw. -/
def rollRecorded (d : Dice) (s : σ) : Except Dice.Error Roll × Recorded σ :=
  (d.roll : ExceptT Dice.Error (StateM (Recorded σ)) Roll).run.run { source := s }

end Dice

/-! ## Prompts that are dice -/

namespace Prompt

theorem readable_dice (d : Dice) : Readable [.dice d] := by
  refine readable_dice_cons.mpr ⟨?_, readable_nil⟩
  constructor <;> simp

theorem spelled_dice_iff {d : Dice} {cs : List Char} :
    Spelled [.dice d] cs ↔ ∃ numerals, d.WrittenAs numerals cs := by
  constructor
  · intro h
    cases h with
    | cons hnode hrest =>
      cases hrest
      cases hnode with
      | exact hdice => exact absurd rfl (hdice d)
      | @dice _ numerals text hwritten =>
        rw [List.append_nil]
        exact ⟨numerals, hwritten⟩
  · rintro ⟨numerals, hwritten⟩
    have hspelled := Spelled.cons (.dice hwritten) .nil
    rwa [List.append_nil] at hspelled

/-- A prompt is read as dice and nothing else when it is a text of the dice. -/
theorem parse_eq_ok_dice_iff {text : String} {d : Dice} :
    parse text = .ok [.dice d] ↔ ∃ numerals, d.WrittenAs numerals text.toList := by
  rw [parse_eq_ok_iff, spelled_dice_iff]
  constructor
  · rintro ⟨hwritten, -⟩
    exact hwritten
  · intro hwritten
    exact ⟨hwritten, readable_dice d⟩

variable {σ : Type} [Source σ]

/-- Resolving a prompt that is dice is rolling the dice, whatever tables there are. -/
theorem resolve_of_parse_eq_dice {text : String} {d : Dice} (h : parse text = .ok [.dice d])
    (tables : Option Tables) (limit : Nat) :
    (resolve tables limit text : Resolving σ String) = (do
      let roll ← d.roll.adapt Error.dice
      pure roll.total.repr) := by
  obtain ⟨expand, hplan⟩ := exists_plan_eq_planText (tables.getD ∅) limit
  have hdice : Node.plan (tables.getD ∅) expand (.dice d) = Plan.ofLeaf (.dice d) := rfl
  rw [resolve_eq_resolve_getD, resolve_eq_perform, hplan, planText_of_parse_eq_ok h, perform_planNodes_cons, hdice,
    perform_planNodes_nil, roll_eq_perform]
  simp only [pure_bind, String.append_empty, bind_pure]

theorem run_adapt_bind_pure {ε ε' τ α β : Type} (act : ExceptT ε (StateM τ) α) (f : ε → ε')
    (g : α → β) (t : τ) :
    (do let a ← act.adapt f; pure (g a) : ExceptT ε' (StateM τ) β).run.run t =
      (((act.run.run t).1.mapError f).map g, (act.run.run t).2) := by
  simp only [ExceptT.run_bind, ExceptT.run_adapt, StateT.run_bind, StateT.run_map]
  rcases act.run.run t with ⟨_ | a, last⟩
  · rfl
  · rfl

/-- A prompt that is dice leaves the source where the roll leaves it, and comes to the total of the roll or
to the error that the dice are refused with. -/
theorem resolveRecorded_of_parse_eq_dice {text : String} {d : Dice} (h : parse text = .ok [.dice d])
    (tables : Option Tables) (limit : Nat) (s : σ) :
    resolveRecorded tables limit text s =
      (((d.rollRecorded s).1.mapError Error.dice).map fun roll => roll.total.repr,
        (d.rollRecorded s).2) := by
  rw [resolveRecorded, resolve_of_parse_eq_dice h]
  exact run_adapt_bind_pure d.roll Error.dice _ _

/-- **Expressions and prompts agree on dice.**  A text is read as an expression of dice exactly when the
text without the white space around it is read as a prompt with these dice for its only node.  Resolving
this prompt then makes the draws of rolling the dice, from the same state of the source to the same state,
and comes to the total of the roll or to the error that the dice are refused with. -/
theorem parse_eq_ok_iff_parse_trim_eq_ok (text : String) :
    (∀ d, Dice.parse text = .ok d ↔
        parse (String.ofList (Text.trim text.toList)) = .ok [.dice d]) ∧
      ∀ d, Dice.parse text = .ok d → ∀ (tables : Option Tables) (limit : Nat) (s : σ),
        let resolved := resolveRecorded tables limit (String.ofList (Text.trim text.toList)) s
        let rolled := d.rollRecorded s
        resolved.2 = rolled.2 ∧
          ((∃ roll, rolled.1 = .ok roll ∧ resolved.1 = .ok roll.total.repr) ∨
            ∃ cause, rolled.1 = .error cause ∧ resolved.1 = .error (.dice cause)) := by
  have hiff : ∀ d, Dice.parse text = .ok d ↔
      parse (String.ofList (Text.trim text.toList)) = .ok [.dice d] := by
    intro d
    rw [Dice.parse_eq_ok_iff, parse_eq_ok_dice_iff, String.toList_ofList]
  refine ⟨hiff, ?_⟩
  intro d hd tables limit s resolved rolled
  have hresolved : resolved =
      ((rolled.1.mapError Error.dice).map fun roll => roll.total.repr, rolled.2) :=
    resolveRecorded_of_parse_eq_dice ((hiff d).mp hd) tables limit s
  rw [hresolved]
  refine ⟨rfl, ?_⟩
  cases hrolled : rolled.1 with
  | ok roll => exact .inl ⟨roll, rfl, rfl⟩
  | error cause => exact .inr ⟨cause, rfl, rfl⟩

/-- Zeros in front of numerals and white space around the dice change nothing. -/
theorem parse_eq_ok_iff_parse_trim_eq_ok_padded :
    let ones : Script := { values := #[1] }
    let dice : Dice := { count := 2, sides := 6, modifier := some { sign := .minus, value := 7 } }
    Dice.parse " \t02d6-07\u3000" = .ok dice ∧ parse "02d6-07" = .ok [.dice dice] ∧
      (resolveRecorded none 0 "02d6-07" ones).2 = (dice.rollRecorded ones).2 ∧
      (resolveRecorded none 0 "02d6-07" ones).1 = .ok "-5" := by
  intro ones dice
  have hread : Dice.parse " \t02d6-07\u3000" = .ok dice := by cbv
  have htrim : String.ofList (Text.trim " \t02d6-07\u3000".toList) = "02d6-07" := by cbv
  have hrolled : (dice.rollRecorded ones).1 = .ok { total := -5, breakdown := [1, 1] } := by cbv
  obtain ⟨hiff, hrolls⟩ := parse_eq_ok_iff_parse_trim_eq_ok (σ := Script) " \t02d6-07\u3000"
  rw [htrim] at hiff hrolls
  obtain ⟨hdraws, ⟨roll, hroll, hresult⟩ | ⟨cause, hcause, -⟩⟩ := hrolls dice hread none 0 ones
  · rw [hrolled] at hroll
    obtain rfl := Except.ok.inj hroll
    exact ⟨hread, (hiff dice).mp hread, hdraws, hresult⟩
  · rw [hrolled] at hcause
    cases hcause

end Prompt

end Augury
