import Augury.Prompt.Resolution
import Augury.Proofs.Draws
import Augury.Random.Seeded
import Mathlib.Tactic

/-!
# Seeded draws stay in range

A seeded source scales a word to the range that is asked for: the high half of the product of the word and
the upper bound is a number below the bound, and the answer is one more.  Where the low half is large, a
second word may carry one into the high half.

The carry never leads out of the range.  The largest product is `upper * 2 ^ 32 - upper`, so that below
the last number of the range the low half is at most `2 ^ 32 - upper`, which is too small for a carry
(`succ_div_lt_of_lt_mod`).  Seeded sources are therefore lawful, whatever words their blocks hold, and
what holds of lawful sources holds of them: a choice picks one of its options, and dice show one of their
sides (`inRange_drawEach_ofSeed`).
-/

set_option autoImplicit false

namespace Augury.Random

/-! ## Scaled words -/

theorem toNat_scale_high (word upper : UInt32) :
    (scale word upper).1.toNat = word.toNat * upper.toNat / 2 ^ 32 := by
  have hproduct : word.toNat * upper.toNat < 2 ^ 32 * 2 ^ 32 :=
    Nat.mul_lt_mul'' word.toNat_lt upper.toNat_lt
  have hfits : word.toNat * upper.toNat % 2 ^ 64 = word.toNat * upper.toNat :=
    Nat.mod_eq_of_lt (by omega)
  have hhigh : word.toNat * upper.toNat / 2 ^ 32 < 2 ^ 32 := Nat.div_lt_of_lt_mul hproduct
  have hshift : (32 : UInt64).toNat % 64 = 32 := rfl
  simp only [scale]
  rw [UInt64.toNat_toUInt32, UInt64.toNat_shiftRight, UInt64.toNat_mul, UInt32.toNat_toUInt64,
    UInt32.toNat_toUInt64, hshift, Nat.shiftRight_eq_div_pow, hfits, Nat.mod_eq_of_lt hhigh]

theorem toNat_scale_low (word upper : UInt32) :
    (scale word upper).2.toNat = word.toNat * upper.toNat % 2 ^ 32 := by
  have hdvd : (2 : Nat) ^ 32 ∣ 2 ^ 64 := by decide
  simp only [scale]
  rw [UInt64.toNat_toUInt32, UInt64.toNat_mul, UInt32.toNat_toUInt64, UInt32.toNat_toUInt64,
    Nat.mod_mod_of_dvd _ hdvd]

/-- The high half of a scaled word is a number below the range. -/
theorem div_lt_of_word {word upper : Nat} (hword : word < 2 ^ 32) (hupper : 1 ≤ upper) :
    word * upper / 2 ^ 32 < upper :=
  Nat.div_lt_of_lt_mul (Nat.mul_lt_mul_of_pos_right hword hupper)

/-- A low half that asks for a second word leaves room above the high half. -/
theorem succ_div_lt_of_lt_mod {word upper : Nat} (hword : word < 2 ^ 32)
    (hlow : 2 ^ 32 - upper < word * upper % 2 ^ 32) : word * upper / 2 ^ 32 + 1 < upper := by
  have hlargest : word * upper ≤ (2 ^ 32 - 1) * upper :=
    Nat.mul_le_mul_right upper (Nat.le_sub_one_of_lt hword)
  have hhalves := Nat.div_add_mod (word * upper) (2 ^ 32)
  by_contra hlast
  omega

/-! ## Draws -/

/-- A first word is enough, unless its low half lies behind the last multiple of the range. -/
theorem neg_lt_iff {upper low : UInt32} (hupper : 1 ≤ upper) :
    -upper < low ↔ 2 ^ 32 - upper.toNat < low.toNat := by
  rw [UInt32.le_iff_toNat_le, UInt32.toNat_one] at hupper
  have hneg : (UInt32.size - upper.toNat) % UInt32.size = 2 ^ 32 - upper.toNat :=
    Nat.mod_eq_of_lt (Nat.sub_lt (by decide) hupper)
  rw [UInt32.lt_iff_toNat_lt, UInt32.toNat_neg, hneg]

theorem carry_iff {low high : UInt32} :
    low.toUInt64 + high.toUInt64 ≥ 0x100000000 ↔ 2 ^ 32 ≤ low.toNat + high.toNat := by
  have hlow := low.toNat_lt
  have hhigh := high.toNat_lt
  have hsum : (low.toNat + high.toNat) % 2 ^ 64 = low.toNat + high.toNat :=
    Nat.mod_eq_of_lt (by omega)
  rw [ge_iff_le, UInt64.le_iff_toNat_le, UInt64.toNat_add, UInt32.toNat_toUInt64,
    UInt32.toNat_toUInt64, hsum]
  rfl

theorem draw_eq (upper : UInt32) (s : Seeded) :
    (Source.draw upper s).1 =
      if -upper < (scale s.nextWord.1 upper).2 then
        1 + if (scale s.nextWord.1 upper).2.toUInt64 +
            (scale s.nextWord.2.nextWord.1 upper).1.toUInt64 ≥ 0x100000000
          then (scale s.nextWord.1 upper).1 + 1 else (scale s.nextWord.1 upper).1
      else 1 + (scale s.nextWord.1 upper).1 := by
  show (ite _ _ _ : UInt32 × Seeded).1 = _
  rw [apply_ite Prod.fst]
  rfl

/-- The answer of a draw as a number: one more than the high half, and one more again where the second
word carries. -/
theorem toNat_draw {upper : UInt32} (hupper : 1 ≤ upper) (s : Seeded) :
    (Source.draw upper s).1.toNat =
      1 + s.nextWord.1.toNat * upper.toNat / 2 ^ 32 +
        if 2 ^ 32 - upper.toNat < s.nextWord.1.toNat * upper.toNat % 2 ^ 32 ∧
          2 ^ 32 ≤ s.nextWord.1.toNat * upper.toNat % 2 ^ 32 +
            s.nextWord.2.nextWord.1.toNat * upper.toNat / 2 ^ 32
        then 1 else 0 := by
  have hone : (1 : UInt32).toNat = 1 := rfl
  have hword := upper.toNat_lt
  have hhigh : s.nextWord.1.toNat * upper.toNat / 2 ^ 32 < upper.toNat :=
    div_lt_of_word s.nextWord.1.toNat_lt (UInt32.le_iff_toNat_le.mp hupper)
  have hcarried : 2 ^ 32 - upper.toNat < s.nextWord.1.toNat * upper.toNat % 2 ^ 32 →
      s.nextWord.1.toNat * upper.toNat / 2 ^ 32 + 1 < upper.toNat :=
    succ_div_lt_of_lt_mod s.nextWord.1.toNat_lt
  rw [draw_eq]
  simp only [neg_lt_iff hupper, carry_iff, toNat_scale_low, toNat_scale_high]
  split
  next hedge =>
    have hroom := hcarried hedge
    split
    next hcarry =>
      rw [if_pos ⟨hedge, hcarry⟩, UInt32.toNat_add, UInt32.toNat_add, toNat_scale_high, hone]
      omega
    next hcarry =>
      rw [if_neg fun h => hcarry h.2, UInt32.toNat_add, toNat_scale_high, hone]
      omega
  next hedge =>
    rw [if_neg fun h => hedge h.1, UInt32.toNat_add, toNat_scale_high, hone]
    omega

/-- **Seeded sources are lawful.** -/
instance : LawfulSource Seeded where
  one_le_draw upper s hupper := by
    rw [UInt32.le_iff_toNat_le, toNat_draw hupper, UInt32.toNat_one]
    omega
  draw_le upper s hupper := by
    have hhigh : s.nextWord.1.toNat * upper.toNat / 2 ^ 32 < upper.toNat :=
      div_lt_of_word s.nextWord.1.toNat_lt (UInt32.le_iff_toNat_le.mp hupper)
    rw [UInt32.le_iff_toNat_le, toNat_draw hupper]
    split
    next hcarry =>
      have hroom := succ_div_lt_of_lt_mod s.nextWord.1.toNat_lt hcarry.1
      omega
    next => omega

/-! ## Draws one after the other -/

/-- The answers of a source to upper bounds, one after the other. -/
def drawEach {σ : Type} [Source σ] : List UInt32 → σ → List UInt32 × σ
  | [], s => ([], s)
  | upper :: uppers, s =>
    let (value, next) := Source.draw upper s
    let (values, last) := drawEach uppers next
    (value :: values, last)

section Lawful

variable {σ : Type} [Source σ] [LawfulSource σ]

/-- Each answer of a lawful source lies in the range that was asked for. -/
theorem forall₂_drawEach {uppers : List UInt32} (huppers : ∀ upper ∈ uppers, 1 ≤ upper) (s : σ) :
    List.Forall₂ (fun upper value => 1 ≤ value ∧ value ≤ upper) uppers (drawEach uppers s).1 := by
  induction uppers generalizing s with
  | nil => exact .nil
  | cons upper uppers ih =>
    rw [List.forall_mem_cons] at huppers
    have hfirst := LawfulSource.one_le_draw upper s huppers.1
    have hlast := LawfulSource.draw_le upper s huppers.1
    exact .cons ⟨hfirst, hlast⟩ (ih huppers.2 _)

end Lawful

end Augury.Random

namespace Augury

open Augury.Random (LawfulSource Seeded Source drawEach)

/-! ## What is made of the draws -/

section Lawful

variable {σ : Type} [Source σ] [LawfulSource σ]

/-- A choice with as few options as there are upper bounds picks one of them by its place. -/
theorem Prompt.exists_choose_eq_ok {options : List String} (hpos : 0 < options.length)
    (hlt : options.length < UInt32.size) (s : σ) :
    ∃ (index : Nat) (hindex : index < options.length),
      (Source.draw (UInt32.ofNat options.length) s).1.toNat = index + 1 ∧
        (Prompt.choose options : Prompt.Resolving σ String).run.run s =
          (.ok (String.ofList (Text.trim options[index].toList)),
            (Source.draw (UInt32.ofNat options.length) s).2) := by
  have hupper : (UInt32.ofNat options.length).toNat = options.length :=
    UInt32.toNat_ofNat_of_lt' hlt
  have hone : 1 ≤ UInt32.ofNat options.length := by
    rw [UInt32.le_iff_toNat_le, hupper]
    exact hpos
  have hfirst := LawfulSource.one_le_draw (UInt32.ofNat options.length) s hone
  have hlast := LawfulSource.draw_le (UInt32.ofNat options.length) s hone
  rw [UInt32.le_iff_toNat_le, UInt32.toNat_one] at hfirst
  rw [UInt32.le_iff_toNat_le, hupper] at hlast
  have hindex : (Source.draw (UInt32.ofNat options.length) s).1.toNat - 1 < options.length := by
    omega
  have hempty : options.isEmpty = false := by
    rw [List.isEmpty_eq_false_iff]
    exact List.ne_nil_of_length_pos hpos
  have hfew : ¬ UInt32.size ≤ options.length := Nat.not_le.mpr hlt
  refine ⟨_, hindex, (Nat.sub_add_cancel hfirst).symm, ?_⟩
  have hoption : options[(Source.draw (UInt32.ofNat options.length) s).1.toNat - 1]?.getD "" =
      options[(Source.draw (UInt32.ofNat options.length) s).1.toNat - 1] := by
    rw [List.getElem?_eq_getElem hindex, Option.getD_some]
  rw [← hoption]
  simp only [Prompt.choose, hempty, hfew, Bool.false_eq_true, ↓reduceIte]
  rfl

theorem Dice.inRange_of_roll {d : Dice} {roll : Roll} {s last : σ}
    (h : (d.roll : ExceptT Dice.Error (StateM σ) Roll).run.run s = (.ok roll, last)) :
    ∀ die ∈ roll.breakdown, 1 ≤ die ∧ die ≤ d.sides := by
  cases hrefused : d.refusal? with
  | some error =>
    simp only [Dice.roll, hrefused] at h
    cases h
  | none =>
    obtain ⟨-, -, hsides⟩ := d.refusal?_eq_none_iff.mp hrefused
    simp only [Dice.roll, hrefused] at h
    cases h
    exact Random.inRange_drawMany hsides d.count.toNat s

end Lawful

/-- **Seeded draws stay in range.**  Whatever the seed is, and whatever upper bounds were asked for before,
every answer lies between one and the upper bound.  A choice therefore picks an option by a place in the
list, and dice show one of their sides. -/
theorem inRange_drawEach_ofSeed {seed : UInt64} {uppers values : List UInt32} {last : Seeded}
    (huppers : ∀ upper ∈ uppers, 1 ≤ upper)
    (hrun : drawEach uppers (Seeded.ofSeed seed) = (values, last)) :
    List.Forall₂ (fun upper value => 1 ≤ value ∧ value ≤ upper) uppers values ∧
      (∀ options : List String, 0 < options.length → options.length < UInt32.size →
        ∃ (index : Nat) (hindex : index < options.length),
          (Source.draw (UInt32.ofNat options.length) last).1.toNat = index + 1 ∧
            (Prompt.choose options : Prompt.Resolving Seeded String).run.run last =
              (.ok (String.ofList (Text.trim options[index].toList)),
                (Source.draw (UInt32.ofNat options.length) last).2)) ∧
      ∀ (d : Dice) (roll : Roll) (next : Seeded),
        (d.roll : ExceptT Dice.Error (StateM Seeded) Roll).run.run last = (.ok roll, next) →
          ∀ die ∈ roll.breakdown, 1 ≤ die ∧ die ≤ d.sides := by
  refine ⟨?_, ?_, ?_⟩
  · have hrange := Random.forall₂_drawEach huppers (Seeded.ofSeed seed)
    rwa [hrun] at hrange
  · intro options hpos hlt
    exact Prompt.exists_choose_eq_ok hpos hlt last
  · intro d roll next hroll
    exact Dice.inRange_of_roll hroll

/-- In the widest range the first three draws of this seed take a second word each, and the second of
them carries. -/
theorem inRange_drawEach_ofSeed_carry :
    let uppers : List UInt32 := [4294967295, 4294967295, 4294967295, 6, 1]
    (∀ upper ∈ uppers, 1 ≤ upper) ∧
      ∃ last, drawEach uppers (Seeded.ofSeed 0) =
          ([3442241407, 2384947580, 3476097558, 5, 1], last) ∧
        List.Forall₂ (fun upper value => 1 ≤ value ∧ value ≤ upper) uppers
          [3442241407, 2384947580, 3476097558, 5, 1] ∧
        ∃ (index : Nat) (hindex : index < 2),
          (Source.draw 2 last).1.toNat = index + 1 ∧
            (Prompt.choose ["a", "b"] : Prompt.Resolving Seeded String).run.run last =
              (.ok (String.ofList (Text.trim ["a", "b"][index].toList)), (Source.draw 2 last).2) := by
  intro uppers
  have huppers : ∀ upper ∈ uppers, 1 ≤ upper := by simp [uppers]
  have hvalues : (drawEach uppers (Seeded.ofSeed 0)).1 =
      [3442241407, 2384947580, 3476097558, 5, 1] := by decide +kernel
  have hfew : ["a", "b"].length < UInt32.size := by simp [UInt32.size]
  rcases hrun : drawEach uppers (Seeded.ofSeed 0) with ⟨values, last⟩
  rw [hrun] at hvalues
  obtain rfl : values = [3442241407, 2384947580, 3476097558, 5, 1] := hvalues
  obtain ⟨hrange, hchoices, -⟩ := inRange_drawEach_ofSeed huppers hrun
  exact ⟨huppers, last, rfl, hrange, hchoices ["a", "b"] (by decide) hfew⟩

end Augury
