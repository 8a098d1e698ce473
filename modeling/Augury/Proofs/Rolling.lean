import Augury.Proofs.DiceExpression
import Augury.Proofs.Outcomes

/-!
# What a roll comes to

Dice are refused before anything is drawn, or all of them are rolled: one draw for each die, with the
number of sides as its upper bound, and a total of what they show and the modifier (`rollRecorded_cases`).

A total is a number of any size here.  `Dice.total64?` computes it in signed words of 64 bits, one die
after the other, and gives up where a word overflows.  Dice that are not refused are few enough that it
never does, and the word that it ends with stands for the exact total.
-/

set_option autoImplicit false

namespace Augury

open Augury.Random (Draw Draws LawfulSource Recorded Script Source)

/-! ## Signed words -/

/-- The signed word of 64 bits that stands for a number; nothing when the number does not fit. -/
def signed64? (n : Int) : Option Int64 :=
  if -2 ^ 63 ≤ n ∧ n < 2 ^ 63 then some (Int64.ofInt n) else none

theorem signed64?_eq_some_iff {n : Int} {word : Int64} :
    signed64? n = some word ↔ word.toInt = n := by
  unfold signed64?
  constructor
  · intro h
    split at h
    next hfits =>
      obtain rfl := Option.some.inj h
      exact Int64.toInt_ofInt_of_le hfits.1 hfits.2
    next => cases h
  · rintro rfl
    rw [if_pos ⟨word.le_toInt, word.toInt_lt⟩, Int64.ofInt_toInt]

theorem signed64?_eq_none_iff {n : Int} : signed64? n = none ↔ n < -2 ^ 63 ∨ 2 ^ 63 ≤ n := by
  unfold signed64?
  split
  next hfits =>
    simp only [reduceCtorEq, false_iff]
    omega
  next hfits =>
    simp only [true_iff]
    omega

theorem exists_signed64? {n : Int} (hleast : -2 ^ 63 ≤ n) (hmost : n < 2 ^ 63) :
    ∃ word, signed64? n = some word ∧ word.toInt = n := by
  have hword := Int64.toInt_ofInt_of_le hleast hmost
  exact ⟨Int64.ofInt n, signed64?_eq_some_iff.mpr hword, hword⟩

namespace Dice

/-- Adds a die to the sum of those before it, unless the word overflows. -/
def addDie64? (sum : Int64) (die : UInt32) : Option Int64 :=
  signed64? (sum.toInt + die.toNat)

/-- What dice add up to, one after the other; nothing when a sum on the way overflows. -/
def sum64? (shown : List UInt32) : Option Int64 :=
  shown.foldlM addDie64? 0

/-- The total that dice come to; nothing when their sum or the modifier overflows. -/
def total64? (d : Dice) (shown : List UInt32) : Option Int64 := do
  let sum ← sum64? shown
  match d.modifier with
  | none => pure sum
  | some m => signed64? (m.apply sum.toInt)

theorem sum_eq (shown : List UInt32) : sum shown = (shown.map UInt32.toNat).sum := by
  induction shown with
  | nil => rfl
  | cons die shown ih =>
    rw [sum_cons, ih, List.map_cons, List.sum_cons]
    push_cast
    rfl

/-- Faces are never negative, so that a sum which overflows on the way does not come back. -/
theorem foldlM_addDie64? (shown : List UInt32) (start : Int64) :
    shown.foldlM addDie64? start = signed64? (start.toInt + sum shown) := by
  induction shown generalizing start with
  | nil =>
    show some start = signed64? (start.toInt + 0)
    symm
    rw [signed64?_eq_some_iff, Int.add_zero]
  | cons die shown ih =>
    rw [List.foldlM_cons, sum_cons, ← Int.add_assoc]
    cases hstep : addDie64? start die with
    | some next =>
      have hnext : next.toInt = start.toInt + die.toNat := signed64?_eq_some_iff.mp hstep
      rw [← hnext]
      exact ih next
    | none =>
      symm
      have hover := signed64?_eq_none_iff.mp hstep
      have hstart := start.le_toInt
      have hrest : 0 ≤ sum shown := by
        rw [sum_eq]
        exact Int.natCast_nonneg _
      show signed64? (start.toInt + die.toNat + sum shown) = none
      rw [signed64?_eq_none_iff]
      omega

theorem sum64?_eq (shown : List UInt32) : sum64? shown = signed64? (sum shown) := by
  rw [sum64?, foldlM_addDie64?, Int64.toInt_zero, Int.zero_add]

/-! ## What dice that are not refused come to -/

/-- What the modifier of dice adds to their sum. -/
def adjustment (d : Dice) : Int :=
  match d.modifier with
  | none => 0
  | some { sign := .plus, value } => value.toNat
  | some { sign := .minus, value } => -value.toNat

/-- What a roll of dice has to be when these draws were made for it. -/
structure Rolled (d : Dice) (draws : List Draw) (roll : Roll) : Prop where
  /-- The breakdown holds the answers in the order of the draws, all of which ask for a side. -/
  draws_eq : draws = roll.breakdown.map fun value => { upper := d.sides, value }
  length_eq : roll.breakdown.length = d.count.toNat
  inRange : ∀ die ∈ roll.breakdown, 1 ≤ die ∧ die ≤ d.sides
  count_le_sum : d.count.toNat ≤ (roll.breakdown.map UInt32.toNat).sum
  sum_le_product : (roll.breakdown.map UInt32.toNat).sum ≤ d.count.toNat * d.sides.toNat
  total_eq : roll.total = (roll.breakdown.map UInt32.toNat).sum + d.adjustment
  /-- No sum on the way overflows a signed word. -/
  sum64?_front : ∀ front, front <+: roll.breakdown →
    ∃ sum, sum64? front = some sum ∧ sum.toInt = (front.map UInt32.toNat).sum
  /-- Neither does the total. -/
  total64?_breakdown : ∃ total, d.total64? roll.breakdown = some total ∧ total.toInt = roll.total

theorem total_eq_add_adjustment (d : Dice) (sum : Int) : d.total sum = sum + d.adjustment := by
  unfold total adjustment Modifier.apply
  rcases d.modifier with _ | ⟨_ | _, value⟩
  · exact (Int.add_zero sum).symm
  · rfl
  · exact Int.sub_eq_add_neg

theorem adjustment_bounds (d : Dice) : -2 ^ 32 < d.adjustment ∧ d.adjustment < 2 ^ 32 := by
  unfold adjustment
  split
  next => decide
  next value _ =>
    have hword := value.toNat_lt
    omega
  next value _ =>
    have hword := value.toNat_lt
    omega

theorem total64?_of_sum64? {d : Dice} {shown : List UInt32} {sum : Int64}
    (hsum : sum64? shown = some sum) (hleast : -2 ^ 63 ≤ d.total sum.toInt)
    (hmost : d.total sum.toInt < 2 ^ 63) :
    ∃ total, d.total64? shown = some total ∧ total.toInt = d.total sum.toInt := by
  unfold total64? total at *
  rw [hsum]
  cases hmodifier : d.modifier with
  | none => exact ⟨sum, rfl, rfl⟩
  | some m =>
    rw [hmodifier] at hleast hmost
    exact exists_signed64? hleast hmost

/-- As many dice as are not refused come nowhere near the end of the signed words. -/
theorem sum_lt_of_count_le {d : Dice} {shown : List UInt32} (hcount : d.count ≤ maxCount)
    (hlength : shown.length ≤ d.count.toNat) (hrange : ∀ die ∈ shown, 1 ≤ die ∧ die ≤ d.sides) :
    sum shown < 2 ^ 62 := by
  rw [UInt32.le_iff_toNat_le] at hcount
  have hmax : maxCount.toNat = 100000 := rfl
  have hlast : d.sides.toNat ≤ 2 ^ 32 := Nat.le_of_lt d.sides.toNat_lt
  have hproduct : shown.length * d.sides.toNat ≤ 100000 * 2 ^ 32 :=
    Nat.mul_le_mul (by omega) hlast
  have hmost := (sum_bounds hrange).2
  zify at hproduct
  omega

/-- Faces in range make the roll of dice that are not refused. -/
theorem rolled_of_inRange {d : Dice} {shown : List UInt32} (hcount : d.count ≤ maxCount)
    (hlength : shown.length = d.count.toNat) (hrange : ∀ die ∈ shown, 1 ≤ die ∧ die ≤ d.sides) :
    d.Rolled (shown.map fun value => { upper := d.sides, value })
      { total := d.total (sum shown), breakdown := shown } := by
  have hbounds := sum_bounds hrange
  rw [hlength, sum_eq] at hbounds
  have hfronts : ∀ front, front <+: shown →
      ∃ sum, sum64? front = some sum ∧ sum.toInt = Dice.sum front := by
    intro front hfront
    have hrange' : ∀ die ∈ front, 1 ≤ die ∧ die ≤ d.sides :=
      fun die hdie => hrange die (hfront.subset hdie)
    have hlength' : front.length ≤ d.count.toNat := hlength ▸ hfront.length_le
    have hmost := sum_lt_of_count_le hcount hlength' hrange'
    have hleast := (sum_bounds hrange').1
    rw [sum64?_eq]
    exact exists_signed64? (by omega) (by omega)
  obtain ⟨sum, hsum, hword⟩ := hfronts shown List.prefix_rfl
  have hmost := sum_lt_of_count_le hcount hlength.le hrange
  have hleast := (sum_bounds hrange).1
  have hadjustment := d.adjustment_bounds
  have htotal : d.total sum.toInt = Dice.sum shown + d.adjustment := by
    rw [total_eq_add_adjustment, hword]
  obtain ⟨total, htotal64, hexact⟩ :=
    total64?_of_sum64? (d := d) hsum (by rw [htotal]; omega) (by rw [htotal]; omega)
  exact {
    draws_eq := rfl
    length_eq := hlength
    inRange := hrange
    count_le_sum := by exact_mod_cast hbounds.1
    sum_le_product := by exact_mod_cast hbounds.2
    total_eq := by rw [total_eq_add_adjustment, sum_eq]
    sum64?_front := by
      intro front hfront
      rw [← sum_eq]
      exact hfronts front hfront
    total64?_breakdown := ⟨total, htotal64, by rw [hexact, hword]⟩ }

/-! ## Recorded rolls -/

variable {σ : Type} [Source σ]

theorem rollRecorded_of_refusal? {d : Dice} {error : Dice.Error} (h : d.refusal? = some error)
    (s : σ) : d.rollRecorded s = (.error error, { source := s, draws := #[] }) := by
  simp only [rollRecorded, roll, h]
  rfl

theorem rollRecorded_of_accepted {d : Dice} (h : d.refusal? = none) (s : σ) :
    d.rollRecorded s =
      let run := Random.drawMany d.sides d.count.toNat ({ source := s } : Recorded σ)
      (.ok { total := d.total (sum run.1), breakdown := run.1 }, run.2) := by
  simp only [rollRecorded, roll, h]
  rfl

/-- **What a roll comes to.**  Dice without a die or a side are refused, and otherwise those with too many
dice; both errors carry the text of the dice, and nothing is drawn.  All other dice are rolled: each of
them is one draw, and no word overflows on the way to the total. -/
theorem rollRecorded_cases [LawfulSource σ] (d : Dice) (s : σ) :
    (d.count = 0 ∨ d.sides = 0 →
        d.rollRecorded s = (.error (.notPositive d.render), { source := s, draws := #[] })) ∧
      (d.count ≠ 0 → d.sides ≠ 0 → 100000 < d.count →
        d.rollRecorded s = (.error (.tooMany d.render 100000), { source := s, draws := #[] })) ∧
      (d.count ≠ 0 → d.sides ≠ 0 → d.count ≤ 100000 →
        ∃ roll last, d.rollRecorded s = (.ok roll, last) ∧
          Draws s last.draws.toList last.source ∧ d.Rolled last.draws.toList roll) := by
  refine ⟨?_, ?_, ?_⟩
  · intro hzero
    have hrefused : d.refusal? = some (.notPositive d.render) := if_pos hzero
    exact rollRecorded_of_refusal? hrefused s
  · intro hcount hsides hmany
    have hrefused : d.refusal? = some (.tooMany d.render 100000) := by
      unfold refusal?
      rw [if_neg (not_or.mpr ⟨hcount, hsides⟩)]
      exact if_pos hmany
    exact rollRecorded_of_refusal? hrefused s
  · intro hcount hsides hfew
    have haccepted : d.refusal? = none := by
      unfold refusal?
      rw [if_neg (not_or.mpr ⟨hcount, hsides⟩)]
      exact if_neg (UInt32.not_lt.mpr hfew)
    obtain ⟨-, -, hone⟩ := d.refusal?_eq_none_iff.mp haccepted
    let run := Random.drawMany d.sides d.count.toNat ({ source := s } : Recorded σ)
    have hlength : run.1.length = d.count.toNat := Random.length_drawMany _ _ _
    have hrecords : Random.Records { source := s }
        (run.1.map fun value => { upper := d.sides, value }) run.2 :=
      Random.records_drawMany _ _ _
    have hrange : ∀ die ∈ run.1, 1 ≤ die ∧ die ≤ d.sides := Random.inRange_drawMany hone _ _
    refine ⟨_, run.2, rollRecorded_of_accepted haccepted s, ?_⟩
    rw [hrecords.toList_eq]
    exact ⟨hrecords.made, rolled_of_inRange hfew hlength hrange⟩

/-- The largest faces leave a word of 64 bits far from full, the missing side of too many dice is noticed
first, and one die more than may be rolled is refused. -/
theorem rollRecorded_cases_largest :
    let largest : UInt32 := 4294967295
    let dice : Dice := { count := 3, sides := largest, modifier := some ⟨.minus, largest⟩ }
    let script : Script := { values := #[largest, 1] }
    (∃ roll last, dice.rollRecorded script = (.ok roll, last) ∧
        dice.Rolled last.draws.toList roll ∧ roll.total = 4294967296) ∧
      ({ count := 100001, sides := 0 } : Dice).rollRecorded script =
        (.error (.notPositive "100001d0"), { source := script, draws := #[] }) ∧
      ({ count := 100001, sides := 6 } : Dice).rollRecorded script =
        (.error (.tooMany "100001d6" 100000), { source := script, draws := #[] }) := by
  intro largest dice script
  obtain ⟨-, -, haccepted⟩ := rollRecorded_cases dice script
  obtain ⟨roll, last, hrun, -, hrolled⟩ := haccepted (by decide) (by decide) (by decide)
  have htotal : (dice.rollRecorded script).1 =
      .ok { total := 4294967296, breakdown := [largest, 1, largest] } := by cbv
  rw [hrun] at htotal
  obtain rfl := Except.ok.inj htotal
  obtain ⟨hzero, -, -⟩ := rollRecorded_cases { count := 100001, sides := 0 } script
  obtain ⟨-, hmany, -⟩ := rollRecorded_cases { count := 100001, sides := 6 } script
  exact ⟨⟨_, last, hrun, hrolled, rfl⟩, hzero (.inr rfl),
    hmany (by decide) (by decide) (by decide)⟩

end Dice

end Augury
