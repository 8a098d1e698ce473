import Augury.Dice.Expression
import Augury.Random.Source

/-!
# Rolling dice

A roll draws every die in turn from a random source, adds up what they show and applies the modifier.
Dice that are refused draw nothing.
-/

set_option autoImplicit false

namespace Augury

def Dice.maxCount : UInt32 := 100000

/-- The outcome of a roll: its total and what each die showed, in the order of the draws. -/
structure Roll where
  total : Int := 0
  breakdown : List UInt32 := []
deriving Repr, DecidableEq

def Roll.render (r : Roll) : String :=
  "[" ++ ", ".intercalate (r.breakdown.map fun shown => shown.toNat.repr) ++ "] = " ++ r.total.repr

/-- What the dice of a roll add up to. -/
def Dice.sum (shown : List UInt32) : Int :=
  shown.foldr (fun die sum => (die.toNat : Int) + sum) 0

/-- Why rolling refuses dice; nothing when it accepts them.  A missing die or side is noticed before
an excess of dice. -/
def Dice.refusal? (d : Dice) : Option Dice.Error :=
  if d.count = 0 ∨ d.sides = 0 then some (.notPositive d.render)
  else if d.count > Dice.maxCount then some (.tooMany d.render Dice.maxCount)
  else none

theorem Dice.refusal?_eq_none_iff (d : Dice) :
    d.refusal? = none ↔ 1 ≤ d.count ∧ d.count ≤ Dice.maxCount ∧ 1 ≤ d.sides := by
  have hpos : ∀ n : UInt32, 1 ≤ n ↔ n ≠ 0 := by
    intro n
    rw [UInt32.le_iff_toNat_le, ne_eq, ← UInt32.toNat_inj, UInt32.toNat_one, UInt32.toNat_zero]
    omega
  rw [hpos, hpos, ← UInt32.not_lt]
  unfold Dice.refusal?
  split
  next hzero =>
    simp only [reduceCtorEq, false_iff]
    rintro ⟨hcount, -, hsides⟩
    exact hzero.elim hcount hsides
  next hzero =>
    rw [not_or] at hzero
    split
    next hmany =>
      simp only [reduceCtorEq, false_iff]
      rintro ⟨-, hfew, -⟩
      exact hfew hmany
    next hfew => exact ⟨fun _ => ⟨hzero.1, hfew, hzero.2⟩, fun _ => rfl⟩

variable {σ : Type} [Random.Source σ]

/-- Rolls dice: one draw for each die, with the number of sides as its upper bound. -/
def Dice.roll (d : Dice) : ExceptT Dice.Error (StateM σ) Roll :=
  match d.refusal? with
  | some error => throw error
  | none => do
    let shown ← modifyGet (Random.drawMany d.sides d.count.toNat)
    pure { total := d.total (Dice.sum shown), breakdown := shown }

def Dice.rollText (text : String) : ExceptT Dice.Error (StateM σ) Roll :=
  match Dice.parse text with
  | .error error => throw error
  | .ok dice => dice.roll

end Augury
