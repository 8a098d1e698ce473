import Augury.Random.Source

/-!
# Scripted sources

A script fixes the answers of a source in advance.  It hands out its values in turn, over and over,
each reduced to the range that was asked for, so that every script is a lawful source.
-/

set_option autoImplicit false

namespace Augury.Random

/-- The values of a script and the number of draws made so far. -/
structure Script where
  values : Array UInt32
  position : Nat := 0
deriving Repr, DecidableEq

/-- The value whose turn it is; an empty script stands for one that repeats `1`. -/
def Script.current (s : Script) : UInt32 :=
  s.values[s.position % s.values.size]?.getD 1

/-- A value counts from one, and one that exceeds the upper bound starts over at one. -/
instance : Source Script where
  draw upper s := ((s.current - 1) % upper + 1, { s with position := s.position + 1 })

/-- A remainder lies below the bound, so its successor lies between one and the bound. -/
instance : LawfulSource Script where
  one_le_draw upper s h := by
    have hlt : (s.current - 1) % upper < upper := UInt32.mod_lt _ (by
      rw [UInt32.lt_iff_toNat_lt]; rw [UInt32.le_iff_toNat_le] at h; exact h)
    have hupper := upper.toNat_lt
    rw [UInt32.lt_iff_toNat_lt] at hlt
    show 1 ≤ (s.current - 1) % upper + 1
    rw [UInt32.le_iff_toNat_le, UInt32.toNat_add]
    simp only [UInt32.reduceToNat]
    omega
  draw_le upper s h := by
    have hlt : (s.current - 1) % upper < upper := UInt32.mod_lt _ (by
      rw [UInt32.lt_iff_toNat_lt]; rw [UInt32.le_iff_toNat_le] at h; exact h)
    have hupper := upper.toNat_lt
    rw [UInt32.lt_iff_toNat_lt] at hlt
    show (s.current - 1) % upper + 1 ≤ upper
    rw [UInt32.le_iff_toNat_le, UInt32.toNat_add]
    simp only [UInt32.reduceToNat]
    omega

end Augury.Random
