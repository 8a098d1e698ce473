/-!
# Sources of random numbers

Rolling dice and picking options need one capability: a number between one and a given upper bound.
A type of source states has it by the class `Source`, which threads the state, and keeps its promise
when `LawfulSource` holds.  `Recorded` wraps a source and notes every draw, so that the order and
number of the draws of a computation are part of its result.
-/

set_option autoImplicit false

namespace Augury.Random

/-- Sources with the states `σ`: a draw answers an upper bound with a number and the next state. -/
class Source (σ : Type) where
  draw : UInt32 → σ → UInt32 × σ

/-- A lawful source answers every positive upper bound with a number from one up to the bound. -/
class LawfulSource (σ : Type) [Source σ] : Prop where
  one_le_draw : ∀ (upper : UInt32) (s : σ), 1 ≤ upper → 1 ≤ (Source.draw upper s).1
  draw_le : ∀ (upper : UInt32) (s : σ), 1 ≤ upper → (Source.draw upper s).1 ≤ upper

/-- One draw: the upper bound asked for and the number answered. -/
structure Draw where
  upper : UInt32
  value : UInt32
deriving Repr, DecidableEq

/-- A source together with all the draws made from it so far, the oldest first. -/
structure Recorded (σ : Type) where
  source : σ
  draws : Array Draw := #[]

variable {σ : Type} [Source σ]

/-- A recorded source answers as the source itself does. -/
instance : Source (Recorded σ) where
  draw upper s :=
    let (value, next) := Source.draw upper s.source
    (value, { source := next, draws := s.draws.push { upper, value } })

/-- Recording keeps the promise of a lawful source. -/
instance [LawfulSource σ] : LawfulSource (Recorded σ) where
  one_le_draw upper s h := LawfulSource.one_le_draw upper s.source h
  draw_le upper s h := LawfulSource.draw_le upper s.source h

/-- Adds `count` draws of one upper bound to the numbers drawn before them. -/
def drawInto (upper : UInt32) : Nat → Array UInt32 → σ → Array UInt32 × σ
  | 0, drawn, s => (drawn, s)
  | count + 1, drawn, s =>
    let (value, next) := Source.draw upper s
    drawInto upper count (drawn.push value) next

/-- The numbers of `count` draws of one upper bound, in the order in which they were drawn. -/
def drawMany (upper : UInt32) (count : Nat) (s : σ) : List UInt32 × σ :=
  let (drawn, next) := drawInto upper count #[] s
  (drawn.toList, next)

end Augury.Random
