import Augury.Random.ChaCha
import Augury.Random.Source

/-!
# Seeded sources

A seed of 64 bits fixes all the draws of a seeded source.  The seed is stretched to a ChaCha key by a
permuted congruential generator, the words of the ChaCha blocks are handed out in order, and a draw
scales one word to the range asked for, with the help of a second word in the rare case that the first
one alone would favour some numbers.
-/

set_option autoImplicit false

namespace Augury.Random

/-- One step of the congruential generator that stretches a seed. -/
def stretchStep (state : UInt64) : UInt64 :=
  state * 6364136223846793005 + 11634580027462260723

/-- The word that a state of the stretching generator gives: its high bits, folded once and turned
right by as many bits as its top five bits say. -/
def stretchWord (state : UInt64) : UInt32 :=
  let folded := (((state >>> 18) ^^^ state) >>> 27).toUInt32
  let turn := (state >>> 59).toUInt32
  (folded >>> turn) ||| (folded <<< (32 - turn))

/-- The key that a seed stands for. -/
def keyOfSeed (seed : UInt64) : ChaCha.Key :=
  Vector.ofFn fun i => stretchWord (Nat.repeat stretchStep (i.val + 1) seed)

/-- A seeded source: its key, the counter of the block after the current one, the current block, and
how many of its words have been handed out. -/
structure Seeded where
  key : ChaCha.Key
  counter : UInt64
  block : ChaCha.Block
  used : Nat

/-- The source that a seed stands for, before its first draw. -/
def Seeded.ofSeed (seed : UInt64) : Seeded :=
  let key := keyOfSeed seed
  { key, counter := 1, block := ChaCha.block key 0, used := 0 }

def Seeded.nextWord (s : Seeded) : UInt32 × Seeded :=
  if h : s.used < 16 then
    (s.block[s.used], { s with used := s.used + 1 })
  else
    let block := ChaCha.block s.key s.counter
    (block[0], { s with counter := s.counter + 1, block, used := 1 })

/-- Scales a word to the numbers below `upper`: the high and the low half of their product. -/
def scale (word upper : UInt32) : UInt32 × UInt32 :=
  let product := word.toUInt64 * upper.toUInt64
  ((product >>> 32).toUInt32, product.toUInt32)

/-- A draw is one more than the scaled word.  Where the low half shows that the first word lies at the
edge between two numbers, the high half of a second scaled word decides whether to go on to the next. -/
instance : Source Seeded where
  draw upper s :=
    let (word, s) := s.nextWord
    let (high, low) := scale word upper
    if low > -upper then
      let (word, s) := s.nextWord
      let carry := low.toUInt64 + (scale word upper).1.toUInt64 ≥ 0x100000000
      (1 + (if carry then high + 1 else high), s)
    else (1 + high, s)

end Augury.Random
