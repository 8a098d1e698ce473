/-!
# ChaCha blocks

The ChaCha stream cipher with twelve rounds as a generator of 32-bit words.  A block is a table of
sixteen words: four constants, eight key words, a 64-bit counter with its low word first, and two
zeros.  Twelve rounds stir the table, alternately by columns and by diagonals, and the stirred table
is added word by word to the one it came from.
-/

set_option autoImplicit false

namespace Augury.Random.ChaCha

abbrev Key := Vector UInt32 8

abbrev Block := Vector UInt32 16

/-- The word turned left by `n` bits; the bits that leave at the top come back at the bottom. -/
def rotateLeft (w n : UInt32) : UInt32 :=
  (w <<< n) ||| (w >>> (32 - n))

/-- Stirs four words of a block. -/
def quarterRound (a b c d : Fin 16) (block : Block) : Block :=
  let block := block.set a (block[a] + block[b])
  let block := block.set d (rotateLeft (block[d] ^^^ block[a]) 16)
  let block := block.set c (block[c] + block[d])
  let block := block.set b (rotateLeft (block[b] ^^^ block[c]) 12)
  let block := block.set a (block[a] + block[b])
  let block := block.set d (rotateLeft (block[d] ^^^ block[a]) 8)
  let block := block.set c (block[c] + block[d])
  block.set b (rotateLeft (block[b] ^^^ block[c]) 7)

/-- A round by columns and a round by diagonals. -/
def doubleRound (block : Block) : Block :=
  let block := quarterRound 0 4 8 12 block
  let block := quarterRound 1 5 9 13 block
  let block := quarterRound 2 6 10 14 block
  let block := quarterRound 3 7 11 15 block
  let block := quarterRound 0 5 10 15 block
  let block := quarterRound 1 6 11 12 block
  let block := quarterRound 2 7 8 13 block
  quarterRound 3 4 9 14 block

def initialBlock (key : Key) (counter : UInt64) : Block :=
  #v[0x61707865, 0x3320646e, 0x79622d32, 0x6b206574,
    key[0], key[1], key[2], key[3], key[4], key[5], key[6], key[7],
    counter.toUInt32, (counter >>> 32).toUInt32, 0, 0]

/-- The block that a key gives for a counter. -/
def block (key : Key) (counter : UInt64) : Block :=
  let initial := initialBlock key counter
  Vector.zipWith (· + ·) initial (Nat.repeat doubleRound 6 initial)

end Augury.Random.ChaCha
