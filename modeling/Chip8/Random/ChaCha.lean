/-!
# ChaCha with twelve rounds

A block of the ChaCha key stream is sixteen words of 32 bits, a function of a key of eight words and
a 64-bit block counter.  The state starts from four fixed words, the key, the counter with its low
half first, and a nonce of zero.  Twelve rounds mix it, alternately down the columns and along the
diagonals, and the starting state is added at the end.
-/

namespace Chip8.Random.ChaCha

/-- The state of sixteen words. -/
abbrev Block := Vector UInt32 16

/-- Rotates a word left by `n` bits, for `0 < n < 32`. -/
def rotateLeft (w : UInt32) (n : UInt32) : UInt32 := w <<< n ||| w >>> (32 - n)

/-- Mixes the four words at the given places. -/
def quarterRound (s : Block) (a b c d : Fin 16) : Block :=
  let s := s.set a (s[a] + s[b])
  let s := s.set d (rotateLeft (s[d] ^^^ s[a]) 16)
  let s := s.set c (s[c] + s[d])
  let s := s.set b (rotateLeft (s[b] ^^^ s[c]) 12)
  let s := s.set a (s[a] + s[b])
  let s := s.set d (rotateLeft (s[d] ^^^ s[a]) 8)
  let s := s.set c (s[c] + s[d])
  s.set b (rotateLeft (s[b] ^^^ s[c]) 7)

/-- A round down the columns and a round along the diagonals. -/
def doubleRound (s : Block) : Block :=
  let s := quarterRound s 0 4 8 12
  let s := quarterRound s 1 5 9 13
  let s := quarterRound s 2 6 10 14
  let s := quarterRound s 3 7 11 15
  let s := quarterRound s 0 5 10 15
  let s := quarterRound s 1 6 11 12
  let s := quarterRound s 2 7 8 13
  quarterRound s 3 4 9 14

/-- The state that a block is computed from. -/
def start (key : Vector UInt32 8) (counter : UInt64) : Block :=
  #v[0x61707865, 0x3320646E, 0x79622D32, 0x6B206574,
    key[0], key[1], key[2], key[3], key[4], key[5], key[6], key[7],
    counter.toUInt32, (counter >>> 32).toUInt32, 0, 0]

/-- The block of the key stream with number `counter`. -/
def block (key : Vector UInt32 8) (counter : UInt64) : Block :=
  let s := start key counter
  s.zipWith (· + ·) (Nat.repeat doubleRound 6 s)

end Chip8.Random.ChaCha
