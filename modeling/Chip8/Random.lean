import Chip8.Random.ChaCha

/-!
# Random bytes

The random bytes of a machine are a stream fixed by a key.  The key drives ChaCha, and each byte is
the low byte of the next word of the key stream.  A generator is a key and the number of bytes drawn.
The key comes from a 64-bit seed, spread over it by a linear congruential generator with a permuted
output, or, where there is no seed, from outside.
-/

namespace Chip8

/-- What fixes a stream of random bytes. -/
abbrev Random.Key := Vector UInt32 8

/-- A source of random bytes. -/
structure Random where
  /-- What fixes the stream. -/
  key : Random.Key
  /-- The number of bytes drawn so far. -/
  drawn : Nat := 0
deriving DecidableEq

namespace Random

/-- The successor of a state of the generator that spreads the seed. -/
def spreadStep (s : UInt64) : UInt64 := s * 6364136223846793005 + 11634580027462260723

/-- The output for a state of the generator that spreads the seed: some of its upper bits, rotated
right by its topmost five. -/
def spreadWord (s : UInt64) : UInt32 :=
  let mixed := ((s >>> 18 ^^^ s) >>> 27).toUInt32
  let turn := (s >>> 59).toUInt32
  mixed >>> turn ||| mixed <<< (32 - turn)

/-- The key that a seed is spread over. -/
def Key.ofSeed (seed : UInt64) : Key :=
  Vector.ofFn fun place => spreadWord (Nat.repeat spreadStep (place.val + 1) seed)

/-- The generator of a seed or, without one, that of the key `entropy`. -/
def start (seed : Option UInt64) (entropy : Key) : Random :=
  { key := (seed.map Key.ofSeed).getD entropy }

/-- The byte with number `index` of the stream fixed by `key`. -/
def byteAt (key : Key) (index : Nat) : UInt8 :=
  let block := ChaCha.block key (index / 16).toUInt64
  (block.get ⟨index % 16, Nat.mod_lt _ (by decide)⟩).toUInt8

/-- The next byte and the generator after it. -/
def next (r : Random) : UInt8 × Random :=
  (byteAt r.key r.drawn, { r with drawn := r.drawn + 1 })

end Random

end Chip8
