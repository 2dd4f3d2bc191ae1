/-! The random stream: xoshiro256++ with a word of 64 bits per draw.

A stream is four words of state. It is seeded from one word by spreading that word
through a permuted congruential generator; the all-zero state, which the step
function would never leave, is replaced by a SplitMix64 sequence. -/
namespace ChipEight

/-- The state of a random stream. -/
structure Random where
  s0 : UInt64
  s1 : UInt64
  s2 : UInt64
  s3 : UInt64
deriving DecidableEq, Repr

namespace Random

/-- A word rotated towards its high end; the amount is from 1 to 63. -/
def rotateLeft (w amount : UInt64) : UInt64 := (w <<< amount) ||| (w >>> (64 - amount))

/-- The state from which every stream goes on. -/
def advance (r : Random) : Random :=
  let s2 := r.s2 ^^^ r.s0
  let s3 := r.s3 ^^^ r.s1
  ⟨r.s0 ^^^ s3, r.s1 ^^^ s2, s2 ^^^ (r.s1 <<< 17), rotateLeft s3 45⟩

/-- The word a state yields. -/
def output (r : Random) : UInt64 := rotateLeft (r.s0 + r.s3) 23 + r.s0

/-- The byte a state yields: bits 32 to 39 of its word. -/
def byte (r : Random) : UInt8 := (r.output >>> 32).toUInt8

/-- One word of a permuted congruential generator, read from a state just advanced. -/
def permuted (state : UInt64) : UInt32 :=
  let word := (((state >>> 18) ^^^ state) >>> 27).toUInt32
  let turn := (state >>> 59).toUInt32
  (word >>> turn) ||| (word <<< ((32 - turn) % 32))

/-- The state after one step of the seeding generator. -/
def congruential (state : UInt64) : UInt64 :=
  state * 6364136223846793005 + 11634580027462260723

/-- The first words of the seeding generator, each from two of its halves, the low one first. -/
def spread : Nat → UInt64 → List UInt64
  | 0, _ => []
  | n + 1, state =>
    let low := congruential state
    let high := congruential low
    ((permuted low).toUInt64 ||| ((permuted high).toUInt64 <<< 32)) :: spread n high

/-- The first words of a SplitMix64 sequence. -/
def splitMix : Nat → UInt64 → List UInt64
  | 0, _ => []
  | n + 1, state =>
    let state := state + 0x9e3779b97f4a7c15
    let z := (state ^^^ (state >>> 30)) * 0xbf58476d1ce4e5b9
    let z := (z ^^^ (z >>> 27)) * 0x94d049bb133111eb
    (z ^^^ (z >>> 31)) :: splitMix n state

/-- The stream with these four words of state. -/
def ofWords (words : List UInt64) : Random :=
  ⟨words.getD 0 0, words.getD 1 0, words.getD 2 0, words.getD 3 0⟩

/-- The stream of a seed. -/
def ofSeed (seed : UInt64) : Random :=
  let r := ofWords (spread 4 seed)
  if r = ⟨0, 0, 0, 0⟩ then ofWords (splitMix 4 0) else r

instance : Inhabited Random := ⟨ofSeed 0⟩

end Random
end ChipEight
