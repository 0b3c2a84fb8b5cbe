/-!
Contract: the seeded generator, the Mersenne Twister with 624 words of state.

Owns:
- `Twister.ofSeed`, seeding from an integer of any size;
- `Twister.next`, the next 32-bit word.

The magnitude of the seed is cut into 32-bit digits, the least significant first, and every digit is mixed
into the state.
-/

namespace EvoRaster

namespace Twister

abbrev size : Nat := 624

/-- How far ahead the word lies that a new word is mixed with. -/
abbrev shift : Fin size := 397

abbrev Words := Vector UInt32 size

def expand (word : UInt32) : Words :=
  (Fin.foldl (size - 1)
    (fun (state : Words × UInt32) step =>
      let (words, last) := state
      let next := (1812433253 : UInt32) * (last ^^^ (last >>> 30)) + UInt32.ofNat (step.val + 1)
      (words.set (step.val + 1) next (by have := step.isLt; omega), next))
    (Vector.replicate size word, word)).1

/-- Where seeding stands: the words, and the position of the word that is mixed next. -/
structure Mixing where
  words : Words
  position : Fin size

/-- Mixes the next word with its predecessor. Position zero is skipped: when the end is reached, the first
word becomes a copy of the last. -/
def Mixing.step (mixing : Mixing) (factor : UInt32) (finish : UInt32 → UInt32) : Mixing :=
  let last := mixing.words[mixing.position - 1]
  let mixed := finish (mixing.words[mixing.position] ^^^ ((last ^^^ (last >>> 30)) * factor))
  let words := mixing.words.set mixing.position mixed
  if mixing.position.val = size - 1 then
    { words := words.set 0 mixed, position := 1 }
  else
    { words, position := mixing.position + 1 }

/-- The state of a nonempty key of 32-bit digits. -/
def seedWords (key : Array UInt32) : Words :=
  let start : Mixing := { words := expand 19650218, position := 1 }
  let keyed := Nat.fold (max size key.size)
    (fun step _ mixing =>
      let digit := step % key.size
      mixing.step 1664525 fun word => word + key[digit]?.getD 0 + UInt32.ofNat digit)
    start
  let blended := Nat.fold (size - 1)
    (fun _ _ mixing =>
      mixing.step 1566083941 fun word => word - UInt32.ofNat mixing.position.val)
    keyed
  blended.words.set 0 0x80000000

/-- The 32-bit digits of a number, the least significant first. Zero has one digit. -/
def keyOf (seed : Nat) : List UInt32 :=
  if seed < 0x100000000 then
    [UInt32.ofNat seed]
  else
    UInt32.ofNat seed :: keyOf (seed / 0x100000000)
termination_by seed
decreasing_by omega

/-- Replaces every word of the state, in order. Later words already see the new earlier ones. -/
def refresh (words : Words) : Words :=
  Fin.foldl size
    (fun words position =>
      let joined := (words[position] &&& 0x80000000) ||| (words[position + 1] &&& 0x7fffffff)
      let twisted := words[position + shift] ^^^ (joined >>> 1)
      words.set position (if joined &&& 1 = 0 then twisted else twisted ^^^ 0x9908b0df))
    words

/-- Scrambles a word of the state before it is given out. -/
def temper (word : UInt32) : UInt32 :=
  let word := word ^^^ (word >>> 11)
  let word := word ^^^ ((word <<< 7) &&& 0x9d2c5680)
  let word := word ^^^ ((word <<< 15) &&& 0xefc60000)
  word ^^^ (word >>> 18)

end Twister

/-- A generator: its words and the number of them that were given out. -/
structure Twister where
  words : Twister.Words
  used : Nat

namespace Twister

/-- The generator of a seed. A seed and its negative give the same generator. -/
def ofSeed (seed : Int) : Twister :=
  { words := seedWords (keyOf seed.natAbs).toArray, used := size }

/-- The next word, and the generator after it. -/
def next (generator : Twister) : UInt32 × Twister :=
  if unused : generator.used < size then
    (temper generator.words[generator.used], { generator with used := generator.used + 1 })
  else
    let words := refresh generator.words
    (temper words[0], { words, used := 1 })

end Twister

end EvoRaster
