import EvoRaster.Random.Twister

/-!
Contract: draws from a source of 32-bit words.

Owns:
- the source, a seeded generator or a list of words that can run out;
- `Draw`, a computation that consumes words and may fail, and which keeps the words it consumed lost
  when it fails;
- bits, bounded numbers and fractions.

A bounded number is drawn with as many bits as the bound has, again and again until it is below the bound,
so every number below the bound is equally likely.
-/

namespace EvoRaster

inductive Source where
  | seeded (generator : Twister)
  | listed (words : List UInt32)

namespace Source

def ofSeed (seed : Int) : Source := .seeded (Twister.ofSeed seed)

/-- The next word, if one is left, and the source after it. -/
def next : Source → Option UInt32 × Source
  | .seeded generator =>
      let (word, generator) := generator.next
      (some word, .seeded generator)
  | .listed [] => (none, .listed [])
  | .listed (word :: rest) => (some word, .listed rest)

/-- How often a bounded draw tries. Every try takes a word, so a list ends the tries by itself. A seeded
source rejects a try with odds below one half and never comes near its limit. -/
def attempts : Source → Nat
  | .seeded _ => Nat.pow 2 62
  | .listed words => words.length + 1

end Source

inductive DrawError where
  | outOfWords
  | emptyRange
deriving DecidableEq, Repr

def DrawError.message : DrawError → String
  | .outOfWords => "no more words"
  | .emptyRange => "empty range for randrange()"

abbrev Draw := ExceptT DrawError (StateM Source)

namespace Draw

def word : Draw UInt32 := fun source =>
  match source.next with
  | (some word, source) => (.ok word, source)
  | (none, source) => (.error .outOfWords, source)

/-- A number of `count` bits: the high bits of a word, or several words, the least significant first, when
one is too short. -/
def bits (count : Nat) : Draw Nat := do
  if count ≤ 32 then
    let drawn ← word
    return drawn.toNat >>> (32 - count)
  else
    let low ← word
    let high ← bits (count - 32)
    return low.toNat + high * 0x100000000
termination_by count

/-- Draws `width` bits up to a given number of times, until they are below the bound. -/
def belowWithin (bound width : Nat) : Nat → Draw (Fin bound)
  | 0 => throw .outOfWords
  | attempts + 1 => do
      let candidate ← bits width
      if accepted : candidate < bound then
        return ⟨candidate, accepted⟩
      else
        belowWithin bound width attempts

def below (bound : Nat) : Draw (Fin bound) := do
  if bound = 0 then
    throw .emptyRange
  else
    belowWithin bound (bound.log2 + 1) (← get).attempts

/-- The fraction of two words: 27 bits of the first and 26 bits of the second, after the binary point. -/
def fractionOf (first second : UInt32) : Float :=
  Float.ofNat ((first >>> 5).toNat * Nat.pow 2 26 + (second >>> 6).toNat) / 9007199254740992

/-- A fraction from zero, included, to one, excluded, in steps of two to the minus 53. -/
def fraction : Draw Float := do
  let first ← word
  let second ← word
  return fractionOf first second

end Draw

end EvoRaster
