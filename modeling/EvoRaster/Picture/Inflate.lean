import EvoRaster.Picture.Checksum

/-!
Contract: the decompression of deflated data.

Owns:
- the bit reader, which takes the least significant bit of every byte first;
- prefix-free codes, given by the length of every symbol's code word;
- `inflate`, the data behind a deflated stream in its two-byte wrapper, with its checksum confirmed.

Everything that is read takes at least one bit, so the number of bits bounds every loop.
-/

namespace EvoRaster.Picture

/-- Data and the number of bits that were read from it. -/
structure BitReader where
  bytes : ByteArray
  position : Nat

namespace BitReader

def bit (reader : BitReader) : Option (Nat × BitReader) :=
  if inside : reader.position / 8 < reader.bytes.size then
    some (reader.bytes[reader.position / 8].toNat / Nat.pow 2 (reader.position % 8) % 2,
      { reader with position := reader.position + 1 })
  else
    none

/-- A number of `count` bits, the least significant first. -/
def bits : Nat → BitReader → Option (Nat × BitReader)
  | 0, reader => some (0, reader)
  | count + 1, reader => do
      let (low, reader) ← reader.bit
      let (high, reader) ← bits count reader
      return (low + 2 * high, reader)

def align (reader : BitReader) : BitReader :=
  { reader with position := (reader.position + 7) / 8 * 8 }

/-- Copies whole bytes to the end of other data. -/
def copy : Nat → BitReader → ByteArray → Option (BitReader × ByteArray)
  | 0, reader, output => some (reader, output)
  | count + 1, reader, output => do
      let (byte, reader) ← reader.bits 8
      copy count reader (output.push (UInt8.ofNat byte))

end BitReader

/-- A prefix-free code. The symbols are in the order of their code words. -/
structure PrefixCode where
  /-- How many code words of one bit, of two bits and so on there are. -/
  counts : List Nat
  symbols : Array Nat

namespace PrefixCode

def longest : Nat := 15

/-- The code whose symbols have code words of the given lengths; length zero means none. -/
def ofLengths (lengths : List Nat) : PrefixCode :=
  let numbered := lengths.zipIdx
  let ofLength := fun length => (numbered.filter fun entry => entry.1 == length).map Prod.snd
  let classes := (List.range longest).map fun length => ofLength (length + 1)
  { counts := classes.map List.length, symbols := classes.flatten.toArray }

/-- Reads bits until they form a code word. `word` holds the bits so far, `first` the first code word of this
length and `index` the number of shorter ones. -/
def decodeFrom (symbols : Array Nat) :
    List Nat → Nat → Nat → Nat → BitReader → Option (Nat × BitReader)
  | [], _, _, _, _ => none
  | count :: counts, word, first, index, reader => do
      let (bit, reader) ← reader.bit
      let word := word + bit
      if word < first + count then
        return (← symbols[index + (word - first)]?, reader)
      else
        decodeFrom symbols counts (2 * word) (2 * (first + count)) (index + count) reader

def decode (code : PrefixCode) (reader : BitReader) : Option (Nat × BitReader) :=
  decodeFrom code.symbols code.counts 0 0 0 reader

def fixedLiterals : PrefixCode :=
  ofLengths (List.replicate 144 8 ++ List.replicate 112 9 ++ List.replicate 24 7 ++ List.replicate 8 8)

def fixedDistances : PrefixCode := ofLengths (List.replicate 30 5)

end PrefixCode

/-- The shortest length of each length symbol and the number of bits that are added to it. -/
def lengthTable : Array (Nat × Nat) := #[
  (3, 0), (4, 0), (5, 0), (6, 0), (7, 0), (8, 0), (9, 0), (10, 0), (11, 1), (13, 1), (15, 1), (17, 1),
  (19, 2), (23, 2), (27, 2), (31, 2), (35, 3), (43, 3), (51, 3), (59, 3), (67, 4), (83, 4), (99, 4),
  (115, 4), (131, 5), (163, 5), (195, 5), (227, 5), (258, 0)]

/-- The shortest distance of each distance symbol and the number of bits that are added to it. -/
def distanceTable : Array (Nat × Nat) := #[
  (1, 0), (2, 0), (3, 0), (4, 0), (5, 1), (7, 1), (9, 2), (13, 2), (17, 3), (25, 3), (33, 4), (49, 4),
  (65, 5), (97, 5), (129, 6), (193, 6), (257, 7), (385, 7), (513, 8), (769, 8), (1025, 9), (1537, 9),
  (2049, 10), (3073, 10), (4097, 11), (6145, 11), (8193, 12), (12289, 12), (16385, 13), (24577, 13)]

/-- The order in which the code lengths of the code of code lengths are stored. -/
def lengthOrder : List Nat := [16, 17, 18, 0, 8, 7, 9, 6, 10, 5, 11, 4, 12, 3, 13, 2, 14, 1, 15]

/-- A number of a table: its base, and the bits that are added to it. -/
def readTabled (table : Array (Nat × Nat)) (symbol : Nat) (reader : BitReader) :
    Option (Nat × BitReader) := do
  let (base, extra) ← table[symbol]?
  let (added, reader) ← reader.bits extra
  return (base + added, reader)

/-- Repeats earlier data, byte by byte, so that a copy may overlap itself. -/
def repeatBack (distance : Nat) : Nat → ByteArray → Option ByteArray
  | 0, output => some output
  | count + 1, output =>
      if reached : 0 < distance ∧ distance ≤ output.size then
        repeatBack distance count (output.push output[output.size - distance])
      else
        none

def inflateSymbols (literals distances : PrefixCode) :
    Nat → BitReader → ByteArray → Option (BitReader × ByteArray)
  | 0, _, _ => none
  | fuel + 1, reader, output => do
      let (symbol, reader) ← literals.decode reader
      if symbol < 256 then
        inflateSymbols literals distances fuel reader (output.push (UInt8.ofNat symbol))
      else if symbol = 256 then
        return (reader, output)
      else
        let (length, reader) ← readTabled lengthTable (symbol - 257) reader
        let (symbol, reader) ← distances.decode reader
        let (distance, reader) ← readTabled distanceTable symbol reader
        let output ← repeatBack distance length output
        inflateSymbols literals distances fuel reader output

/-- Code lengths, of which `missing` are still to be read. Three symbols stand for repetitions. The lengths read
so far come last first. -/
def readLengths (code : PrefixCode) :
    Nat → Nat → BitReader → List Nat → Option (BitReader × List Nat)
  | _, 0, reader, lengths => some (reader, lengths)
  | 0, _, _, _ => none
  | fuel + 1, missing, reader, lengths => do
      let (symbol, reader) ← code.decode reader
      if symbol < 16 then
        readLengths code fuel (missing - 1) reader (symbol :: lengths)
      else
        let (repeated, bits, base) ←
          match symbol, lengths with
          | 16, last :: _ => some (last, 2, 3)
          | 17, _ => some (0, 3, 3)
          | 18, _ => some (0, 7, 11)
          | _, _ => none
        let (added, reader) ← reader.bits bits
        if missing < base + added then none
        else
          readLengths code fuel (missing - (base + added)) reader
            (List.replicate (base + added) repeated ++ lengths)

def readCodes (reader : BitReader) : Option (PrefixCode × PrefixCode × BitReader) := do
  let (literals, reader) ← reader.bits 5
  let (distances, reader) ← reader.bits 5
  let (stored, reader) ← reader.bits 4
  let (reader, lengths) ← (lengthOrder.take (stored + 4)).foldlM
    (fun (reader, lengths) symbol => do
      let (length, reader) ← reader.bits 3
      return (reader, (symbol, length) :: lengths))
    (reader, ([] : List (Nat × Nat)))
  let code := PrefixCode.ofLengths ((List.range 19).map fun symbol => (lengths.lookup symbol).getD 0)
  let total := literals + 257 + (distances + 1)
  let (reader, reversed) ← readLengths code total total reader []
  let (first, second) := reversed.reverse.splitAt (literals + 257)
  return (PrefixCode.ofLengths first, PrefixCode.ofLengths second, reader)

def inflateBlock (kind fuel : Nat) (reader : BitReader) (output : ByteArray) :
    Option (BitReader × ByteArray) :=
  match kind with
  | 0 => do
      let (length, reader) ← reader.align.bits 16
      let (complement, reader) ← reader.bits 16
      if length + complement = 65535 then reader.copy length output else none
  | 1 => inflateSymbols PrefixCode.fixedLiterals PrefixCode.fixedDistances fuel reader output
  | 2 => do
      let (literals, distances, reader) ← readCodes reader
      inflateSymbols literals distances fuel reader output
  | _ => none

def inflateBlocks (fuel : Nat) : Nat → BitReader → ByteArray → Option (BitReader × ByteArray)
  | 0, _, _ => none
  | blocks + 1, reader, output => do
      let (last, reader) ← reader.bit
      let (kind, reader) ← reader.bits 2
      let (reader, output) ← inflateBlock kind fuel reader output
      if last = 1 then return (reader, output) else inflateBlocks fuel blocks reader output

/-- The data behind a stream. The first two bytes describe the stream and the last four are the Adler sum of
the data. -/
def inflate (stream : ByteArray) : Option ByteArray := do
  let size := 8 * stream.size
  let (_, reader) ← BitReader.bits 16 { bytes := stream, position := 0 }
  let (reader, output) ← inflateBlocks size size reader ByteArray.empty
  let start := reader.align.position / 8
  let stored := (stream.extract start (start + 4)).toList
  if stored = bigEndian (adlerSum output.toList) then return output else none

end EvoRaster.Picture
