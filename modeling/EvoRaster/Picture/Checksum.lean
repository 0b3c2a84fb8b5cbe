/-!
Contract: the two checksums of compressed picture files.

Owns:
- the cyclic redundancy check of a chunk, with the reflected polynomial `0xEDB88320`;
- the Adler sum of the data before compression.
-/

namespace EvoRaster.Picture

def redundancyBit (register : UInt32) : UInt32 :=
  if register &&& 1 = 0 then register >>> 1 else (register >>> 1) ^^^ 0xEDB88320

def redundancyByte (register : UInt32) (byte : UInt8) : UInt32 :=
  Nat.repeat redundancyBit 8 (register ^^^ byte.toUInt32)

def redundancyCheck (bytes : List UInt8) : UInt32 :=
  bytes.foldl redundancyByte 0xFFFFFFFF ^^^ 0xFFFFFFFF

/-- The Adler sum of some bytes: the sum of the bytes plus one in the low half, and the sum of its stages in
the high half, both modulo 65521. -/
def adlerSum (bytes : List UInt8) : UInt32 :=
  let (low, high) := bytes.foldl
    (fun (low, high) byte =>
      let low := (low + byte.toNat) % 65521
      (low, (high + low) % 65521))
    (1, 0)
  UInt32.ofNat (high * 65536 + low)

/-- The bytes of a word, the most significant first. -/
def bigEndian (word : UInt32) : List UInt8 :=
  [(word >>> 24).toUInt8, (word >>> 16).toUInt8, (word >>> 8).toUInt8, word.toUInt8]

/-- The number that some bytes spell, the most significant first. -/
def ofBigEndian (bytes : List UInt8) : Nat :=
  bytes.foldl (fun number byte => number * 256 + byte.toNat) 0

end EvoRaster.Picture
