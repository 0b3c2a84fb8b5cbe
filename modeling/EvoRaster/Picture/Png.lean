import EvoRaster.Image.Luminance
import EvoRaster.Picture.Inflate

/-!
Contract: pictures as files in the portable network graphics format.

Owns:
- `encode`, a gray image as a file, its data stored without compression;
- `decode`, the gray image of a file with up to eight bits per sample.

Files whose rows are interlaced, or whose samples have sixteen bits, are not understood. Transparency is
ignored.
-/

namespace EvoRaster.Picture

def signature : List UInt8 := [0x89, 0x50, 0x4E, 0x47, 0x0D, 0x0A, 0x1A, 0x0A]

def chunkName (name : String) : List UInt8 := name.toUTF8.toList

/-! ## Encoding -/

/-- A chunk: the length of its data, its name, the data and a checksum of name and data. -/
def chunk (name : String) (data : List UInt8) : List UInt8 :=
  let checked := chunkName name ++ data
  bigEndian (UInt32.ofNat data.length) ++ checked ++ bigEndian (redundancyCheck checked)

/-- A number of two bytes, the less significant first. -/
def twoBytes (number : Nat) : List UInt8 := [UInt8.ofNat number, UInt8.ofNat (number / 256)]

def blockLimit : Nat := 65535

def storedBlocks (data : List UInt8) : List UInt8 :=
  let piece := data.take blockLimit
  let header := twoBytes piece.length ++ twoBytes (blockLimit - piece.length)
  if data.length ≤ blockLimit then
    1 :: header ++ piece
  else
    0 :: header ++ piece ++ storedBlocks (data.drop blockLimit)
termination_by data.length
decreasing_by simp only [blockLimit, List.length_drop] at *; omega

def storedStream (data : List UInt8) : List UInt8 :=
  [0x78, 0x01] ++ storedBlocks data ++ bigEndian (adlerSum data)

/-- The file of a gray image. No row is filtered. -/
def encode (image : GrayImage) : ByteArray :=
  let header := bigEndian (UInt32.ofNat image.width) ++ bigEndian (UInt32.ofNat image.height) ++
    [8, 0, 0, 0, 0]
  let rows := image.rows.flatMap fun row => 0 :: row
  ByteArray.mk (signature ++ chunk "IHDR" header ++ chunk "IDAT" (storedStream rows) ++
    chunk "IEND" []).toArray

/-! ## Decoding -/

/-- The chunks of a file after its signature, up to the one that ends it. The names and data of the chunks
come last first. -/
def readChunks (file : ByteArray) :
    Nat → Nat → List (List UInt8 × ByteArray) → Option (List (List UInt8 × ByteArray))
  | 0, _, _ => none
  | fuel + 1, position, chunks =>
      let length := ofBigEndian (file.extract position (position + 4)).toList
      let name := (file.extract (position + 4) (position + 8)).toList
      if file.size < position + 12 + length then none
      else if name = chunkName "IEND" then some chunks
      else
        readChunks file fuel (position + 12 + length)
          ((name, file.extract (position + 8) (position + 8 + length)) :: chunks)

structure Header where
  width : Nat
  height : Nat
  depth : Nat
  colorType : Nat

namespace Header

def channels (header : Header) : Nat :=
  match header.colorType with
  | 2 => 3
  | 4 => 2
  | 6 => 4
  | _ => 1

def isSupported (header : Header) : Bool :=
  match header.colorType with
  | 0 | 3 => [1, 2, 4, 8].contains header.depth
  | 2 | 4 | 6 => header.depth == 8
  | _ => false

def rowSize (header : Header) : Nat := (header.width * header.channels * header.depth + 7) / 8

/-- The bytes between a sample and the same sample of the pixel to its left. -/
def pixelSize (header : Header) : Nat := max 1 (header.channels * header.depth / 8)

end Header

def readHeader (data : ByteArray) : Option Header :=
  match data.toList.drop 8 with
  | [depth, colorType, 0, 0, 0] =>
      let header : Header :=
        { width := ofBigEndian (data.extract 0 4).toList
          height := ofBigEndian (data.extract 4 8).toList
          depth := depth.toNat
          colorType := colorType.toNat }
      if header.isSupported then some header else none
  | _ => none

/-- Whichever of three neighbours is nearest to left plus above less the one between them. -/
def nearestOf (left above corner : Nat) : Nat :=
  let estimate : Int := left + above - corner
  let distance := fun (neighbour : Nat) => (estimate - neighbour).natAbs
  if distance left ≤ distance above ∧ distance left ≤ distance corner then left
  else if distance above ≤ distance corner then above
  else corner

def predicted (filter left above corner : Nat) : Nat :=
  match filter with
  | 1 => left
  | 2 => above
  | 3 => (left + above) / 2
  | 4 => nearestOf left above corner
  | _ => 0

def unfilterRow (pixelSize filter : Nat) (above row : Array UInt8) : Array UInt8 :=
  let byte := fun (bytes : Array UInt8) (position : Nat) =>
    if position < pixelSize then 0 else (bytes[position - pixelSize]?.getD 0).toNat
  (List.range row.size).foldl
    (fun done position =>
      let change := predicted filter (byte done position) (above[position]?.getD 0).toNat
        (byte above position)
      done.push (row[position]?.getD 0 + UInt8.ofNat change))
    #[]

/-- The rows of a picture before filtering, each of `size` bytes after the byte that names its filter. -/
def unfilter (pixelSize size : Nat) (data : ByteArray) :
    Nat → Nat → Array UInt8 → List (Array UInt8)
  | 0, _, _ => []
  | rows + 1, position, above =>
      let filter := (data[position]?.getD 0).toNat
      let row := unfilterRow pixelSize filter above
        (data.extract (position + 1) (position + 1 + size)).data
      row :: unfilter pixelSize size data rows (position + 1 + size) row

/-- The sample at a place of a row. Samples of less than a byte fill a byte from its high bits on. -/
def sampleAt (depth : Nat) (row : Array UInt8) (place : Nat) : Nat :=
  let byte := (row[place * depth / 8]?.getD 0).toNat
  byte / Nat.pow 2 (8 - depth - place * depth % 8) % Nat.pow 2 depth

def colorAt (header : Header) (palette : ByteArray) (row : Array UInt8) (x : Nat) : List Nat :=
  let sample := fun channel => sampleAt header.depth row (x * header.channels + channel)
  match header.colorType with
  | 0 => List.replicate 3 (sample 0 * 255 / (Nat.pow 2 header.depth - 1))
  | 3 => (List.range 3).map fun channel => (palette[3 * sample 0 + channel]?.getD 0).toNat
  | 4 => List.replicate 3 (sample 0)
  | _ => (List.range 3).map sample

def decode (file : ByteArray) : Option GrayImage := do
  if (file.extract 0 8).toList ≠ signature then none
  let chunks := (← readChunks file file.size 8 []).reverse
  let header ← readHeader (← chunks.lookup (chunkName "IHDR"))
  let palette := (chunks.lookup (chunkName "PLTE")).getD ByteArray.empty
  let stream := (chunks.filter fun entry => entry.1 == chunkName "IDAT").foldl
    (fun stream entry => stream ++ entry.2) ByteArray.empty
  let data ← inflate stream
  if data.size < header.height * (header.rowSize + 1) then none
  let rows := unfilter header.pixelSize header.rowSize data header.height 0 #[]
  let samples := rows.flatMap fun row => (List.range header.width).flatMap (colorAt header palette row)
  (GrayImage.ofColors header.width header.height 3 (samples.map Float32.ofNat).toArray).toOption

end EvoRaster.Picture
