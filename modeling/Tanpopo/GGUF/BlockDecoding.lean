import Mathlib.Data.Rat.Defs
import Tanpopo.Lib.Writes
/-!
# Decoding blocks

The two decoders of block formats: `sourceValue` of the Metal kernel, which
reads one element, and the `dequantize` functions of the loader, which fill a
block. Half-precision words stand for rational numbers and nothing is rounded.
-/

namespace Tanpopo.GGUF

open Writes

/-! ## Numbers -/

/-- The number a half-precision word stands for. -/
def halfValue (bits : UInt16) : ℚ :=
  let mantissa := bits.toNat % 1024
  let exponent := bits.toNat / 1024 % 32
  let magnitude : ℚ := if exponent = 0 then mantissa / 2 ^ 24 else (1024 + mantissa : ℕ) * 2 ^ exponent / 2 ^ 25
  if bits.toNat / 32768 = 1 then -magnitude else magnitude

/-- `signed_byte`. -/
def signedByte (value : UInt8) : Int :=
  let result : Int := value.toNat
  if result ≥ 128 then result - 256 else result

/-- Swift's `>>` on a `UInt8`, whose result is 0 when the shift is too large. -/
def shiftRight (value : UInt8) (count : Nat) : UInt8 := UInt8.ofNat (value.toNat >>> count)

/-- Swift's `<<` on a `UInt8`, which drops what is moved out. -/
def shiftLeft (value : UInt8) (count : Nat) : UInt8 := UInt8.ofNat (value.toNat <<< count)

/-! ## The Metal kernel -/

def loadU16 (raw : Memory) (offset : Nat) : Option Nat := do
  let first ← raw offset
  let second ← raw (offset + 1)
  return first.toNat ||| (second.toNat <<< 8)

def loadU32 (raw : Memory) (offset : Nat) : Option UInt32 := do
  let first ← raw offset
  let second ← raw (offset + 1)
  let third ← raw (offset + 2)
  let fourth ← raw (offset + 3)
  return first.toUInt32 ||| (second.toUInt32 <<< 8) ||| (third.toUInt32 <<< 16) ||| (fourth.toUInt32 <<< 24)

def loadF16 (raw : Memory) (offset : Nat) : Option ℚ := do
  let word ← loadU16 raw offset
  return halfValue (UInt16.ofNat word)

def iq4nlValues : List Int := [-127, -104, -83, -65, -49, -35, -22, -10, 1, 13, 25, 38, 53, 69, 89, 113]

def qkScale (raw : Memory) (offset index : Nat) : Option Nat :=
  if index < 4 then do
    let packed ← raw (offset + index)
    return packed.toNat &&& 63
  else do
    let low ← raw (offset + index + 4)
    let high ← raw (offset + index - 4)
    return (low.toNat &&& 15) ||| ((high.toNat >>> 6) <<< 4)

def qkMinimum (raw : Memory) (offset index : Nat) : Option Nat :=
  if index < 4 then do
    let packed ← raw (offset + index + 4)
    return packed.toNat &&& 63
  else do
    let low ← raw (offset + index + 4)
    let high ← raw (offset + index)
    return (low.toNat >>> 4) ||| ((high.toNat >>> 6) <<< 4)

/-- The four words of the scales of a Q3_K block. -/
def q3Words (first second packed : UInt32) : List UInt32 :=
  let mask1 : UInt32 := 0x03030303
  let mask2 : UInt32 := 0x0f0f0f0f
  let third := ((first >>> 4) &&& mask2) ||| (((packed >>> 4) &&& mask1) <<< 4)
  let fourth := ((second >>> 4) &&& mask2) ||| (((packed >>> 6) &&& mask1) <<< 4)
  let first := (first &&& mask2) ||| (((packed >>> 0) &&& mask1) <<< 4)
  let second := (second &&& mask2) ||| (((packed >>> 2) &&& mask1) <<< 4)
  [first, second, third, fourth]

def q3Scale (raw : Memory) (offset index : Nat) : Option Int := do
  let first ← loadU32 raw offset
  let second ← loadU32 raw (offset + 4)
  let packed ← loadU32 raw (offset + 8)
  let word := (q3Words first second packed).getD (min (index / 4) 3) 0
  return signedByte (word >>> UInt32.ofNat ((index % 4) * 8)).toUInt8 - 32

/-- `source_value` for the types of 32 elements: Q4_0, Q4_1 and Q8_0. -/
def sourceSmall (raw : Memory) (sourceType element : Nat) : Option ℚ := do
  let bytesPerBlock := if sourceType = 8 then 34 else if sourceType = 3 then 20 else 18
  let block := element / 32
  let sourceIndex := element % 32
  let blockOffset := block * bytesPerBlock
  let scale ← loadF16 raw blockOffset
  if sourceType = 8 then do
    let quantized ← raw (blockOffset + 2 + sourceIndex)
    return scale * signedByte quantized
  else do
    let packed ← raw (blockOffset + (if sourceType = 3 then 4 else 2) + sourceIndex % 16)
    let quantized := if sourceIndex < 16 then packed.toNat &&& 15 else packed.toNat >>> 4
    if sourceType = 2 then return scale * ((quantized : Int) - 8 : Int)
    else do
      let minimum ← loadF16 raw (blockOffset + 2)
      return scale * quantized + minimum

/-- `source_value` for Q1_0 and Q2_0. -/
def sourceBits (raw : Memory) (sourceType element : Nat) : Option ℚ := do
  let blockElements := if sourceType = 41 then 128 else 64
  let block := element / blockElements
  let sourceIndex := element % blockElements
  let blockOffset := block * 18
  let scale ← loadF16 raw blockOffset
  if sourceType = 41 then do
    let packed ← raw (blockOffset + 2 + sourceIndex / 8)
    let quantized := (packed.toNat >>> (sourceIndex % 8)) &&& 1
    return if quantized = 0 then -scale else scale
  else do
    let packed ← raw (blockOffset + 2 + sourceIndex / 4)
    let quantized := (packed.toNat >>> ((sourceIndex % 4) * 2)) &&& 3
    return ((quantized : Int) - 1 : Int) * scale

/-- `source_value` for IQ4_NL. -/
def sourceIQ4NL (raw : Memory) (element : Nat) : Option ℚ := do
  let block := element / 32
  let sourceIndex := element % 32
  let blockOffset := block * 18
  let packed ← raw (blockOffset + 2 + sourceIndex % 16)
  let quantized := if sourceIndex < 16 then packed.toNat &&& 15 else packed.toNat >>> 4
  let scale ← loadF16 raw blockOffset
  return scale * iq4nlValues.getD quantized 0

/-- `source_value` for IQ3_S. -/
def sourceIQ3S (raw : Memory) (iq3sGrid : Nat → Option UInt32) (element : Nat) : Option ℚ := do
  let block := element / 256
  let sourceIndex := element % 256
  let blockOffset := block * 110
  let blockOf32 := sourceIndex / 32
  let position32 := sourceIndex % 32
  let groupHalf := position32 / 16
  let position16 := position32 % 16
  let gridSlot := position16 / 4
  let position4 := position16 % 4
  let highByte ← raw (blockOffset + 66 + blockOf32)
  let highNibble := (highByte.toNat >>> (4 * groupHalf)) &&& 15
  let lowByte ← raw (blockOffset + 2 + blockOf32 * 8 + groupHalf * 4 + gridSlot)
  let gridIndex := lowByte.toNat ||| (((highNibble >>> gridSlot) &&& 1) <<< 8)
  let gridWord ← iq3sGrid gridIndex
  let magnitude := (gridWord.toNat >>> (8 * position4)) &&& 255
  let signByte ← raw (blockOffset + 74 + blockOf32 * 4 + groupHalf * 2 + gridSlot / 2)
  let sign : ℚ := if (signByte.toNat &&& (1 <<< (position16 % 8))) = 0 then 1 else -1
  let packedScale ← raw (blockOffset + 106 + blockOf32 / 2)
  let sourceScale := (packedScale.toNat >>> (4 * (blockOf32 % 2))) &&& 15
  let scale ← loadF16 raw blockOffset
  return scale * (1 + 2 * sourceScale : ℕ) * magnitude * sign

/-- `source_value` for IQ4_XS. -/
def sourceIQ4XS (raw : Memory) (element : Nat) : Option ℚ := do
  let block := element / 256
  let sourceIndex := element % 256
  let blockOffset := block * 136
  let subblock := sourceIndex / 32
  let position := sourceIndex % 32
  let lowByte ← raw (blockOffset + 4 + subblock / 2)
  let scaleLow := (lowByte.toNat >>> (4 * (subblock % 2))) &&& 15
  let highWord ← loadU16 raw (blockOffset + 2)
  let scaleHigh := (highWord >>> (2 * subblock)) &&& 3
  let scale : Int := (scaleLow ||| (scaleHigh <<< 4) : ℕ) - 32
  let packed ← raw (blockOffset + 8 + subblock * 16 + position % 16)
  let quantized := if position < 16 then packed.toNat &&& 15 else packed.toNat >>> 4
  let d ← loadF16 raw blockOffset
  return d * scale * iq4nlValues.getD quantized 0

/-- `source_value` for Q2_K, after the block has been found. -/
def sourceQ2K (raw : Memory) (blockOffset blockHalf halfIndex : Nat) : Option ℚ := do
  let chunk := halfIndex / 32
  let position := halfIndex % 32
  let subblock := position / 16
  let scaleIndex := blockHalf * 8 + chunk * 2 + subblock
  let scaleByte ← raw (blockOffset + 4 + scaleIndex)
  let packed ← raw (blockOffset + 20 + blockHalf * 32 + position)
  let quantized := (packed.toNat >>> (chunk * 2)) &&& 3
  let scale ← loadF16 raw blockOffset
  let minimum ← loadF16 raw (blockOffset + 2)
  return scale * ((scaleByte.toNat &&& 15 : ℕ) : ℚ) * (quantized : ℕ) - minimum * ((scaleByte.toNat >>> 4 : ℕ) : ℚ)

/-- `source_value` for Q3_K. -/
def sourceQ3K (raw : Memory) (blockOffset blockHalf halfIndex : Nat) : Option ℚ := do
  let chunk := halfIndex / 32
  let position := halfIndex % 32
  let subblock := position / 16
  let scaleIndex := blockHalf * 8 + chunk * 2 + subblock
  let highMask := 1 <<< (blockHalf * 4 + chunk)
  let packed ← raw (blockOffset + 32 + blockHalf * 32 + position)
  let quantized := (packed.toNat >>> (chunk * 2)) &&& 3
  let highByte ← raw (blockOffset + position)
  let high := if (highByte.toNat &&& highMask) = 0 then 4 else 0
  let sourceScale ← q3Scale raw (blockOffset + 96) scaleIndex
  let scale ← loadF16 raw (blockOffset + 108)
  return scale * sourceScale * ((quantized : Int) - (high : ℕ) : Int)

/-- `quantized` of an element of Q4_K or Q5_K. -/
def quantized45K (raw : Memory) (sourceType blockOffset segment position : Nat) (upper : Bool) : Option Nat :=
  if sourceType = 12 then do
    let packed ← raw (blockOffset + 16 + segment * 32 + position)
    return if upper then packed.toNat >>> 4 else packed.toNat &&& 15
  else do
    let high ← raw (blockOffset + 16 + position)
    let highBit := if upper then 2 <<< (segment * 2) else 1 <<< (segment * 2)
    let packed ← raw (blockOffset + 48 + segment * 32 + position)
    let quantized := if upper then packed.toNat >>> 4 else packed.toNat &&& 15
    return quantized + if (high.toNat &&& highBit) = 0 then 0 else 16

/-- `source_value` for Q4_K and Q5_K. -/
def sourceQ45K (raw : Memory) (sourceType blockOffset sourceIndex : Nat) : Option ℚ := do
  let segment := sourceIndex / 64
  let upper : Bool := sourceIndex % 64 ≥ 32
  let position := sourceIndex % 32
  let scaleIndex := segment * 2 + (if upper then 1 else 0)
  let quantized ← quantized45K raw sourceType blockOffset segment position upper
  let sourceScale ← qkScale raw (blockOffset + 4) scaleIndex
  let sourceMinimum ← qkMinimum raw (blockOffset + 4) scaleIndex
  let scale ← loadF16 raw blockOffset
  let minimum ← loadF16 raw (blockOffset + 2)
  return scale * sourceScale * quantized - minimum * sourceMinimum

/-- `quantized` of an element of Q6_K. -/
def quantized6K (raw : Memory) (lowOffset plane position : Nat) (high : UInt8) : Option Nat :=
  if plane = 0 then do
    let low ← raw (lowOffset + position)
    return (low.toNat &&& 15) ||| ((high.toNat &&& 3) <<< 4)
  else if plane = 1 then do
    let low ← raw (lowOffset + position + 32)
    return (low.toNat &&& 15) ||| (((high.toNat >>> 2) &&& 3) <<< 4)
  else if plane = 2 then do
    let low ← raw (lowOffset + position)
    return (low.toNat >>> 4) ||| (((high.toNat >>> 4) &&& 3) <<< 4)
  else do
    let low ← raw (lowOffset + position + 32)
    return (low.toNat >>> 4) ||| (((high.toNat >>> 6) &&& 3) <<< 4)

/-- `source_value` for Q6_K. -/
def sourceQ6K (raw : Memory) (blockOffset blockHalf halfIndex : Nat) : Option ℚ := do
  let plane := halfIndex / 32
  let position := halfIndex % 32
  let lowOffset := blockOffset + blockHalf * 64
  let high ← raw (blockOffset + 128 + blockHalf * 32 + position)
  let quantized ← quantized6K raw lowOffset plane position high
  let sourceScale ← raw (blockOffset + 192 + blockHalf * 8 + plane * 2 + position / 16)
  let scale ← loadF16 raw (blockOffset + 208)
  return scale * signedByte sourceScale * ((quantized : ℕ) - 32 : Int)

def sourceValue (raw : Memory) (iq3sGrid : Nat → Option UInt32) (sourceType element : Nat) : Option ℚ :=
  if sourceType = 2 ∨ sourceType = 3 ∨ sourceType = 8 then sourceSmall raw sourceType element
  else if sourceType = 41 ∨ sourceType = 42 then sourceBits raw sourceType element
  else if sourceType = 20 then sourceIQ4NL raw element
  else if sourceType = 21 then sourceIQ3S raw iq3sGrid element
  else if sourceType = 23 then sourceIQ4XS raw element
  else
    let block := element / 256
    let sourceIndex := element % 256
    let blockOffset := block * (if sourceType = 10 then 84 else if sourceType = 11 then 110
      else if sourceType = 12 then 144 else if sourceType = 13 then 176 else 210)
    let blockHalf := sourceIndex / 128
    let halfIndex := sourceIndex % 128
    if sourceType = 10 then sourceQ2K raw blockOffset blockHalf halfIndex
    else if sourceType = 11 then sourceQ3K raw blockOffset blockHalf halfIndex
    else if sourceType = 12 ∨ sourceType = 13 then sourceQ45K raw sourceType blockOffset sourceIndex
    else sourceQ6K raw blockOffset blockHalf halfIndex

/-! ## The loader -/

/-- An index of `values` and what is written there. -/
abbrev Write := Nat × ℚ

def littleEndianUInt16 (raw : Memory) (offset : Nat) : Option UInt16 := do
  let first ← raw offset
  let second ← raw (offset + 1)
  return first.toUInt16 ||| (second.toUInt16 <<< 8)

/-- `Float(Float16(bitPattern: littleEndianUInt16(raw, at: offset)))`. -/
def float16 (raw : Memory) (offset : Nat) : Option ℚ := do
  let bits ← littleEndianUInt16 raw offset
  return halfValue bits

def dequantizeQ40 (raw : Memory) (rawOffset outputOffset : Nat) : Option (List Write) := do
  let scale ← float16 raw rawOffset
  each (List.range 32) fun index => do
    let packed ← raw (rawOffset + 2 + index % 16)
    let quantized := if index < 16 then packed &&& 15 else shiftRight packed 4
    return [(outputOffset + index, scale * ((quantized.toNat : Int) - 8 : Int))]

def dequantizeQ41 (raw : Memory) (rawOffset outputOffset : Nat) : Option (List Write) := do
  let scale ← float16 raw rawOffset
  let minimum ← float16 raw (rawOffset + 2)
  each (List.range 32) fun index => do
    let packed ← raw (rawOffset + 4 + index % 16)
    let quantized := if index < 16 then packed &&& 15 else shiftRight packed 4
    return [(outputOffset + index, scale * quantized.toNat + minimum)]

def dequantizeQ80 (raw : Memory) (rawOffset outputOffset : Nat) : Option (List Write) := do
  let scale ← float16 raw rawOffset
  each (List.range 32) fun index => do
    let quantized ← raw (rawOffset + 2 + index)
    return [(outputOffset + index, scale * quantized.toInt8.toInt)]

def dequantizeQ10 (raw : Memory) (rawOffset outputOffset : Nat) : Option (List Write) := do
  let scale ← float16 raw rawOffset
  each (List.range 128) fun index => do
    let packed ← raw (rawOffset + 2 + index / 8)
    let bit := shiftRight packed (index % 8) &&& 1
    return [(outputOffset + index, if bit = 0 then -scale else scale)]

def dequantizeQ20 (raw : Memory) (rawOffset outputOffset : Nat) : Option (List Write) := do
  let scale ← float16 raw rawOffset
  each (List.range 64) fun index => do
    let packed ← raw (rawOffset + 2 + index / 4)
    let quantized := shiftRight packed ((index % 4) * 2) &&& 3
    return [(outputOffset + index, ((quantized.toNat : Int) - 1 : Int) * scale)]

def dequantizeQ2K (raw : Memory) (rawOffset outputOffset : Nat) : Option (List Write) := do
  let scale ← float16 raw rawOffset
  let minimumScale ← float16 raw (rawOffset + 2)
  let scalesOffset := rawOffset + 4
  let quantizedOffset := rawOffset + 20
  let (writes, _) ← carry (fun half scaleIndex => do
    let quantizedHalfOffset := quantizedOffset + half * 32
    let outputHalfOffset := outputOffset + half * 128
    let (writes, (scaleIndex, _)) ← carry (fun _ (scaleIndex, shift) => do
      let outputChunkOffset := outputHalfOffset + (shift / 2) * 32
      let firstScale ← raw (scalesOffset + scaleIndex)
      let scaleIndex := scaleIndex + 1
      let first := scale * (firstScale &&& 0x0f).toNat
      let firstMinimum := minimumScale * (shiftRight firstScale 4).toNat
      let firstWrites ← each (List.range 16) fun index => do
        let packed ← raw (quantizedHalfOffset + index)
        let quantized := shiftRight packed shift &&& 3
        return [(outputChunkOffset + index, first * quantized.toNat - firstMinimum)]
      let secondScale ← raw (scalesOffset + scaleIndex)
      let scaleIndex := scaleIndex + 1
      let second := scale * (secondScale &&& 0x0f).toNat
      let secondMinimum := minimumScale * (shiftRight secondScale 4).toNat
      let secondWrites ← each (List.range 16) fun index => do
        let packed ← raw (quantizedHalfOffset + index + 16)
        let quantized := shiftRight packed shift &&& 3
        return [(outputChunkOffset + 16 + index, second * quantized.toNat - secondMinimum)]
      return (firstWrites ++ secondWrites, (scaleIndex, shift + 2))) (List.range 4) (scaleIndex, 0)
    return (writes, scaleIndex)) (List.range 2) 0
  return writes

/-- `auxiliary`, after the scales have been spread over its four words. -/
def auxiliaryQ3K (raw : Memory) (scalesOffset : Nat) : Option (List UInt32) := do
  let load := fun (index : Nat) => do
    let first ← raw (scalesOffset + index * 4)
    let second ← raw (scalesOffset + index * 4 + 1)
    let third ← raw (scalesOffset + index * 4 + 2)
    let fourth ← raw (scalesOffset + index * 4 + 3)
    some (first.toUInt32 ||| (second.toUInt32 <<< 8) ||| (third.toUInt32 <<< 16) ||| (fourth.toUInt32 <<< 24))
  let auxiliary0 ← load 0
  let auxiliary1 ← load 1
  let temporary ← load 2
  let mask1 : UInt32 := 0x03030303
  let mask2 : UInt32 := 0x0f0f0f0f
  return [(auxiliary0 &&& mask2) ||| (((temporary >>> 0) &&& mask1) <<< 4),
    (auxiliary1 &&& mask2) ||| (((temporary >>> 2) &&& mask1) <<< 4),
    ((auxiliary0 >>> 4) &&& mask2) ||| (((temporary >>> 4) &&& mask1) <<< 4),
    ((auxiliary1 >>> 4) &&& mask2) ||| (((temporary >>> 6) &&& mask1) <<< 4)]

/-- `Int8(bitPattern: UInt8(truncatingIfNeeded: auxiliary[scaleIndex / 4] >> ((scaleIndex % 4) * 8)))`. -/
def auxiliaryScale (auxiliary : List UInt32) (scaleIndex : Nat) : Option Int := do
  let word ← auxiliary[scaleIndex / 4]?
  return (word >>> UInt32.ofNat ((scaleIndex % 4) * 8)).toUInt8.toInt8.toInt

def dequantizeQ3K (raw : Memory) (rawOffset outputOffset : Nat) : Option (List Write) := do
  let scale ← float16 raw (rawOffset + 108)
  let highMaskOffset := rawOffset
  let quantizedOffset := rawOffset + 32
  let scalesOffset := rawOffset + 96
  let auxiliary ← auxiliaryQ3K raw scalesOffset
  let (writes, _) ← carry (fun half (scaleIndex, highBitMask) => do
    let quantizedHalfOffset := quantizedOffset + half * 32
    let outputHalfOffset := outputOffset + half * 128
    let (writes, (scaleIndex, highBitMask, _)) ← carry (fun _ (scaleIndex, highBitMask, shift) => do
      let outputChunkOffset := outputHalfOffset + (shift / 2) * 32
      let firstScale ← auxiliaryScale auxiliary scaleIndex
      let scaleIndex := scaleIndex + 1
      let firstDequantizedScale := scale * (firstScale - 32)
      let firstWrites ← each (List.range 16) fun index => do
        let packed ← raw (quantizedHalfOffset + index)
        let low := shiftRight packed shift &&& 3
        let highByte ← raw (highMaskOffset + index)
        let high := if (highByte &&& highBitMask) = 0 then 4 else 0
        return [(outputChunkOffset + index, firstDequantizedScale * ((low.toNat : Int) - high : Int))]
      let secondScale ← auxiliaryScale auxiliary scaleIndex
      let scaleIndex := scaleIndex + 1
      let secondDequantizedScale := scale * (secondScale - 32)
      let secondWrites ← each (List.range 16) fun index => do
        let packed ← raw (quantizedHalfOffset + index + 16)
        let low := shiftRight packed shift &&& 3
        let highByte ← raw (highMaskOffset + index + 16)
        let high := if (highByte &&& highBitMask) = 0 then 4 else 0
        return [(outputChunkOffset + 16 + index, secondDequantizedScale * ((low.toNat : Int) - high : Int))]
      return (firstWrites ++ secondWrites, (scaleIndex, shiftLeft highBitMask 1, shift + 2)))
      (List.range 4) (scaleIndex, highBitMask, 0)
    return (writes, (scaleIndex, highBitMask))) (List.range 2) (0, (1 : UInt8))
  return writes

def kScaleAndMin (index : Nat) (raw : Memory) (offset : Nat) : Option (UInt8 × UInt8) :=
  if index < 4 then do
    let scale ← raw (offset + index)
    let min ← raw (offset + index + 4)
    return (scale &&& 63, min &&& 63)
  else do
    let low ← raw (offset + index + 4)
    let scaleHigh ← raw (offset + index - 4)
    let minHigh ← raw (offset + index)
    return ((low &&& 0x0f) ||| shiftLeft (shiftRight scaleHigh 6) 4, shiftRight low 4 ||| shiftLeft (shiftRight minHigh 6) 4)

def dequantizeQ4K (raw : Memory) (rawOffset outputOffset : Nat) : Option (List Write) := do
  let d ← float16 raw rawOffset
  let dMin ← float16 raw (rawOffset + 2)
  let scalesOffset := rawOffset + 4
  let quantizedOffset := rawOffset + 16
  let (writes, _) ← carry (fun segment scaleIndex => do
    let (scale1, min1) ← kScaleAndMin scaleIndex raw scalesOffset
    let (scale2, min2) ← kScaleAndMin (scaleIndex + 1) raw scalesOffset
    let segmentOffset := quantizedOffset + segment * 32
    let firstOutput := outputOffset + segment * 64
    let writes ← each (List.range 32) fun index => do
      let quantized ← raw (segmentOffset + index)
      return [(firstOutput + index, d * scale1.toNat * (quantized &&& 0x0f).toNat - dMin * min1.toNat),
        (firstOutput + 32 + index, d * scale2.toNat * (shiftRight quantized 4).toNat - dMin * min2.toNat)]
    return (writes, scaleIndex + 2)) (List.range 4) 0
  return writes

def dequantizeQ5K (raw : Memory) (rawOffset outputOffset : Nat) : Option (List Write) := do
  let d ← float16 raw rawOffset
  let dMin ← float16 raw (rawOffset + 2)
  let scalesOffset := rawOffset + 4
  let highBitsOffset := rawOffset + 16
  let lowBitsOffset := rawOffset + 48
  let (writes, _) ← carry (fun segment scaleIndex => do
    let (scale1, min1) ← kScaleAndMin scaleIndex raw scalesOffset
    let (scale2, min2) ← kScaleAndMin (scaleIndex + 1) raw scalesOffset
    let lowOffset := lowBitsOffset + segment * 32
    let highBit1 := UInt8.ofNat (1 <<< (segment * 2))
    let highBit2 := UInt8.ofNat (2 <<< (segment * 2))
    let firstOutput := outputOffset + segment * 64
    let writes ← each (List.range 32) fun index => do
      let high ← raw (highBitsOffset + index)
      let low ← raw (lowOffset + index)
      let q1 := (low &&& 0x0f).toNat + if (high &&& highBit1) = 0 then 0 else 16
      let q2 := (shiftRight low 4).toNat + if (high &&& highBit2) = 0 then 0 else 16
      return [(firstOutput + index, d * scale1.toNat * (q1 : ℕ) - dMin * min1.toNat),
        (firstOutput + 32 + index, d * scale2.toNat * (q2 : ℕ) - dMin * min2.toNat)]
    return (writes, scaleIndex + 2)) (List.range 4) 0
  return writes

def dequantizeQ6K (raw : Memory) (rawOffset outputOffset : Nat) : Option (List Write) := do
  let lowBitsOffset := rawOffset
  let highBitsOffset := rawOffset + 128
  let scalesOffset := rawOffset + 192
  let scale ← float16 raw (rawOffset + 208)
  each (List.range 2) fun half => do
    let valueOffset := outputOffset + half * 128
    let lowOffset := lowBitsOffset + half * 64
    let highOffset := highBitsOffset + half * 32
    let scaleOffset := scalesOffset + half * 8
    each (List.range 32) fun index => do
      let high ← raw (highOffset + index)
      let low ← raw (lowOffset + index)
      let low32 ← raw (lowOffset + 32 + index)
      let q1 := (((low &&& 0x0f) ||| shiftLeft (high &&& 0x03) 4).toNat : Int) - 32
      let q2 := (((low32 &&& 0x0f) ||| shiftLeft (shiftRight high 2 &&& 0x03) 4).toNat : Int) - 32
      let q3 := ((shiftRight low 4 ||| shiftLeft (shiftRight high 4 &&& 0x03) 4).toNat : Int) - 32
      let q4 := ((shiftRight low32 4 ||| shiftLeft (shiftRight high 6 &&& 0x03) 4).toNat : Int) - 32
      let scale1 ← raw (scaleOffset + index / 16)
      let scale2 ← raw (scaleOffset + 2 + index / 16)
      let scale3 ← raw (scaleOffset + 4 + index / 16)
      let scale4 ← raw (scaleOffset + 6 + index / 16)
      return [(valueOffset + index, scale * scale1.toInt8.toInt * q1),
        (valueOffset + 32 + index, scale * scale2.toInt8.toInt * q2),
        (valueOffset + 64 + index, scale * scale3.toInt8.toInt * q3),
        (valueOffset + 96 + index, scale * scale4.toInt8.toInt * q4)]

/-- The bytes and the elements of a block of each type. -/
def blockFormat : Nat → Option (Nat × Nat)
  | 2 => some (18, 32)
  | 3 => some (20, 32)
  | 8 => some (34, 32)
  | 10 => some (84, 256)
  | 11 => some (110, 256)
  | 12 => some (144, 256)
  | 13 => some (176, 256)
  | 14 => some (210, 256)
  | 41 => some (18, 128)
  | 42 => some (18, 64)
  | _ => none

/-- What one turn of the loop over the blocks calls. -/
def dequantizeBlock (type : Nat) (raw : Memory) (rawOffset outputOffset : Nat) : Option (List Write) :=
  if type = 2 then dequantizeQ40 raw rawOffset outputOffset
  else if type = 3 then dequantizeQ41 raw rawOffset outputOffset
  else if type = 8 then dequantizeQ80 raw rawOffset outputOffset
  else if type = 10 then dequantizeQ2K raw rawOffset outputOffset
  else if type = 11 then dequantizeQ3K raw rawOffset outputOffset
  else if type = 12 then dequantizeQ4K raw rawOffset outputOffset
  else if type = 13 then dequantizeQ5K raw rawOffset outputOffset
  else if type = 14 then dequantizeQ6K raw rawOffset outputOffset
  else if type = 41 then dequantizeQ10 raw rawOffset outputOffset
  else if type = 42 then dequantizeQ20 raw rawOffset outputOffset
  else some []

/-- The loop over the blocks. -/
def dequantizedWrites (type bytesPerBlock elementsPerBlock : Nat) (raw : Memory) (blockCount : Nat) : Option (List Write) :=
  each (List.range blockCount) fun block => dequantizeBlock type raw (block * bytesPerBlock) (block * elementsPerBlock)

/-- What `dequantizedArray` makes of the bytes of a tensor, after its checks. -/
def dequantizedValues (type bytesPerBlock elementsPerBlock : Nat) (raw : Memory) (blockCount : Nat) : Option (List ℚ) := do
  let writes ← dequantizedWrites type bytesPerBlock elementsPerBlock raw blockCount
  return apply (List.replicate (blockCount * elementsPerBlock) 0) writes

end Tanpopo.GGUF
