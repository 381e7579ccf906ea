import Mathlib.Tactic.Ring
import Tanpopo.GGUF.BlockDecoding
/-!
# The two decoders agree

`Agreement` for a block type: on the bytes of a block the loader writes each
element once, and at each it writes what the kernel reads there. Both depend on
the bytes of the block alone. `sourceValue_eq_dequantized` puts the blocks together.
-/

namespace Tanpopo.GGUF

open Writes

/-! ## Bytes and bits -/

theorem toNat_and15 (b : UInt8) : (b &&& 15).toNat = b.toNat &&& 15 := UInt8.toNat_and b 15

theorem toNat_and63 (b : UInt8) : (b &&& 63).toNat = b.toNat &&& 63 := UInt8.toNat_and b 63

theorem toNat_and3 (b : UInt8) : (b &&& 3).toNat = b.toNat &&& 3 := UInt8.toNat_and b 3

@[simp] theorem toNat_shiftRight (b : UInt8) (count : Nat) : (shiftRight b count).toNat = b.toNat >>> count := by
  have hle : b.toNat >>> count ≤ b.toNat := by
    rw [Nat.shiftRight_eq_div_pow]
    exact Nat.div_le_self _ _
  have hb := b.toNat_lt
  rw [shiftRight, UInt8.toNat_ofNat', Nat.mod_eq_of_lt (by omega)]

/-- Two bits moved above four others. -/
theorem toNat_shiftLeft4 {b : UInt8} (h : b.toNat ≤ 3) : (shiftLeft b 4).toNat = b.toNat <<< 4 := by
  have hshift : b.toNat <<< 4 < 2 ^ 8 := by
    rw [Nat.shiftLeft_eq]
    omega
  rw [shiftLeft, UInt8.toNat_ofNat', Nat.mod_eq_of_lt hshift]

theorem toInt_toInt8 (b : UInt8) : b.toInt8.toInt = signedByte b := by
  have h : b.toInt8.toInt = b.toBitVec.toInt := rfl
  rw [h, BitVec.toInt_eq_toNat_cond, signedByte]
  have hb : b.toBitVec.toNat = b.toNat := rfl
  rw [hb]
  split_ifs <;> omega

theorem and_eq_zero_iff (b mask : UInt8) : b &&& mask = 0 ↔ b.toNat &&& mask.toNat = 0 := by
  rw [← UInt8.toNat_inj, UInt8.toNat_and]
  rfl

theorem uint16_word (first second : UInt8) :
    first.toUInt16 ||| (second.toUInt16 <<< 8) = UInt16.ofNat (first.toNat ||| (second.toNat <<< 8)) := by
  have hfirst := first.toNat_lt
  have hsecond := second.toNat_lt
  have hshift : second.toNat <<< 8 < 2 ^ 16 := by
    rw [Nat.shiftLeft_eq]
    omega
  have hor : first.toNat ||| (second.toNat <<< 8) < 2 ^ 16 := Nat.or_lt_two_pow (by omega) hshift
  rw [← UInt16.toNat_inj, UInt16.toNat_ofNat', Nat.mod_eq_of_lt hor, UInt16.toNat_or, UInt16.toNat_shiftLeft]
  exact congrArg _ (Nat.mod_eq_of_lt hshift)

/-! ## Half-precision fields -/

/-- The half-precision field of a block. -/
def halfAt (d : Nat → UInt8) (i : Nat) : ℚ := halfValue (UInt16.ofNat ((d i).toNat ||| ((d (i + 1)).toNat <<< 8)))

section
variable {m : Memory} {offset count : Nat} {d : Nat → UInt8} (h : Covers m offset count d)
include h

theorem loadF16_eq (address i : Nat) (hi : i + 1 < count) (ha : address = offset + i) :
    loadF16 m address = some (halfAt d i) := by
  rw [loadF16, loadU16, h.read i (by omega) ha, h.read (i + 1) hi (by omega)]
  rfl

theorem float16_eq (address i : Nat) (hi : i + 1 < count) (ha : address = offset + i) :
    float16 m address = some (halfAt d i) := by
  rw [float16, littleEndianUInt16, h.read i (by omega) ha, h.read (i + 1) hi (by omega)]
  simp only [Option.bind_eq_bind, Option.bind_some, Option.pure_def, uint16_word]
  rfl

end

/-! ## Agreement -/

/-- `positions` is the order in which the loader fills a block, `value` what is at each position. -/
structure Agreement (type bytes elements : Nat) (positions : List Nat) (value : (Nat → UInt8) → Nat → ℚ) : Prop where
  positions_perm : positions.Perm (List.range elements)
  dequantize : ∀ {m : Memory} {offset : Nat} {d : Nat → UInt8}, Covers m offset bytes d → ∀ outputOffset,
    dequantizeBlock type m offset outputOffset = some (positions.map fun p => (outputOffset + p, value d p))
  source : ∀ {m : Memory} {block : Nat} {d : Nat → UInt8}, Covers m (block * bytes) bytes d → ∀ grid, ∀ i < elements,
    sourceValue m grid type (block * elements + i) = some (value d i)

theorem block_div {block elements i : Nat} (hi : i < elements) : (block * elements + i) / elements = block := by
  rw [Nat.mul_comm, Nat.mul_add_div (by omega), Nat.div_eq_of_lt hi, Nat.add_zero]

theorem block_mod {block elements i : Nat} (hi : i < elements) : (block * elements + i) % elements = i := by
  rw [Nat.mul_comm, Nat.mul_add_mod, Nat.mod_eq_of_lt hi]

/-- A loop that writes one element a turn, in order. -/
theorem flatMap_single {α : Type} (f : Nat → α) (n : Nat) : ((List.range n).flatMap fun i => [f i]) = (List.range n).map f :=
  List.flatMap_pure_eq_map f (List.range n)

/-! ### Q4_0, Q4_1 and Q8_0 -/

def nibbleAt (d : Nat → UInt8) (first i : Nat) : Nat :=
  if i < 16 then (d (first + i % 16)).toNat &&& 15 else (d (first + i % 16)).toNat >>> 4

theorem nibble_toNat (b : UInt8) (p : Prop) [Decidable p] :
    (if p then b &&& 15 else shiftRight b 4).toNat = if p then b.toNat &&& 15 else b.toNat >>> 4 := by
  rw [apply_ite UInt8.toNat, toNat_and15, toNat_shiftRight]

def valueQ40 (d : Nat → UInt8) (i : Nat) : ℚ := halfAt d 0 * ((nibbleAt d 2 i : Int) - 8 : Int)

theorem agreement_q40 : Agreement 2 18 32 (List.range 32) valueQ40 where
  positions_perm := List.Perm.refl _
  dequantize := by
    intro m offset d h outputOffset
    rw [dequantizeBlock, if_pos rfl, dequantizeQ40, float16_eq h offset 0 (by omega) rfl, Option.bind_eq_bind, Option.bind_some,
      ← flatMap_single]
    refine each_range fun index hindex => ?_
    have hpacked := h.read (2 + index % 16) (by omega) (Nat.add_assoc offset 2 _)
    rw [hpacked]
    simp only [nibble_toNat]
    rfl
  source := by
    intro m block d h grid i hi
    rw [sourceValue, if_pos (by decide), sourceSmall]
    simp only [block_div hi, block_mod hi, show (2 : Nat) ≠ 8 by decide, show (2 : Nat) ≠ 3 by decide, if_false]
    have hpacked := h.read (2 + i % 16) (by omega) (Nat.add_assoc _ 2 _)
    rw [loadF16_eq h (block * 18) 0 (by omega) rfl, hpacked]
    rfl

def valueQ41 (d : Nat → UInt8) (i : Nat) : ℚ := halfAt d 0 * (nibbleAt d 4 i : ℕ) + halfAt d 2

theorem agreement_q41 : Agreement 3 20 32 (List.range 32) valueQ41 where
  positions_perm := List.Perm.refl _
  dequantize := by
    intro m offset d h outputOffset
    rw [dequantizeBlock, if_neg (by decide), if_pos rfl, dequantizeQ41, float16_eq h offset 0 (by omega) rfl,
      float16_eq h (offset + 2) 2 (by omega) rfl, Option.bind_eq_bind, Option.bind_some, Option.bind_eq_bind, Option.bind_some,
      ← flatMap_single]
    refine each_range fun index hindex => ?_
    have hpacked := h.read (4 + index % 16) (by omega) (Nat.add_assoc offset 4 _)
    rw [hpacked]
    simp only [Option.bind_some, nibble_toNat]
    rfl
  source := by
    intro m block d h grid i hi
    rw [sourceValue, if_pos (by decide), sourceSmall]
    simp only [block_div hi, block_mod hi, show (3 : Nat) ≠ 8 by decide, show (3 : Nat) ≠ 2 by decide, if_false, if_true]
    have hpacked := h.read (4 + i % 16) (by omega) (Nat.add_assoc _ 4 _)
    rw [loadF16_eq h (block * 20) 0 (by omega) rfl, loadF16_eq h (block * 20 + 2) 2 (by omega) rfl, hpacked]
    rfl

def valueQ80 (d : Nat → UInt8) (i : Nat) : ℚ := halfAt d 0 * signedByte (d (2 + i))

theorem agreement_q80 : Agreement 8 34 32 (List.range 32) valueQ80 where
  positions_perm := List.Perm.refl _
  dequantize := by
    intro m offset d h outputOffset
    rw [dequantizeBlock, if_neg (by decide), if_neg (by decide), if_pos rfl, dequantizeQ80,
      float16_eq h offset 0 (by omega) rfl, Option.bind_eq_bind, Option.bind_some, ← flatMap_single]
    refine each_range fun index hindex => ?_
    have hquantized := h.read (2 + index) (by omega) (Nat.add_assoc offset 2 _)
    rw [hquantized]
    simp only [Option.bind_eq_bind, Option.bind_some, toInt_toInt8]
    rfl
  source := by
    intro m block d h grid i hi
    rw [sourceValue, if_pos (by decide), sourceSmall]
    simp only [block_div hi, block_mod hi, if_true]
    have hquantized := h.read (2 + i) (by omega) (Nat.add_assoc _ 2 _)
    rw [loadF16_eq h (block * 34) 0 (by omega) rfl, hquantized]
    rfl

/-! ### Q1_0 and Q2_0 -/

def valueQ10 (d : Nat → UInt8) (i : Nat) : ℚ :=
  if ((d (2 + i / 8)).toNat >>> (i % 8)) &&& 1 = 0 then -halfAt d 0 else halfAt d 0

theorem bit_eq_zero_iff (b : UInt8) (count : Nat) : shiftRight b count &&& 1 = 0 ↔ (b.toNat >>> count) &&& 1 = 0 := by
  rw [and_eq_zero_iff, toNat_shiftRight]
  rfl

theorem agreement_q10 : Agreement 41 18 128 (List.range 128) valueQ10 where
  positions_perm := List.Perm.refl _
  dequantize := by
    intro m offset d h outputOffset
    rw [dequantizeBlock]
    iterate 8 rw [if_neg (by decide)]
    rw [if_pos rfl, dequantizeQ10, float16_eq h offset 0 (by omega) rfl, Option.bind_eq_bind, Option.bind_some,
      ← flatMap_single]
    refine each_range fun index hindex => ?_
    have hpacked := h.read (2 + index / 8) (by omega) (Nat.add_assoc offset 2 _)
    rw [hpacked]
    simp only [Option.bind_eq_bind, Option.bind_some, bit_eq_zero_iff]
    rfl
  source := by
    intro m block d h grid i hi
    rw [sourceValue, if_neg (by decide), if_pos (by decide), sourceBits]
    simp only [if_true, block_div hi, block_mod hi]
    have hpacked := h.read (2 + i / 8) (by omega) (Nat.add_assoc _ 2 _)
    rw [loadF16_eq h (block * 18) 0 (by omega) rfl, hpacked]
    rfl

def valueQ20 (d : Nat → UInt8) (i : Nat) : ℚ :=
  ((((d (2 + i / 4)).toNat >>> ((i % 4) * 2)) &&& 3 : ℕ) - 1 : Int) * halfAt d 0

theorem agreement_q20 : Agreement 42 18 64 (List.range 64) valueQ20 where
  positions_perm := List.Perm.refl _
  dequantize := by
    intro m offset d h outputOffset
    rw [dequantizeBlock]
    iterate 9 rw [if_neg (by decide)]
    rw [if_pos rfl, dequantizeQ20, float16_eq h offset 0 (by omega) rfl, Option.bind_eq_bind, Option.bind_some,
      ← flatMap_single]
    refine each_range fun index hindex => ?_
    have hpacked := h.read (2 + index / 4) (by omega) (Nat.add_assoc offset 2 _)
    rw [hpacked]
    simp only [Option.bind_eq_bind, Option.bind_some, toNat_and3, toNat_shiftRight]
    rfl
  source := by
    intro m block d h grid i hi
    rw [sourceValue, if_neg (by decide), if_pos (by decide), sourceBits]
    simp only [show (42 : Nat) ≠ 41 by decide, if_false, block_div hi, block_mod hi]
    have hpacked := h.read (2 + i / 4) (by omega) (Nat.add_assoc _ 2 _)
    rw [loadF16_eq h (block * 18) 0 (by omega) rfl, hpacked]
    rfl

/-! ### Q2_K -/

/-- The positions of a chunk of 32 elements, which is filled by two loops. -/
def chunkPositions (half chunk : Nat) : List Nat :=
  (List.range 16).map (fun index => half * 128 + chunk * 32 + index) ++
    (List.range 16).map fun index => half * 128 + chunk * 32 + (16 + index)

def chunkedPositions : List Nat := (List.range 2).flatMap fun half => (List.range 4).flatMap fun chunk => chunkPositions half chunk

/-- The two loops of a chunk, one write a turn. -/
theorem chunk_writes {α : Type} (f : Nat → α) (half chunk : Nat) :
    ((List.range 16).flatMap fun index => [f (half * 128 + chunk * 32 + index)]) ++
      ((List.range 16).flatMap fun index => [f (half * 128 + chunk * 32 + (16 + index))]) =
    (chunkPositions half chunk).map f := by
  rw [chunkPositions, List.map_append, List.map_map, List.map_map, flatMap_single, flatMap_single]
  rfl

theorem chunkedPositions_eq : chunkedPositions = List.range 256 := by decide +kernel

def valueQ2K (d : Nat → UInt8) (i : Nat) : ℚ :=
  let scaleByte := d (4 + (i / 128 * 8 + i % 128 / 32 * 2 + i % 128 % 32 / 16))
  let quantized := ((d (20 + i / 128 * 32 + i % 128 % 32)).toNat >>> (i % 128 / 32 * 2)) &&& 3
  halfAt d 0 * ((scaleByte.toNat &&& 15 : ℕ) : ℚ) * (quantized : ℕ) - halfAt d 2 * ((scaleByte.toNat >>> 4 : ℕ) : ℚ)

/-- The place of an element within its block. -/
theorem chunk_place {half chunk position : Nat} (hchunk : chunk < 4) (hposition : position < 32) :
    (half * 128 + chunk * 32 + position) / 128 = half ∧ (half * 128 + chunk * 32 + position) % 128 / 32 = chunk ∧
      (half * 128 + chunk * 32 + position) % 128 % 32 = position := by omega

theorem valueQ2K_chunk (d : Nat → UInt8) {half chunk position : Nat} (hchunk : chunk < 4) (hposition : position < 32) :
    valueQ2K d (half * 128 + chunk * 32 + position) =
      halfAt d 0 * ((d (4 + (half * 8 + chunk * 2 + position / 16))).toNat &&& 15 : ℕ) *
          ((d (20 + half * 32 + position)).toNat >>> (chunk * 2) &&& 3 : ℕ) -
        halfAt d 2 * ((d (4 + (half * 8 + chunk * 2 + position / 16))).toNat >>> 4 : ℕ) := by
  obtain ⟨hhalf, hch, hpos⟩ := chunk_place hchunk hposition
  rw [valueQ2K, hhalf, hch, hpos]

theorem agreement_q2k : Agreement 10 84 256 chunkedPositions valueQ2K where
  positions_perm := chunkedPositions_eq ▸ List.Perm.refl _
  dequantize := by
    intro m offset d h outputOffset
    rw [dequantizeBlock]
    iterate 3 rw [if_neg (by decide)]
    rw [if_pos rfl, dequantizeQ2K, float16_eq h offset 0 (by omega) rfl, float16_eq h (offset + 2) 2 (by omega) rfl]
    refine carry_bind (fun half => half * 8)
      (fun half => ((List.range 4).flatMap (chunkPositions half)).map fun p => (outputOffset + p, valueQ2K d p))
      (fun half hhalf => ?_) ?_
    · refine carry_bind (fun chunk => (half * 8 + chunk * 2, chunk * 2))
        (fun chunk => (chunkPositions half chunk).map fun p => (outputOffset + p, valueQ2K d p)) (fun chunk hchunk => ?_) ?_
      · have hfirst := h.read (4 + (half * 8 + chunk * 2)) (by omega) (Nat.add_assoc offset 4 _)
        have hsecond := h.read (4 + (half * 8 + chunk * 2 + 1)) (by omega) (Nat.add_assoc offset 4 _)
        dsimp only
        rw [hfirst, hsecond]
        simp only [Option.bind_eq_bind, Option.bind_some]
        refine each_bind (fun index => [(outputOffset + (half * 128 + chunk * 32 + index),
          valueQ2K d (half * 128 + chunk * 32 + index))]) (fun index hindex => ?_) ?_
        · have hpacked : m (offset + 20 + half * 32 + index) = some (d (20 + half * 32 + index)) :=
            h.read _ (by omega) (by omega)
          rw [hpacked, valueQ2K_chunk d hchunk (by omega), Nat.div_eq_of_lt hindex]
          simp only [Option.bind_some, toNat_and3, toNat_and15, toNat_shiftRight, Nat.mul_div_cancel _ (show 0 < 2 by decide),
            ← Nat.add_assoc]
          rfl
        · refine each_bind (fun index => [(outputOffset + (half * 128 + chunk * 32 + (16 + index)),
            valueQ2K d (half * 128 + chunk * 32 + (16 + index)))]) (fun index hindex => ?_) ?_
          · have hpacked : m (offset + 20 + half * 32 + index + 16) = some (d (20 + half * 32 + (16 + index))) :=
              h.read _ (by omega) (by omega)
            rw [hpacked, valueQ2K_chunk d hchunk (by omega), show (16 + index) / 16 = 1 by omega]
            simp only [Option.bind_some, toNat_and3, toNat_and15, toNat_shiftRight,
              Nat.mul_div_cancel _ (show 0 < 2 by decide), ← Nat.add_assoc]
            rfl
          · rw [chunk_writes fun p => (outputOffset + p, valueQ2K d p)]
            exact congrArg (fun s => some (_, s)) (by rw [Prod.mk.injEq]; omega)
      · rw [List.map_flatMap]
        exact congrArg (fun s => some (_, s)) (by omega)
    · rw [chunkedPositions, List.map_flatMap]
      rfl
  source := by
    intro m block d h grid i hi
    rw [sourceValue]
    iterate 5 rw [if_neg (by decide)]
    simp only [if_true, block_div hi, block_mod hi, sourceQ2K]
    have hscale := h.read (4 + (i / 128 * 8 + i % 128 / 32 * 2 + i % 128 % 32 / 16)) (by omega) (Nat.add_assoc _ 4 _)
    have hpacked : m (block * 84 + 20 + i / 128 * 32 + i % 128 % 32) = some (d (20 + i / 128 * 32 + i % 128 % 32)) :=
      h.read _ (by omega) (by omega)
    rw [loadF16_eq h (block * 84) 0 (by omega) rfl, loadF16_eq h (block * 84 + 2) 2 (by omega) rfl, hscale, hpacked]
    rfl

/-! ### Q3_K -/

def wordAt (d : Nat → UInt8) (i : Nat) : UInt32 :=
  (d i).toUInt32 ||| ((d (i + 1)).toUInt32 <<< 8) ||| ((d (i + 2)).toUInt32 <<< 16) ||| ((d (i + 3)).toUInt32 <<< 24)

def q3WordsAt (d : Nat → UInt8) : List UInt32 := q3Words (wordAt d 96) (wordAt d 100) (wordAt d 104)

def q3ByteAt (d : Nat → UInt8) (index : Nat) : Int :=
  signedByte (((q3WordsAt d).getD (min (index / 4) 3) 0) >>> UInt32.ofNat ((index % 4) * 8)).toUInt8

theorem loadU32_eq {m : Memory} {offset count : Nat} {d : Nat → UInt8} (h : Covers m offset count d) (address i : Nat)
    (hi : i + 3 < count) (ha : address = offset + i) : loadU32 m address = some (wordAt d i) := by
  rw [loadU32, h.read i (by omega) ha, h.read (i + 1) (by omega) (by omega), h.read (i + 2) (by omega) (by omega),
    h.read (i + 3) hi (by omega)]
  rfl

theorem auxiliaryQ3K_eq {m : Memory} {offset : Nat} {d : Nat → UInt8} (h : Covers m offset 110 d) :
    auxiliaryQ3K m (offset + 96) = some (q3WordsAt d) := by
  have hload : ∀ index < 3, loadU32 m (offset + 96 + index * 4) = some (wordAt d (96 + index * 4)) :=
    fun index hindex => loadU32_eq h _ _ (by omega) (by omega)
  have h0 := hload 0 (by omega)
  have h1 := hload 1 (by omega)
  have h2 := hload 2 (by omega)
  rw [loadU32] at h0 h1 h2
  rw [auxiliaryQ3K]
  dsimp only
  simp only [Option.pure_def] at h0 h1 h2
  rw [h0, h1, h2]
  rfl

theorem auxiliaryScale_eq (d : Nat → UInt8) {index : Nat} (h : index < 16) :
    auxiliaryScale (q3WordsAt d) index = some (q3ByteAt d index) := by
  have hlength : (q3WordsAt d).length = 4 := rfl
  rw [auxiliaryScale, q3ByteAt, Nat.min_eq_left (by omega), List.getD_eq_getElem?_getD,
    List.getElem?_eq_getElem (by omega), Option.getD_some]
  exact congrArg some (toInt_toInt8 _)

/-- The bit of `highBitMask` after some chunks. -/
def highBit (count : Nat) : UInt8 := UInt8.ofNat (1 <<< count)

theorem shiftLeft_highBit : ∀ count < 8, shiftLeft (highBit count) 1 = highBit (count + 1) := by decide

theorem toNat_highBit : ∀ count < 8, (highBit count).toNat = 1 <<< count := by decide

def valueQ3K (d : Nat → UInt8) (i : Nat) : ℚ :=
  let quantized := ((d (32 + i / 128 * 32 + i % 128 % 32)).toNat >>> (i % 128 / 32 * 2)) &&& 3
  let high := if ((d (i % 128 % 32)).toNat &&& (1 <<< (i / 128 * 4 + i % 128 / 32))) = 0 then 4 else 0
  halfAt d 108 * (q3ByteAt d (i / 128 * 8 + i % 128 / 32 * 2 + i % 128 % 32 / 16) - 32 : Int) *
    ((quantized : ℕ) - (high : ℕ) : Int)

theorem valueQ3K_chunk (d : Nat → UInt8) {half chunk position : Nat} (hhalf : half < 2) (hchunk : chunk < 4)
    (hposition : position < 32) : valueQ3K d (half * 128 + chunk * 32 + position) =
      halfAt d 108 * (q3ByteAt d (half * 8 + chunk * 2 + position / 16) - 32) *
        ((((shiftRight (d (32 + half * 32 + position)) (chunk * 2) &&& 3).toNat : Int) -
          (if (d position &&& highBit (half * 4 + chunk)) = 0 then 4 else 0) : Int) : ℚ) := by
  obtain ⟨hh, hch, hpos⟩ := chunk_place hchunk hposition
  rw [valueQ3K, hh, hch, hpos]
  simp only [and_eq_zero_iff, toNat_highBit _ (show half * 4 + chunk < 8 by omega), toNat_and3, toNat_shiftRight]
  push_cast
  rfl

theorem agreement_q3k : Agreement 11 110 256 chunkedPositions valueQ3K where
  positions_perm := chunkedPositions_eq ▸ List.Perm.refl _
  dequantize := by
    intro m offset d h outputOffset
    rw [dequantizeBlock]
    iterate 4 rw [if_neg (by decide)]
    rw [if_pos rfl, dequantizeQ3K, float16_eq h (offset + 108) 108 (by omega) rfl]
    simp only [Option.bind_eq_bind, Option.bind_some]
    rw [auxiliaryQ3K_eq h, Option.bind_some]
    refine carry_bind (fun half => (half * 8, highBit (half * 4)))
      (fun half => ((List.range 4).flatMap (chunkPositions half)).map fun p => (outputOffset + p, valueQ3K d p))
      (fun half hhalf => ?_) ?_
    · refine carry_bind (fun chunk => (half * 8 + chunk * 2, highBit (half * 4 + chunk), chunk * 2))
        (fun chunk => (chunkPositions half chunk).map fun p => (outputOffset + p, valueQ3K d p)) (fun chunk hchunk => ?_) ?_
      · dsimp only
        rw [auxiliaryScale_eq d (by omega), auxiliaryScale_eq d (by omega)]
        simp only [Option.bind_some]
        refine each_bind (fun index => [(outputOffset + (half * 128 + chunk * 32 + index),
          valueQ3K d (half * 128 + chunk * 32 + index))]) (fun index hindex => ?_) ?_
        · have hpacked : m (offset + 32 + half * 32 + index) = some (d (32 + half * 32 + index)) :=
            h.read _ (by omega) (by omega)
          rw [hpacked, h.read index (by omega) rfl, valueQ3K_chunk d hhalf hchunk (by omega), Nat.div_eq_of_lt hindex]
          simp only [Option.bind_some, Nat.mul_div_cancel _ (show 0 < 2 by decide), ← Nat.add_assoc]
          rfl
        · refine each_bind (fun index => [(outputOffset + (half * 128 + chunk * 32 + (16 + index)),
            valueQ3K d (half * 128 + chunk * 32 + (16 + index)))]) (fun index hindex => ?_) ?_
          · have hpacked : m (offset + 32 + half * 32 + index + 16) = some (d (32 + half * 32 + (16 + index))) :=
              h.read _ (by omega) (by omega)
            have hhigh : m (offset + index + 16) = some (d (16 + index)) := h.read _ (by omega) (by omega)
            rw [hpacked, hhigh, valueQ3K_chunk d hhalf hchunk (by omega), show (16 + index) / 16 = 1 by omega]
            simp only [Option.bind_some, Nat.mul_div_cancel _ (show 0 < 2 by decide), ← Nat.add_assoc]
            rfl
          · rw [chunk_writes fun p => (outputOffset + p, valueQ3K d p), shiftLeft_highBit _ (by omega)]
            have hscale : half * 8 + chunk * 2 + 1 + 1 = half * 8 + (chunk + 1) * 2 := by omega
            have hshift : chunk * 2 + 2 = (chunk + 1) * 2 := by omega
            rw [hscale, hshift]
            rfl
      · rw [List.map_flatMap]
        have hscale : half * 8 + 4 * 2 = (half + 1) * 8 := by omega
        have hmask : half * 4 + 4 = (half + 1) * 4 := by omega
        rw [hscale, hmask]
        rfl
    · rw [chunkedPositions, List.map_flatMap]
      rfl
  source := by
    intro m block d h grid i hi
    rw [sourceValue]
    iterate 5 rw [if_neg (by decide)]
    simp only [show (11 : Nat) ≠ 10 by decide, if_false, if_true, block_div hi, block_mod hi, sourceQ3K, q3Scale]
    have hpacked : m (block * 110 + 32 + i / 128 * 32 + i % 128 % 32) = some (d (32 + i / 128 * 32 + i % 128 % 32)) :=
      h.read _ (by omega) (by omega)
    rw [hpacked, h.read (i % 128 % 32) (by omega) rfl, loadU32_eq h (block * 110 + 96) 96 (by omega) rfl,
      loadU32_eq h (block * 110 + 96 + 4) 100 (by omega) rfl, loadU32_eq h (block * 110 + 96 + 8) 104 (by omega) rfl,
      loadF16_eq h (block * 110 + 108) 108 (by omega) rfl]
    rfl

/-! ### Q4_K and Q5_K -/

/-- The positions of a segment of 64 elements, of which each turn fills one in either half. -/
def segmentPositions (segment : Nat) : List Nat :=
  (List.range 32).flatMap fun index => [segment * 64 + index, segment * 64 + 32 + index]

def segmentedPositions : List Nat := (List.range 4).flatMap segmentPositions

theorem segmentedPositions_perm : segmentedPositions.Perm (List.range 256) := by decide +kernel

def scaleAt (d : Nat → UInt8) (index : Nat) : Nat :=
  if index < 4 then (d (4 + index)).toNat &&& 63
  else ((d (4 + index + 4)).toNat &&& 15) ||| (((d (4 + index - 4)).toNat >>> 6) <<< 4)

def minimumAt (d : Nat → UInt8) (index : Nat) : Nat :=
  if index < 4 then (d (4 + index + 4)).toNat &&& 63
  else ((d (4 + index + 4)).toNat >>> 4) ||| (((d (4 + index)).toNat >>> 6) <<< 4)

section
variable {m : Memory} {offset count : Nat} {d : Nat → UInt8} (h : Covers m offset count d)
include h

theorem qkScale_eq {index : Nat} (hindex : index < 8) (hcount : 16 ≤ count) :
    qkScale m (offset + 4) index = some (scaleAt d index) := by
  have hlow : m (offset + 4 + index) = some (d (4 + index)) := h.read _ (by omega) (by omega)
  have hhigh : m (offset + 4 + index + 4) = some (d (4 + index + 4)) := h.read _ (by omega) (by omega)
  unfold qkScale scaleAt
  split
  · rw [hlow]
    rfl
  · have hback : m (offset + 4 + index - 4) = some (d (4 + index - 4)) := h.read _ (by omega) (by omega)
    rw [hhigh, hback]
    rfl

theorem qkMinimum_eq {index : Nat} (hindex : index < 8) (hcount : 16 ≤ count) :
    qkMinimum m (offset + 4) index = some (minimumAt d index) := by
  have hlow : m (offset + 4 + index) = some (d (4 + index)) := h.read _ (by omega) (by omega)
  have hhigh : m (offset + 4 + index + 4) = some (d (4 + index + 4)) := h.read _ (by omega) (by omega)
  unfold qkMinimum minimumAt
  split
  · rw [hhigh]
    rfl
  · rw [hhigh, hlow]
    rfl

theorem kScaleAndMin_eq (index : Nat) (hindex : index < 8) (hcount : 16 ≤ count) :
    ∃ scale minimum, kScaleAndMin index m (offset + 4) = some (scale, minimum) ∧ scale.toNat = scaleAt d index ∧
      minimum.toNat = minimumAt d index := by
  have hlow : m (offset + 4 + index) = some (d (4 + index)) := h.read _ (by omega) (by omega)
  have hhigh : m (offset + 4 + index + 4) = some (d (4 + index + 4)) := h.read _ (by omega) (by omega)
  have hsmall : ∀ b : UInt8, (shiftRight b 6).toNat ≤ 3 := fun b => by
    have := b.toNat_lt
    rw [toNat_shiftRight, Nat.shiftRight_eq_div_pow]
    omega
  unfold kScaleAndMin scaleAt minimumAt
  split
  · rw [hlow, hhigh]
    exact ⟨_, _, rfl, toNat_and63 _, toNat_and63 _⟩
  · have hback : m (offset + 4 + index - 4) = some (d (4 + index - 4)) := h.read _ (by omega) (by omega)
    rw [hlow, hhigh, hback]
    refine ⟨_, _, rfl, ?_, ?_⟩
    · rw [UInt8.toNat_or, toNat_shiftLeft4 (hsmall _), toNat_shiftRight, toNat_and15]
    · rw [UInt8.toNat_or, toNat_shiftLeft4 (hsmall _), toNat_shiftRight, toNat_shiftRight]

end

/-- The value of an element, where `quantized` says what its code is. -/
def value45K (quantized : Nat → Nat → Bool → Nat) (d : Nat → UInt8) (i : Nat) : ℚ :=
  let upper : Bool := i % 64 ≥ 32
  let scaleIndex := i / 64 * 2 + (if upper then 1 else 0)
  halfAt d 0 * scaleAt d scaleIndex * quantized (i / 64) (i % 32) upper - halfAt d 2 * minimumAt d scaleIndex

theorem value45K_lower (quantized : Nat → Nat → Bool → Nat) (d : Nat → UInt8) {segment index : Nat} (hindex : index < 32) :
    value45K quantized d (segment * 64 + index) =
      halfAt d 0 * scaleAt d (segment * 2) * quantized segment index false - halfAt d 2 * minimumAt d (segment * 2) := by
  have hupper : decide ((segment * 64 + index) % 64 ≥ 32) = false := decide_eq_false (by omega)
  rw [value45K, hupper, show (segment * 64 + index) / 64 = segment by omega, show (segment * 64 + index) % 32 = index by omega]
  rfl

theorem value45K_upper (quantized : Nat → Nat → Bool → Nat) (d : Nat → UInt8) {segment index : Nat} (hindex : index < 32) :
    value45K quantized d (segment * 64 + 32 + index) =
      halfAt d 0 * scaleAt d (segment * 2 + 1) * quantized segment index true -
        halfAt d 2 * minimumAt d (segment * 2 + 1) := by
  have hupper : decide ((segment * 64 + 32 + index) % 64 ≥ 32) = true := decide_eq_true (by omega)
  rw [value45K, hupper, show (segment * 64 + 32 + index) / 64 = segment by omega,
    show (segment * 64 + 32 + index) % 32 = index by omega]
  rfl

theorem sourceQ45K_eq {m : Memory} {offset count sourceType : Nat} {d : Nat → UInt8} (h : Covers m offset count d)
    (hcount : 16 ≤ count) {quantized : Nat → Nat → Bool → Nat}
    (hq : ∀ segment < 4, ∀ position < 32, ∀ upper,
      quantized45K m sourceType offset segment position upper = some (quantized segment position upper))
    {i : Nat} (hi : i < 256) : sourceQ45K m sourceType offset i = some (value45K quantized d i) := by
  have hscale : ∀ upper : Bool, i / 64 * 2 + (if upper then 1 else 0) < 8 := by
    intro upper
    split <;> omega
  rw [sourceQ45K, hq (i / 64) (by omega) (i % 32) (by omega), qkScale_eq h (hscale _) hcount, qkMinimum_eq h (hscale _) hcount,
    loadF16_eq h offset 0 (by omega) rfl, loadF16_eq h (offset + 2) 2 (by omega) rfl]
  rfl

/-- The loop over the segments, of which each has two scales and two minima. -/
theorem segments_eq {m : Memory} {offset count outputOffset : Nat} {d : Nat → UInt8} (h : Covers m offset count d) (hcount : 16 ≤ count)
    {quantized : Nat → Nat → Bool → Nat} {turn : Nat → UInt8 × UInt8 → UInt8 × UInt8 → Nat → Option (List Write)}
    (hturn : ∀ segment < 4, ∀ index < 32, ∀ first second : UInt8 × UInt8, first.1.toNat = scaleAt d (segment * 2) →
      first.2.toNat = minimumAt d (segment * 2) → second.1.toNat = scaleAt d (segment * 2 + 1) →
      second.2.toNat = minimumAt d (segment * 2 + 1) → turn segment first second index =
        some [(outputOffset + (segment * 64 + index), value45K quantized d (segment * 64 + index)),
          (outputOffset + (segment * 64 + 32 + index), value45K quantized d (segment * 64 + 32 + index))]) :
    ((carry (fun segment scaleIndex => (kScaleAndMin scaleIndex m (offset + 4)).bind fun first =>
        (kScaleAndMin (scaleIndex + 1) m (offset + 4)).bind fun second =>
          (each (List.range 32) fun index => turn segment first second index).bind fun writes =>
            pure (writes, scaleIndex + 2)) (List.range 4) 0).bind fun result => pure result.1) =
      some (segmentedPositions.map fun p => (outputOffset + p, value45K quantized d p)) := by
  refine carry_bind (fun segment => segment * 2)
    (fun segment => (segmentPositions segment).map fun p => (outputOffset + p, value45K quantized d p))
    (fun segment hsegment => ?_) ?_
  · obtain ⟨scale1, min1, heq1, hscale1, hmin1⟩ := kScaleAndMin_eq h (segment * 2) (by omega) hcount
    obtain ⟨scale2, min2, heq2, hscale2, hmin2⟩ := kScaleAndMin_eq h (segment * 2 + 1) (by omega) hcount
    rw [heq1, heq2]
    simp only [Option.bind_some]
    refine each_bind (fun index => [(outputOffset + (segment * 64 + index), value45K quantized d (segment * 64 + index)),
      (outputOffset + (segment * 64 + 32 + index), value45K quantized d (segment * 64 + 32 + index))]) (fun index hindex => ?_) ?_
    · exact hturn segment hsegment index hindex (scale1, min1) (scale2, min2) hscale1 hmin1 hscale2 hmin2
    · rw [segmentPositions, List.map_flatMap]
      have hscale : segment * 2 + 2 = (segment + 1) * 2 := by omega
      rw [hscale]
      rfl
  · rw [segmentedPositions, List.map_flatMap]
    rfl

def quantizedQ4K (d : Nat → UInt8) (segment position : Nat) (upper : Bool) : Nat :=
  if upper then (d (16 + segment * 32 + position)).toNat >>> 4 else (d (16 + segment * 32 + position)).toNat &&& 15

theorem agreement_q4k : Agreement 12 144 256 segmentedPositions fun d => value45K (quantizedQ4K d) d where
  positions_perm := segmentedPositions_perm
  dequantize := by
    intro m offset d h outputOffset
    rw [dequantizeBlock]
    iterate 5 rw [if_neg (by decide)]
    rw [if_pos rfl, dequantizeQ4K, float16_eq h offset 0 (by omega) rfl, float16_eq h (offset + 2) 2 (by omega) rfl]
    simp only [Option.bind_eq_bind, Option.bind_some]
    refine segments_eq h (by omega) fun segment hsegment index hindex first second hscale1 hmin1 hscale2 hmin2 => ?_
    have hquantized : m (offset + 16 + segment * 32 + index) = some (d (16 + segment * 32 + index)) :=
      h.read _ (by omega) (by omega)
    rw [hquantized, value45K_lower _ d hindex, value45K_upper _ d hindex, ← hscale1, ← hscale2, ← hmin1, ← hmin2]
    simp only [Option.bind_some, toNat_and15, toNat_shiftRight, ← Nat.add_assoc]
    rfl
  source := by
    intro m block d h grid i hi
    rw [sourceValue]
    iterate 5 rw [if_neg (by decide)]
    simp only [show (12 : Nat) ≠ 10 by decide, show (12 : Nat) ≠ 11 by decide, if_false, if_true, true_or, block_div hi,
      block_mod hi]
    refine sourceQ45K_eq h (by omega) (fun segment hsegment position hposition upper => ?_) hi
    have hpacked : m (block * 144 + 16 + segment * 32 + position) = some (d (16 + segment * 32 + position)) :=
      h.read _ (by omega) (by omega)
    rw [quantized45K, if_pos rfl, hpacked]
    rfl

def quantizedQ5K (d : Nat → UInt8) (segment position : Nat) (upper : Bool) : Nat :=
  (if upper then (d (48 + segment * 32 + position)).toNat >>> 4 else (d (48 + segment * 32 + position)).toNat &&& 15) +
    if ((d (16 + position)).toNat &&& (if upper then 2 <<< (segment * 2) else 1 <<< (segment * 2))) = 0 then 0 else 16

theorem toNat_highBit1 : ∀ segment < 4, (UInt8.ofNat (1 <<< (segment * 2))).toNat = 1 <<< (segment * 2) := by decide

theorem toNat_highBit2 : ∀ segment < 4, (UInt8.ofNat (2 <<< (segment * 2))).toNat = 2 <<< (segment * 2) := by decide

theorem agreement_q5k : Agreement 13 176 256 segmentedPositions fun d => value45K (quantizedQ5K d) d where
  positions_perm := segmentedPositions_perm
  dequantize := by
    intro m offset d h outputOffset
    rw [dequantizeBlock]
    iterate 6 rw [if_neg (by decide)]
    rw [if_pos rfl, dequantizeQ5K, float16_eq h offset 0 (by omega) rfl, float16_eq h (offset + 2) 2 (by omega) rfl]
    simp only [Option.bind_eq_bind, Option.bind_some]
    refine segments_eq h (by omega) fun segment hsegment index hindex first second hscale1 hmin1 hscale2 hmin2 => ?_
    have hhigh : m (offset + 16 + index) = some (d (16 + index)) := h.read _ (by omega) (by omega)
    have hlow : m (offset + 48 + segment * 32 + index) = some (d (48 + segment * 32 + index)) :=
      h.read _ (by omega) (by omega)
    rw [hhigh, hlow, value45K_lower _ d hindex, value45K_upper _ d hindex, ← hscale1, ← hscale2, ← hmin1, ← hmin2]
    simp only [Option.bind_some, toNat_and15, toNat_shiftRight, and_eq_zero_iff, toNat_highBit1 segment hsegment,
      toNat_highBit2 segment hsegment, ← Nat.add_assoc]
    rfl
  source := by
    intro m block d h grid i hi
    rw [sourceValue]
    iterate 5 rw [if_neg (by decide)]
    simp only [show (13 : Nat) ≠ 10 by decide, show (13 : Nat) ≠ 11 by decide, show (13 : Nat) ≠ 12 by decide, if_false,
      if_true, or_true, block_div hi, block_mod hi]
    refine sourceQ45K_eq h (by omega) (fun segment hsegment position hposition upper => ?_) hi
    have hhigh : m (block * 176 + 16 + position) = some (d (16 + position)) := h.read _ (by omega) (by omega)
    have hlow : m (block * 176 + 48 + segment * 32 + position) = some (d (48 + segment * 32 + position)) :=
      h.read _ (by omega) (by omega)
    rw [quantized45K, if_neg (by decide), hhigh, hlow]
    rfl

/-! ### Q6_K -/

/-- The positions of half a block, of which each turn fills one in each plane. -/
def planePositions (half : Nat) : List Nat :=
  (List.range 32).flatMap fun index =>
    [half * 128 + index, half * 128 + 32 + index, half * 128 + 64 + index, half * 128 + 96 + index]

def planedPositions : List Nat := (List.range 2).flatMap planePositions

theorem planedPositions_perm : planedPositions.Perm (List.range 256) := by decide +kernel

/-- The code of an element: four bits of one byte below two of another. -/
def quantizedQ6K (d : Nat → UInt8) (half plane position : Nat) : Nat :=
  let high := (d (128 + half * 32 + position)).toNat
  if plane = 0 then ((d (half * 64 + position)).toNat &&& 15) ||| ((high &&& 3) <<< 4)
  else if plane = 1 then ((d (half * 64 + position + 32)).toNat &&& 15) ||| (((high >>> 2) &&& 3) <<< 4)
  else if plane = 2 then ((d (half * 64 + position)).toNat >>> 4) ||| (((high >>> 4) &&& 3) <<< 4)
  else ((d (half * 64 + position + 32)).toNat >>> 4) ||| (((high >>> 6) &&& 3) <<< 4)

def valueQ6K (d : Nat → UInt8) (i : Nat) : ℚ :=
  halfAt d 208 * signedByte (d (192 + i / 128 * 8 + i % 128 / 32 * 2 + i % 128 % 32 / 16)) *
    ((quantizedQ6K d (i / 128) (i % 128 / 32) (i % 128 % 32) : ℕ) - 32 : Int)

theorem valueQ6K_plane (d : Nat → UInt8) {half plane position : Nat} (hplane : plane < 4) (hposition : position < 32) :
    valueQ6K d (half * 128 + plane * 32 + position) =
      halfAt d 208 * signedByte (d (192 + half * 8 + plane * 2 + position / 16)) *
        ((quantizedQ6K d half plane position : ℕ) - 32 : Int) := by
  obtain ⟨hh, hp, hpos⟩ := chunk_place hplane hposition
  rw [valueQ6K, hh, hp, hpos]

theorem toNat_highBits (low high : UInt8) : (low ||| shiftLeft (high &&& 3) 4).toNat =
    low.toNat ||| ((high.toNat &&& 3) <<< 4) := by
  have hsmall : (high &&& 3).toNat ≤ 3 := by
    rw [toNat_and3]
    exact Nat.and_le_right
  rw [UInt8.toNat_or, toNat_shiftLeft4 hsmall, toNat_and3]

theorem agreement_q6k : Agreement 14 210 256 planedPositions valueQ6K where
  positions_perm := planedPositions_perm
  dequantize := by
    intro m offset d h outputOffset
    rw [dequantizeBlock]
    iterate 7 rw [if_neg (by decide)]
    rw [if_pos rfl, dequantizeQ6K, float16_eq h (offset + 208) 208 (by omega) rfl]
    simp only [Option.bind_eq_bind, Option.bind_some]
    rw [planedPositions, List.map_flatMap]
    refine each_range fun half hhalf => ?_
    rw [planePositions, List.map_flatMap]
    refine each_range fun index hindex => ?_
    have hhigh : m (offset + 128 + half * 32 + index) = some (d (128 + half * 32 + index)) := h.read _ (by omega) (by omega)
    have hlow : m (offset + half * 64 + index) = some (d (half * 64 + index)) := h.read _ (by omega) (by omega)
    have hlow32 : m (offset + half * 64 + 32 + index) = some (d (half * 64 + index + 32)) := h.read _ (by omega) (by omega)
    have hscale : ∀ address i, address = offset + i → i < 210 → m address = some (d i) := fun _ i ha hi => h.read i hi ha
    -- Each turn writes one value in each of the four planes.
    have hvalue : ∀ plane < 4, ∀ p, p = half * 128 + plane * 32 + index → valueQ6K d p =
        halfAt d 208 * signedByte (d (192 + half * 8 + plane * 2 + index / 16)) *
          ((quantizedQ6K d half plane index : ℕ) - 32 : Int) := fun plane hplane p hp => hp ▸ valueQ6K_plane d hplane hindex
    rw [hhigh, hlow, hlow32, hscale (offset + 192 + half * 8 + index / 16) (192 + half * 8 + 0 * 2 + index / 16) (by omega) (by omega),
      hscale (offset + 192 + half * 8 + 2 + index / 16) (192 + half * 8 + 1 * 2 + index / 16) (by omega) (by omega),
      hscale (offset + 192 + half * 8 + 4 + index / 16) (192 + half * 8 + 2 * 2 + index / 16) (by omega) (by omega),
      hscale (offset + 192 + half * 8 + 6 + index / 16) (192 + half * 8 + 3 * 2 + index / 16) (by omega) (by omega)]
    simp only [List.map_cons, List.map_nil, hvalue 0 (by omega) (half * 128 + index) (by omega),
      hvalue 1 (by omega) (half * 128 + 32 + index) (by omega), hvalue 2 (by omega) (half * 128 + 64 + index) (by omega),
      hvalue 3 (by omega) (half * 128 + 96 + index) (by omega), Option.bind_some, toInt_toInt8, toNat_highBits, toNat_and15,
      toNat_shiftRight, ← Nat.add_assoc]
    rfl
  source := by
    intro m block d h grid i hi
    rw [sourceValue]
    iterate 5 rw [if_neg (by decide)]
    simp only [show (14 : Nat) ≠ 10 by decide, show (14 : Nat) ≠ 11 by decide, show (14 : Nat) ≠ 12 by decide,
      show (14 : Nat) ≠ 13 by decide, if_false, or_self, block_div hi, block_mod hi, sourceQ6K]
    have hhigh : m (block * 210 + 128 + i / 128 * 32 + i % 128 % 32) = some (d (128 + i / 128 * 32 + i % 128 % 32)) :=
      h.read _ (by omega) (by omega)
    have hscale : m (block * 210 + 192 + i / 128 * 8 + i % 128 / 32 * 2 + i % 128 % 32 / 16) =
        some (d (192 + i / 128 * 8 + i % 128 / 32 * 2 + i % 128 % 32 / 16)) := h.read _ (by omega) (by omega)
    have hquantized : quantized6K m (block * 210 + i / 128 * 64) (i % 128 / 32) (i % 128 % 32)
        (d (128 + i / 128 * 32 + i % 128 % 32)) = some (quantizedQ6K d (i / 128) (i % 128 / 32) (i % 128 % 32)) := by
      have hlow : m (block * 210 + i / 128 * 64 + i % 128 % 32) = some (d (i / 128 * 64 + i % 128 % 32)) :=
        h.read _ (by omega) (by omega)
      have hlow32 : m (block * 210 + i / 128 * 64 + i % 128 % 32 + 32) = some (d (i / 128 * 64 + i % 128 % 32 + 32)) :=
        h.read _ (by omega) (by omega)
      rw [quantized6K, hlow, hlow32]
      unfold quantizedQ6K
      dsimp only
      split_ifs <;> rfl
    rw [hhigh, Option.bind_eq_bind, Option.bind_some, hquantized, hscale, loadF16_eq h (block * 210 + 208) 208 (by omega) rfl]
    rfl

/-! ## A list of blocks -/

theorem exists_agreement {type bytes elements : Nat} (h : blockFormat type = some (bytes, elements)) :
    ∃ positions value, Agreement type bytes elements positions value := by
  unfold blockFormat at h
  split at h
  · cases h
    exact ⟨_, _, agreement_q40⟩
  · cases h
    exact ⟨_, _, agreement_q41⟩
  · cases h
    exact ⟨_, _, agreement_q80⟩
  · cases h
    exact ⟨_, _, agreement_q2k⟩
  · cases h
    exact ⟨_, _, agreement_q3k⟩
  · cases h
    exact ⟨_, _, agreement_q4k⟩
  · cases h
    exact ⟨_, _, agreement_q5k⟩
  · cases h
    exact ⟨_, _, agreement_q6k⟩
  · cases h
    exact ⟨_, _, agreement_q10⟩
  · cases h
    exact ⟨_, _, agreement_q20⟩
  · cases h

/-- The bytes of a block. -/
def bytesOfBlock (raw : List UInt8) (bytes block : Nat) : Nat → UInt8 := fun i => raw.getD (block * bytes + i) 0

theorem covers_block {raw : List UInt8} {n bytes block : Nat} (hraw : raw.length = n * bytes) (hblock : block < n) :
    Covers (ofList raw) (block * bytes) bytes (bytesOfBlock raw bytes block) := by
  refine covers_ofList ?_
  rw [hraw, ← Nat.succ_mul]
  exact Nat.mul_le_mul_right _ hblock

section
variable {type bytes elements n : Nat} {positions : List Nat} {value : (Nat → UInt8) → Nat → ℚ} {raw : List UInt8}
  (h : Agreement type bytes elements positions value) (hraw : raw.length = n * bytes)
include h hraw

/-- What the loop over the blocks writes. -/
theorem Agreement.writes_eq : dequantizedWrites type bytes elements (ofList raw) n =
    some ((List.range n).flatMap fun block =>
      positions.map fun p => (block * elements + p, value (bytesOfBlock raw bytes block) p)) :=
  each_range fun block hblock => h.dequantize (covers_block hraw hblock) (block * elements)

/-- The array that is filled holds each value at its place. -/
theorem Agreement.values_eq : ∃ values, dequantizedValues type bytes elements (ofList raw) n = some values ∧
    ∀ block < n, ∀ i < elements, values[block * elements + i]? = some (value (bytesOfBlock raw bytes block) i) := by
  refine ⟨_, by rw [dequantizedValues, h.writes_eq hraw]; rfl, fun block hblock i hi => ?_⟩
  exact apply_blocks h.positions_perm _ 0 hblock hi

end

/-- On any list of blocks the loader writes each index once, and writes there what the kernel reads; both read the bytes
of the element's own block only. -/
theorem sourceValue_eq_dequantized (type bytes elements : Nat) (hformat : blockFormat type = some (bytes, elements))
    (raw : List UInt8) (n : Nat) (hraw : raw.length = n * bytes) (iq3sGrid : Nat → Option UInt32) :
    (∃ writes, dequantizedWrites type bytes elements (ofList raw) n = some writes ∧
      (writes.map Prod.fst).Perm (List.range (n * elements))) ∧
    (∃ values, dequantizedValues type bytes elements (ofList raw) n = some values ∧
      ∀ element < n * elements, ∃ value, values[element]? = some value ∧
        sourceValue (ofList raw) iq3sGrid type element = some value ∧
        sourceValue (only (ofList raw) (element / elements * bytes) bytes) iq3sGrid type element = some value) ∧
    ∀ block < n, ∃ part, dequantizeBlock type (ofList raw) (block * bytes) (block * elements) = some part ∧
      dequantizeBlock type (only (ofList raw) (block * bytes) bytes) (block * bytes) (block * elements) = some part ∧
      ∀ write ∈ part, write.1 / elements = block := by
  obtain ⟨positions, value, h⟩ := exists_agreement hformat
  refine ⟨⟨_, h.writes_eq hraw, blocks_perm h.positions_perm _⟩, ?_, fun block hblock => ?_⟩
  · obtain ⟨values, hvalues, hplace⟩ := h.values_eq hraw
    refine ⟨values, hvalues, fun element helement => ?_⟩
    have hpos : 0 < elements := Nat.pos_of_ne_zero fun hzero => by simp [hzero] at helement
    have hblock : element / elements < n := (Nat.div_lt_iff_lt_mul hpos).2 helement
    have hi := Nat.mod_lt element hpos
    have hcovers := covers_block hraw hblock
    have hsplit : element / elements * elements + element % elements = element := Nat.div_add_mod' _ _
    refine ⟨value (bytesOfBlock raw bytes (element / elements)) (element % elements), ?_, ?_, ?_⟩
    · rw [← hplace _ hblock _ hi, hsplit]
    · rw [← h.source hcovers iq3sGrid _ hi, hsplit]
    · rw [← h.source hcovers.only iq3sGrid _ hi, hsplit]
  · have hcovers := covers_block hraw hblock
    refine ⟨_, h.dequantize hcovers _, h.dequantize hcovers.only _, fun write hmem => ?_⟩
    obtain ⟨p, hp, rfl⟩ := List.mem_map.1 hmem
    exact block_div (List.mem_range.1 (h.positions_perm.mem_iff.1 hp))

theorem twoBlocks_agree :
    ∃ values, dequantizedValues 12 144 256 (ofList (List.replicate 288 7)) 2 = some values ∧ ∀ element < 512, ∃ value,
      values[element]? = some value ∧ sourceValue (ofList (List.replicate 288 7)) (fun _ => none) 12 element = some value := by
  obtain ⟨-, ⟨values, hvalues, hplace⟩, -⟩ :=
    sourceValue_eq_dequantized 12 144 256 rfl (List.replicate 288 7) 2 List.length_replicate fun _ => none
  refine ⟨values, hvalues, fun element helement => ?_⟩
  obtain ⟨value, hvalue, hsource, -⟩ := hplace element helement
  exact ⟨value, hvalue, hsource⟩

end Tanpopo.GGUF
