import Tanpopo.GGUF.BlockAgreement
import Tanpopo.GGUF.LinearAttention
import Tanpopo.GGUF.Reader
import Tanpopo.Lib.PackedWords
/-!
# Repacking without loss

The kernels that keep the codes of a block and only change their layout:
`packPreserved` for the formats that are affine in groups of 32, and
`packMXFP4`. `packed_without_loss` says that what is unpacked are the values
of the loader's decoder, in the order of the file.
-/

namespace Tanpopo.GGUF

open Writes PackedWords

/-! ## The kernels -/

/-- What the thread of a block writes to the three outputs. -/
structure ThreadWrites where
  wq : List (Nat × UInt32)
  scales : List (Nat × ℚ)
  biases : List (Nat × ℚ)

/-- `packed`, the codes of two neighbours among 32 elements whose second half is in the upper nibbles. -/
def pairCode (raw : Memory) (offset packedIndex : Nat) : Option Nat := do
  let pair := packedIndex % 8
  let first ← raw (offset + pair * 2)
  let second ← raw (offset + pair * 2 + 1)
  return if packedIndex < 8 then (first.toNat &&& 15) ||| ((second.toNat &&& 15) <<< 4)
    else (first.toNat >>> 4) ||| ((second.toNat >>> 4) <<< 4)

/-- The kernel for Q4_K; its scales are read as in `qk_scale` and `qk_minimum`. -/
def packQ4K (raw : Memory) (block : Nat) : Option ThreadWrites := do
  let rawOffset := block * 144
  let scaleBase := rawOffset + 4
  let quantBase := rawOffset + 16
  let d ← loadF16 raw rawOffset
  let dmin ← loadF16 raw (rawOffset + 2)
  let scales ← each (List.range 8) fun j => do
    let sc ← qkScale raw scaleBase j
    return [(block * 8 + j, d * sc)]
  let biases ← each (List.range 8) fun j => do
    let m ← qkMinimum raw scaleBase j
    return [(block * 8 + j, -dmin * m)]
  -- 32 bytes hold two groups: the lower halves of all bytes, then the upper halves.
  let wq ← each (List.range 4) fun k => each (List.range 2) fun nibble => each (List.range 4) fun word => do
    let sub := k * 2 + nibble
    let result ← packLoop 4 (fun idx => do
      let byte ← raw (quantBase + k * 32 + word * 8 + idx)
      return if nibble = 0 then byte.toNat &&& 15 else byte.toNat >>> 4) 8
    return [(block * 32 + sub * 4 + word, UInt32.ofNat result)]
  return ⟨wq, scales, biases⟩

/-- `preservedQuantizedKernel`, for the thread of a block. -/
def packThread (sourceType : Nat) (raw : Memory) (block : Nat) : Option ThreadWrites :=
  if sourceType = 12 then packQ4K raw block
  else do
    let sourceBytes := if sourceType = 8 then 34 else if sourceType = 3 then 20 else 18
    let rawOffset := block * sourceBytes
    let scale ← loadF16 raw rawOffset
    if sourceType = 3 then do
      let bias ← loadF16 raw (rawOffset + 2)
      let wq ← each (List.range 4) fun word => do
        let result ← packLoop 8 (fun byteIndex => pairCode raw (rawOffset + 4) (word * 4 + byteIndex)) 4
        return [(block * 4 + word, UInt32.ofNat result)]
      return ⟨wq, [(block, scale)], [(block, bias)]⟩
    else if sourceType = 2 then do
      let wq ← each (List.range 4) fun word => do
        let result ← packLoop 8 (fun byteIndex => pairCode raw (rawOffset + 2) (word * 4 + byteIndex)) 4
        return [(block * 4 + word, UInt32.ofNat result)]
      return ⟨wq, [(block, scale)], [(block, -8 * scale)]⟩
    else do
      let wq ← each (List.range 8) fun word => do
        let result ← packLoop 8 (fun byteIndex => do
          let byte ← raw (rawOffset + 2 + word * 4 + byteIndex)
          return byte.toNat ^^^ 128) 4
        return [(block * 8 + word, UInt32.ofNat result)]
      return ⟨wq, [(block, scale)], [(block, -128 * scale)]⟩

/-- The three arrays that `packPreserved` returns, flat. -/
structure PackedArrays where
  wq : List UInt32
  scales : List ℚ
  biases : List ℚ

/-- The writes of all threads, in arrays of the sizes of the target shapes. -/
def runThreads (threads : List ThreadWrites) (weights scales : Nat) : PackedArrays where
  wq := apply (List.replicate weights 0) (threads.flatMap ThreadWrites.wq)
  scales := apply (List.replicate scales 0) (threads.flatMap ThreadWrites.scales)
  biases := apply (List.replicate scales 0) (threads.flatMap ThreadWrites.biases)

/-- `MLXArray(raw, [raw.count])` holds its shape in `Int32`; so no `uint` of the kernels wraps. -/
def fitsShape (raw : List UInt8) : Prop := raw.length < 2 ^ 31

instance (raw : List UInt8) : Decidable (fitsShape raw) := Nat.decLt _ _

/-- Errors of the evaluation itself are left out. -/
def packPreserved (raw : List UInt8) (sourceType : Nat) (sourceShape targetWeightShape targetScaleShape : List Nat) :
    Swift.Outcome LoaderError PackedArrays :=
  if ¬ (sourceType = 2 ∨ sourceType = 3 ∨ sourceType = 8 ∨ sourceType = 12) then
    .threw (.invalidTensor "GGUF type (sourceType)")
  else
    let elementsPerBlock := if sourceType = 12 then 256 else 32
    let elementCount := sourceShape.foldl (· * ·) 1
    if ¬ (elementCount > 0 ∧ elementCount % elementsPerBlock = 0) then .threw (.invalidTensor "GGUF type (sourceType)")
    else
      let blockCount := elementCount / elementsPerBlock
      let bytesPerBlock := if sourceType = 12 then 144 else if sourceType = 8 then 34 else if sourceType = 3 then 20 else 18
      if raw.length ≠ blockCount * bytesPerBlock then .threw (.invalidTensor "GGUF type (sourceType)")
      else if ¬ fitsShape raw then .trap
      else
        -- A thread that read outside the data would be undefined; the sizes rule it out.
        match each (List.range blockCount) fun block => (packThread sourceType (ofList raw) block).map fun thread => [thread] with
        | none => .trap
        | some threads =>
          .ok (runThreads threads (targetWeightShape.foldl (· * ·) 1) (targetScaleShape.foldl (· * ·) 1))

/-- `mxfp4Kernel`, for the thread of a block. -/
def packMXFP4Thread (raw : Memory) (block : Nat) : Option (List (Nat × UInt32) × List (Nat × UInt8)) := do
  let rawOffset := block * 17
  let scale ← raw rawOffset
  let wq ← each (List.range 4) fun word => do
    let result ← packLoop 4 (fun index => do
      let sourceIndex := word * 8 + index
      let packedIndex := if sourceIndex < 16 then sourceIndex else sourceIndex - 16
      let shift := if sourceIndex < 16 then 0 else 4
      let byte ← raw (rawOffset + 1 + packedIndex)
      return (byte.toNat >>> shift) &&& 15) 8
    return [(block * 4 + word, UInt32.ofNat result)]
  return (wq, [(block, scale)])

def packMXFP4 (raw : List UInt8) (sourceShape targetWeightShape targetScaleShape : List Nat) :
    Swift.Outcome LoaderError (List UInt32 × List UInt8) :=
  let elementCount := sourceShape.foldl (· * ·) 1
  if ¬ (elementCount > 0 ∧ elementCount % 32 = 0) then .threw (.invalidTensor "MXFP4 量化群組設定")
  else
    let blockCount := elementCount / 32
    if raw.length ≠ blockCount * 17 then .threw (.invalidTensor "MXFP4 權重資料大小")
    else if ¬ fitsShape raw then .trap
    else
      match each (List.range blockCount) fun block => (packMXFP4Thread (ofList raw) block).map fun thread => [thread] with
      | none => .trap
      | some threads =>
        .ok (apply (List.replicate (targetWeightShape.foldl (· * ·) 1) 0) (threads.flatMap Prod.fst),
          apply (List.replicate (targetScaleShape.foldl (· * ·) 1) 0) (threads.flatMap Prod.snd))

/-- What the loader preserves: bytes and elements of a block, bits of a code. -/
def preservedFormat : Nat → Option (Nat × Nat × Nat)
  | 2 => some (18, 32, 4)
  | 3 => some (20, 32, 4)
  | 8 => some (34, 32, 8)
  | 12 => some (144, 256, 4)
  | _ => none

/-- An element of an MLX affine tensor in groups of 32. -/
def unpack (bits : Nat) (arrays : PackedArrays) (element : Nat) : Option ℚ := do
  let word ← arrays.wq[element / packing bits]?
  let scale ← arrays.scales[element / 32]?
  let bias ← arrays.biases[element / 32]?
  return scale * code bits word (element % packing bits) + bias

/-! ## Words and codes -/

theorem low_or_high {low : Nat} (high : Nat) (h : low < 16) : low ||| (high <<< 4) = 16 * high + low := by
  rw [Nat.shiftLeft_eq, Nat.or_comm, Nat.mul_comm]
  exact (Nat.two_pow_add_eq_or_of_lt (i := 4) h high).symm

theorem and15_lt (b : UInt8) : b.toNat &&& 15 < 16 := Nat.lt_succ_of_le Nat.and_le_right

theorem upper_lt (b : UInt8) : b.toNat >>> 4 < 16 := by
  have := b.toNat_lt
  rw [Nat.shiftRight_eq_div_pow]
  omega

/-- The code of an element of a word in which the given fields were packed. -/
theorem code_packFields {bits count : Nat} {value : Nat → Nat} (h : ∀ index < count, value index < 2 ^ bits)
    (hsize : count * bits = 32) {index : Nat} (hindex : index < count) :
    code bits (UInt32.ofNat (packFields bits value count)) index = value index := by
  have hlt := packFields_lt h
  rw [hsize] at hlt
  rw [code, UInt32.toNat_ofNat', Nat.mod_eq_of_lt hlt, Nat.mul_comm bits, field_packFields h hindex]

/-- The same where bytes were packed and half a byte is read. -/
theorem code_packBytes {value : Nat → Nat} (h : ∀ index < 4, value index < 2 ^ 8) {byte half : Nat} (hbyte : byte < 4)
    (hhalf : half < 2) :
    code 4 (UInt32.ofNat (packFields 8 value 4)) (2 * byte + half) = value byte / 2 ^ (4 * half) % 2 ^ 4 := by
  have hlt := packFields_lt h
  rw [code, UInt32.toNat_ofNat', Nat.mod_eq_of_lt hlt, half_of_byte _ _ _ hhalf, field_packFields h hbyte]

/-! ## Codes in pairs -/

def pairCodeAt (d : Nat → UInt8) (offset packedIndex : Nat) : Nat :=
  let first := (d (offset + packedIndex % 8 * 2)).toNat
  let second := (d (offset + packedIndex % 8 * 2 + 1)).toNat
  if packedIndex < 8 then (first &&& 15) ||| ((second &&& 15) <<< 4) else (first >>> 4) ||| ((second >>> 4) <<< 4)

theorem pairCode_eq {m : Memory} {offset count : Nat} {d : Nat → UInt8} (h : Covers m offset count d) (first : Nat)
    (hcount : first + 16 ≤ count) (packedIndex : Nat) :
    pairCode m (offset + first) packedIndex = some (pairCodeAt d first packedIndex) := by
  have hlow : m (offset + first + packedIndex % 8 * 2) = some (d (first + packedIndex % 8 * 2)) :=
    h.read _ (by omega) (by omega)
  have hhigh : m (offset + first + packedIndex % 8 * 2 + 1) = some (d (first + packedIndex % 8 * 2 + 1)) :=
    h.read _ (by omega) (by omega)
  rw [pairCode, hlow, hhigh]
  rfl

theorem pairCodeAt_eq (d : Nat → UInt8) (first : Nat) {packedIndex : Nat} (h : packedIndex < 16) :
    pairCodeAt d first packedIndex = 16 * nibbleAt d first (2 * packedIndex + 1) + nibbleAt d first (2 * packedIndex) := by
  rw [pairCodeAt, nibbleAt, nibbleAt, show (2 * packedIndex + 1) % 16 = packedIndex % 8 * 2 + 1 by omega, show 2 * packedIndex % 16 = packedIndex % 8 * 2 by omega,
    ← Nat.add_assoc]
  by_cases hhalf : packedIndex < 8
  · rw [if_pos hhalf, if_pos (by omega), if_pos (by omega), low_or_high _ (and15_lt _)]
  · rw [if_neg hhalf, if_neg (by omega), if_neg (by omega), low_or_high _ (upper_lt _)]

theorem nibbleAt_lt (d : Nat → UInt8) (first i : Nat) : nibbleAt d first i < 16 := by
  unfold nibbleAt
  split
  · exact and15_lt _
  · exact upper_lt _

/-- The words of a block whose codes are packed in pairs. -/
def pairWord (d : Nat → UInt8) (first word : Nat) : UInt32 :=
  UInt32.ofNat (packFields 8 (fun byteIndex => pairCodeAt d first (word * 4 + byteIndex)) 4)

theorem code_pairWord (d : Nat → UInt8) (first : Nat) {i : Nat} (hi : i < 32) :
    code 4 (pairWord d first (i / 8)) (i % 8) = nibbleAt d first i := by
  have hlt : ∀ index < 4, pairCodeAt d first (i / 8 * 4 + index) < 2 ^ 8 := by
    intro index hindex
    have hlow := nibbleAt_lt d first (2 * (i / 8 * 4 + index))
    have hhigh := nibbleAt_lt d first (2 * (i / 8 * 4 + index) + 1)
    rw [pairCodeAt_eq d first (by omega)]
    omega
  -- Two neighbours share a byte, four bytes a word.
  have hplace : i % 8 = 2 * (i % 8 / 2) + i % 2 := by omega
  rw [pairWord, hplace, code_packBytes hlt (by omega) (by omega), show i / 8 * 4 + i % 8 / 2 = i / 2 by omega,
    pairCodeAt_eq d first (by omega)]
  have hlow := nibbleAt_lt d first (2 * (i / 2))
  have hhigh := nibbleAt_lt d first (2 * (i / 2) + 1)
  rcases Nat.mod_two_eq_zero_or_one i with heven | hodd
  · have hi' : 2 * (i / 2) = i := by omega
    rw [hi'] at hlow ⊢
    rw [heven]
    omega
  · have hi' : 2 * (i / 2) + 1 = i := by omega
    rw [hi'] at hhigh ⊢
    rw [hodd]
    omega

/-! ## What a thread does -/

/-- The thread of a block writes words and affine groups that stand for the values of the block. -/
structure Repacks (type bytes elements bits : Nat) (positions : List Nat) (word : (Nat → UInt8) → Nat → UInt32)
    (scale bias : (Nat → UInt8) → Nat → ℚ) (value : (Nat → UInt8) → Nat → ℚ) : Prop where
  positions_perm : positions.Perm (List.range (elements / packing bits))
  whole_words : packing bits ∣ elements := by decide
  whole_groups : 32 ∣ elements := by decide
  thread : ∀ {m : Memory} {block : Nat} {d : Nat → UInt8}, Covers m (block * bytes) bytes d → packThread type m block =
    some ⟨positions.map fun p => (block * (elements / packing bits) + p, word d p),
      (List.range (elements / 32)).map fun g => (block * (elements / 32) + g, scale d g),
      (List.range (elements / 32)).map fun g => (block * (elements / 32) + g, bias d g)⟩
  exact : ∀ d, ∀ i < elements,
    scale d (i / 32) * code bits (word d (i / packing bits)) (i % packing bits) + bias d (i / 32) = value d i

/-- A block of 32 elements is one group. -/
theorem one_group (block : Nat) (x : ℚ) : (List.range (32 / 32)).map (fun g => (block * (32 / 32) + g, x)) = [(block, x)] := by
  simp

theorem repacks_q40 : Repacks 2 18 32 4 (List.range 4) (fun d => pairWord d 2) (fun d _ => halfAt d 0)
    (fun d _ => -8 * halfAt d 0) valueQ40 where
  positions_perm := List.Perm.refl _
  thread := by
    intro m block d h
    rw [packThread, if_neg (by decide)]
    simp only [show (2 : Nat) ≠ 8 by decide, show (2 : Nat) ≠ 3 by decide, if_false, if_true]
    rw [loadF16_eq h (block * 18) 0 (by omega) rfl, Option.bind_eq_bind, Option.bind_some]
    refine each_bind (fun word => [(block * 4 + word, pairWord d 2 word)]) (fun word hword => ?_) ?_
    · rw [packLoop_eq _ fun index _ => pairCode_eq h 2 (by omega) (word * 4 + index)]
      rfl
    · rw [flatMap_single fun word => (block * 4 + word, pairWord d 2 word), one_group, one_group]
      rfl
  exact := by
    intro d i hi
    have hcode : code 4 (pairWord d 2 (i / packing 4)) (i % packing 4) = nibbleAt d 2 i := code_pairWord d 2 hi
    rw [hcode, valueQ40]
    push_cast
    ring

theorem repacks_q41 : Repacks 3 20 32 4 (List.range 4) (fun d => pairWord d 4) (fun d _ => halfAt d 0)
    (fun d _ => halfAt d 2) valueQ41 where
  positions_perm := List.Perm.refl _
  thread := by
    intro m block d h
    rw [packThread, if_neg (by decide)]
    simp only [show (3 : Nat) ≠ 8 by decide, if_false, if_true]
    rw [loadF16_eq h (block * 20) 0 (by omega) rfl, loadF16_eq h (block * 20 + 2) 2 (by omega) rfl, Option.bind_eq_bind,
      Option.bind_some, Option.bind_eq_bind, Option.bind_some]
    refine each_bind (fun word => [(block * 4 + word, pairWord d 4 word)]) (fun word hword => ?_) ?_
    · rw [packLoop_eq _ fun index _ => pairCode_eq h 4 (by omega) (word * 4 + index)]
      rfl
    · rw [flatMap_single fun word => (block * 4 + word, pairWord d 4 word), one_group, one_group]
      rfl
  exact := by
    intro d i hi
    have hcode : code 4 (pairWord d 4 (i / packing 4)) (i % packing 4) = nibbleAt d 4 i := code_pairWord d 4 hi
    rw [hcode, valueQ41]

/-- The code of a byte is 128 above its signed value. -/
theorem flipped_byte (b : UInt8) : ((b.toNat ^^^ 128 : ℕ) : Int) - 128 = signedByte b := by
  have hall : ∀ n < 256, ((n ^^^ 128 : ℕ) : Int) - 128 = if (n : Int) ≥ 128 then (n : Int) - 256 else n := by decide +kernel
  exact hall b.toNat b.toNat_lt

theorem flipped_lt (b : UInt8) : b.toNat ^^^ 128 < 2 ^ 8 := Nat.xor_lt_two_pow b.toNat_lt (by decide)

def byteWord (d : Nat → UInt8) (word : Nat) : UInt32 :=
  UInt32.ofNat (packFields 8 (fun byteIndex => (d (2 + word * 4 + byteIndex)).toNat ^^^ 128) 4)

theorem repacks_q80 : Repacks 8 34 32 8 (List.range 8) byteWord (fun d _ => halfAt d 0) (fun d _ => -128 * halfAt d 0)
    valueQ80 where
  positions_perm := List.Perm.refl _
  thread := by
    intro m block d h
    rw [packThread, if_neg (by decide)]
    simp only [show (8 : Nat) ≠ 3 by decide, show (8 : Nat) ≠ 2 by decide, if_false, if_true]
    rw [loadF16_eq h (block * 34) 0 (by omega) rfl, Option.bind_eq_bind, Option.bind_some]
    refine each_bind (fun word => [(block * 8 + word, byteWord d word)]) (fun word hword => ?_) ?_
    · rw [packLoop_eq (fun byteIndex => (d (2 + word * 4 + byteIndex)).toNat ^^^ 128) fun index hindex => ?_]
      · rfl
      · have hbyte : m (block * 34 + 2 + word * 4 + index) = some (d (2 + word * 4 + index)) := h.read _ (by omega) (by omega)
        rw [hbyte]
        rfl
    · rw [flatMap_single fun word => (block * 8 + word, byteWord d word), one_group, one_group]
      rfl
  exact := by
    intro d i hi
    -- The bias of -128 scales takes back the flipped bit.
    have hcode : code 8 (byteWord d (i / packing 8)) (i % packing 8) = (d (2 + i)).toNat ^^^ 128 := by
      have hplace : 2 + i / 4 * 4 + i % 4 = 2 + i := by omega
      rw [show packing 8 = 4 from rfl, byteWord, code_packFields (fun _ _ => flipped_lt _) rfl (by omega), hplace]
    rw [hcode, valueQ80, ← flipped_byte]
    push_cast
    ring

def quantWord (d : Nat → UInt8) (word : Nat) : UInt32 :=
  UInt32.ofNat (packFields 4 (fun idx => quantizedQ4K d (word / 8) (word % 4 * 8 + idx) (word / 4 % 2 = 1)) 8)

/-- The order in which the words of a Q4_K block are written. -/
def quantPositions : List Nat :=
  (List.range 4).flatMap fun k => (List.range 2).flatMap fun nibble => (List.range 4).flatMap fun word =>
    [(k * 2 + nibble) * 4 + word]

theorem quantizedQ4K_lt (d : Nat → UInt8) (segment position : Nat) (upper : Bool) : quantizedQ4K d segment position upper < 16 := by
  unfold quantizedQ4K
  split
  · exact upper_lt _
  · exact and15_lt _

theorem repacks_q4k : Repacks 12 144 256 4 quantPositions quantWord (fun d g => halfAt d 0 * scaleAt d g)
    (fun d g => -halfAt d 2 * minimumAt d g) (fun d => value45K (quantizedQ4K d) d) where
  positions_perm := by decide +kernel
  thread := by
    intro m block d h
    rw [packThread, if_pos rfl, packQ4K, loadF16_eq h (block * 144) 0 (by omega) rfl,
      loadF16_eq h (block * 144 + 2) 2 (by omega) rfl]
    simp only [Option.bind_eq_bind, Option.bind_some]
    refine each_bind (fun j => [(block * 8 + j, halfAt d 0 * scaleAt d j)]) (fun j hj => ?_) ?_
    · rw [qkScale_eq h hj (by omega)]
      rfl
    refine each_bind (fun j => [(block * 8 + j, -halfAt d 2 * minimumAt d j)]) (fun j hj => ?_) ?_
    · rw [qkMinimum_eq h hj (by omega)]
      rfl
    -- The words of a block: two for the nibbles of each of its bytes.
    refine each_bind (fun k => (List.range 2).flatMap fun nibble => (List.range 4).flatMap fun word =>
      [(block * 32 + (k * 2 + nibble) * 4 + word, quantWord d ((k * 2 + nibble) * 4 + word))]) (fun k hk => ?_) ?_
    · refine each_range fun nibble hnibble => each_range fun word hword => ?_
      rw [packLoop_eq (fun idx => quantizedQ4K d k (word * 8 + idx) (nibble = 1)) fun idx hidx => ?_]
      · rw [quantWord, show ((k * 2 + nibble) * 4 + word) / 8 = k by omega, show ((k * 2 + nibble) * 4 + word) % 4 = word by omega,
          show ((k * 2 + nibble) * 4 + word) / 4 % 2 = nibble by omega]
        rfl
      · have hbyte : m (block * 144 + 16 + k * 32 + word * 8 + idx) = some (d (16 + k * 32 + (word * 8 + idx))) :=
          h.read _ (by omega) (by omega)
        rw [hbyte, quantizedQ4K]
        rcases Nat.lt_succ_iff_lt_or_eq.1 hnibble with hzero | rfl
        · rw [Nat.lt_one_iff.1 hzero]
          rfl
        · rfl
    · rw [flatMap_single fun j => (block * 8 + j, halfAt d 0 * scaleAt d j),
        flatMap_single fun j => (block * 8 + j, -halfAt d 2 * minimumAt d j)]
      have hwords : ((List.range 4).flatMap fun k => (List.range 2).flatMap fun nibble => (List.range 4).flatMap fun word =>
          [(block * 32 + (k * 2 + nibble) * 4 + word, quantWord d ((k * 2 + nibble) * 4 + word))]) =
          quantPositions.map fun p => (block * (256 / packing 4) + p, quantWord d p) := by
        simp only [quantPositions, List.map_flatMap, List.map_cons, List.map_nil, Nat.add_assoc]
        rfl
      rw [hwords]
      rfl
  exact := by
    intro d i hi
    have hupper : decide (i / 8 / 4 % 2 = 1) = decide (i % 64 ≥ 32) := decide_eq_decide.2 (by omega)
    have hcode : code 4 (quantWord d (i / packing 4)) (i % packing 4) = quantizedQ4K d (i / 64) (i % 32) (i % 64 ≥ 32) := by
      rw [show packing 4 = 8 from rfl, quantWord, code_packFields (fun _ _ => quantizedQ4K_lt _ _ _ _) rfl (by omega), hupper,
        show i / 8 / 8 = i / 64 by omega, show i / 8 % 4 * 8 + i % 8 = i % 32 by omega]
    have hgroup : i / 64 * 2 + (if decide (i % 64 ≥ 32) = true then 1 else 0) = i / 32 := by
      by_cases h : i % 64 ≥ 32
      · rw [decide_eq_true h, if_pos rfl]
        omega
      · rw [decide_eq_false h, if_neg Bool.false_ne_true]
        omega
    rw [hcode, value45K, hgroup]
    ring

/-! ## All blocks -/

/-- A part of a block in a list of blocks that are cut into parts of `size` elements. -/
theorem part_index {elements size : Nat} (hdvd : size ∣ elements) (hsize : 0 < size) (block i : Nat) :
    (block * elements + i) / size = block * (elements / size) + i / size ∧ (block * elements + i) % size = i % size := by
  obtain ⟨parts, rfl⟩ := hdvd
  have hsplit : block * (size * parts) + i = size * (block * parts) + i := by ring
  rw [hsplit, Nat.mul_add_div hsize, Nat.mul_add_mod, Nat.mul_div_cancel_left _ hsize]
  exact ⟨rfl, rfl⟩

section
variable {type bytes elements bits n : Nat} {positions : List Nat} {word : (Nat → UInt8) → Nat → UInt32}
  {scale bias value : (Nat → UInt8) → Nat → ℚ} {raw : List UInt8}
  (h : Repacks type bytes elements bits positions word scale bias value)
include h

theorem Repacks.threads_eq (hraw : raw.length = n * bytes) :
    each (List.range n) (fun block => (packThread type (ofList raw) block).map fun thread => [thread]) =
      some ((List.range n).map fun block =>
        ⟨positions.map fun p => (block * (elements / packing bits) + p, word (bytesOfBlock raw bytes block) p),
          (List.range (elements / 32)).map fun g => (block * (elements / 32) + g, scale (bytesOfBlock raw bytes block) g),
          (List.range (elements / 32)).map fun g => (block * (elements / 32) + g, bias (bytesOfBlock raw bytes block) g)⟩) := by
  rw [← flatMap_single]
  refine each_range fun block hblock => ?_
  rw [h.thread (covers_block hraw hblock)]
  rfl

theorem Repacks.unpack_eq {threads : List ThreadWrites} (hraw : raw.length = n * bytes)
    (hthreads : each (List.range n) (fun block => (packThread type (ofList raw) block).map fun thread => [thread]) = some threads)
    (hbits : 0 < packing bits) {block i : Nat} (hblock : block < n) (hi : i < elements) :
    unpack bits (runThreads threads (n * (elements / packing bits)) (n * (elements / 32))) (block * elements + i) =
      some (value (bytesOfBlock raw bytes block) i) := by
  rw [h.threads_eq hraw, Option.some.injEq] at hthreads
  subst hthreads
  obtain ⟨hword, hplace⟩ := part_index h.whole_words hbits block i
  obtain ⟨hgroup, -⟩ := part_index h.whole_groups (by decide) block i
  have hwordLt := Nat.div_lt_div_of_lt_of_dvd h.whole_words hi
  have hgroupLt := Nat.div_lt_div_of_lt_of_dvd h.whole_groups hi
  simp only [unpack, runThreads, List.flatMap_map, hword, hplace, hgroup]
  rw [apply_blocks h.positions_perm (fun block p => word (bytesOfBlock raw bytes block) p) 0 hblock hwordLt,
    apply_blocks (List.Perm.refl _) (fun block g => scale (bytesOfBlock raw bytes block) g) 0 hblock hgroupLt,
    apply_blocks (List.Perm.refl _) (fun block g => bias (bytesOfBlock raw bytes block) g) 0 hblock hgroupLt]
  exact congrArg some (h.exact _ i hi)

end

theorem exists_repacks {type bytes elements bits : Nat} (h : preservedFormat type = some (bytes, elements, bits)) :
    blockFormat type = some (bytes, elements) ∧ 0 < packing bits ∧ ∃ positions word scale bias value filled,
      Repacks type bytes elements bits positions word scale bias value ∧ Agreement type bytes elements filled value := by
  unfold preservedFormat at h
  split at h
  · cases h
    exact ⟨rfl, by decide, _, _, _, _, _, _, repacks_q40, agreement_q40⟩
  · cases h
    exact ⟨rfl, by decide, _, _, _, _, _, _, repacks_q41, agreement_q41⟩
  · cases h
    exact ⟨rfl, by decide, _, _, _, _, _, _, repacks_q80, agreement_q80⟩
  · cases h
    exact ⟨rfl, by decide, _, _, _, _, _, _, repacks_q4k, agreement_q4k⟩
  · cases h

/-- The sizes that `packPreserved` derives from the type are those of the loader. -/
theorem packPreserved_eq {type bytes elements bits : Nat} (h : preservedFormat type = some (bytes, elements, bits))
    (raw : List UInt8) (sourceShape targetWeightShape targetScaleShape : List Nat) :
    packPreserved raw type sourceShape targetWeightShape targetScaleShape =
      if ¬ (sourceShape.foldl (· * ·) 1 > 0 ∧ sourceShape.foldl (· * ·) 1 % elements = 0) then
        .threw (.invalidTensor "GGUF type (sourceType)")
      else if raw.length ≠ sourceShape.foldl (· * ·) 1 / elements * bytes then .threw (.invalidTensor "GGUF type (sourceType)")
      else if ¬ fitsShape raw then .trap
      else
        match each (List.range (sourceShape.foldl (· * ·) 1 / elements)) fun block =>
            (packThread type (ofList raw) block).map fun thread => [thread] with
        | none => .trap
        | some threads =>
          .ok (runThreads threads (targetWeightShape.foldl (· * ·) 1) (targetScaleShape.foldl (· * ·) 1)) := by
  unfold preservedFormat at h
  split at h
  all_goals cases h
  all_goals rfl

/-- The guards of `packPreserved` pass a list of blocks, and its result is that of the threads. -/
theorem packPreserved_blocks {type bytes elements bits n : Nat} {raw : List UInt8} {sourceShape : List Nat}
    (h : preservedFormat type = some (bytes, elements, bits)) (helements : 0 < elements) (hraw : raw.length = n * bytes)
    (hsource : sourceShape.foldl (· * ·) 1 = n * elements) (targetWeightShape targetScaleShape : List Nat)
    (hn : 0 < n) :
    packPreserved raw type sourceShape targetWeightShape targetScaleShape =
      if ¬ fitsShape raw then .trap
      else
        match each (List.range n) fun block => (packThread type (ofList raw) block).map fun thread => [thread] with
        | none => .trap
        | some threads =>
          .ok (runThreads threads (targetWeightShape.foldl (· * ·) 1) (targetScaleShape.foldl (· * ·) 1)) := by
  rw [packPreserved_eq h, hsource, Nat.mul_div_cancel _ helements,
    if_neg (not_not.2 ⟨Nat.mul_pos hn helements, Nat.mul_mod_left _ _⟩), if_neg (not_not.2 hraw)]

/-! ### MXFP4 -/

def nibbleWord (d : Nat → UInt8) (word : Nat) : UInt32 :=
  UInt32.ofNat (packFields 4 (fun index => nibbleAt d 1 (word * 8 + index)) 8)

theorem shifted_nibble (d : Nat → UInt8) {i : Nat} (h : i < 32) :
    ((d (1 + if i < 16 then i else i - 16)).toNat >>> (if i < 16 then 0 else 4)) &&& 15 = nibbleAt d 1 i := by
  unfold nibbleAt
  by_cases hi : i < 16
  · rw [if_pos hi, if_pos hi, if_pos hi, Nat.mod_eq_of_lt hi]
    rfl
  · rw [if_neg hi, if_neg hi, if_neg hi, show i % 16 = i - 16 by omega]
    exact (Nat.and_two_pow_sub_one_eq_mod _ 4).trans (Nat.mod_eq_of_lt (upper_lt _))

theorem packMXFP4Thread_eq {m : Memory} {block : Nat} {d : Nat → UInt8} (h : Covers m (block * 17) 17 d) :
    packMXFP4Thread m block = some ((List.range 4).map fun word => (block * 4 + word, nibbleWord d word),
      (List.range 1).map fun part => (block * 1 + part, d part)) := by
  have hscale : m (block * 17) = some (d 0) := h.read 0 (by decide) rfl
  rw [packMXFP4Thread, hscale, Option.bind_eq_bind, Option.bind_some]
  refine each_bind (fun word => [(block * 4 + word, nibbleWord d word)]) (fun word hword => ?_) ?_
  · rw [packLoop_eq (fun index => nibbleAt d 1 (word * 8 + index)) fun index hindex => ?_]
    · rfl
    · have hbyte := h.read (1 + if word * 8 + index < 16 then word * 8 + index else word * 8 + index - 16)
        (by split <;> omega) (Nat.add_assoc _ 1 _)
      rw [← shifted_nibble d (by omega : word * 8 + index < 32)]
      simp only [hbyte]
      rfl
  · rw [flatMap_single fun word => (block * 4 + word, nibbleWord d word), Nat.mul_one]
    rfl

theorem code_nibbleWord (d : Nat → UInt8) (i : Nat) : code 4 (nibbleWord d (i / 8)) (i % 8) = nibbleAt d 1 i := by
  rw [nibbleWord, code_packFields (fun _ _ => nibbleAt_lt _ _ _) rfl (by omega), show i / 8 * 8 + i % 8 = i by omega]

theorem packMXFP4_blocks {n : Nat} {raw : List UInt8} {sourceShape : List Nat} (hraw : raw.length = n * 17)
    (hsource : sourceShape.foldl (· * ·) 1 = n * 32) (targetWeightShape targetScaleShape : List Nat) (hn : 0 < n) :
    packMXFP4 raw sourceShape targetWeightShape targetScaleShape =
      if ¬ fitsShape raw then .trap
      else .ok (apply (List.replicate (targetWeightShape.foldl (· * ·) 1) 0) ((List.range n).flatMap fun block =>
          (List.range 4).map fun word => (block * 4 + word, nibbleWord (bytesOfBlock raw 17 block) word)),
        apply (List.replicate (targetScaleShape.foldl (· * ·) 1) 0) ((List.range n).flatMap fun block =>
          (List.range 1).map fun part => (block * 1 + part, bytesOfBlock raw 17 block part))) := by
  have hthreads : each (List.range n) (fun block => (packMXFP4Thread (ofList raw) block).map fun thread => [thread]) =
      some ((List.range n).map fun block =>
        ((List.range 4).map fun word => (block * 4 + word, nibbleWord (bytesOfBlock raw 17 block) word),
          (List.range 1).map fun part => (block * 1 + part, bytesOfBlock raw 17 block part))) := by
    rw [← flatMap_single]
    refine each_range fun block hblock => ?_
    rw [packMXFP4Thread_eq (covers_block hraw hblock)]
    rfl
  simp only [packMXFP4, hsource, Nat.mul_div_cancel _ (show 0 < 32 by decide), hthreads, List.flatMap_map]
  rw [if_neg (not_not.2 ⟨Nat.mul_pos hn (by decide), Nat.mul_mod_left _ _⟩), if_neg (not_not.2 hraw)]

/-- Every code of a list of MXFP4 blocks is the field of its element, every scale is kept. -/
theorem packMXFP4_codes {n : Nat} {raw : List UInt8} {sourceShape targetWeightShape targetScaleShape : List Nat}
    {wq : List UInt32} {scales : List UInt8} (hraw : raw.length = n * 17) (hsource : sourceShape.foldl (· * ·) 1 = n * 32)
    (hweight : targetWeightShape.foldl (· * ·) 1 = n * 4) (hscale : targetScaleShape.foldl (· * ·) 1 = n)
    (hpack : packMXFP4 raw sourceShape targetWeightShape targetScaleShape = .ok (wq, scales)) {block : Nat} (hblock : block < n) :
    scales[block]? = some (bytesOfBlock raw 17 block 0) ∧ ∀ i < 32, ∃ word, wq[(block * 32 + i) / 8]? = some word ∧
      code 4 word ((block * 32 + i) % 8) = nibbleAt (bytesOfBlock raw 17 block) 1 i := by
  rw [packMXFP4_blocks hraw hsource _ _ (by omega), hweight, hscale] at hpack
  split at hpack
  · cases hpack
  · cases hpack
    constructor
    · have hplace := apply_blocks (List.Perm.refl (List.range 1)) (fun block part => bytesOfBlock raw 17 block part) 0 hblock
        (Nat.zero_lt_one)
      rwa [Nat.mul_one, Nat.mul_one] at hplace
    · intro i hi
      obtain ⟨hword, hplace⟩ := part_index (by decide : 8 ∣ 32) (by decide) block i
      refine ⟨nibbleWord (bytesOfBlock raw 17 block) (i / 8), ?_, ?_⟩
      · rw [hword]
        exact apply_blocks (List.Perm.refl _) (fun block word => nibbleWord (bytesOfBlock raw 17 block) word) 0 hblock
          (by omega : i / 8 < 4)
      · rw [hplace, code_nibbleWord]

/-! ## Without loss -/

/-- Where a list of blocks is packed for the shapes of its tensor, unpacking gives the values of the loader's decoder in
their order; MXFP4 blocks keep their codes (lower nibbles first) and scales. -/
theorem packed_without_loss (raw : List UInt8) (n : Nat) (sourceShape targetWeightShape targetScaleShape : List Nat) :
    (∀ type bytes elements bits, preservedFormat type = some (bytes, elements, bits) → raw.length = n * bytes →
      sourceShape.foldl (· * ·) 1 = n * elements → targetWeightShape.foldl (· * ·) 1 = n * (elements / packing bits) →
      targetScaleShape.foldl (· * ·) 1 = n * (elements / 32) →
      (0 < n → fitsShape raw → ∃ arrays,
        packPreserved raw type sourceShape targetWeightShape targetScaleShape = .ok arrays) ∧
      ∀ arrays, packPreserved raw type sourceShape targetWeightShape targetScaleShape = .ok arrays →
        ∃ values, dequantizedValues type bytes elements (ofList raw) n = some values ∧ ∀ element < n * elements,
          ∃ value, values[element]? = some value ∧ unpack bits arrays element = some value) ∧
    (raw.length = n * 17 → sourceShape.foldl (· * ·) 1 = n * 32 → targetWeightShape.foldl (· * ·) 1 = n * 4 →
      targetScaleShape.foldl (· * ·) 1 = n →
      (0 < n → fitsShape raw → ∃ arrays, packMXFP4 raw sourceShape targetWeightShape targetScaleShape = .ok arrays) ∧
      ∀ wq scales, packMXFP4 raw sourceShape targetWeightShape targetScaleShape = .ok (wq, scales) → ∀ block < n,
        scales[block]? = raw[block * 17]? ∧ (raw[block * 17]?).isSome ∧ ∀ i < 32, ∃ word byte,
          wq[(block * 32 + i) / 8]? = some word ∧ raw[block * 17 + 1 + i % 16]? = some byte ∧
          code 4 word ((block * 32 + i) % 8) = if i < 16 then byte.toNat % 16 else byte.toNat / 16) := by
  constructor
  · -- The formats that are packed block by block, each with its own repacking.
    intro type bytes elements bits hformat hraw hsource hweight hscale
    obtain ⟨-, hbits, positions, word, scale, bias, value, filled, hpacks, hvalues⟩ := exists_repacks hformat
    have helements : 0 < elements := by
      unfold preservedFormat at hformat
      split at hformat <;> cases hformat <;> decide
    constructor
    · intro hn hfits
      rw [packPreserved_blocks hformat helements hraw hsource _ _ hn, if_neg (not_not.2 hfits), hpacks.threads_eq hraw]
      exact ⟨_, rfl⟩
    · intro arrays harrays
      obtain ⟨values, hfill, hplace⟩ := hvalues.values_eq hraw
      refine ⟨values, hfill, fun element helement => ?_⟩
      have hblock : element / elements < n := (Nat.div_lt_iff_lt_mul helements).2 helement
      have hi := Nat.mod_lt element helements
      have hsplit : element / elements * elements + element % elements = element := Nat.div_add_mod' _ _
      rw [packPreserved_blocks hformat helements hraw hsource _ _ (Nat.zero_lt_of_lt hblock), hpacks.threads_eq hraw] at harrays
      split at harrays
      · cases harrays
      · cases harrays
        rw [hweight, hscale, ← hsplit]
        exact ⟨_, hplace _ hblock _ hi, hpacks.unpack_eq hraw (hpacks.threads_eq hraw) hbits hblock hi⟩
  · -- A block of MXFP4 keeps its scale byte; its sixteen bytes of codes are put in order.
    intro hraw hsource hweight hscale
    constructor
    · intro hn hfits
      rw [packMXFP4_blocks hraw hsource _ _ hn, if_neg (not_not.2 hfits)]
      exact ⟨_, rfl⟩
    · intro wq scales hpack block hblock
      obtain ⟨hkept, hcodes⟩ := packMXFP4_codes hraw hsource hweight hscale hpack hblock
      have hcovers := covers_block hraw hblock
      have hfirst : raw[block * 17]? = some (bytesOfBlock raw 17 block 0) := hcovers 0 (by decide)
      refine ⟨by rw [hkept, hfirst], by rw [hfirst]; rfl, fun i hi => ?_⟩
      obtain ⟨word, hword, hcode⟩ := hcodes i hi
      have hbyte : raw[block * 17 + 1 + i % 16]? = some (bytesOfBlock raw 17 block (1 + i % 16)) :=
        hcovers.read _ (by omega) (Nat.add_assoc _ _ _)
      refine ⟨word, _, hword, hbyte, ?_⟩
      rw [hcode, nibbleAt, Nat.shiftRight_eq_div_pow]
      congr 1
      exact Nat.and_two_pow_sub_one_eq_mod _ 4

/-- Two Q4_K blocks of one row, and two MXFP4 blocks. -/
theorem twoBlocks_packed :
    (∃ arrays values, packPreserved (List.replicate 288 7) 12 [1, 512] [1, 64] [1, 16] = .ok arrays ∧
      dequantizedValues 12 144 256 (ofList (List.replicate 288 7)) 2 = some values ∧ ∀ element < 512,
        ∃ value, values[element]? = some value ∧ unpack 4 arrays element = some value) ∧
    ∃ arrays, packMXFP4 (List.replicate 34 7) [1, 64] [1, 8] [1, 2] = .ok arrays ∧ ∀ block < 2,
      arrays.2[block]? = (List.replicate 34 7)[block * 17]? := by
  constructor
  · obtain ⟨hexists, hunpack⟩ := (packed_without_loss (List.replicate 288 7) 2 [1, 512] [1, 64] [1, 16]).1 12 144 256 4 rfl
      List.length_replicate rfl rfl rfl
    obtain ⟨arrays, harrays⟩ := hexists (by decide) (by rw [fitsShape, List.length_replicate]; decide)
    obtain ⟨values, hvalues, hplace⟩ := hunpack arrays harrays
    exact ⟨arrays, values, harrays, hvalues, hplace⟩
  · obtain ⟨hexists, hunpack⟩ := (packed_without_loss (List.replicate 34 7) 2 [1, 64] [1, 8] [1, 2]).2
      List.length_replicate rfl rfl rfl
    obtain ⟨arrays, harrays⟩ := hexists (by decide) (by rw [fitsShape, List.length_replicate]; decide)
    exact ⟨arrays, harrays, fun block hblock => (hunpack arrays.1 arrays.2 harrays block hblock).1⟩

end Tanpopo.GGUF
