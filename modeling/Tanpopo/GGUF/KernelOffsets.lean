import Mathlib.Algebra.BigOperators.Group.List.Lemmas
import Tanpopo.GGUF.Packing
import Tanpopo.Lib.Wrapping
/-!
# The offsets of the kernels

The host checks sizes in 64 bits; a thread of a kernel computes its offsets in
32. `kernel_offsets_agree_iff` says for which tensors none of them wraps.
-/

namespace Tanpopo.GGUF.Packing

open Swift Outcome Wrapping Index

/-! ## What a thread computes -/

/-- `load_u16`, also for `load_f16`. -/
def loadU16 (offset : Index) : List Index := [offset, offset + 1]

def loadU32 (offset : Index) : List Index := [offset, offset + 1, offset + 2, offset + 3]

def inLoop (count : Nat) (offsets : Nat → List Index) : List Index := (List.range count).flatMap offsets

/-- `mxfp4Kernel`. -/
def mxfp4Offsets : List Index :=
  let block := thread
  let rawOffset := block * 17
  [rawOffset, block] ++ inLoop 4 fun word =>
    (inLoop 8 fun index =>
      let sourceIndex := word * 8 + index
      let packedIndex := if sourceIndex < 16 then sourceIndex else sourceIndex - 16
      [rawOffset + 1 + packedIndex]) ++ [block * 4 + word]

/-- The pairs of codes that are read from `start` on. -/
def pairOffsets (start : Index) : List Index :=
  inLoop 4 fun word => (inLoop 4 fun byteIndex =>
    let pair := (word * 4 + byteIndex) % 8
    [start + const (pair * 2), start + const (pair * 2) + 1]) ++ [thread * 4 + word]

/-- `preservedQuantizedKernel`. -/
def preservedOffsets (sourceType : Nat) : List Index :=
  let block := thread
  if sourceType = 12 then
    let rawOffset := block * 144
    let scaleBase := rawOffset + 4
    let quantBase := rawOffset + 16
    [rawOffset, scaleBase, quantBase] ++ loadU16 rawOffset ++ loadU16 (rawOffset + 2) ++
      (inLoop 8 fun j =>
        (if j < 4 then [scaleBase + j, scaleBase + j + 4] else [scaleBase + j + 4, scaleBase + j - 4, scaleBase + j]) ++
          [block * 8 + j]) ++
      inLoop 4 fun k => inLoop 2 fun nibble => inLoop 4 fun word =>
        (inLoop 8 fun idx => [quantBase + const (k * 32) + const (word * 8) + idx]) ++
          [block * 32 + const ((k * 2 + nibble) * 4) + word]
  else
    let sourceBytes := if sourceType = 8 then 34 else if sourceType = 3 then 20 else 18
    let rawOffset := block * const sourceBytes
    [rawOffset, block] ++ loadU16 rawOffset ++
      if sourceType = 3 then loadU16 (rawOffset + 2) ++ pairOffsets (rawOffset + 4)
      else if sourceType = 2 then pairOffsets (rawOffset + 2)
      else inLoop 8 fun word => (inLoop 4 fun byteIndex => [rawOffset + 2 + const (word * 4) + byteIndex]) ++ [block * 8 + word]

/-- `qk_scale` and `qk_minimum`. -/
def qkOffsets (offset index : Index) : List Index :=
  [ite index 4 (offset + index) (offset + index + 4), ite index 4 (offset + index + 4) (offset + index - 4),
    ite index 4 (offset + index + 4) (offset + index)]

/-- The elements and the bytes of a block, with the index of a block and of an element in it. -/
def blockOffset (element : Index) (elements bytes : Nat) : Index := element / const elements * const bytes

/-- `source_value`. -/
def sourceOffsets (sourceType : Nat) (element : Index) : List Index :=
  match requantizedFormat sourceType with
  | none => []
  | some (elements, bytes) =>
    let sourceIndex := element % const elements
    let block := blockOffset element elements bytes
    let blockHalf := sourceIndex / 128
    let halfIndex := sourceIndex % 128
    [element, block] ++
      match sourceType with
      | 8 => loadU16 block ++ [block + 2 + sourceIndex]
      | 2 => loadU16 block ++ [block + 2 + sourceIndex % 16]
      | 3 => loadU16 block ++ [block + 4 + sourceIndex % 16] ++ loadU16 (block + 2)
      | 41 => loadU16 block ++ [block + 2 + sourceIndex / 8]
      | 42 => loadU16 block ++ [block + 2 + sourceIndex / 4]
      | 20 => [block + 2 + sourceIndex % 16] ++ loadU16 block
      | 21 =>
        let blockOf32 := sourceIndex / 32
        let groupHalf := sourceIndex % 32 / 16
        let gridSlot := sourceIndex % 32 % 16 / 4
        [block + 66 + blockOf32, block + 2 + blockOf32 * 8 + groupHalf * 4 + gridSlot,
          block + 74 + blockOf32 * 4 + groupHalf * 2 + gridSlot / 2, block + 106 + blockOf32 / 2] ++ loadU16 block
      | 23 =>
        let subblock := sourceIndex / 32
        let position := sourceIndex % 32
        [block + 4 + subblock / 2] ++ loadU16 (block + 2) ++ [block + 8 + subblock * 16 + position % 16] ++ loadU16 block
      | 10 =>
        let chunk := halfIndex / 32
        let position := halfIndex % 32
        let scaleIndex := blockHalf * 8 + chunk * 2 + position / 16
        [block + 4 + scaleIndex, block + 20 + blockHalf * 32 + position] ++ loadU16 block ++ loadU16 (block + 2)
      | 11 =>
        let position := halfIndex % 32
        [block + 32 + blockHalf * 32 + position, block + position] ++ loadU32 (block + 96) ++ loadU32 (block + 96 + 4) ++
          loadU32 (block + 96 + 8) ++ loadU16 (block + 108)
      | 12 =>
        let segment := sourceIndex / 64
        let position := sourceIndex % 32
        let scaleIndex := segment * 2 + ite (sourceIndex % 64) 32 0 1
        [block + 16 + segment * 32 + position] ++ qkOffsets (block + 4) scaleIndex ++ loadU16 block ++ loadU16 (block + 2)
      | 13 =>
        let segment := sourceIndex / 64
        let position := sourceIndex % 32
        let scaleIndex := segment * 2 + ite (sourceIndex % 64) 32 0 1
        [block + 16 + position, block + 48 + segment * 32 + position] ++ qkOffsets (block + 4) scaleIndex ++ loadU16 block ++
          loadU16 (block + 2)
      | _ =>
        let plane := halfIndex / 32
        let position := halfIndex % 32
        let lowOffset := block + blockHalf * 64
        [lowOffset, block + 128 + blockHalf * 32 + position, lowOffset + position,
          lowOffset + position + ite (plane % 2) 1 0 32, block + 192 + blockHalf * 8 + plane * 2 + position / 16] ++
          loadU16 (block + 208)

/-- `kernel`. -/
def quantizeOffsets (sourceType bits groupSize : Nat) : List Index :=
  let groupIndex := thread
  let groupStart := groupIndex * const groupSize
  let wordsPerGroup := groupSize * bits / 32
  [groupStart, groupIndex] ++ sourceOffsets sourceType groupStart ++
    (inLoop groupSize fun index => sourceOffsets sourceType (groupStart + index)) ++
    inLoop wordsPerGroup fun word => [groupIndex * const wordsPerGroup + word]

/-- The threads of a kernel, and the offsets of each. -/
def KernelCall.threads : KernelCall → Nat
  | .preserved _ blockCount => blockCount
  | .quantize _ _ groupSize elementCount => elementCount / groupSize
  | .mxfp4 blockCount => blockCount

def KernelCall.offsets : KernelCall → List Index
  | .preserved sourceType _ => preservedOffsets sourceType
  | .quantize sourceType bits groupSize _ => quantizeOffsets sourceType bits groupSize
  | .mxfp4 _ => mxfp4Offsets

/-- The data that the kernel reads, in bytes. -/
def KernelCall.rawBytes : KernelCall → Nat
  | .preserved sourceType blockCount => blockCount * (if sourceType = 12 then 144 else if sourceType = 8 then 34 else if sourceType = 3 then 20 else 18)
  | .quantize sourceType _ _ elementCount =>
    match requantizedFormat sourceType with
    | none => 0
    | some (elements, bytes) => elementCount / elements * bytes
  | .mxfp4 blockCount => blockCount * 17

/-- The bytes of so many elements of a type. -/
def storedBytes (type elementCount : Nat) : Nat :=
  if type = 39 then elementCount / 32 * 17
  else match requantizedFormat type with
    | none => 0
    | some (elements, bytes) => elementCount / elements * bytes

/-- No more than 2^32 bytes are read, and no more than 2^32 elements are counted. -/
def KernelCall.Fits : KernelCall → Prop
  | .quantize sourceType bits groupSize elementCount =>
    elementCount ≤ 2 ^ 32 ∧ (KernelCall.quantize sourceType bits groupSize elementCount).rawBytes ≤ 2 ^ 32
  | call => call.rawBytes ≤ 2 ^ 32

/-- Every thread computes what its offsets stand for. -/
def KernelCall.OffsetsAgree (call : KernelCall) : Prop := ∀ number < call.threads, ∀ e ∈ call.offsets, e.Agrees number

/-! ## No step leaves its range -/

theorem forall_inLoop {count : Nat} {offsets : Nat → List Index} {P : Index → Prop} :
    (∀ e ∈ inLoop count offsets, P e) ↔ ∀ i < count, ∀ e ∈ offsets i, P e := by
  simp only [inLoop, List.mem_flatMap, List.mem_range]
  exact ⟨fun h i hi e he => h e ⟨i, hi, he⟩, fun h e ⟨i, hi, he⟩ => h i hi e he⟩

section
variable {number : Nat}

theorem qk_exact {offset index : Index} (hoffset : offset.Exact number) (hindex : index.Exact number) (hlt : index.value number < 8)
    (hfits : offset.value number + 12 ≤ 2 ^ 32) : ∀ e ∈ qkOffsets offset index, e.Exact number := by
  simp only [qkOffsets, List.forall_mem_cons, List.not_mem_nil, false_implies, implies_true, and_true, hoffset, hindex, true_and, exact_add,
    exact_sub, exact_ite, exact_ofNat, value_add, value_ofNat]
  refine ⟨⟨by omega, ?_⟩, ⟨by omega, ?_⟩, by omega, ?_⟩
  all_goals split <;> omega

theorem mxfp4_exact {blockCount : Nat} (h : number < blockCount) (hfits : blockCount * 17 ≤ 2 ^ 32) :
    ∀ e ∈ mxfp4Offsets, e.Exact number := by
  simp only [mxfp4Offsets, List.forall_mem_append, List.forall_mem_cons, forall_inLoop, List.not_mem_nil, false_implies, implies_true,
    and_true, exact_add, exact_mul, exact_thread, exact_const, exact_ofNat, value_add, value_mul, value_thread, value_const, value_ofNat]
  refine ⟨by omega, fun word hword => ⟨fun index hindex => ?_, by omega⟩⟩
  split <;> omega

theorem pairs_exact {blockCount sourceBytes first : Nat} (hbytes : first + 16 ≤ sourceBytes) (hsize : sourceBytes ≤ 32)
    (h : number < blockCount) (hfits : blockCount * sourceBytes ≤ 2 ^ 32) (hwords : blockCount * 16 ≤ 2 ^ 32) :
    ∀ e ∈ pairOffsets (thread * const sourceBytes + const first), e.Exact number := by
  have hblock : number * sourceBytes + sourceBytes ≤ 2 ^ 32 := by
    rw [← Nat.succ_mul]
    exact (Nat.mul_le_mul_right _ h).trans hfits
  simp only [pairOffsets, List.forall_mem_append, List.forall_mem_cons, forall_inLoop, List.not_mem_nil, false_implies, implies_true,
    and_true, exact_add, exact_mul, exact_thread, exact_const, exact_ofNat, value_add, value_mul, value_thread, value_const, value_ofNat]
  refine fun word hword => ⟨fun byteIndex hbyte => ?_, by omega⟩
  omega

theorem preserved_exact {sourceType blockCount : Nat} (htype : sourceType = 2 ∨ sourceType = 3 ∨ sourceType = 8 ∨ sourceType = 12)
    (h : number < blockCount) (hfits : (KernelCall.preserved sourceType blockCount).rawBytes ≤ 2 ^ 32) :
    ∀ e ∈ preservedOffsets sourceType, e.Exact number := by
  rcases htype with rfl | rfl | rfl | rfl
  · -- q4_0: a scale and sixteen bytes of codes.
    have hbytes : blockCount * 18 ≤ 2 ^ 32 := hfits
    have hpairs := pairs_exact (show 2 + 16 ≤ 18 by omega) (by omega) h hbytes (by omega)
    simp only [preservedOffsets, loadU16, Nat.reduceEqDiff, if_false, if_true, List.forall_mem_append, List.forall_mem_cons,
      List.not_mem_nil, false_implies, implies_true, and_true, exact_add, exact_mul, exact_thread, exact_const, exact_ofNat,
      value_mul, value_thread, value_const, value_ofNat]
    exact ⟨by omega, hpairs⟩
  · -- q4_1: a scale, a minimum and the codes.
    have hbytes : blockCount * 20 ≤ 2 ^ 32 := hfits
    have hpairs := pairs_exact (show 4 + 16 ≤ 20 by omega) (by omega) h hbytes (by omega)
    simp only [preservedOffsets, loadU16, Nat.reduceEqDiff, if_false, if_true, List.forall_mem_append, List.forall_mem_cons,
      List.not_mem_nil, false_implies, implies_true, and_true, exact_add, exact_mul, exact_thread, exact_const, exact_ofNat,
      value_add, value_mul, value_thread, value_const, value_ofNat]
    exact ⟨by omega, by omega, hpairs⟩
  · -- q8_0: a scale and a byte for each element.
    have hbytes : blockCount * 34 ≤ 2 ^ 32 := hfits
    simp only [preservedOffsets, loadU16, Nat.reduceEqDiff, if_false, if_true, List.forall_mem_append, List.forall_mem_cons, forall_inLoop,
      List.not_mem_nil, false_implies, implies_true, and_true, exact_add, exact_mul, exact_thread, exact_const, exact_ofNat,
      value_add, value_mul, value_thread, value_const, value_ofNat]
    exact ⟨by omega, fun word hword => ⟨fun byteIndex hbyte => by omega, by omega⟩⟩
  · -- q4_K: the scales of a group lie in two or three places.
    have hbytes : blockCount * 144 ≤ 2 ^ 32 := hfits
    simp only [preservedOffsets, loadU16, if_true, List.forall_mem_append, List.forall_mem_cons, forall_inLoop,
      List.not_mem_nil, false_implies, implies_true, and_true, exact_add, exact_mul, exact_thread, exact_const, exact_ofNat,
      value_add, value_mul, value_thread, value_const, value_ofNat]
    refine ⟨⟨by omega, fun j hj => ⟨?_, by omega⟩⟩, fun k hk nibble hnibble word hword => ⟨fun idx hidx => by omega, by omega⟩⟩
    split <;> simp only [List.forall_mem_cons, List.not_mem_nil, false_implies, implies_true, and_true, exact_add, exact_sub, exact_mul,
      exact_thread, exact_const, exact_ofNat, value_add, value_mul, value_thread, value_const, value_ofNat] <;> omega

/-- The offsets of an element lie in its block. -/
theorem source_exact {sourceType elements bytes : Nat} (hformat : requantizedFormat sourceType = some (elements, bytes)) {element : Index}
    (hexact : element.Exact number) (hblock : element.value number / elements * bytes + bytes ≤ 2 ^ 32) :
    ∀ e ∈ sourceOffsets sourceType element, e.Exact number := by
  have hlt : element.value number < 2 ^ 32 := hexact.agrees.lt
  rw [requantizedFormat.eq_def] at hformat
  split at hformat <;> cases hformat
  all_goals
    simp only [sourceOffsets, requantizedFormat, blockOffset, loadU16, loadU32, List.forall_mem_append, List.forall_mem_cons,
      List.not_mem_nil, false_implies, implies_true, and_true, hexact, true_and, exact_add, exact_mul, exact_div, exact_mod,
      exact_ite, exact_const, exact_ofNat, value_add, value_mul, value_div, value_mod, value_ite, value_const, value_ofNat]
  all_goals and_intros
  all_goals first
    | omega
    | grind
    | apply qk_exact
  all_goals
    simp only [hexact, true_and, exact_add, exact_mul, exact_div, exact_mod, exact_ite, exact_const, exact_ofNat, value_add,
      value_mul, value_div, value_mod, value_ite, value_const, value_ofNat]
    first
    | omega
    | grind

theorem quantize_exact {sourceType bits groupSize elementCount elements bytes : Nat}
    (hformat : requantizedFormat sourceType = some (elements, bytes)) (hbits : bits = 4 ∨ bits = 8) (hgroup : groupSize = 32 ∨ groupSize = 64)
    (hblocks : elements ∣ elementCount) (hgroups : groupSize ∣ elementCount) (h : number < elementCount / groupSize)
    (hcount : elementCount ≤ 2 ^ 32) (hbytes : elementCount / elements * bytes ≤ 2 ^ 32) :
    ∀ e ∈ quantizeOffsets sourceType bits groupSize, e.Exact number := by
  obtain ⟨groups, rfl⟩ := hgroups
  rw [Nat.mul_div_cancel_left _ (by omega)] at h
  have hnumber : number < 2 ^ 32 := by
    rcases hgroup with rfl | rfl <;> omega
  have hlast : (number + 1) * groupSize ≤ groupSize * groups := by
    rw [Nat.mul_comm groupSize]
    exact Nat.mul_le_mul_right _ h
  have helement : ∀ index < groupSize, number * groupSize + index < groupSize * groups := by
    intro index hindex
    rw [Nat.succ_mul] at hlast
    omega
  have hsource : ∀ {element : Index}, element.Exact number → element.value number < groupSize * groups →
      ∀ e ∈ sourceOffsets sourceType element, e.Exact number := by
    intro element hexact hlt
    refine source_exact hformat hexact ?_
    rw [← Nat.succ_mul]
    exact (Nat.mul_le_mul_right _ (Nat.div_lt_div_of_lt_of_dvd hblocks hlt)).trans hbytes
  have hstart : (thread * const groupSize).Exact number := by
    have := helement 0 (by omega)
    simp only [exact_mul, exact_thread, exact_const, value_thread, value_const]
    omega
  simp only [quantizeOffsets, List.forall_mem_append, List.forall_mem_cons, forall_inLoop, List.not_mem_nil, false_implies, implies_true,
    and_true]
  refine ⟨⟨⟨⟨hstart, hnumber⟩, hsource hstart (helement 0 (by omega))⟩, fun index hindex => ?_⟩, fun word hword => ?_⟩
  · have hlt := helement index hindex
    exact hsource ⟨hstart, by simp only [exact_const]; omega, by simp only [value_mul, value_thread, value_const]; omega⟩ hlt
  · simp only [exact_add, exact_mul, exact_thread, exact_const, value_mul, value_thread, value_const]
    have := helement 0 (by omega)
    rcases hbits with rfl | rfl <;> rcases hgroup with rfl | rfl <;> omega

end

/-! ## What the host hands over -/

/-- Whole blocks and whole groups, and some of them. -/
def KernelCall.Whole : KernelCall → Prop
  | .preserved sourceType blockCount => (sourceType = 2 ∨ sourceType = 3 ∨ sourceType = 8 ∨ sourceType = 12) ∧ 0 < blockCount
  | .quantize sourceType bits groupSize elementCount =>
    (bits = 4 ∨ bits = 8) ∧ (groupSize = 32 ∨ groupSize = 64) ∧ groupSize ∣ elementCount ∧ 0 < elementCount ∧
      ∃ elements bytes, requantizedFormat sourceType = some (elements, bytes) ∧ elements ∣ elementCount
  | .mxfp4 blockCount => 0 < blockCount

theorem Fits.offsetsAgree {call : KernelCall} (hwhole : call.Whole) (h : call.Fits) : call.OffsetsAgree := by
  intro number hnumber e he
  apply Exact.agrees
  cases call with
  | preserved sourceType blockCount => exact preserved_exact hwhole.1 hnumber h e he
  | quantize sourceType bits groupSize elementCount =>
    obtain ⟨hbits, hgroup, hgroups, -, elements, bytes, hformat, hblocks⟩ := hwhole
    have hbytes := h.2
    simp only [KernelCall.rawBytes, hformat] at hbytes
    exact quantize_exact hformat hbits hgroup hblocks hgroups hnumber h.1 hbytes e he
  | mxfp4 blockCount => exact mxfp4_exact hnumber h e he

theorem mem_inLoop {count : Nat} {offsets : Nat → List Index} {e : Index} (i : Nat) (hi : i < count) (he : e ∈ offsets i) :
    e ∈ inLoop count offsets := List.mem_flatMap.2 ⟨i, List.mem_range.2 hi, he⟩

/-- The byte `bytes - 1` of a block is among what its thread reads. -/
theorem last_byte_mem {sourceType : Nat} (htype : sourceType = 2 ∨ sourceType = 3 ∨ sourceType = 8 ∨ sourceType = 12) :
    ∃ e ∈ preservedOffsets sourceType, ∀ number, e.value number + 1 =
      (number + 1) * (if sourceType = 12 then 144 else if sourceType = 8 then 34 else if sourceType = 3 then 20 else 18) := by
  rcases htype with rfl | rfl | rfl | rfl
  · refine ⟨thread * const 18 + 2 + const 14 + 1, ?_, fun number => ?_⟩
    · exact List.mem_append_right _ (mem_inLoop 1 (by decide) (List.mem_append_left _ (mem_inLoop 3 (by decide) (by simp))))
    · simp only [value_add, value_mul, value_thread, value_const, value_ofNat, Nat.reduceEqDiff, if_false]
      omega
  · refine ⟨thread * const 20 + 4 + const 14 + 1, ?_, fun number => ?_⟩
    · exact List.mem_append_right _ (List.mem_append_right _
        (mem_inLoop 1 (by decide) (List.mem_append_left _ (mem_inLoop 3 (by decide) (by simp)))))
    · simp only [value_add, value_mul, value_thread, value_const, value_ofNat, Nat.reduceEqDiff, if_false, if_true]
      omega
  · refine ⟨thread * const 34 + 2 + const 28 + const 3, ?_, fun number => ?_⟩
    · exact List.mem_append_right _ (mem_inLoop 7 (by decide) (List.mem_append_left _ (mem_inLoop 3 (by decide) (by simp))))
    · simp only [value_add, value_mul, value_thread, value_const, value_ofNat, Nat.reduceEqDiff, if_false, if_true]
      omega
  · refine ⟨thread * 144 + 16 + const 96 + const 24 + const 7, ?_, fun number => ?_⟩
    · exact List.mem_append_right _ (mem_inLoop 3 (by decide) (mem_inLoop 0 (by decide) (mem_inLoop 3 (by decide)
        (List.mem_append_left _ (mem_inLoop 7 (by decide) (by simp))))))
    · simp only [value_add, value_mul, value_thread, value_const, value_ofNat, if_true]
      omega

/-- The last offset of the last thread is that of the last byte, or of the last element. -/
theorem OffsetsAgree.fits {call : KernelCall} (hwhole : call.Whole) (h : call.OffsetsAgree) : call.Fits := by
  cases call with
  | preserved sourceType blockCount =>
    obtain ⟨htype, hpos⟩ := hwhole
    -- The last thread reads the last byte of its block.
    obtain ⟨e, hmem, hvalue⟩ := last_byte_mem htype
    have hlt := (h (blockCount - 1) (Nat.sub_lt hpos Nat.one_pos) e hmem).lt
    have hlast := hvalue (blockCount - 1)
    rw [Nat.sub_add_cancel hpos] at hlast
    show blockCount * _ ≤ 2 ^ 32
    rw [← hlast]
    exact hlt
  | quantize sourceType bits groupSize elementCount =>
    -- The last thread reads the last element of its group, and the block that it is in.
    obtain ⟨hbits, hgroup, ⟨groups, rfl⟩, hpos, elements, bytes, hformat, hblocks⟩ := hwhole
    have hgroups : 0 < groups := Nat.pos_of_mul_pos_left hpos
    have hthread : groups - 1 < (KernelCall.quantize sourceType bits groupSize (groupSize * groups)).threads := by
      rw [KernelCall.threads, Nat.mul_div_cancel_left _ (by omega)]
      omega
    have hmem : ∀ e ∈ sourceOffsets sourceType (thread * const groupSize + const (groupSize - 1)),
        e ∈ quantizeOffsets sourceType bits groupSize := fun e he =>
      List.mem_append_left _ (List.mem_append_right _ (mem_inLoop (groupSize - 1) (by omega) he))
    have hvalue : (thread * const groupSize + const (groupSize - 1)).value (groups - 1) = groupSize * groups - 1 := by
      obtain ⟨g, rfl⟩ : ∃ g, groups = g + 1 := ⟨groups - 1, by omega⟩
      simp only [value_add, value_mul, value_thread, value_const]
      rw [Nat.add_sub_cancel, Nat.mul_succ, Nat.mul_comm g]
      omega
    have hcount : groupSize * groups ≤ 2 ^ 32 := by
      have hlt := (h (groups - 1) hthread (thread * const groupSize + const (groupSize - 1))
        (hmem _ (by simp [sourceOffsets, hformat]))).lt
      rw [hvalue] at hlt
      omega
    refine ⟨hcount, ?_⟩
    simp only [KernelCall.rawBytes, hformat]
    rw [requantizedFormat.eq_def] at hformat
    split at hformat <;> cases hformat
    -- Of all blocks, only those of 34 bytes are longer than their elements.
    any_goals omega
    have hlt := (h (groups - 1) hthread _ (hmem (blockOffset (thread * const groupSize + const (groupSize - 1)) 32 34 + 2 +
      (thread * const groupSize + const (groupSize - 1)) % const 32) (by simp [sourceOffsets, requantizedFormat]))).lt
    simp only [blockOffset, value_add, value_mul, value_div, value_mod, value_thread, value_const, value_ofNat] at hlt hvalue
    rw [hvalue] at hlt
    omega
  | mxfp4 blockCount =>
    have hpos : 0 < blockCount := hwhole
    have hmem : thread * 17 + 1 + const 15 ∈ mxfp4Offsets :=
      List.mem_append_right _ (mem_inLoop 3 (by decide) (List.mem_append_left _ (mem_inLoop 7 (by decide) (by simp))))
    have hlt := (h (blockCount - 1) (Nat.sub_lt hpos Nat.one_pos) _ hmem).lt
    simp only [value_add, value_mul, value_thread, value_const, value_ofNat] at hlt
    show blockCount * 17 ≤ 2 ^ 32
    omega

section
variable {size dataOffset groupSize elementCount : Nat} {tensor : TensorInfo} {shape : List Nat} {packed : Packed}

theorem checkedProduct_eq (h : checkedProduct shape = ok elementCount) : product shape = elementCount := by
  unfold checkedProduct at h
  unfold product
  generalize 1 = start at h ⊢
  induction shape generalizing start with
  | nil => exact Outcome.ok.inj h
  | cons value rest ih =>
    rw [List.foldlM_cons] at h
    obtain ⟨next, hnext, hrest⟩ := (bind_eq_ok ..).1 h
    split at hnext
    · cases hnext
      exact ih _ hrest
    · cases hnext

theorem dvd_product {last : Nat} (h : last ∈ shape) : last ∣ product shape := by
  rw [product, ← List.prod_eq_foldl]
  exact List.dvd_prod h

theorem packPreserved_call {raw sourceType : Nat} {weightShape scaleShape : List Nat}
    (h : packPreserved raw sourceType shape weightShape scaleShape = ok packed) :
    packed.call.Whole ∧ (packed.call.Fits ↔ storedBytes sourceType (product shape) ≤ 2 ^ 32) := by
  simp only [packPreserved, bind_eq_ok, guard_eq_ok] at h
  obtain ⟨-, htype, -, ⟨hpos, hdvd⟩, -, -, h⟩ := h
  cases h
  refine ⟨⟨htype, Nat.div_pos (Nat.le_of_dvd hpos (Nat.dvd_of_mod_eq_zero hdvd)) (by split <;> decide)⟩, ?_⟩
  rcases htype with rfl | rfl | rfl | rfl <;> rfl

theorem quantize_call {sourceType bits elements bytes : Nat} {weightShape scaleShape : List Nat}
    (hformat : requantizedFormat sourceType = some (elements, bytes)) (hblocks : elements ∣ product shape)
    (h : quantize sourceType bits shape groupSize weightShape scaleShape = ok packed) :
    packed.call.Whole ∧ (packed.call.Fits ↔ storedBytes sourceType (product shape) ≤ 2 ^ 32 ∧ product shape ≤ 2 ^ 32) := by
  simp only [quantize, bind_eq_ok, guard_eq_ok] at h
  obtain ⟨-, ⟨hgroup, hbits⟩, -, ⟨hpos, hdvd⟩, h⟩ := h
  cases h
  refine ⟨⟨hbits, hgroup, Nat.dvd_of_mod_eq_zero hdvd, hpos, elements, bytes, hformat, hblocks⟩, ?_⟩
  have hother : sourceType ≠ 39 := by
    rintro rfl
    cases hformat
  rw [KernelCall.Fits, KernelCall.rawBytes, storedBytes, if_neg hother, and_comm]

theorem mxfp4Arrays_call (h : mxfp4Arrays size dataOffset tensor shape (product shape) = ok packed) :
    packed.call.Whole ∧ (packed.call.Fits ↔ storedBytes tensor.type.toNat (product shape) ≤ 2 ^ 32) := by
  simp only [mxfp4Arrays, packMXFP4, bind_eq_ok, guard_eq_ok] at h
  obtain ⟨-, htype, last, -, -, -, -, -, raw, -, -, ⟨hpos, hdvd⟩, -, -, h⟩ := h
  cases h
  refine ⟨Nat.div_pos (Nat.le_of_dvd hpos (Nat.dvd_of_mod_eq_zero hdvd)) (by decide), ?_⟩
  rw [htype]
  rfl

theorem keptFormat_requantized {type bits bytes elements : Nat} (h : keptFormat type = some (bits, bytes, elements)) :
    requantizedFormat type = some (elements, bytes) := by
  rw [keptFormat.eq_def] at h
  split at h <;> cases h <;> rfl

theorem quantizedArrays_call (h : quantizedArrays size dataOffset tensor shape (product shape) groupSize = ok packed) :
    packed.call.Whole ∧ (packed.call.Fits ↔ storedBytes tensor.type.toNat (product shape) ≤ 2 ^ 32 ∧
      (tensor.type = 12 ∨ groupSize = 32 ∨ product shape ≤ 2 ^ 32)) := by
  simp only [quantizedArrays, bind_eq_ok, ofOption_eq_ok, guard_eq_ok] at h
  obtain ⟨last, hlast, -, -, ⟨bits, bytes, elements⟩, hformat, -, hdvd, -, -, raw, -, h⟩ := h
  by_cases hkeep : (decide (tensor.type = 12) || decide (groupSize = 32)) = true
  · simp only [hkeep, if_true] at h
    rw [Bool.or_eq_true, decide_eq_true_eq, decide_eq_true_eq, ← or_assoc] at *
    obtain ⟨hwhole, hfits⟩ := packPreserved_call h
    exact ⟨hwhole, hfits.trans (iff_self_and.2 fun _ => Or.inl hkeep)⟩
  · simp only [hkeep, if_false, Bool.false_eq_true] at h
    have hblocks : elements ∣ product shape := (Nat.dvd_of_mod_eq_zero hdvd).trans (dvd_product (List.mem_of_getLast? hlast))
    obtain ⟨hwhole, hfits⟩ := quantize_call (keptFormat_requantized hformat) hblocks h
    rw [Bool.or_eq_true, decide_eq_true_eq, decide_eq_true_eq, not_or] at hkeep
    refine ⟨hwhole, hfits.trans (and_congr_right fun _ => ?_)⟩
    simp only [hkeep.1, hkeep.2, false_or]

theorem directlyRequantizedArrays_call {bits : Nat}
    (h : directlyRequantizedArrays size dataOffset tensor shape (product shape) bits groupSize = ok packed) :
    packed.call.Whole ∧ (packed.call.Fits ↔ storedBytes tensor.type.toNat (product shape) ≤ 2 ^ 32 ∧ product shape ≤ 2 ^ 32) := by
  simp only [directlyRequantizedArrays, bind_eq_ok, ofOption_eq_ok, guard_eq_ok] at h
  obtain ⟨-, -, last, -, -, -, ⟨elements, bytes⟩, hformat, -, hblocks, -, -, raw, -, h⟩ := h
  exact quantize_call hformat (Nat.dvd_of_mod_eq_zero hblocks) h

theorem Whole.offsetsAgree_iff {call : KernelCall} (h : call.Whole) : call.OffsetsAgree ↔ call.Fits :=
  ⟨OffsetsAgree.fits h, Fits.offsetsAgree h⟩

end

/-! ## Where no offset wraps -/

/-- The offsets of all threads are those over the naturals exactly where the tensor has no more than 2^32 bytes and, where
its values are quantized again, no more than 2^32 elements. -/
theorem kernel_offsets_agree_iff (size dataOffset groupSize bits : Nat) (tensor : TensorInfo) (shape : List Nat) (elementCount : Nat)
    (hcount : checkedProduct shape = ok elementCount) :
    (∀ packed, quantizedArrays size dataOffset tensor shape elementCount groupSize = ok packed →
      (packed.call.OffsetsAgree ↔ storedBytes tensor.type.toNat elementCount ≤ 2 ^ 32 ∧
        (tensor.type = 12 ∨ groupSize = 32 ∨ elementCount ≤ 2 ^ 32))) ∧
    (∀ packed, mxfp4Arrays size dataOffset tensor shape elementCount = ok packed →
      (packed.call.OffsetsAgree ↔ storedBytes tensor.type.toNat elementCount ≤ 2 ^ 32)) ∧
    ∀ packed, directlyRequantizedArrays size dataOffset tensor shape elementCount bits groupSize = ok packed →
      (packed.call.OffsetsAgree ↔ storedBytes tensor.type.toNat elementCount ≤ 2 ^ 32 ∧ elementCount ≤ 2 ^ 32) := by
  obtain rfl := checkedProduct_eq hcount
  refine ⟨fun packed h => ?_, fun packed h => ?_, fun packed h => ?_⟩
  · obtain ⟨hwhole, hfits⟩ := quantizedArrays_call h
    exact (Whole.offsetsAgree_iff hwhole).trans hfits
  · obtain ⟨hwhole, hfits⟩ := mxfp4Arrays_call h
    exact (Whole.offsetsAgree_iff hwhole).trans hfits
  · obtain ⟨hwhole, hfits⟩ := directlyRequantizedArrays_call h
    exact (Whole.offsetsAgree_iff hwhole).trans hfits

theorem one_block_agrees : ∃ packed,
    quantizedArrays 34 0 ⟨"output.weight", [32], 8, 0⟩ [32] 32 32 = ok packed ∧ packed.call.OffsetsAgree :=
  ⟨_, rfl, ((kernel_offsets_agree_iff 34 0 32 4 ⟨"output.weight", [32], 8, 0⟩ [32] 32 rfl).1 _ rfl).2 (by decide)⟩

/-- The last group of 2^33 elements of Q1_0 starts at 2^33 - 32, and for the thread at 2^32 - 32. -/
theorem group_start_wraps : ∃ packed,
    directlyRequantizedArrays (2 ^ 26 * 18) 0 ⟨"blk.0.ffn_up_exps.weight", [4096, 4096, 512], 41, 0⟩ [512, 4096, 4096] (2 ^ 33) 4 32 =
      ok packed ∧ checkedProduct [512, 4096, 4096] = ok (2 ^ 33) ∧ ¬ packed.call.OffsetsAgree := by
  refine ⟨_, rfl, rfl, fun h => ?_⟩
  have hagrees := h (2 ^ 28 - 1) (by decide) (thread * const 32) (by simp [KernelCall.offsets, quantizeOffsets])
  exact absurd hagrees (by decide)

end Tanpopo.GGUF.Packing
