import Tanpopo.GGUF.Storage
/-!
# How a tensor is packed

The loader hands a quantized tensor to one of three kernels and keeps only the
arrays. `quantizeGGUFModel` finds group size and bits again from the lengths of
their last axes: `parameters_recovered`.
-/

namespace Tanpopo.GGUF.Packing

open Swift Outcome

/-! ## The kernels and their arrays -/

/-- A kernel with what the host hands to it. -/
inductive KernelCall where
  | preserved (sourceType : Nat) (blockCount : Nat)
  | quantize (sourceType bits groupSize elementCount : Nat)
  | mxfp4 (blockCount : Nat)
  deriving DecidableEq

inductive QuantizationMode where
  | affine
  | mxfp4
  deriving DecidableEq

/-- The group size, bits and mode that the kernel packs with. -/
def KernelCall.parameters : KernelCall → Nat × Nat × QuantizationMode
  | .preserved sourceType _ => (32, if sourceType = 8 then 8 else 4, .affine)
  | .quantize _ bits groupSize _ => (groupSize, bits, .affine)
  | .mxfp4 _ => (32, 4, .mxfp4)

inductive DType where
  | uint8
  | uint32
  | bfloat16
  deriving DecidableEq

structure ArrayInfo where
  shape : List Nat
  dtype : DType
  deriving DecidableEq

/-- `dim(-1)`. -/
def ArrayInfo.lastDim (a : ArrayInfo) : Nat := a.shape.getLast?.getD 0

structure Packed where
  call : KernelCall
  wq : ArrayInfo
  scales : ArrayInfo
  biases : Option ArrayInfo
  deriving DecidableEq

/-! ## The host -/

def checkedByteCount (count elementSize : Nat) : Outcome LoaderError Nat :=
  if count * elementSize < 2 ^ 63 then ok (count * elementSize) else threw .invalidSize

/-- The length of what `dataSlice` returns, from a file of `size` bytes. -/
def dataSlice (size : Nat) (tensor : TensorInfo) (dataOffset byteCount : Nat) : Outcome LoaderError Nat :=
  let offset := tensor.offset.toNat
  if dataOffset ≤ size ∧ offset ≤ size - dataOffset ∧ offset < 2 ^ 63 then
    let start := dataOffset + offset
    if start < 2 ^ 63 ∧ start ≤ size ∧ byteCount ≤ size - start then ok byteCount else threw (.invalidTensor tensor.name)
  else threw (.invalidTensor tensor.name)

/-- `shape[shape.count - 1] /= divisor`. -/
def divideLast (shape : List Nat) (divisor : Nat) : List Nat :=
  match shape.getLast? with
  | none => shape
  | some last => shape.dropLast ++ [last / divisor]

def product (shape : List Nat) : Nat := shape.foldl (· * ·) 1

/-- `MLXGGUFMetalQuantizer.packPreserved`, up to its kernel. -/
def packPreserved (raw sourceType : Nat) (sourceShape weightShape scaleShape : List Nat) : Outcome LoaderError Packed := do
  guard (sourceType = 2 ∨ sourceType = 3 ∨ sourceType = 8 ∨ sourceType = 12) (.invalidTensor "GGUF type (sourceType)")
  let elementsPerBlock := if sourceType = 12 then 256 else 32
  let elementCount := product sourceShape
  guard (elementCount > 0 ∧ elementCount % elementsPerBlock = 0) (.invalidTensor "GGUF type (sourceType)")
  let blockCount := elementCount / elementsPerBlock
  let bytesPerBlock := if sourceType = 12 then 144 else if sourceType = 8 then 34 else if sourceType = 3 then 20 else 18
  guard (raw = blockCount * bytesPerBlock) (.invalidTensor "GGUF type (sourceType)")
  return ⟨.preserved sourceType blockCount, ⟨weightShape, .uint32⟩, ⟨scaleShape, .bfloat16⟩, some ⟨scaleShape, .bfloat16⟩⟩

/-- `MLXGGUFMetalQuantizer.quantize`, up to its kernel. -/
def quantize (sourceType bits : Nat) (sourceShape : List Nat) (groupSize : Nat) (weightShape scaleShape : List Nat) :
    Outcome LoaderError Packed := do
  guard ((groupSize = 32 ∨ groupSize = 64) ∧ (bits = 4 ∨ bits = 8)) (.invalidTensor "量化群組設定")
  let elementCount := product sourceShape
  guard (elementCount > 0 ∧ elementCount % groupSize = 0) (.invalidTensor "量化群組設定")
  return ⟨.quantize sourceType bits groupSize elementCount, ⟨weightShape, .uint32⟩, ⟨scaleShape, .bfloat16⟩,
    some ⟨scaleShape, .bfloat16⟩⟩

/-- `MLXGGUFMetalQuantizer.packMXFP4`, up to its kernel. -/
def packMXFP4 (raw : Nat) (sourceShape weightShape scaleShape : List Nat) : Outcome LoaderError Packed := do
  let elementCount := product sourceShape
  guard (elementCount > 0 ∧ elementCount % 32 = 0) (.invalidTensor "MXFP4 量化群組設定")
  let blockCount := elementCount / 32
  guard (raw = blockCount * 17) (.invalidTensor "MXFP4 權重資料大小")
  return ⟨.mxfp4 blockCount, ⟨weightShape, .uint32⟩, ⟨scaleShape, .uint8⟩, none⟩

/-- Bits, bytes and elements of a block whose codes can be kept. -/
def keptFormat : Nat → Option (Nat × Nat × Nat)
  | 2 => some (4, 18, 32)
  | 3 => some (4, 20, 32)
  | 8 => some (8, 34, 32)
  | 12 => some (4, 144, 256)
  | _ => none

section
variable (size dataOffset : Nat) (tensor : TensorInfo) (shape : List Nat) (elementCount : Nat)

def quantizedArrays (targetGroupSize : Nat) : Outcome LoaderError Packed := do
  let lastDimension ← ofOption (.invalidTensor tensor.name) shape.getLast?
  guard (lastDimension > 0 ∧ lastDimension % 32 = 0) (.invalidTensor tensor.name)
  let (bits, bytesPerBlock, elementsPerBlock) ←
    ofOption (.unsupportedTensorType tensor.type tensor.name) (keptFormat tensor.type.toNat)
  guard (lastDimension % elementsPerBlock = 0) (.invalidTensor tensor.name)
  let canPreserve := tensor.type = 12 || targetGroupSize = 32
  let blockCount := elementCount / elementsPerBlock
  let byteCount ← checkedByteCount blockCount bytesPerBlock
  let raw ← dataSlice size tensor dataOffset byteCount
  let weightShape := divideLast shape (if bits = 4 then 8 else 4)
  let scaleShape := divideLast shape (if canPreserve then 32 else targetGroupSize)
  if canPreserve then packPreserved raw tensor.type.toNat shape weightShape scaleShape
  else quantize tensor.type.toNat bits shape targetGroupSize weightShape scaleShape

def mxfp4Arrays : Outcome LoaderError Packed := do
  guard (tensor.type = 39) (.invalidTensor tensor.name)
  let lastDimension ← ofOption (.invalidTensor tensor.name) shape.getLast?
  guard (lastDimension > 0 ∧ lastDimension % 32 = 0 ∧ elementCount % 32 = 0) (.invalidTensor tensor.name)
  let blockCount := elementCount / 32
  let byteCount ← checkedByteCount blockCount 17
  let raw ← dataSlice size tensor dataOffset byteCount
  packMXFP4 raw shape (divideLast shape 8) (divideLast shape 32)

/-- Elements and bytes of a block that is decoded and quantized again. -/
def requantizedFormat : Nat → Option (Nat × Nat)
  | 2 => some (32, 18)
  | 3 => some (32, 20)
  | 8 => some (32, 34)
  | 10 => some (256, 84)
  | 11 => some (256, 110)
  | 12 => some (256, 144)
  | 13 => some (256, 176)
  | 14 => some (256, 210)
  | 20 => some (32, 18)
  | 21 => some (256, 110)
  | 23 => some (256, 136)
  | 41 => some (128, 18)
  | 42 => some (64, 18)
  | _ => none

def directlyRequantizedArrays (bits targetGroupSize : Nat) : Outcome LoaderError Packed := do
  guard ((bits = 4 ∨ bits = 8) ∧ (targetGroupSize = 32 ∨ targetGroupSize = 64)) (.invalidTensor tensor.name)
  let lastDimension ← ofOption (.invalidTensor tensor.name) shape.getLast?
  guard (lastDimension > 0 ∧ lastDimension % targetGroupSize = 0 ∧ elementCount % targetGroupSize = 0) (.invalidTensor tensor.name)
  let (elementsPerBlock, bytesPerBlock) ←
    ofOption (.unsupportedTensorType tensor.type tensor.name) (requantizedFormat tensor.type.toNat)
  guard (elementCount % elementsPerBlock = 0) (.invalidTensor tensor.name)
  let blockCount := elementCount / elementsPerBlock
  let byteCount ← checkedByteCount blockCount bytesPerBlock
  let _raw ← dataSlice size tensor dataOffset byteCount
  quantize tensor.type.toNat bits shape targetGroupSize (divideLast shape (if bits = 4 then 8 else 4))
    (divideLast shape targetGroupSize)

end

/-- What `loadWeights` does with a tensor, where it stores it in quantized form. -/
def loadQuantized (m : Machine) (policy : RecurrentPromotionPolicy) (profile : QuantizationProfile) (groupSize size dataOffset : Nat)
    (tensor : TensorInfo) : Outcome LoaderError (Option Packed) := do
  let shape := tensor.dimensions.reverse
  let elementCount ← checkedProduct shape
  match support (ggufTypeName tensor.type) profile with
  | none => threw (.unsupportedTensorType tensor.type tensor.name)
  | some found =>
    if shouldPromoteRecurrentTensor m tensor.name found policy then ok none
    else
      match found.materialization with
      | .quantized4 | .quantized8 => some <$> quantizedArrays size dataOffset tensor shape elementCount groupSize
      | .quantizedMXFP4 => some <$> mxfp4Arrays size dataOffset tensor shape elementCount
      | .requantized4 => some <$> directlyRequantizedArrays size dataOffset tensor shape elementCount 4 groupSize
      | .requantized8 => some <$> directlyRequantizedArrays size dataOffset tensor shape elementCount 8 groupSize
      | _ => ok none

/-- What `quantizeGGUFModel` assigns to the module of a path; `none` skips it. -/
def quantizeGGUFModel (weights : String → Option ArrayInfo) (groupSize : Nat) (path : String) : Option (Nat × Nat × QuantizationMode) :=
  match weights (path ++ ".weight") with
  | none => none
  | some weight =>
    match weights (path ++ ".scales") with
    | none => none
    | some scales =>
      if scales.lastDim = 0 then none
      else if weights (path ++ ".biases") = none ∧ scales.dtype = .uint8 ∧ weight.lastDim * 8 = scales.lastDim * 32 then
        some (32, 4, .mxfp4)
      else if weight.lastDim % scales.lastDim ≠ 0 then none
      else
        let packedRatio := weight.lastDim / scales.lastDim
        if packedRatio = 4 then some (32, 4, .affine)
        else if ¬ (groupSize > 0 ∧ packedRatio * 32 % groupSize = 0) then none
        else
          let bits := packedRatio * 32 / groupSize
          if bits = 4 ∨ bits = 8 then some (groupSize, bits, .affine) else none

/-- The arrays of a tensor, under the names of a module. -/
structure Holds (weights : String → Option ArrayInfo) (path : String) (packed : Packed) : Prop where
  weight : weights (path ++ ".weight") = some packed.wq
  scales : weights (path ++ ".scales") = some packed.scales
  biases : weights (path ++ ".biases") = packed.biases

/-! ## The lengths of the last axes -/

/-- What the arrays of a kernel show of the parameters that it packs with. -/
structure Shows (groupSize : Nat) (packed : Packed) : Prop where
  pos : 0 < packed.scales.lastDim
  ratio : packed.wq.lastDim = packed.call.parameters.1 * packed.call.parameters.2.1 / 32 * packed.scales.lastDim
  known : packed.call.parameters = (32, 4, .affine) ∨ packed.call.parameters = (32, 4, .mxfp4) ∨
    packed.call.parameters = (groupSize, 4, .affine) ∨ packed.call.parameters = (groupSize, 8, .affine)
  mode : packed.call.parameters.2.2 = .mxfp4 ↔ packed.biases = none
  dtype : packed.call.parameters.2.2 = .mxfp4 → packed.scales.dtype = .uint8

theorem lastDim_divideLast {shape : List Nat} {last : Nat} (h : shape.getLast? = some last) (divisor : Nat) (dtype : DType) :
    (ArrayInfo.mk (divideLast shape divisor) dtype).lastDim = last / divisor := by
  simp [ArrayInfo.lastDim, divideLast, h]

theorem packPreserved_shows {raw sourceType groupSize last : Nat} {shape : List Nat} {packed : Packed} (hlast : shape.getLast? = some last)
    (hpos : 0 < last) (hdvd : last % 32 = 0) (hgroup : sourceType = 8 → groupSize = 32)
    (h : packPreserved raw sourceType shape (divideLast shape (if sourceType = 8 then 4 else 8)) (divideLast shape 32) = ok packed) :
    Shows groupSize packed := by
  simp only [packPreserved, bind_eq_ok, guard_eq_ok, pure_eq, ok.injEq] at h
  obtain ⟨-, -, -, -, -, -, rfl⟩ := h
  by_cases h8 : sourceType = 8
  · constructor <;> simp [KernelCall.parameters, h8, lastDim_divideLast hlast, hgroup] <;> omega
  · constructor <;> simp [KernelCall.parameters, h8, lastDim_divideLast hlast] <;> omega

theorem quantize_shows {sourceType bits groupSize last : Nat} {shape : List Nat} {packed : Packed} (hlast : shape.getLast? = some last)
    (hpos : 0 < last) (hdvd : last % groupSize = 0)
    (h : quantize sourceType bits shape groupSize (divideLast shape (if bits = 4 then 8 else 4)) (divideLast shape groupSize) = ok packed) :
    Shows groupSize packed := by
  simp only [quantize, bind_eq_ok, guard_eq_ok, pure_eq, ok.injEq] at h
  obtain ⟨-, ⟨hgroup, hbits⟩, -, -, rfl⟩ := h
  rcases hgroup with rfl | rfl <;> rcases hbits with rfl | rfl <;>
    constructor <;> simp [KernelCall.parameters, lastDim_divideLast hlast] <;> omega

theorem packMXFP4_shows {raw groupSize last : Nat} {shape : List Nat} {packed : Packed} (hlast : shape.getLast? = some last)
    (hpos : 0 < last) (hdvd : last % 32 = 0) (h : packMXFP4 raw shape (divideLast shape 8) (divideLast shape 32) = ok packed) :
    Shows groupSize packed := by
  simp only [packMXFP4, bind_eq_ok, guard_eq_ok, pure_eq, ok.injEq] at h
  obtain ⟨-, -, -, -, rfl⟩ := h
  constructor <;> simp [KernelCall.parameters, lastDim_divideLast hlast] <;> omega

section
variable {groupSize : Nat} {packed : Packed} {weights : String → Option ArrayInfo} {path : String} (hweights : Holds weights path packed)
include hweights

/-- What is assigned to arrays with biases depends on the ratio of their last axes. -/
theorem quantizeGGUFModel_affine (hbiases : packed.biases ≠ none) (hpos : 0 < packed.scales.lastDim) {ratio : Nat}
    (hratio : packed.wq.lastDim = ratio * packed.scales.lastDim) :
    quantizeGGUFModel weights groupSize path =
      if ratio = 4 then some (32, 4, .affine)
      else if ¬ (groupSize > 0 ∧ ratio * 32 % groupSize = 0) then none
      else if ratio * 32 / groupSize = 4 ∨ ratio * 32 / groupSize = 8 then some (groupSize, ratio * 32 / groupSize, .affine)
      else none := by
  have hwhole : ¬ packed.wq.lastDim % packed.scales.lastDim ≠ 0 := by
    rw [hratio, Nat.mul_mod_left]
    exact fun h => h rfl
  have hdiv : packed.wq.lastDim / packed.scales.lastDim = ratio := by
    rw [hratio, Nat.mul_div_cancel _ hpos]
  simp only [quantizeGGUFModel, hweights.weight, hweights.scales, hweights.biases, if_neg (Nat.ne_of_gt hpos),
    if_neg fun h : packed.biases = none ∧ _ => hbiases h.1, if_neg hwhole, hdiv]

/-- Group 32 with 4 bits has the ratio 4, which no other packing has; with the group size known, the others are told apart. -/
theorem Shows.recovered (h : Shows groupSize packed) (hgroup : groupSize = 32 ∨ groupSize = 64) :
    quantizeGGUFModel weights groupSize path = some packed.call.parameters := by
  obtain ⟨hpos, hratio, hknown, hmode, hdtype⟩ := h
  rcases hknown with hp | hp | hp | hp
  · rw [hp] at hratio hmode ⊢
    exact quantizeGGUFModel_affine hweights (by simpa using hmode) hpos hratio
  · rw [hp] at hratio hmode hdtype ⊢
    have hfour : packed.wq.lastDim = 4 * packed.scales.lastDim := hratio
    have hlengths : packed.wq.lastDim * 8 = packed.scales.lastDim * 32 := by omega
    simp only [quantizeGGUFModel, hweights.weight, hweights.scales, hweights.biases, if_neg (Nat.ne_of_gt hpos)]
    rw [if_pos ⟨hmode.1 rfl, hdtype rfl, hlengths⟩]
  · rw [hp] at hratio hmode ⊢
    rw [quantizeGGUFModel_affine hweights (by simpa using hmode) hpos hratio]
    rcases hgroup with rfl | rfl <;> rfl
  · rw [hp] at hratio hmode ⊢
    rw [quantizeGGUFModel_affine hweights (by simpa using hmode) hpos hratio]
    rcases hgroup with rfl | rfl <;> rfl

end

/-! ## What the loader stores -/

theorem keptFormat_bits {type bits bytes elements : Nat} (h : keptFormat type = some (bits, bytes, elements)) :
    (bits = if type = 8 then 8 else 4) := by
  rw [keptFormat.eq_def] at h
  split at h <;> simp_all

section
variable {size dataOffset elementCount groupSize last : Nat} {tensor : TensorInfo} {shape : List Nat} {packed : Packed}
  (hlast : shape.getLast? = some last) (hadmitted : last % groupSize = 0)
include hlast

include hadmitted in
theorem quantizedArrays_shows (h : quantizedArrays size dataOffset tensor shape elementCount groupSize = ok packed) :
    Shows groupSize packed := by
  simp only [quantizedArrays, bind_eq_ok, ofOption_eq_ok, guard_eq_ok] at h
  obtain ⟨last', hlast', -, ⟨hpos, hdvd⟩, ⟨bits, bytes, elements⟩, hformat, -, -, -, -, raw, -, h⟩ := h
  rw [hlast, Option.some.injEq] at hlast'
  subst hlast'
  have hbits := keptFormat_bits hformat
  have hdivisor : (if bits = 4 then 8 else 4) = if tensor.type.toNat = 8 then 4 else 8 := by
    rw [hbits]
    split <;> rfl
  by_cases hkeep : (decide (tensor.type = 12) || decide (groupSize = 32)) = true
  · simp only [hkeep, if_true] at h
    rw [hdivisor] at h
    refine packPreserved_shows hlast hpos hdvd (fun h8 => ?_) h
    rw [Bool.or_eq_true, decide_eq_true_eq, decide_eq_true_eq] at hkeep
    refine hkeep.resolve_left fun h12 => ?_
    rw [h12] at h8
    exact absurd h8 (by decide)
  · simp only [hkeep, if_false, Bool.false_eq_true] at h
    exact quantize_shows hlast hpos hadmitted h

theorem mxfp4Arrays_shows (h : mxfp4Arrays size dataOffset tensor shape elementCount = ok packed) : Shows groupSize packed := by
  simp only [mxfp4Arrays, bind_eq_ok, ofOption_eq_ok, guard_eq_ok] at h
  obtain ⟨-, -, last', hlast', -, ⟨hpos, hdvd, -⟩, -, -, raw, -, h⟩ := h
  rw [hlast, Option.some.injEq] at hlast'
  subst hlast'
  exact packMXFP4_shows hlast hpos hdvd h

theorem directlyRequantizedArrays_shows {bits : Nat}
    (h : directlyRequantizedArrays size dataOffset tensor shape elementCount bits groupSize = ok packed) : Shows groupSize packed := by
  simp only [directlyRequantizedArrays, bind_eq_ok, ofOption_eq_ok, guard_eq_ok] at h
  obtain ⟨-, -, last', hlast', -, ⟨hpos, hdvd, -⟩, -, -, -, -, -, -, raw, -, h⟩ := h
  rw [hlast, Option.some.injEq] at hlast'
  subst hlast'
  exact quantize_shows hlast hpos hdvd h

end

/-- A strategy has a group size of 32 or 64, which divides the inner axis of every affine tensor. -/
theorem admitted {tensors : List TensorInfo} {requestedGroupSize : Option Nat} {profile : QuantizationProfile}
    {strategy : QuantizationStrategy} (h : quantizationStrategy tensors requestedGroupSize profile = ok strategy) :
    (strategy.groupSize = 32 ∨ strategy.groupSize = 64) ∧
      strategy.groupSize = requestedGroupSize.getD (if profile = .mode3 then 32 else 64) ∧
      ∀ tensor ∈ tensors, isAffine profile tensor = true →
        ∃ inner rest, tensor.dimensions = inner :: rest ∧ inner % strategy.groupSize = 0 := by
  have hsizes : ¬ (requestedGroupSize ≠ none ∧ requestedGroupSize ≠ some 32 ∧ requestedGroupSize ≠ some 64) →
      requestedGroupSize.getD (if profile = .mode3 then 32 else 64) = 32 ∨
        requestedGroupSize.getD (if profile = .mode3 then 32 else 64) = 64 := by
    intro hrequested
    cases requestedGroupSize with
    | none =>
      rw [Option.getD_none]
      split
      · exact .inl rfl
      · exact .inr rfl
    | some size =>
      rw [Option.getD_some]
      simp only [ne_eq, reduceCtorEq, not_false_eq_true, Option.some.injEq, true_and, not_and_or, not_not] at hrequested
      exact hrequested
  rw [quantizationStrategy] at h
  generalize requestedGroupSize.getD (if profile = .mode3 then 32 else 64) = resolved at h hsizes ⊢
  split at h
  · cases h
  · rename_i hrequested
    simp only at h
    split at h
    · cases h
    · rename_i hnone
      obtain rfl := Outcome.ok.inj h
      refine ⟨hsizes hrequested, rfl, fun tensor hmem haffine => ?_⟩
      · -- No tensor was found whose rows the group size does not divide.
        have hcompatible := List.find?_eq_none.1 hnone tensor (List.mem_filter.2 ⟨hmem, haffine⟩)
        cases hdimensions : tensor.dimensions with
        | nil => simp [isIncompatible, hdimensions] at hcompatible
        | cons inner rest =>
          refine ⟨inner, rest, rfl, ?_⟩
          simp only [isIncompatible, hdimensions, Bool.or_eq_true, decide_eq_true_eq, not_or, not_not] at hcompatible
          exact hcompatible.2

theorem map_some_eq_ok {x : Outcome LoaderError Packed} {packed : Packed} (h : (some <$> x) = ok (some packed)) : x = ok packed := by
  cases x with
  | ok a =>
    cases h
    rfl
  | threw e => cases h
  | trap => cases h

theorem loadQuantized_shows {m : Machine} {policy : RecurrentPromotionPolicy} {tensors : List TensorInfo}
    {requestedGroupSize : Option Nat} {profile : QuantizationProfile} {strategy : QuantizationStrategy}
    (hstrategy : quantizationStrategy tensors requestedGroupSize profile = ok strategy) {size dataOffset : Nat} {tensor : TensorInfo}
    (hmem : tensor ∈ tensors) {packed : Packed}
    (h : loadQuantized m policy profile strategy.groupSize size dataOffset tensor = ok (some packed)) :
    Shows strategy.groupSize packed := by
  obtain ⟨-, -, hadmitted⟩ := admitted hstrategy
  simp only [loadQuantized, bind_eq_ok] at h
  obtain ⟨elementCount, -, h⟩ := h
  cases hfound : support (ggufTypeName tensor.type) profile with
  | none =>
    rw [hfound] at h
    cases h
  | some found =>
    rw [hfound] at h
    simp only at h
    split at h
    · cases h
    · -- The strategy was admitted with the group size that is loaded.
      have hinner : ∀ kind, found.materialization = kind →
          (kind = .quantized4 ∨ kind = .quantized8 ∨ kind = .requantized4 ∨ kind = .requantized8) →
          ∃ last, tensor.dimensions.reverse.getLast? = some last ∧ last % strategy.groupSize = 0 := by
        intro kind hkind haffine
        obtain ⟨inner, rest, hdimensions, hdvd⟩ := hadmitted tensor hmem (by
          rw [isAffine, hfound, Option.any_some, hkind]
          rcases haffine with rfl | rfl | rfl | rfl <;> rfl)
        exact ⟨inner, by simp [hdimensions], hdvd⟩
      split at h
      · rename_i hkind
        obtain ⟨last, hlast, hdvd⟩ := hinner _ hkind (.inl rfl)
        exact quantizedArrays_shows hlast hdvd (map_some_eq_ok h)
      · rename_i hkind
        obtain ⟨last, hlast, hdvd⟩ := hinner _ hkind (.inr (.inl rfl))
        exact quantizedArrays_shows hlast hdvd (map_some_eq_ok h)
      · have hpacked := map_some_eq_ok h
        -- mxfp4 has groups of its own and asks for a last axis only.
        obtain ⟨last, hlast⟩ : ∃ last, tensor.dimensions.reverse.getLast? = some last := by
          have hparts := hpacked
          simp only [mxfp4Arrays, bind_eq_ok, ofOption_eq_ok] at hparts
          obtain ⟨-, -, last, hlast, -⟩ := hparts
          exact ⟨last, hlast⟩
        exact mxfp4Arrays_shows hlast hpacked
      · rename_i hkind
        obtain ⟨last, hlast, -⟩ := hinner _ hkind (.inr (.inr (.inl rfl)))
        exact directlyRequantizedArrays_shows hlast (map_some_eq_ok h)
      · rename_i hkind
        obtain ⟨last, hlast, -⟩ := hinner _ hkind (.inr (.inr (.inr rfl)))
        exact directlyRequantizedArrays_shows hlast (map_some_eq_ok h)
      · cases h

/-- A module gets the group size, the bits and the mode that its tensor was packed with. -/
theorem parameters_recovered {m : Machine} {policy : RecurrentPromotionPolicy} {tensors : List TensorInfo}
    {requestedGroupSize : Option Nat} {profile : QuantizationProfile} {strategy : QuantizationStrategy}
    (hstrategy : quantizationStrategy tensors requestedGroupSize profile = ok strategy) {size dataOffset : Nat} {tensor : TensorInfo}
    (hmem : tensor ∈ tensors) {packed : Packed}
    (hload : loadQuantized m policy profile strategy.groupSize size dataOffset tensor = ok (some packed))
    {weights : String → Option ArrayInfo} {path : String} (hweights : Holds weights path packed) :
    quantizeGGUFModel weights strategy.groupSize path = some packed.call.parameters :=
  (loadQuantized_shows hstrategy hmem hload).recovered hweights (admitted hstrategy).1

def exampleTensor : TensorInfo := ⟨"blk.0.ffn_up.weight", [256, 2], 12, 0⟩

def exampleMachine : Machine where
  decode := fun _ => none
  components := fun name => name.splitOn "."
  reserves := fun _ _ => true
  stack := 64

def examplePacked : Packed :=
  ⟨.preserved 12 2, ⟨[2, 32], .uint32⟩, ⟨[2, 8], .bfloat16⟩, some ⟨[2, 8], .bfloat16⟩⟩

def exampleWeights (name : String) : Option ArrayInfo :=
  if name = "up.weight" then some examplePacked.wq
  else if name = "up.scales" then some examplePacked.scales
  else if name = "up.biases" then examplePacked.biases
  else none

/-- A Q4_K tensor whose codes are kept, in a model of group size 64. -/
theorem q4k_recovered : quantizeGGUFModel exampleWeights 64 "up" = some (32, 4, .affine) := by
  cases hstrategy : quantizationStrategy [exampleTensor] (some 64) .mode1 with
  | ok strategy =>
    have hsize : strategy.groupSize = 64 := (admitted hstrategy).2.1
    have hload : loadQuantized exampleMachine .disabled .mode1 strategy.groupSize 288 0 exampleTensor = ok (some examplePacked) := by
      rw [hsize]
      decide +kernel
    rw [← hsize]
    exact parameters_recovered hstrategy (List.mem_singleton_self _) hload ⟨rfl, rfl, rfl⟩
  | threw e =>
    have hok : (quantizationStrategy [exampleTensor] (some 64) .mode1 matches ok _) = true := by decide +kernel
    rw [hstrategy] at hok
    cases hok
  | trap =>
    have hok : (quantizationStrategy [exampleTensor] (some 64) .mode1 matches ok _) = true := by decide +kernel
    rw [hstrategy] at hok
    cases hok

end Tanpopo.GGUF.Packing
