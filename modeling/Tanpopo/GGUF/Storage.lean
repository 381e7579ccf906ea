import Tanpopo.GGUF.Reader
import Tanpopo.Lib.Double
/-!
# What a converted GGUF file takes

The storage policy of tensor types, the quantization strategy of a model and
the estimate of the bytes that its converted weights take.
-/

namespace Tanpopo.GGUF

open Swift Outcome

/-! ## The policy -/

inductive StorageType where
  | int4
  | int8
  | int16
  | int32
  | fp16
  | bf16
  | fp32
  deriving DecidableEq

inductive MaterializationKind where
  | directFloat32
  | directFloat16
  | directBFloat16
  | directInt8
  | directInt16
  | directInt32
  | dequantizedFP32
  | quantized4
  | quantized8
  | quantizedMXFP4
  | requantized4
  | requantized8
  deriving DecidableEq

inductive QuantizationProfile where
  | automatic
  | quality
  | mode1
  | mode2
  | mode3
  deriving DecidableEq

structure TypeSupport where
  storageType : StorageType
  materialization : MaterializationKind
  preservesSourceQuantization : Bool
  requiresConversion : Bool

def ggufTypeName (type : UInt32) : String :=
  match type.toNat with
  | 0 => "F32"
  | 1 => "F16"
  | 2 => "Q4_0"
  | 3 => "Q4_1"
  | 6 => "Q5_0"
  | 7 => "Q5_1"
  | 8 => "Q8_0"
  | 9 => "Q8_1"
  | 10 => "Q2_K"
  | 11 => "Q3_K"
  | 12 => "Q4_K"
  | 13 => "Q5_K"
  | 14 => "Q6_K"
  | 15 => "Q8_K"
  | 16 => "IQ2_XXS"
  | 17 => "IQ2_XS"
  | 18 => "IQ3_XXS"
  | 19 => "IQ1_S"
  | 20 => "IQ4_NL"
  | 21 => "IQ3_S"
  | 22 => "IQ2_S"
  | 23 => "IQ4_XS"
  | 24 => "I8"
  | 25 => "I16"
  | 26 => "I32"
  | 27 => "I64"
  | 28 => "F64"
  | 29 => "IQ1_M"
  | 30 => "BF16"
  | 34 => "TQ1_0"
  | 35 => "TQ2_0"
  | 39 => "MXFP4"
  | 40 => "NVFP4"
  | 41 => "Q1_0"
  | 42 => "Q2_0"
  | n => "TYPE_" ++ toString n

def fp32ReferenceSourceTypes : List String :=
  ["Q4_0", "Q4_1", "Q8_0", "Q2_K", "Q3_K", "Q4_K", "Q5_K", "Q6_K", "Q1_0", "Q2_0"]

def supportByType : String → Option TypeSupport
  | "F32" => some ⟨.fp32, .directFloat32, false, false⟩
  | "F16" => some ⟨.fp16, .directFloat16, false, false⟩
  | "BF16" => some ⟨.bf16, .directBFloat16, false, false⟩
  | "I8" => some ⟨.int8, .directInt8, false, false⟩
  | "I16" => some ⟨.int16, .directInt16, false, false⟩
  | "I32" => some ⟨.int32, .directInt32, false, false⟩
  | "Q4_0" | "Q4_1" => some ⟨.int4, .quantized4, true, false⟩
  | "Q8_0" => some ⟨.int8, .quantized8, true, false⟩
  | "MXFP4" => some ⟨.int4, .quantizedMXFP4, true, true⟩
  | "Q4_K" => some ⟨.int4, .quantized4, true, false⟩
  | "Q1_0" | "Q2_0" | "Q2_K" | "Q3_K" | "IQ4_NL" | "IQ3_S" | "IQ4_XS" | "Q5_K" | "Q6_K" =>
    some ⟨.int8, .requantized8, false, true⟩
  | _ => none

def usesSuperBlockLayout (sourceType : String) : Bool := sourceType.toUpper = "Q4_K"

/-- `GGUFStoragePolicy.support`. -/
def support (sourceType : String) (profile : QuantizationProfile) : Option TypeSupport :=
  let normalized := sourceType.toUpper
  match supportByType normalized with
  | none => none
  | some found =>
    if profile = .quality ∧ normalized ∈ fp32ReferenceSourceTypes then some ⟨.fp32, .dequantizedFP32, false, true⟩
    else if profile = .mode3 then
      match found.materialization with
      | .quantized4 | .quantized8 | .requantized4 | .requantized8 => some ⟨.int4, .requantized4, false, true⟩
      | _ => some found
    else if found.preservesSourceQuantization ∧ usesSuperBlockLayout normalized ∧ profile ≠ .mode1 then
      some ⟨.int8, .requantized8, false, true⟩
    else
      let requiresINT8Requantization := !found.preservesSourceQuantization && found.requiresConversion
      let conservativeQ4Promotion := profile = .automatic && found.materialization = .quantized4
      if requiresINT8Requantization || conservativeQ4Promotion then some ⟨.int8, .requantized8, false, true⟩
      else some found

/-! ## The strategy -/

structure QuantizationStrategy where
  profile : QuantizationProfile
  requestedGroupSize : Option Nat
  groupSize : Nat
  targetStorageCounts : StorageType → Nat

def targetStorage (profile : QuantizationProfile) (tensor : TensorInfo) : Option StorageType :=
  (support (ggufTypeName tensor.type) profile).map fun found =>
    match found.materialization with
    | .directFloat32 | .directFloat16 | .directBFloat16 => .bf16
    | _ => found.storageType

def isAffine (profile : QuantizationProfile) (tensor : TensorInfo) : Bool :=
  (support (ggufTypeName tensor.type) profile).any fun found =>
    match found.materialization with
    | .quantized4 | .quantized8 | .requantized4 | .requantized8 => true
    | _ => false

def isIncompatible (groupSize : Nat) (tensor : TensorInfo) : Bool :=
  match tensor.dimensions with
  | [] => true
  | innerDimension :: _ => innerDimension = 0 || innerDimension % groupSize ≠ 0

def quantizationStrategy (tensors : List TensorInfo) (requestedGroupSize : Option Nat) (profile : QuantizationProfile) :
    Outcome LoaderError QuantizationStrategy :=
  if requestedGroupSize ≠ none ∧ requestedGroupSize ≠ some 32 ∧ requestedGroupSize ≠ some 64 then
    threw (.invalidTensor "量化群組設定")
  else
    let resolvedGroupSize := requestedGroupSize.getD (if profile = .mode3 then 32 else 64)
    match (tensors.filter (isAffine profile)).find? (isIncompatible resolvedGroupSize) with
    | some invalid => threw (.invalidTensor invalid.name)
    | none =>
      ok ⟨profile, requestedGroupSize, resolvedGroupSize, fun storage =>
        (tensors.filterMap (targetStorage profile)).count storage⟩

/-! ## Recurrent tensors -/

inductive RecurrentPromotionPolicy where
  | disabled
  | controls
  | all
  deriving DecidableEq

inductive RecurrentTensorRole where
  | control
  | data
  deriving DecidableEq

/-- `Int(text) != nil`. -/
def isInteger (text : String) : Bool :=
  let value (digits : List Char) := digits.foldl (fun n c => 10 * n + (c.toNat - 48)) 0
  match text.toList with
  | [] => false
  | '-' :: digits => digits ≠ [] && digits.all Char.isDigit && value digits ≤ 2 ^ 63
  | '+' :: digits => digits ≠ [] && digits.all Char.isDigit && value digits < 2 ^ 63
  | digits => digits.all Char.isDigit && value digits < 2 ^ 63

variable (m : Machine)

def recurrentTensorRole (name : String) : Option RecurrentTensorRole :=
  match m.components name with
  | [block, number, role, suffix] =>
    if block = "blk" ∧ isInteger number ∧ suffix = "weight" then
      if role = "ssm_alpha" ∨ role = "ssm_beta" then some .control
      else if role = "attn_qkv" ∨ role = "attn_gate" ∨ role = "ssm_conv1d" ∨ role = "ssm_out" then some .data
      else none
    else none
  | _ => none

def shouldPromoteRecurrentTensor (name : String) (found : TypeSupport) (policy : RecurrentPromotionPolicy) : Bool :=
  match found.materialization, policy, recurrentTensorRole m name with
  | .quantized4, .controls, some .control | .quantized8, .controls, some .control => true
  | .requantized4, .controls, some .control | .requantized8, .controls, some .control => true
  | .quantized4, .all, some _ | .quantized8, .all, some _ => true
  | .requantized4, .all, some _ | .requantized8, .all, some _ => true
  | _, _, _ => false

/-! ## Sizes -/

def checkedProduct (values : List Nat) : Outcome LoaderError Nat :=
  values.foldlM (fun product value => if product * value < 2 ^ 63 then ok (product * value) else threw .invalidSize) 1

def checkedByteCount (count elementSize : Int64) : Outcome LoaderError Int64 :=
  let result := multipliedReportingOverflow count elementSize
  if !result.2 ∧ 0 ≤ count ∧ 0 ≤ elementSize then ok result.1 else threw .invalidSize

/-- `value / divisor` and `value % divisor`, as Swift computes them. -/
def divided (value divisor : Int64) : Outcome LoaderError (Int64 × Int64) :=
  if divisor = 0 ∨ (value = Int64.minValue ∧ divisor = -1) then trap else ok (value / divisor, value % divisor)

def divisible (value divisor : Int64) : Outcome LoaderError Int64 := do
  Outcome.guard (0 ≤ value) .invalidSize
  let result ← divided value divisor
  Outcome.guard (result.2 = 0) .invalidSize
  return result.1

/-- The bytes of `elementCount` elements in blocks. -/
def blockBytes (elementCount block bytes : Int64) : Outcome LoaderError Int64 := do
  let count ← divisible elementCount block
  checkedByteCount count bytes

def tensorByteCount (type : UInt32) (elementCount : Int64) : Outcome LoaderError Int64 :=
  match type.toNat with
  | 0 => checkedByteCount elementCount 4
  | 1 => checkedByteCount elementCount 2
  | 2 => blockBytes elementCount 32 18
  | 3 => blockBytes elementCount 32 20
  | 8 => blockBytes elementCount 32 34
  | 10 => blockBytes elementCount 256 84
  | 11 => blockBytes elementCount 256 110
  | 12 => blockBytes elementCount 256 144
  | 13 => blockBytes elementCount 256 176
  | 14 => blockBytes elementCount 256 210
  | 20 => blockBytes elementCount 32 18
  | 21 => blockBytes elementCount 256 110
  | 23 => blockBytes elementCount 256 136
  | 39 => blockBytes elementCount 32 17
  | 24 => ok elementCount
  | 25 => checkedByteCount elementCount 2
  | 26 => checkedByteCount elementCount 4
  | 30 => checkedByteCount elementCount 2
  | 41 => blockBytes elementCount 128 18
  | 42 => blockBytes elementCount 64 18
  | _ => threw (.unsupportedTensorType type "")

/-! ## The estimate -/

def tensorInfos (contents : List Data) : Outcome LoaderError (List TensorInfo) :=
  contents.foldlM (fun tensors content => do
    let found ← readTensorInspectionData m content
    return tensors ++ found) []

/-- What a tensor adds to the estimate, in double precision. -/
def convertedBytes (strategy : QuantizationStrategy) (policy : RecurrentPromotionPolicy) (tensor : TensorInfo) :
    Outcome LoaderError ℚ := do
  let product ← checkedProduct tensor.dimensions
  let elements := double product
  match support (ggufTypeName tensor.type) strategy.profile with
  | none => threw (.unsupportedTensorType tensor.type tensor.name)
  | some found =>
    if shouldPromoteRecurrentTensor m tensor.name found policy then ok (double (elements * 2))
    else
      match found.materialization with
      | .dequantizedFP32 => ok (double (elements * 4))
      | .directFloat32 | .directFloat16 | .directBFloat16 => ok (double (elements * 2))
      | .directInt8 => ok elements
      | .directInt16 => ok (double (elements * 2))
      | .directInt32 => ok (double (elements * 4))
      | .quantized4 | .requantized4 =>
        let effectiveGroup := if tensor.type = 12 then 32 else strategy.groupSize
        ok (double (double (elements * (1 / 2)) + double (double (elements / effectiveGroup) * 4)))
      | .quantized8 | .requantized8 => ok (double (elements + double (double (elements / strategy.groupSize) * 4)))
      | .quantizedMXFP4 => ok (double (double (elements * (1 / 2)) + double (elements / 32)))

def totalBytes (strategy : QuantizationStrategy) (policy : RecurrentPromotionPolicy) (tensors : List TensorInfo) :
    Outcome LoaderError ℚ :=
  tensors.foldlM (fun byteCount tensor => do
    let bytes ← convertedBytes m strategy policy tensor
    return double (byteCount + bytes)) 0

/-- With the allowance of two percent for headers and allocation. -/
def withAllowance (byteCount : ℚ) : ℤ :=
  ⌈double (byteCount + max 4194304 (double (byteCount * double (2 / 100))))⌉

def conversionStorageAnalysis (contents : List Data) (requestedGroupSize : Option Nat) (profile : QuantizationProfile)
    (policy : RecurrentPromotionPolicy) : Outcome LoaderError (QuantizationStrategy × ℤ) := do
  let tensors ← tensorInfos m contents
  let strategy ← quantizationStrategy tensors requestedGroupSize profile
  let byteCount ← totalBytes m strategy policy tensors
  Outcome.guard (byteCount ≤ 2 ^ 63) .invalidSize
  if withAllowance byteCount < 2 ^ 63 then ok (strategy, withAllowance byteCount) else trap

end Tanpopo.GGUF
