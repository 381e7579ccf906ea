import Tanpopo.GGUF.Gemma4
import Tanpopo.Lib.Reshape
/-!
# Value heads of Qwen3.5

The GGUF converter stores the value heads of linear attention in tiled order.
`applyArchitectureWeightLayout` puts them back in grouped order, in weights
that may be quantized.
-/

namespace Tanpopo.GGUF

/-- Packed words or numbers. -/
inductive Element where
  | word (value : UInt32)
  | real (value : ℚ)

instance : Zero Element := ⟨.real 0⟩

/-- The weights of a model, by name. -/
abbrev Weights := String → Option (Tensor Element)

/-! ## The layout -/

structure LinearAttentionLayout where
  numKeyHeads : Nat
  numValueHeads : Nat
  keyHeadDimension : Nat
  valueHeadDimension : Nat
  numKeyHeads_pos : 0 < numKeyHeads
  numValueHeads_pos : 0 < numValueHeads
  divides : numKeyHeads ∣ numValueHeads
  keyHeadDimension_pos : 0 < keyHeadDimension
  valueHeadDimension_pos : 0 < valueHeadDimension

namespace LinearAttentionLayout
variable (layout : LinearAttentionLayout)

def valuesPerKeyHead : Nat := layout.numValueHeads / layout.numKeyHeads

def keyRows : Nat := layout.numKeyHeads * layout.keyHeadDimension

def valueRows : Nat := layout.numValueHeads * layout.valueHeadDimension

end LinearAttentionLayout

def AnyValue.asDictionary : AnyValue → Option Configuration
  | .dictionary pairs => some (configuration pairs)
  | _ => none

/-- A count that has to be positive. -/
def positive (value : AnyValue) : Option { n : Nat // 0 < n } :=
  value.asInteger.bind fun count => if h : 0 < count.toNat then some ⟨count.toNat, h⟩ else none

def linearAttentionLayout (root : Configuration) : Option LinearAttentionLayout := do
  let values := ((root "text_config").bind AnyValue.asDictionary).getD root
  let numKeyHeads ← (values "linear_num_key_heads").bind positive
  let numValueHeads ← (values "linear_num_value_heads").bind positive
  let keyHeadDimension ← (values "linear_key_head_dim").bind positive
  let valueHeadDimension ← (values "linear_value_head_dim").bind positive
  if h : numKeyHeads.1 ∣ numValueHeads.1 then
    some ⟨numKeyHeads.1, numValueHeads.1, keyHeadDimension.1, valueHeadDimension.1, numKeyHeads.2, numValueHeads.2, h,
      keyHeadDimension.2, valueHeadDimension.2⟩
  else none

/-! ## Reordering -/

section Reorder
variable (layout : LinearAttentionLayout) (value : Tensor Element)

def reorderHeadAxis (axis headDimension : Nat) : Tensor Element :=
  if axis < value.shape.length ∧ value.shape.getD axis 0 = layout.numValueHeads * headDimension then
    value.regrouped axis layout.valuesPerKeyHead layout.numKeyHeads headDimension
  else value

def reorderValueRows (headDimension : Nat) : Tensor Element :=
  if 1 ≤ value.shape.length ∧ 0 < headDimension ∧ value.rows = layout.numValueHeads * headDimension then
    reorderHeadAxis layout value 0 headDimension
  else value

/-- The rows after those of queries and keys. -/
def reorderRowsAfterKeys : Tensor Element :=
  if 2 ≤ value.shape.length ∧ value.rows = layout.keyRows * 2 + layout.valueRows then
    let keyPart := value.slice 0 (layout.keyRows * 2)
    let valuePart := value.slice (layout.keyRows * 2) value.rows
    Tensor.concatenated [keyPart, reorderValueRows layout valuePart layout.valueHeadDimension]
  else value

def reorderQKV : Tensor Element := reorderRowsAfterKeys layout value

def reorderConv1D : Tensor Element := reorderRowsAfterKeys layout value

def reorderValueColumns : Tensor Element :=
  let dimensionLength := value.shape.getLastD 0
  let packingFactor := layout.valueRows / dimensionLength
  if 2 ≤ value.shape.length ∧ 0 < dimensionLength ∧ layout.valueRows % dimensionLength = 0 ∧
      layout.valueHeadDimension % packingFactor = 0 then
    reorderHeadAxis layout value (value.shape.length - 1) (layout.valueHeadDimension / packingFactor)
  else value

def hasSuffix (name suffix : String) : Bool := suffix.toList.isSuffixOf name.toList

def dropLast (name suffix : String) : String := String.ofList (name.toList.take (name.toList.length - suffix.toList.length))

/-- The name of the weight that scales and biases belong to. -/
def baseName (name : String) : String :=
  if hasSuffix name ".scales" then dropLast name ".scales" ++ ".weight"
  else if hasSuffix name ".biases" then dropLast name ".biases" ++ ".weight"
  else name

/-- The reordered array of a name that has one. -/
def transformed (name : String) : Option (Tensor Element) :=
  let base := baseName name
  if hasSuffix base ".attn_qkv.weight" then some (reorderQKV layout value)
  else if hasSuffix base ".attn_gate.weight" then some (reorderValueRows layout value layout.valueHeadDimension)
  else if hasSuffix base ".ssm_alpha.weight" || hasSuffix base ".ssm_beta.weight" then some (reorderValueRows layout value 1)
  else if hasSuffix base ".ssm_a" || hasSuffix base ".ssm_dt.bias" then some (reorderValueRows layout value 1)
  else if hasSuffix base ".ssm_conv1d.weight" then some (reorderConv1D layout value)
  else if hasSuffix base ".ssm_out.weight" then some (reorderValueColumns layout value)
  else none

end Reorder

def reorderQwen35LinearAttentionWeights (layout : LinearAttentionLayout) (weights : Weights) : Weights := fun name =>
  (weights name).map fun value => (transformed layout value name).getD value

def isQwen35Architecture (modelType : String) : Bool := modelType = "qwen3_5" || modelType = "qwen3_5_text"

def isGemma3Architecture (modelType : String) : Bool := modelType = "gemma3" || modelType = "gemma3_text"

/-- What Gemma 3 needs instead is `undoConverterNormOffset`. -/
def applyArchitectureWeightLayout (undoConverterNormOffset : Weights → Weights) (weights : Weights) (modelType : String)
    (root : Configuration) : Weights :=
  match if isQwen35Architecture modelType then linearAttentionLayout root else none with
  | some layout => reorderQwen35LinearAttentionWeights layout weights
  | none => if isGemma3Architecture modelType then undoConverterNormOffset weights else weights

/-! ## Quantized weights -/

def Element.bits : Element → UInt32
  | .word value => value
  | .real _ => 0

def Element.value : Element → ℚ
  | .word _ => 0
  | .real value => value

structure QuantizedTensor where
  weight : Tensor Element
  scales : Tensor Element
  biases : Tensor Element

/-- As many elements as a word holds. -/
def packing (bits : Nat) : Nat := 32 / bits

/-- The three shapes of a quantized matrix. -/
structure QuantizedTensor.OfMatrix (q : QuantizedTensor) (rows columns bits groupSize : Nat) : Prop where
  divides : groupSize ∣ columns
  weight : q.weight.shape = [rows, columns / packing bits]
  scales : q.scales.shape = [rows, columns / groupSize]
  biases : q.biases.shape = [rows, columns / groupSize]

/-- The element of a word. -/
def code (bits : Nat) (word : UInt32) (index : Nat) : Nat := word.toNat / 2 ^ (bits * index) % 2 ^ bits

/-- Affine dequantization. -/
def dequantize (bits groupSize : Nat) (q : QuantizedTensor) (row column : Nat) : ℚ :=
  (q.scales.entry [row, column / groupSize]).value *
      code bits (q.weight.entry [row, column / packing bits]).bits (column % packing bits) +
    (q.biases.entry [row, column / groupSize]).value

/-- The three arrays of a quantized tensor among the weights. -/
structure QuantizedTensor.In (q : QuantizedTensor) (weights : Weights) (stem : String) : Prop where
  weight : weights (stem ++ ".weight") = some q.weight
  scales : weights (stem ++ ".scales") = some q.scales
  biases : weights (stem ++ ".biases") = some q.biases

end Tanpopo.GGUF
