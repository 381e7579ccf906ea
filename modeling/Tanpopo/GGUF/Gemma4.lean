import Tanpopo.GGUF.Tokenizer
import Tanpopo.Lib.Double
import Mathlib.Logic.Function.Basic
import Mathlib.Data.List.Dedup
/-!
# Configurations of Gemma 4

`gemma4TextConfiguration` resolves the attention layout of a Gemma 4 model
from GGUF metadata. `restoring` resolves it again from the shapes of the
converted weights, when the GGUF file may be gone.
-/

namespace Tanpopo.GGUF

open Swift Outcome

/-- A value of a configuration. A whole number is an integer, and a float is kept as what it is the float of. -/
inductive AnyValue where
  | string (value : String)
  | integer (value : Int)
  | boolean (value : Bool)
  | float (value : MetadataValue)
  | number (value : ℚ)
  | array (values : List AnyValue)
  | dictionary (pairs : List (String × AnyValue))

abbrev Configuration := String → Option AnyValue

def configuration (pairs : List (String × AnyValue)) : Configuration := fun key => pairs.lookup key

def AnyValue.asString : AnyValue → Option String
  | .string value => some value
  | _ => none

def AnyValue.asInteger : AnyValue → Option Int
  | .integer value => some value
  | _ => none

/-- `as? [String]`. -/
def AnyValue.asStrings : AnyValue → Option (List String)
  | .array values => values.mapM AnyValue.asString
  | _ => none

def unsupportedVariant (reason : String) : LoaderError := .unsupportedArchitectureVariant "gemma4" reason

/-! ## The attention layout -/

structure AttentionLayout where
  slidingKVHeads : Int
  globalKVHeads : Int
  globalKeyEqualsValue : Bool
  deriving DecidableEq

/-- The head counts of the layers of one type. -/
def countsOf (type : String) (layerTypes : List String) (headCounts : List Int) : List Int :=
  ((layerTypes.zip headCounts).filter fun layer => layer.1 = type).map Prod.snd

def resolve (layerTypes : List String) (headCounts : List Int) (globalValueProjectionPresence : List Bool) :
    Outcome LoaderError AttentionLayout := do
  Outcome.guard (layerTypes ≠ [] ∧ layerTypes.length = headCounts.length ∧ (∀ count ∈ headCounts, 0 < count) ∧
    ∀ type ∈ layerTypes, type = "sliding_attention" ∨ type = "full_attention") LoaderError.invalidSize
  let slidingCounts := (countsOf "sliding_attention" layerTypes headCounts).dedup
  let globalCounts := (countsOf "full_attention" layerTypes headCounts).dedup
  Outcome.guard (slidingCounts.length ≤ 1 ∧ globalCounts.length ≤ 1 ∧ globalValueProjectionPresence.dedup.length ≤ 1)
    (unsupportedVariant "相同注意力型別的逐層 KV 頭數或 K/V 共用方式不一致")
  let slidingHeads := slidingCounts.head?.getD (headCounts.headD 0)
  let globalHeads := globalCounts.head?.getD slidingHeads
  let keyEqualsValue : Bool := globalValueProjectionPresence.head? = some false
  Outcome.guard (keyEqualsValue = true ∨ globalHeads = slidingHeads)
    (unsupportedVariant "不同全域 KV 頭數搭配獨立 V 投影的布局尚未受 Runtime 支援")
  return ⟨slidingHeads, globalHeads, keyEqualsValue⟩

def AttentionLayout.applying (layout : AttentionLayout) (configuration : Configuration) : Configuration :=
  let sliding := Function.update configuration "num_key_value_heads" (some (.integer layout.slidingKVHeads))
  let global := Function.update sliding "num_global_key_value_heads" (some (.integer layout.globalKVHeads))
  Function.update global "attention_k_eq_v" (some (.boolean layout.globalKeyEqualsValue))

/-! ## From metadata -/

def MetadataValue.booleanValue : MetadataValue → Option Bool
  | .boolean value => some value
  | _ => none

/-- What `contains` and the normalizer of weight names say of tensor names. -/
structure TensorNaming where
  contains : String → String → Bool
  unmappedNames : List String → List String

section Metadata
variable (naming : TensorNaming) (metadata : MetadataTable) (keyPrefix : String) (tensorNames : List String)

/-- `arrayOfIntegers` and `arrayOfBooleans`: every element has to have a value. -/
def arrayOfValues {α : Type} (value : MetadataValue → Option α) (key : String) : Option (List α) :=
  ((metadata key).bind MetadataValue.arrayValue).bind fun values => values.mapM value

structure Gemma4Sizes where
  hiddenSize : Int
  hiddenLayers : Int
  attentionHeads : Int
  vocabularySize : Int
  slidingHeadDim : Int
  globalHeadDim : Int
  hiddenSizePerLayerInput : Int
  sharedKVLayers : Int

def Gemma4Sizes.Valid (sizes : Gemma4Sizes) : Prop :=
  0 < sizes.hiddenSize ∧ 0 < sizes.hiddenLayers ∧ 0 < sizes.attentionHeads ∧ 0 < sizes.vocabularySize ∧
    0 < sizes.slidingHeadDim ∧ 0 < sizes.globalHeadDim ∧ 0 ≤ sizes.hiddenSizePerLayerInput ∧
    0 ≤ sizes.sharedKVLayers ∧ sizes.sharedKVLayers < sizes.hiddenLayers

instance (sizes : Gemma4Sizes) : Decidable sizes.Valid := by unfold Gemma4Sizes.Valid; infer_instance

def gemma4Sizes : Outcome LoaderError Gemma4Sizes := do
  let hiddenSize ← ofOption .invalidSize (integer metadata (keyPrefix ++ ".embedding_length"))
  let hiddenLayers ← ofOption .invalidSize (integer metadata (keyPrefix ++ ".block_count"))
  let attentionHeads ← ofOption .invalidSize (integer metadata (keyPrefix ++ ".attention.head_count"))
  let tokens ← ofOption .invalidSize ((metadata "tokenizer.ggml.tokens").bind MetadataValue.arrayValue)
  let slidingHeadDim ← ofOption .invalidSize (integer metadata (keyPrefix ++ ".attention.key_length_swa"))
  let globalHeadDim ← ofOption .invalidSize (integer metadata (keyPrefix ++ ".attention.key_length"))
  let hiddenSizePerLayerInput ← ofOption .invalidSize (integer metadata (keyPrefix ++ ".embedding_length_per_layer_input"))
  let sharedKVLayers ← ofOption .invalidSize (integer metadata (keyPrefix ++ ".attention.shared_kv_layers"))
  let sizes : Gemma4Sizes :=
    ⟨hiddenSize, hiddenLayers, attentionHeads, tokens.length, slidingHeadDim, globalHeadDim, hiddenSizePerLayerInput,
      sharedKVLayers⟩
  Outcome.guard sizes.Valid LoaderError.invalidSize
  return sizes

def isExpertName (name : String) : Bool :=
  naming.contains name ".ffn_gate_inp." || naming.contains name ".ffn_gate_exps." ||
    naming.contains name ".ffn_up_exps." || naming.contains name ".ffn_down_exps."

def gemma4LayerTypes (hiddenLayers : Int) : Outcome LoaderError (List String) := do
  let missing := unsupportedVariant "缺少完整的逐層 sliding_window_pattern"
  let pattern ← ofOption missing
    (arrayOfValues metadata MetadataValue.booleanValue (keyPrefix ++ ".attention.sliding_window_pattern"))
  Outcome.guard ((pattern.length : Int) = hiddenLayers) missing
  return pattern.map fun sliding => if sliding then "sliding_attention" else "full_attention"

structure Gemma4FeedForwardLayout where
  intermediateSize : Int
  usesDoubleWideMLP : Bool

/-- One value for every layer, or a value of its own for each. -/
def perLayer (key : String) (hiddenLayers : Int) : Option (List Int) :=
  match integer metadata key with
  | some scalar => some (List.replicate hiddenLayers.toNat scalar)
  | none => (arrayOfValues metadata MetadataValue.integerValue key).filter fun values => (values.length : Int) = hiddenLayers

/-- Whether `values` doubles from the first shared layer on. Swift's `*` traps on overflow. -/
def doublesAt (firstSharedLayer : Nat) (values : List Int) (baseSize : Int) : Outcome LoaderError Bool :=
  if ¬ ∀ value ∈ values.take firstSharedLayer, value = baseSize then return false
  else if 2 ^ 63 ≤ baseSize * 2 then trap
  else return ∀ value ∈ values.drop firstSharedLayer, value = baseSize * 2

def gemma4FeedForwardLayout (hiddenLayers sharedKVLayers : Int) : Outcome LoaderError Gemma4FeedForwardLayout := do
  let values ← ofOption (unsupportedVariant "feed_forward_length 不是純量或完整的逐層陣列")
    (perLayer metadata (keyPrefix ++ ".feed_forward_length") hiddenLayers)
  let baseSize ← ofOption .invalidSize values.head?
  Outcome.guard (∀ value ∈ values, 0 < value) LoaderError.invalidSize
  if ∀ value ∈ values, value = baseSize then return ⟨baseSize, false⟩
  else do
    let unrepresentable := unsupportedVariant "逐層 FFN 尺寸無法由目前的共享 K/V 雙寬 MLP 規則表示"
    Outcome.guard (0 < sharedKVLayers) unrepresentable
    let doubles ← doublesAt (hiddenLayers - sharedKVLayers).toNat values baseSize
    Outcome.guard (doubles = true) unrepresentable
    return ⟨baseSize, true⟩

def kvHeadsByLayer (hiddenLayers attentionHeads : Int) : Outcome LoaderError (List Int) :=
  let kvHeadKey := keyPrefix ++ ".attention.head_count_kv"
  match perLayer metadata kvHeadKey hiddenLayers with
  | some heads => ok heads
  | none =>
    if (metadata kvHeadKey).isNone then ok (List.replicate hiddenLayers.toNat attentionHeads)
    else threw (unsupportedVariant "head_count_kv 不是純量或完整的逐層陣列")

/-- For the full layers before the shared tail that have a key projection, whether they have a value projection. -/
def fullAttentionValueProjections (layerTypes : List String) (ownLayers : Nat) : List Bool :=
  let layers := (layerTypes.take ownLayers).zipIdx.filter fun layer =>
    layer.1 = "full_attention" ∧ tensorNames.contains ("blk." ++ toString layer.2 ++ ".attn_k.weight")
  layers.map fun layer => tensorNames.contains ("blk." ++ toString layer.2 ++ ".attn_v.weight")

/-- `float(key) ?? value`. -/
def floatOr (key : String) (value : ℚ) : AnyValue :=
  match (metadata (keyPrefix ++ key)).filter MetadataValue.isNumber with
  | some found => .float found
  | none => .number value

def integerOr (key : String) (value : Int) : AnyValue := .integer ((integer metadata (keyPrefix ++ key)).getD value)

def fullPartialRotaryFactor (globalHeadDim : Int) : ℚ :=
  let fullRotaryDimensions := (integer metadata (keyPrefix ++ ".rope.dimension_count")).getD globalHeadDim
  single (single fullRotaryDimensions / single globalHeadDim)

def gemma4Pairs (sizes : Gemma4Sizes) (layerTypes : List String) (feedForwardLayout : Gemma4FeedForwardLayout) :
    List (String × AnyValue) :=
  [("model_type", .string "gemma4_text"), ("architectures", .array [.string "Gemma4ForCausalLM"]),
    ("hidden_size", .integer sizes.hiddenSize), ("num_hidden_layers", .integer sizes.hiddenLayers),
    ("intermediate_size", .integer feedForwardLayout.intermediateSize),
    ("num_attention_heads", .integer sizes.attentionHeads), ("head_dim", .integer sizes.slidingHeadDim),
    ("global_head_dim", .integer sizes.globalHeadDim),
    ("rms_norm_eps", floatOr metadata keyPrefix ".attention.layer_norm_rms_epsilon" (1 / 10 ^ 6)),
    ("vocab_size", .integer sizes.vocabularySize), ("vocab_size_per_layer_input", .integer sizes.vocabularySize),
    ("num_kv_shared_layers", .integer sizes.sharedKVLayers),
    ("hidden_size_per_layer_input", .integer sizes.hiddenSizePerLayerInput),
    ("sliding_window", integerOr metadata keyPrefix ".attention.sliding_window" 512),
    ("max_position_embeddings", integerOr metadata keyPrefix ".context_length" 131072),
    ("final_logit_softcapping", floatOr metadata keyPrefix ".final_logit_softcapping" 30),
    ("use_double_wide_mlp", .boolean feedForwardLayout.usesDoubleWideMLP),
    ("layer_types", .array (layerTypes.map .string)),
    ("tie_word_embeddings", .boolean (! tensorNames.contains "output.weight")),
    ("rope_parameters", .dictionary
      [("sliding_attention", .dictionary
          [("rope_theta", floatOr metadata keyPrefix ".rope.freq_base_swa" 10000), ("rope_type", .string "default")]),
        ("full_attention", .dictionary
          [("rope_theta", floatOr metadata keyPrefix ".rope.freq_base" 1000000),
            ("partial_rotary_factor", .number (fullPartialRotaryFactor metadata keyPrefix sizes.globalHeadDim)),
            ("rope_type", .string "proportional")])])]

def gemma4TextConfiguration : Outcome LoaderError Configuration := do
  let sizes ← gemma4Sizes metadata keyPrefix
  Outcome.guard (tensorNames.filter (isExpertName naming) = [])
    (unsupportedVariant "目前 MLX 文字模型尚未提供 GGUF MoE expert 權重布局")
  let layerTypes ← gemma4LayerTypes metadata keyPrefix sizes.hiddenLayers
  let feedForwardLayout ← gemma4FeedForwardLayout metadata keyPrefix sizes.hiddenLayers sizes.sharedKVLayers
  Outcome.guard (naming.unmappedNames tensorNames = [])
    (LoaderError.unmappedWeights "gemma4" ((naming.unmappedNames tensorNames).take 8))
  let factor := fullPartialRotaryFactor metadata keyPrefix sizes.globalHeadDim
  Outcome.guard (0 < factor ∧ factor ≤ 1) LoaderError.invalidSize
  let headCounts ← kvHeadsByLayer metadata keyPrefix sizes.hiddenLayers sizes.attentionHeads
  let presence := fullAttentionValueProjections tensorNames layerTypes (sizes.hiddenLayers - sizes.sharedKVLayers).toNat
  let attentionLayout ← resolve layerTypes headCounts presence
  return attentionLayout.applying (configuration (gemma4Pairs metadata keyPrefix tensorNames sizes layerTypes feedForwardLayout))

end Metadata

/-! ## From weights -/

/-- The shapes of the normalized weights, by name. -/
abbrev WeightShapes := String → Option (List Int)

/-- The output rows of a matrix. -/
def outputRows : List Int → Option Int
  | [rows, _] => some rows
  | _ => none

def projectionName (index : Nat) (projection : String) : String :=
  "model.layers." ++ toString index ++ ".self_attn." ++ projection

/-- What the loop over the layers with projections of their own has seen. -/
structure Observation where
  observedHeads : Nat → Option Int
  typeHeads : String → Option Int
  fullValueProjections : List Bool

def Observation.empty : Observation := ⟨fun _ => none, fun _ => none, []⟩

def observe (slidingHeadDim globalHeadDim : Int) (weightShapes : WeightShapes) (seen : Observation) (layer : String × Nat) :
    Outcome LoaderError Observation := do
  let keyName := projectionName layer.2 "k_proj.weight"
  let keyShape ← ofOption (.invalidTensor keyName) (weightShapes keyName)
  let isSliding : Bool := layer.1 = "sliding_attention"
  let headDim := if isSliding then slidingHeadDim else globalHeadDim
  let rows ← ofOption (.invalidTensor keyName) (outputRows keyShape)
  Outcome.guard (0 < rows ∧ rows % headDim = 0) (LoaderError.invalidTensor keyName)
  let valueName := projectionName layer.2 "v_proj.weight"
  let valueShape := weightShapes valueName
  Outcome.guard (∀ shape ∈ valueShape.toList, outputRows shape = some rows) (LoaderError.invalidTensor valueName)
  Outcome.guard (¬ (isSliding = true ∧ valueShape = none)) (unsupportedVariant "局部注意力層缺少獨立 V 投影")
  let projections := if isSliding then seen.fullValueProjections else seen.fullValueProjections ++ [valueShape.isSome]
  return ⟨Function.update seen.observedHeads layer.2 (some (rows / headDim)),
    Function.update seen.typeHeads layer.1 (some (rows / headDim)), projections⟩

/-- The head count of a layer, which a layer of the shared tail takes from the others of its type. -/
def Observation.headCount (seen : Observation) (layer : String × Nat) : Outcome LoaderError Int :=
  ofOption (unsupportedVariant "Fast GGUF 缺少可還原 KV 頭數的注意力權重")
    ((seen.observedHeads layer.2).or (seen.typeHeads layer.1))

def gemma4ModelTypes : List String := ["gemma4", "gemma4_text", "gemma4_unified"]

/-- The fields that `restoring` reads. -/
structure RestoringFields where
  layerTypes : List String
  layerCount : Int
  slidingHeadDim : Int
  globalHeadDim : Int
  sharedLayers : Int
  deriving DecidableEq

def restoringFields (configuration : Configuration) : Option RestoringFields := do
  let layerTypes ← (configuration "layer_types").bind AnyValue.asStrings
  let layerCount ← (configuration "num_hidden_layers").bind AnyValue.asInteger
  let slidingHeadDim ← (configuration "head_dim").bind AnyValue.asInteger
  let globalHeadDim ← (configuration "global_head_dim").bind AnyValue.asInteger
  let sharedLayers := ((configuration "num_kv_shared_layers").bind AnyValue.asInteger).getD 0
  return ⟨layerTypes, layerCount, slidingHeadDim, globalHeadDim, sharedLayers⟩

def RestoringFields.Valid (fields : RestoringFields) : Prop :=
  0 < fields.layerCount ∧ (fields.layerTypes.length : Int) = fields.layerCount ∧ 0 < fields.slidingHeadDim ∧
    0 < fields.globalHeadDim ∧ 0 ≤ fields.sharedLayers ∧ fields.sharedLayers < fields.layerCount

instance (fields : RestoringFields) : Decidable fields.Valid := by unfold RestoringFields.Valid; infer_instance

/-- The layers before the shared tail. -/
def RestoringFields.ownLayers (fields : RestoringFields) : Nat := (fields.layerCount - fields.sharedLayers).toNat

def restoredLayout (fields : RestoringFields) (weightShapes : WeightShapes) : Outcome LoaderError AttentionLayout := do
  let seen ← (fields.layerTypes.take fields.ownLayers).zipIdx.foldlM
    (observe fields.slidingHeadDim fields.globalHeadDim weightShapes) Observation.empty
  let headCounts ← fields.layerTypes.zipIdx.mapM seen.headCount
  resolve fields.layerTypes headCounts seen.fullValueProjections

def isGemma4 (configuration : Configuration) : Bool :=
  ((configuration "model_type").bind AnyValue.asString).any gemma4ModelTypes.contains

def restoring (configuration : Configuration) (weightShapes : WeightShapes) : Outcome LoaderError Configuration :=
  if isGemma4 configuration then do
    let fields ← ofOption .invalidSize (restoringFields configuration)
    Outcome.guard fields.Valid LoaderError.invalidSize
    let layout ← restoredLayout fields weightShapes
    return layout.applying configuration
  else return configuration

end Tanpopo.GGUF
