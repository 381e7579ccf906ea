import Tanpopo.GGUF.Gemma4
/-!
# Configurations from untrusted metadata

The builders of a model's configuration. Swift stops the process at a division
by zero, at an `Int` that overflows and at an index that is out of range;
`builders_trap_iff` says which metadata makes a builder do so.
-/

namespace Tanpopo.GGUF

open Swift Outcome

/-! ## Arithmetic of `Int` -/

/-- A result that has to fit into an `Int`. -/
def fitting (result : Int) : Outcome LoaderError Int := if -2 ^ 63 ≤ result ∧ result < 2 ^ 63 then ok result else trap

/-- `a / b`, which truncates. -/
def quotient (a b : Int) : Outcome LoaderError Int := if b = 0 then trap else fitting (a.tdiv b)

/-- `array[index]`. -/
def element {α : Type} (array : List α) (index : Int) : Outcome LoaderError α :=
  if 0 ≤ index then
    match array[index.toNat]? with
    | some value => ok value
    | none => trap
  else trap

/-- `array[..<index]`. -/
def sliceBefore {α : Type} (array : List α) (index : Int) : Outcome LoaderError (List α) :=
  if 0 ≤ index ∧ index ≤ array.length then ok (array.take index.toNat) else trap

/-- `array[index...]`. -/
def sliceFrom {α : Type} (array : List α) (index : Int) : Outcome LoaderError (List α) :=
  if 0 ≤ index ∧ index ≤ array.length then ok (array.drop index.toNat) else trap

/-- `0..<bound`. -/
def indicesBelow (bound : Int) : Outcome LoaderError (List Nat) := if 0 ≤ bound then ok (List.range bound.toNat) else trap

/-! ## The builders -/

section Builders
variable (naming : TensorNaming) (metadata : MetadataTable) (keyPrefix : String) (tensorNames : List String)

structure TextSizes where
  hiddenSize : Int
  hiddenLayers : Int
  intermediateSize : Int
  attentionHeads : Int
  vocabularySize : Int

def TextSizes.Valid (sizes : TextSizes) : Prop :=
  0 < sizes.hiddenSize ∧ 0 < sizes.hiddenLayers ∧ 0 < sizes.intermediateSize ∧ 0 < sizes.attentionHeads ∧ 0 < sizes.vocabularySize

instance (sizes : TextSizes) : Decidable sizes.Valid := by unfold TextSizes.Valid; infer_instance

def tokenCount : Option Int := ((metadata "tokenizer.ggml.tokens").bind MetadataValue.arrayValue).map fun tokens => (tokens.length : Int)

/-- The guard that most builders begin with. -/
def textSizes (vocabularySize : Option Int) : Outcome LoaderError TextSizes := do
  let hiddenSize ← ofOption .invalidSize (integer metadata (keyPrefix ++ ".embedding_length"))
  let hiddenLayers ← ofOption .invalidSize (integer metadata (keyPrefix ++ ".block_count"))
  let intermediateSize ← ofOption .invalidSize (integer metadata (keyPrefix ++ ".feed_forward_length"))
  let attentionHeads ← ofOption .invalidSize (integer metadata (keyPrefix ++ ".attention.head_count"))
  let vocabularySize ← ofOption .invalidSize vocabularySize
  let sizes : TextSizes := ⟨hiddenSize, hiddenLayers, intermediateSize, attentionHeads, vocabularySize⟩
  Outcome.guard sizes.Valid LoaderError.invalidSize
  return sizes

/-- `integer(key_length) ?? hiddenSize / attentionHeads`. -/
def headDimension (sizes : TextSizes) : Outcome LoaderError Int :=
  match integer metadata (keyPrefix ++ ".attention.key_length") with
  | some headDim => ok headDim
  | none => quotient sizes.hiddenSize sizes.attentionHeads

/-- `metadata[key]?.arrayValue?.compactMap(\.floatValue)`. -/
def arrayOfFloats (key : String) : Option (List MetadataValue) :=
  ((metadata key).bind MetadataValue.arrayValue).map (List.filter MetadataValue.isNumber)

/-- `rope_scaling`, where a factor is given. -/
def ropeScaling : List (String × AnyValue) :=
  match (metadata (keyPrefix ++ ".rope.scaling.factor")).filter MetadataValue.isNumber with
  | some factor =>
    [("rope_scaling", .dictionary [("factor", .float factor),
      ("rope_type", .string (((metadata (keyPrefix ++ ".rope.scaling.type")).bind MetadataValue.stringValue).getD "linear"))])]
  | none => []

def qwen35TextConfiguration : Outcome LoaderError Configuration := do
  let sizes ← textSizes metadata "qwen35" (tokenCount metadata)
  let kvHeads ← ofOption .invalidSize (integer metadata "qwen35.attention.head_count_kv")
  Outcome.guard (0 < kvHeads) LoaderError.invalidSize
  let predictedLayers := (integer metadata "qwen35.nextn_predict_layers").getD 0
  Outcome.guard (0 ≤ predictedLayers ∧ predictedLayers < sizes.hiddenLayers) LoaderError.invalidSize
  let hiddenLayers ← fitting (sizes.hiddenLayers - predictedLayers)
  Outcome.guard (0 < hiddenLayers) LoaderError.invalidSize
  let headDim ← headDimension metadata "qwen35" sizes
  let valueHeadDim := (integer metadata "qwen35.ssm.state_size").getD 128
  let groups ← quotient ((integer metadata "qwen35.ssm.inner_size").getD valueHeadDim) valueHeadDim
  let valueHeads := max 1 groups
  let keyHeads := (integer metadata "qwen35.ssm.group_count").getD 16
  let ropeSections := (arrayOfValues metadata MetadataValue.integerValue "qwen35.rope.dimension_sections").getD [11, 11, 10]
  return configuration
    [("model_type", .string "qwen3_5_text"), ("hidden_size", .integer sizes.hiddenSize), ("num_hidden_layers", .integer hiddenLayers),
      ("intermediate_size", .integer sizes.intermediateSize), ("num_attention_heads", .integer sizes.attentionHeads),
      ("num_key_value_heads", .integer kvHeads), ("linear_num_value_heads", .integer valueHeads),
      ("linear_num_key_heads", .integer keyHeads), ("linear_key_head_dim", .integer valueHeadDim),
      ("linear_value_head_dim", .integer valueHeadDim), ("linear_conv_kernel_dim", integerOr metadata "qwen35" ".ssm.conv_kernel" 4),
      ("rms_norm_eps", floatOr metadata "qwen35" ".attention.layer_norm_rms_epsilon" (1 / 10 ^ 6)),
      ("vocab_size", .integer sizes.vocabularySize), ("head_dim", .integer headDim),
      ("max_position_embeddings", integerOr metadata "qwen35" ".context_length" 131072), ("partial_rotary_factor", .number (1 / 4)),
      ("full_attention_interval", integerOr metadata "qwen35" ".full_attention_interval" 4),
      ("mtp_num_hidden_layers", .integer predictedLayers), ("mtp_use_dedicated_embeddings", .boolean false),
      ("tie_word_embeddings", .boolean false), ("attention_bias", .boolean false),
      ("rope_parameters", .dictionary [("type", .string "default"), ("mrope_section", .array (ropeSections.map .integer)),
        ("rope_theta", floatOr metadata "qwen35" ".rope.freq_base" 10000000), ("partial_rotary_factor", .number (1 / 4))])]

structure VisionSizes where
  depth : Int
  hiddenSize : Int
  intermediateSize : Int
  numHeads : Int
  outHiddenSize : Int

def VisionSizes.Valid (sizes : VisionSizes) : Prop :=
  0 < sizes.depth ∧ 0 < sizes.hiddenSize ∧ 0 < sizes.intermediateSize ∧ 0 < sizes.numHeads ∧ 0 < sizes.outHiddenSize

instance (sizes : VisionSizes) : Decidable sizes.Valid := by unfold VisionSizes.Valid; infer_instance

def visionSizes : Outcome LoaderError VisionSizes := do
  let depth ← ofOption .invalidSize (integer metadata "clip.vision.block_count")
  let hiddenSize ← ofOption .invalidSize (integer metadata "clip.vision.embedding_length")
  let intermediateSize ← ofOption .invalidSize (integer metadata "clip.vision.feed_forward_length")
  let numHeads ← ofOption .invalidSize (integer metadata "clip.vision.attention.head_count")
  let outHiddenSize ← ofOption .invalidSize (integer metadata "clip.vision.projection_dim")
  let sizes : VisionSizes := ⟨depth, hiddenSize, intermediateSize, numHeads, outHiddenSize⟩
  Outcome.guard sizes.Valid LoaderError.invalidSize
  return sizes

def qwen35VisionConfiguration : Outcome LoaderError Configuration := do
  let sizes ← visionSizes metadata
  let imageSize := (integer metadata "clip.vision.image_size").getD 768
  let patchSize := (integer metadata "clip.vision.patch_size").getD 16
  let rows ← quotient imageSize patchSize
  let columns ← quotient imageSize patchSize
  let patches ← fitting (rows * columns)
  let numPositionEmbeddings := max 1 patches
  return configuration
    [("model_type", .string "qwen3_5"), ("depth", .integer sizes.depth), ("hidden_size", .integer sizes.hiddenSize),
      ("intermediate_size", .integer sizes.intermediateSize), ("out_hidden_size", .integer sizes.outHiddenSize),
      ("num_heads", .integer sizes.numHeads), ("patch_size", .integer patchSize),
      ("spatial_merge_size", integerOr metadata "clip.vision" ".spatial_merge_size" 2), ("temporal_patch_size", .integer 2),
      ("num_position_embeddings", .integer numPositionEmbeddings), ("in_channels", .integer 3),
      ("hidden_act", .string (if (metadata "clip.use_gelu").bind MetadataValue.booleanValue = some true then "gelu_pytorch_tanh" else "gelu")),
      ("deepstack_visual_indexes", .array [])]

def gemma3TextConfiguration : Outcome LoaderError Configuration := do
  let sizes ← textSizes metadata keyPrefix (tokenCount metadata)
  let unmappedNames := naming.unmappedNames tensorNames
  Outcome.guard (unmappedNames = []) (LoaderError.unmappedWeights "gemma3" (unmappedNames.take 8))
  let headDim ← headDimension metadata keyPrefix sizes
  let queryPreAttnScalar :=
    match (metadata (keyPrefix ++ ".attention.query_pre_attn_scalar")).filter MetadataValue.isNumber with
    | some found => AnyValue.float found
    | none => .number (single headDim)
  return configuration
    ([("model_type", .string "gemma3_text"), ("architectures", .array [.string "Gemma3ForCausalLM"]),
      ("hidden_size", .integer sizes.hiddenSize), ("num_hidden_layers", .integer sizes.hiddenLayers),
      ("intermediate_size", .integer sizes.intermediateSize), ("num_attention_heads", .integer sizes.attentionHeads),
      ("num_key_value_heads", integerOr metadata keyPrefix ".attention.head_count_kv" sizes.attentionHeads), ("head_dim", .integer headDim),
      ("rms_norm_eps", floatOr metadata keyPrefix ".attention.layer_norm_rms_epsilon" (1 / 10 ^ 6)),
      ("vocab_size", .integer sizes.vocabularySize), ("rope_theta", floatOr metadata keyPrefix ".rope.freq_base" 1000000),
      ("rope_local_base_freq", floatOr metadata keyPrefix ".rope.freq_base_swa" 10000), ("rope_traditional", .boolean false),
      ("query_pre_attn_scalar", queryPreAttnScalar), ("sliding_window", integerOr metadata keyPrefix ".attention.sliding_window" 1024),
      ("sliding_window_pattern", integerOr metadata keyPrefix ".attention.sliding_window_pattern" 6),
      ("max_position_embeddings", integerOr metadata keyPrefix ".context_length" 131072)] ++ ropeScaling metadata keyPrefix)

def apertusConfiguration : Outcome LoaderError Configuration := do
  let sizes ← textSizes metadata keyPrefix ((integer metadata (keyPrefix ++ ".vocab_size")).or (tokenCount metadata))
  let xieluKeys := ["alpha_p", "alpha_n", "beta", "eps"]
  xieluKeys.forM fun key => do
    let missing := LoaderError.unsupportedArchitectureVariant "apertus" ("缺少完整的逐層 xIELU " ++ key ++ " 參數")
    let values ← ofOption missing (arrayOfFloats metadata ("xielu." ++ key))
    Outcome.guard ((values.length : Int) = sizes.hiddenLayers) missing
  let unmappedNames := naming.unmappedNames tensorNames
  Outcome.guard (unmappedNames = []) (LoaderError.unmappedWeights "apertus" (unmappedNames.take 8))
  return configuration
    ([("model_type", .string "apertus"), ("architectures", .array [.string "ApertusForCausalLM"]),
      ("hidden_size", .integer sizes.hiddenSize), ("num_hidden_layers", .integer sizes.hiddenLayers),
      ("intermediate_size", .integer sizes.intermediateSize), ("num_attention_heads", .integer sizes.attentionHeads),
      ("num_key_value_heads", integerOr metadata keyPrefix ".attention.head_count_kv" sizes.attentionHeads),
      ("rms_norm_eps", floatOr metadata keyPrefix ".attention.layer_norm_rms_epsilon" (1 / 10 ^ 5)),
      ("vocab_size", .integer sizes.vocabularySize), ("tie_word_embeddings", .boolean (! tensorNames.contains "output.weight")),
      ("max_position_embeddings", integerOr metadata keyPrefix ".context_length" 262144),
      ("rope_theta", floatOr metadata keyPrefix ".rope.freq_base" 1000000), ("rope_traditional", .boolean false)] ++
      ropeScaling metadata keyPrefix)

def standardTextConfiguration (modelType : String) : Outcome LoaderError Configuration := do
  let sizes ← textSizes metadata keyPrefix (tokenCount metadata)
  let headDim ← headDimension metadata keyPrefix sizes
  return configuration
    [("model_type", .string modelType), ("hidden_size", .integer sizes.hiddenSize), ("num_hidden_layers", .integer sizes.hiddenLayers),
      ("intermediate_size", .integer sizes.intermediateSize), ("num_attention_heads", .integer sizes.attentionHeads),
      ("num_key_value_heads", integerOr metadata keyPrefix ".attention.head_count_kv" sizes.attentionHeads), ("head_dim", .integer headDim),
      ("rms_norm_eps", floatOr metadata keyPrefix ".attention.layer_norm_rms_epsilon" (1 / 10 ^ 6)),
      ("vocab_size", .integer sizes.vocabularySize), ("max_position_embeddings", integerOr metadata keyPrefix ".context_length" 32768),
      ("rope_theta", floatOr metadata keyPrefix ".rope.freq_base" 1000000), ("tie_word_embeddings", .boolean false)]

/-! ### Gemma 4, with its indices -/

/-- `gemma4FeedForwardLayout`, with the slices and products that it computes. -/
def slicedFeedForwardLayout (hiddenLayers sharedKVLayers : Int) : Outcome LoaderError Gemma4FeedForwardLayout := do
  let values ← ofOption (unsupportedVariant "feed_forward_length 不是純量或完整的逐層陣列")
    (perLayer metadata (keyPrefix ++ ".feed_forward_length") hiddenLayers)
  let baseSize ← ofOption .invalidSize values.head?
  Outcome.guard (∀ value ∈ values, 0 < value) LoaderError.invalidSize
  if ∀ value ∈ values, value = baseSize then return ⟨baseSize, false⟩
  else do
    let unrepresentable := unsupportedVariant "逐層 FFN 尺寸無法由目前的共享 K/V 雙寬 MLP 規則表示"
    let firstSharedLayer ← fitting (hiddenLayers - sharedKVLayers)
    Outcome.guard (0 < sharedKVLayers) unrepresentable
    let own ← sliceBefore values firstSharedLayer
    Outcome.guard (∀ value ∈ own, value = baseSize) unrepresentable
    let shared ← sliceFrom values firstSharedLayer
    -- The product is computed again for every value that is compared with it.
    let doubles ← shared.mapM fun value => do
      let doubled ← fitting (baseSize * 2)
      return decide (value = doubled)
    Outcome.guard (∀ equal ∈ doubles, equal = true) unrepresentable
    return ⟨baseSize, true⟩

def indexedValueProjections (layerTypes : List String) (ownLayers : Int) : Outcome LoaderError (List Bool) := do
  let indices ← indicesBelow ownLayers
  let types ← indices.mapM fun index : Nat => element layerTypes (index : Int)
  let layers := (types.zip indices).filter fun layer =>
    layer.1 = "full_attention" ∧ tensorNames.contains ("blk." ++ toString layer.2 ++ ".attn_k.weight")
  return layers.map fun layer => tensorNames.contains ("blk." ++ toString layer.2 ++ ".attn_v.weight")

/-- `gemma4TextConfiguration`, with every index that it uses. -/
def gemma4IndexedConfiguration : Outcome LoaderError Configuration := do
  let sizes ← gemma4Sizes metadata keyPrefix
  Outcome.guard (tensorNames.filter (isExpertName naming) = [])
    (unsupportedVariant "目前 MLX 文字模型尚未提供 GGUF MoE expert 權重布局")
  let layerTypes ← gemma4LayerTypes metadata keyPrefix sizes.hiddenLayers
  let feedForwardLayout ← slicedFeedForwardLayout metadata keyPrefix sizes.hiddenLayers sizes.sharedKVLayers
  Outcome.guard (naming.unmappedNames tensorNames = [])
    (LoaderError.unmappedWeights "gemma4" ((naming.unmappedNames tensorNames).take 8))
  let factor := fullPartialRotaryFactor metadata keyPrefix sizes.globalHeadDim
  Outcome.guard (0 < factor ∧ factor ≤ 1) LoaderError.invalidSize
  let headCounts ← kvHeadsByLayer metadata keyPrefix sizes.hiddenLayers sizes.attentionHeads
  let ownLayers ← fitting (sizes.hiddenLayers - sizes.sharedKVLayers)
  let presence ← indexedValueProjections tensorNames layerTypes ownLayers
  let attentionLayout ← resolve layerTypes headCounts presence
  return attentionLayout.applying (configuration (gemma4Pairs metadata keyPrefix tensorNames sizes layerTypes feedForwardLayout))

end Builders

/-! ## Integers of metadata -/

theorem exactInteger_range {exponentBits mantissaBits bits : Nat} {n : Int} (h : exactInteger exponentBits mantissaBits bits = some n) :
    -2 ^ 63 ≤ n ∧ n < 2 ^ 63 := by
  simp only [exactInteger, Option.ite_none_left_eq_some, Option.ite_none_right_eq_some, Option.some.injEq] at h
  obtain ⟨-, -, hrange, rfl⟩ := h
  exact hrange

theorem integerValue_range {value : MetadataValue} {n : Int} (h : value.integerValue = some n) : -2 ^ 63 ≤ n ∧ n < 2 ^ 63 := by
  cases value with
  | uint8 value => cases h; have := value.toNat_lt; omega
  | int8 value => cases h; have := value.toInt_lt; have := value.le_toInt; omega
  | uint16 value => cases h; have := value.toNat_lt; omega
  | int16 value => cases h; have := value.toInt_lt; have := value.le_toInt; omega
  | uint32 value => cases h; have := value.toNat_lt; omega
  | int32 value => cases h; have := value.toInt_lt; have := value.le_toInt; omega
  | uint64 value =>
    simp only [MetadataValue.integerValue, Option.ite_none_right_eq_some] at h
    obtain ⟨hlt, h⟩ := h
    cases h
    omega
  | int64 value => cases h; exact ⟨value.le_toInt, value.toInt_lt⟩
  | float32 bits => exact exactInteger_range h
  | float64 bits => exact exactInteger_range h
  | boolean value => cases h
  | string value => cases h
  | array values => cases h

theorem integer_range {metadata : MetadataTable} {key : String} {n : Int} (h : integer metadata key = some n) : -2 ^ 63 ≤ n ∧ n < 2 ^ 63 := by
  obtain ⟨value, -, hvalue⟩ := Option.bind_eq_some_iff.1 h
  exact integerValue_range hvalue

/-! ## Which builder traps -/

section
variable {naming : TensorNaming} {metadata : MetadataTable} {keyPrefix : String} {tensorNames : List String}

theorem fitting_ne_trap_iff {result : Int} : fitting result ≠ trap ↔ -2 ^ 63 ≤ result ∧ result < 2 ^ 63 := by
  unfold fitting
  by_cases h : -2 ^ 63 ≤ result ∧ result < 2 ^ 63
  · rw [if_pos h]
    exact iff_of_true nofun h
  · rw [if_neg h]
    exact iff_of_false (fun hne => hne rfl) h

theorem fitting_eq_ok {result value : Int} : fitting result = ok value ↔ (-2 ^ 63 ≤ result ∧ result < 2 ^ 63) ∧ result = value := by
  unfold fitting
  by_cases h : -2 ^ 63 ≤ result ∧ result < 2 ^ 63
  · rw [if_pos h, Outcome.ok.injEq, and_iff_right h]
  · rw [if_neg h]
    exact iff_of_false nofun fun hboth => h hboth.1

/-- A quotient of two integers overflows in one case only. -/
theorem quotient_ne_trap_iff {a b : Int} (ha : -2 ^ 63 ≤ a ∧ a < 2 ^ 63) : quotient a b ≠ trap ↔ b ≠ 0 ∧ ¬ (a = -2 ^ 63 ∧ b = -1) := by
  unfold quotient
  split_ifs with hzero
  · simp [hzero]
  · rw [fitting_ne_trap_iff, and_iff_right hzero]
    constructor
    · rintro ⟨-, hlt⟩ ⟨rfl, rfl⟩
      exact absurd hlt (by decide)
    · intro hcase
      have hbound : (a.tdiv b).natAbs ≤ a.natAbs := by
        rw [Int.natAbs_tdiv]
        exact Nat.div_le_self _ _
      -- A divisor of two and more at least halves the dividend.
      by_cases hone : b.natAbs = 1
      · rcases Int.natAbs_eq b with hb | hb
        all_goals
          rw [hone] at hb
          subst hb
          simp at hcase ⊢
          omega
      · have hhalf : (a.tdiv b).natAbs ≤ a.natAbs / 2 := by
          rw [Int.natAbs_tdiv]
          exact Nat.div_le_div_left (by omega) (by decide)
        omega

theorem textSizes_safe (vocabularySize : Option Int) : (textSizes metadata keyPrefix vocabularySize).Safe fun sizes =>
    sizes.Valid ∧ sizes.hiddenSize < 2 ^ 63 ∧ sizes.hiddenLayers < 2 ^ 63 := by
  unfold textSizes
  refine (safe_ofOption _ _).bind fun hiddenSize hhidden => (safe_ofOption _ _).bind fun hiddenLayers hlayers =>
    (safe_ofOption _ _).bind fun _ _ => (safe_ofOption _ _).bind fun _ _ => (safe_ofOption _ _).bind fun _ _ =>
      (safe_guard _ _).bind fun _ hvalid => ?_
  exact ⟨hvalid, (integer_range hhidden).2, (integer_range hlayers).2⟩

/-- A quotient traps or has a value. -/
theorem quotient_eq_ok {a b : Int} (h : quotient a b ≠ trap) : ∃ value, quotient a b = ok value := by
  unfold quotient fitting at h ⊢
  split_ifs at h ⊢
  · exact absurd rfl h
  · exact ⟨_, rfl⟩
  · exact absurd rfl h

theorem eq_of_quotient {a b value : Int} (h : quotient a b = ok value) : a.tdiv b = value := by
  unfold quotient at h
  split_ifs at h
  exact (fitting_eq_ok.1 h).2

/-- The heads are positive, so that the quotient exists. -/
theorem headDimension_eq_ok {sizes : TextSizes} (hvalid : sizes.Valid) (hlt : sizes.hiddenSize < 2 ^ 63) :
    ∃ headDim, headDimension metadata keyPrefix sizes = ok headDim := by
  unfold headDimension
  split
  · exact ⟨_, rfl⟩
  · obtain ⟨hhidden, -, -, hheads, -⟩ := hvalid
    refine quotient_eq_ok ((quotient_ne_trap_iff ⟨by omega, hlt⟩).2 ?_)
    omega

theorem standardTextConfiguration_ne_trap (modelType : String) : standardTextConfiguration metadata keyPrefix modelType ≠ trap := by
  unfold standardTextConfiguration
  simp only [bind_ne_trap_iff]
  refine ⟨(textSizes_safe _).ne_trap, fun sizes hsizes => ?_⟩
  obtain ⟨hvalid, hlt, -⟩ := (textSizes_safe _).of_eq_ok hsizes
  obtain ⟨headDim, hdim⟩ := headDimension_eq_ok hvalid hlt
  rw [hdim]
  exact ⟨nofun, fun _ _ => nofun⟩

theorem gemma3TextConfiguration_ne_trap : gemma3TextConfiguration naming metadata keyPrefix tensorNames ≠ trap := by
  unfold gemma3TextConfiguration
  simp only [bind_ne_trap_iff]
  refine ⟨(textSizes_safe _).ne_trap, fun sizes hsizes => ⟨guard_ne_trap, fun _ _ => ?_⟩⟩
  obtain ⟨hvalid, hlt, -⟩ := (textSizes_safe _).of_eq_ok hsizes
  obtain ⟨headDim, hdim⟩ := headDimension_eq_ok hvalid hlt
  rw [hdim]
  exact ⟨nofun, fun _ _ => nofun⟩

theorem apertusConfiguration_ne_trap : apertusConfiguration naming metadata keyPrefix tensorNames ≠ trap := by
  unfold apertusConfiguration
  rw [bind_ne_trap_iff]
  refine ⟨(textSizes_safe _).ne_trap, fun sizes _ => ?_⟩
  rw [bind_ne_trap_iff]
  refine ⟨forM_ne_trap fun key _ => ?_, fun _ _ => ?_⟩
  · rw [bind_ne_trap_iff]
    exact ⟨ofOption_ne_trap, fun _ _ => guard_ne_trap⟩
  · rw [bind_ne_trap_iff]
    exact ⟨guard_ne_trap, fun _ _ => nofun⟩

/-! ### Qwen3.5 -/

/-- The sizes that the text builder asks for before it divides. -/
def Qwen35Sized (metadata : MetadataTable) : Prop :=
  ∃ sizes kvHeads, textSizes metadata "qwen35" (tokenCount metadata) = ok sizes ∧ integer metadata "qwen35.attention.head_count_kv" = some kvHeads ∧
    0 < kvHeads ∧ 0 ≤ (integer metadata "qwen35.nextn_predict_layers").getD 0 ∧
      (integer metadata "qwen35.nextn_predict_layers").getD 0 < sizes.hiddenLayers

theorem getD_range {key : String} {other : Int} (h : -2 ^ 63 ≤ other ∧ other < 2 ^ 63) :
    -2 ^ 63 ≤ (integer metadata key).getD other ∧ (integer metadata key).getD other < 2 ^ 63 := by
  cases hkey : integer metadata key with
  | none => exact h
  | some n => exact integer_range hkey

theorem qwen35TextConfiguration_ne_trap_iff : qwen35TextConfiguration metadata ≠ trap ↔ (Qwen35Sized metadata →
    (integer metadata "qwen35.ssm.state_size").getD 128 ≠ 0 ∧
      ¬ (integer metadata "qwen35.ssm.inner_size" = some (-2 ^ 63) ∧ integer metadata "qwen35.ssm.state_size" = some (-1))) := by
  have hstate : -2 ^ 63 ≤ (integer metadata "qwen35.ssm.state_size").getD 128 ∧ (integer metadata "qwen35.ssm.state_size").getD 128 < 2 ^ 63 :=
    getD_range (by decide)
  have hinner : -2 ^ 63 ≤ (integer metadata "qwen35.ssm.inner_size").getD ((integer metadata "qwen35.ssm.state_size").getD 128) ∧
      (integer metadata "qwen35.ssm.inner_size").getD ((integer metadata "qwen35.ssm.state_size").getD 128) < 2 ^ 63 := getD_range hstate
  have hoverflow : ((integer metadata "qwen35.ssm.inner_size").getD ((integer metadata "qwen35.ssm.state_size").getD 128) = -2 ^ 63 ∧
      (integer metadata "qwen35.ssm.state_size").getD 128 = -1) ↔
      integer metadata "qwen35.ssm.inner_size" = some (-2 ^ 63) ∧ integer metadata "qwen35.ssm.state_size" = some (-1) := by
    cases integer metadata "qwen35.ssm.inner_size" <;> cases integer metadata "qwen35.ssm.state_size" <;> simp
    omega
  rw [← hoverflow, ← quotient_ne_trap_iff hinner]
  unfold qwen35TextConfiguration
  constructor
  · rintro h ⟨sizes, kvHeads, hsizes, hkv, hpos, hpredicted⟩ htrap
    obtain ⟨hvalid, hlt, hlayers⟩ := (textSizes_safe _).of_eq_ok hsizes
    obtain ⟨headDim, hdim⟩ : ∃ headDim, headDimension metadata "qwen35" sizes = ok headDim := headDimension_eq_ok hvalid hlt
    have hfitting : fitting (sizes.hiddenLayers - (integer metadata "qwen35.nextn_predict_layers").getD 0) = ok _ :=
      fitting_eq_ok.2 ⟨by omega, rfl⟩
    have hleft : 0 < sizes.hiddenLayers - (integer metadata "qwen35.nextn_predict_layers").getD 0 := by omega
    simp only [hsizes, hkv, ofOption, guard_of hpos, guard_of hpredicted, hfitting, guard_of hleft, hdim, htrap, ok_bind, trap_bind] at h
    exact h rfl
  · intro h
    simp only [bind_ne_trap_iff]
    refine ⟨(textSizes_safe _).ne_trap, fun sizes hsizes => ⟨ofOption_ne_trap, fun kvHeads hkv => ⟨guard_ne_trap, fun _ hpos =>
      ⟨guard_ne_trap, fun _ hpredicted => ?_⟩⟩⟩⟩
    obtain ⟨hvalid, hlt, hlayers⟩ := (textSizes_safe _).of_eq_ok hsizes
    obtain ⟨headDim, hdim⟩ := headDimension_eq_ok hvalid hlt
    have hpredicted := guard_eq_ok.1 hpredicted
    rw [hdim]
    refine ⟨fitting_ne_trap_iff.2 (by omega), fun _ _ => ⟨guard_ne_trap, fun _ _ => ⟨(by rintro ⟨⟩), fun _ _ => ⟨?_, fun _ _ => by rintro ⟨⟩⟩⟩⟩⟩
    exact h ⟨sizes, kvHeads, hsizes, ofOption_eq_ok.1 hkv, guard_eq_ok.1 hpos, hpredicted⟩

theorem qwen35VisionConfiguration_ne_trap_iff : qwen35VisionConfiguration metadata ≠ trap ↔ ((∃ sizes, visionSizes metadata = ok sizes) →
    (integer metadata "clip.vision.patch_size").getD 16 ≠ 0 ∧
      ¬ (integer metadata "clip.vision.image_size" = some (-2 ^ 63) ∧ integer metadata "clip.vision.patch_size" = some (-1)) ∧
      ((integer metadata "clip.vision.image_size").getD 768).tdiv ((integer metadata "clip.vision.patch_size").getD 16) ^ 2 < 2 ^ 63) := by
  have himage : -2 ^ 63 ≤ (integer metadata "clip.vision.image_size").getD 768 ∧ (integer metadata "clip.vision.image_size").getD 768 < 2 ^ 63 :=
    getD_range (by decide)
  have hsafe : visionSizes metadata ≠ trap := by
    unfold visionSizes
    simp only [bind_ne_trap_iff]
    exact ⟨ofOption_ne_trap, fun _ _ => ⟨ofOption_ne_trap, fun _ _ => ⟨ofOption_ne_trap, fun _ _ => ⟨ofOption_ne_trap, fun _ _ =>
      ⟨ofOption_ne_trap, fun _ _ => ⟨guard_ne_trap, fun _ _ => nofun⟩⟩⟩⟩⟩⟩
  have hoverflow : ((integer metadata "clip.vision.image_size").getD 768 = -2 ^ 63 ∧ (integer metadata "clip.vision.patch_size").getD 16 = -1) ↔
      integer metadata "clip.vision.image_size" = some (-2 ^ 63) ∧ integer metadata "clip.vision.patch_size" = some (-1) := by
    cases integer metadata "clip.vision.image_size" <;> cases integer metadata "clip.vision.patch_size" <;> simp
  rw [← hoverflow, ← and_assoc, ← quotient_ne_trap_iff himage]
  unfold qwen35VisionConfiguration
  simp only [bind_ne_trap_iff]
  rw [and_iff_right hsafe]
  constructor
  · rintro h ⟨sizes, hsizes⟩
    obtain ⟨hquotient, hrows⟩ := h sizes hsizes
    obtain ⟨rows, hrow⟩ := quotient_eq_ok hquotient
    obtain ⟨-, hcolumns⟩ := hrows rows hrow
    refine ⟨hquotient, ?_⟩
    rw [eq_of_quotient hrow, pow_two]
    exact (fitting_ne_trap_iff.1 (hcolumns rows hrow).1).2
  · intro h sizes hsizes
    obtain ⟨hquotient, hsquare⟩ := h ⟨sizes, hsizes⟩
    refine ⟨hquotient, fun rows hrow => ⟨hquotient, fun columns hcolumn => ⟨?_, fun _ _ => nofun⟩⟩⟩
    obtain rfl : rows = columns := Outcome.ok.inj (hrow.symm.trans hcolumn)
    rw [eq_of_quotient hrow, pow_two] at hsquare
    have hpos := mul_self_nonneg rows
    exact fitting_ne_trap_iff.2 ⟨by omega, hsquare⟩

/-! ### Gemma 4 -/

/-- Feed-forward sizes that make the slices compare with a product that overflows. -/
def Overdoubles (metadata : MetadataTable) (keyPrefix : String) (sizes : Gemma4Sizes) : Prop :=
  ∃ values baseSize, perLayer metadata (keyPrefix ++ ".feed_forward_length") sizes.hiddenLayers = some values ∧ values.head? = some baseSize ∧
    (∀ value ∈ values, 0 < value) ∧ ¬ (∀ value ∈ values, value = baseSize) ∧ 0 < sizes.sharedKVLayers ∧
      (∀ value ∈ values.take (sizes.hiddenLayers - sizes.sharedKVLayers).toNat, value = baseSize) ∧ 2 ^ 62 ≤ baseSize

theorem length_perLayer {key : String} {hiddenLayers : Int} (hpos : 0 < hiddenLayers) {values : List Int}
    (h : perLayer metadata key hiddenLayers = some values) : (values.length : Int) = hiddenLayers := by
  unfold perLayer at h
  split at h
  · cases h
    rw [List.length_replicate]
    omega
  · simpa using (Option.filter_eq_some_iff.1 h).2

theorem gemma4Sizes_safe : (gemma4Sizes metadata keyPrefix).Safe fun sizes => sizes.Valid ∧ sizes.hiddenLayers < 2 ^ 63 := by
  unfold gemma4Sizes
  refine (safe_ofOption _ _).bind fun _ _ => (safe_ofOption _ _).bind fun hiddenLayers hlayers => (safe_ofOption _ _).bind fun _ _ =>
    (safe_ofOption _ _).bind fun _ _ => (safe_ofOption _ _).bind fun _ _ => (safe_ofOption _ _).bind fun _ _ =>
      (safe_ofOption _ _).bind fun _ _ => (safe_ofOption _ _).bind fun _ _ => (safe_guard _ _).bind fun _ hvalid => ?_
  exact ⟨hvalid, (integer_range hlayers).2⟩

theorem gemma4LayerTypes_safe {hiddenLayers : Int} :
    (gemma4LayerTypes metadata keyPrefix hiddenLayers).Safe fun layerTypes => (layerTypes.length : Int) = hiddenLayers := by
  unfold gemma4LayerTypes
  refine (safe_ofOption _ _).bind fun pattern _ => (safe_guard _ _).bind fun _ hlength => ?_
  simpa using hlength

theorem kvHeadsByLayer_ne_trap {hiddenLayers attentionHeads : Int} : kvHeadsByLayer metadata keyPrefix hiddenLayers attentionHeads ≠ trap := by
  simp only [kvHeadsByLayer]
  split
  · exact nofun
  · split <;> exact nofun

theorem resolve_ne_trap {layerTypes : List String} {headCounts : List Int} {presence : List Bool} :
    resolve layerTypes headCounts presence ≠ trap := by
  unfold resolve
  simp only [bind_ne_trap_iff]
  exact ⟨guard_ne_trap, fun _ _ => ⟨guard_ne_trap, fun _ _ => ⟨guard_ne_trap, fun _ _ => nofun⟩⟩⟩

/-- The first elements, index by index. -/
theorem mapM_element {α : Type} (array : List α) (n : Nat) (h : n ≤ array.length) :
    (List.range n).mapM (fun index : Nat => element array (index : Int)) = ok (array.take n) := by
  induction n with
  | zero => rfl
  | succ n ih =>
    have hlt : n < array.length := by omega
    have hlast : element array (n : Int) = ok array[n] := by
      rw [element, if_pos (Int.natCast_nonneg n), Int.toNat_natCast, List.getElem?_eq_getElem hlt]
    rw [List.range_succ, List.mapM_append, ih (by omega), ok_bind, List.mapM_cons, List.mapM_nil, hlast, List.take_succ_eq_append_getElem hlt]
    rfl

theorem indexedValueProjections_eq {layerTypes : List String} {ownLayers : Int} (hpos : 0 ≤ ownLayers) (hlength : ownLayers ≤ layerTypes.length) :
    indexedValueProjections tensorNames layerTypes ownLayers = ok (fullAttentionValueProjections tensorNames layerTypes ownLayers.toNat) := by
  unfold indexedValueProjections fullAttentionValueProjections indicesBelow
  rw [if_pos hpos, ok_bind, mapM_element _ _ (by omega), ok_bind, List.zipIdx_eq_zip_range', List.length_take, Nat.min_eq_left (by omega),
    List.range_eq_range']
  rfl

theorem slicedFeedForwardLayout_eq {sizes : Gemma4Sizes} (hvalid : sizes.Valid) (hlt : sizes.hiddenLayers < 2 ^ 63) :
    slicedFeedForwardLayout metadata keyPrefix sizes.hiddenLayers sizes.sharedKVLayers =
      gemma4FeedForwardLayout metadata keyPrefix sizes.hiddenLayers sizes.sharedKVLayers := by
  obtain ⟨-, hlayers, -, -, -, -, -, hshared, hless⟩ := hvalid
  unfold slicedFeedForwardLayout gemma4FeedForwardLayout
  refine bind_congr_ok fun values hvalues => bind_congr_ok fun baseSize hbase => bind_congr_ok fun _ hguard => ?_
  have hlength := length_perLayer hlayers (ofOption_eq_ok.1 hvalues)
  have hpos : 0 < baseSize := guard_eq_ok.1 hguard baseSize (List.mem_of_mem_head? (ofOption_eq_ok.1 hbase))
  split_ifs with hequal
  · rfl
  · have hfirst : fitting (sizes.hiddenLayers - sizes.sharedKVLayers) = ok _ := fitting_eq_ok.2 ⟨by omega, rfl⟩
    have hrange : 0 ≤ sizes.hiddenLayers - sizes.sharedKVLayers ∧ sizes.hiddenLayers - sizes.sharedKVLayers ≤ values.length := by omega
    simp only [hfirst, ok_bind]
    refine bind_congr_ok fun _ hguard => ?_
    have hsome : 0 < sizes.sharedKVLayers := guard_eq_ok.1 hguard
    obtain ⟨first, rest, hrest⟩ : ∃ first rest, values.drop (sizes.hiddenLayers - sizes.sharedKVLayers).toNat = first :: rest :=
      List.exists_cons_of_length_pos (by rw [List.length_drop]; omega)
    rw [sliceBefore, if_pos hrange, ok_bind, sliceFrom, if_pos hrange]
    unfold doublesAt
    -- The size is only doubled where all layers of their own have it.
    by_cases hown : ∀ value ∈ values.take (sizes.hiddenLayers - sizes.sharedKVLayers).toNat, value = baseSize
    · rw [guard_of hown, ok_bind, ok_bind, if_neg (not_not.2 hown)]
      by_cases hover : 2 ^ 63 ≤ baseSize * 2
      · have htrap : fitting (baseSize * 2) = trap := if_neg (by omega)
        rw [if_pos hover, hrest, List.mapM_cons, htrap]
        rfl
      · have hdoubled : fitting (baseSize * 2) = ok (baseSize * 2) := fitting_eq_ok.2 ⟨by omega, rfl⟩
        have hmap : ∀ l : List Int, (l.mapM fun value => do
            let doubled ← fitting (baseSize * 2)
            return decide (value = doubled)) = ok (l.map fun value => decide (value = baseSize * 2)) := by
          intro l
          induction l with
          | nil => rfl
          | cons value l ih =>
            rw [List.mapM_cons, ih, hdoubled]
            rfl
        have hsame : (∀ equal ∈ (values.drop (sizes.hiddenLayers - sizes.sharedKVLayers).toNat).map (fun value => decide (value = baseSize * 2)),
            equal = true) ↔ decide (∀ value ∈ values.drop (sizes.hiddenLayers - sizes.sharedKVLayers).toNat, value = baseSize * 2) = true := by
          simp only [List.forall_mem_map, decide_eq_true_eq]
        rw [if_neg hover, hmap, ok_bind, guard_congr hsame]
        rfl
    · rw [guard_of_not hown, if_pos hown]
      rfl

/-- The indices and slices of the source are in range. -/
theorem gemma4IndexedConfiguration_eq :
    gemma4IndexedConfiguration naming metadata keyPrefix tensorNames = gemma4TextConfiguration naming metadata keyPrefix tensorNames := by
  unfold gemma4IndexedConfiguration gemma4TextConfiguration
  refine bind_congr_ok fun sizes hsizes => bind_congr_ok fun _ _ => bind_congr_ok fun layerTypes htypes => ?_
  obtain ⟨hvalid, hlt⟩ := gemma4Sizes_safe.of_eq_ok hsizes
  have hlength := gemma4LayerTypes_safe.of_eq_ok htypes
  have hown : 0 ≤ sizes.hiddenLayers - sizes.sharedKVLayers ∧ sizes.hiddenLayers - sizes.sharedKVLayers ≤ layerTypes.length := by
    obtain ⟨-, -, -, -, -, -, -, hshared, hless⟩ := hvalid
    omega
  have hfitting : fitting (sizes.hiddenLayers - sizes.sharedKVLayers) = ok _ := fitting_eq_ok.2 ⟨by omega, rfl⟩
  rw [slicedFeedForwardLayout_eq hvalid hlt]
  refine bind_congr_ok fun feedForwardLayout _ => bind_congr_ok fun _ _ => bind_congr_ok fun _ _ => bind_congr_ok fun headCounts _ => ?_
  rw [hfitting, ok_bind, indexedValueProjections_eq hown.1 hown.2, ok_bind]

theorem gemma4FeedForwardLayout_ne_trap_iff {sizes : Gemma4Sizes} :
    gemma4FeedForwardLayout metadata keyPrefix sizes.hiddenLayers sizes.sharedKVLayers ≠ trap ↔ ¬ Overdoubles metadata keyPrefix sizes := by
  unfold gemma4FeedForwardLayout
  constructor
  · rintro h ⟨values, baseSize, hvalues, hbase, hpos, hequal, hshared, hown, hover⟩
    have htrap : doublesAt (sizes.hiddenLayers - sizes.sharedKVLayers).toNat values baseSize = trap := by
      rw [doublesAt, if_neg (not_not.2 hown), if_pos (by omega)]
    simp only [hvalues, hbase, ofOption, ok_bind, guard_of hpos, if_neg hequal, guard_of hshared, htrap, trap_bind] at h
    exact h rfl
  · intro h
    simp only [bind_ne_trap_iff]
    refine ⟨ofOption_ne_trap, fun values hvalues => ⟨ofOption_ne_trap, fun baseSize hbase => ⟨guard_ne_trap, fun _ hpos => ?_⟩⟩⟩
    split_ifs with hequal
    · rintro ⟨⟩
    · simp only [bind_ne_trap_iff]
      refine ⟨guard_ne_trap, fun _ hshared => ⟨?_, fun _ _ => ⟨guard_ne_trap, fun _ _ => by rintro ⟨⟩⟩⟩⟩
      unfold doublesAt
      split_ifs with hown hover
      · exact absurd ⟨values, baseSize, ofOption_eq_ok.1 hvalues, ofOption_eq_ok.1 hbase, guard_eq_ok.1 hpos, hequal, guard_eq_ok.1 hshared,
          hown, by omega⟩ h
      · rintro ⟨⟩
      · rintro ⟨⟩

theorem gemma4IndexedConfiguration_ne_trap_iff : gemma4IndexedConfiguration naming metadata keyPrefix tensorNames ≠ trap ↔
    ∀ sizes layerTypes, gemma4Sizes metadata keyPrefix = ok sizes → tensorNames.filter (isExpertName naming) = [] →
      gemma4LayerTypes metadata keyPrefix sizes.hiddenLayers = ok layerTypes → ¬ Overdoubles metadata keyPrefix sizes := by
  rw [gemma4IndexedConfiguration_eq]
  unfold gemma4TextConfiguration
  simp only [bind_ne_trap_iff, ← gemma4FeedForwardLayout_ne_trap_iff]
  constructor
  · intro h sizes layerTypes hsizes hexperts htypes
    exact (((h.2 sizes hsizes).2 () (guard_of hexperts)).2 layerTypes htypes).1
  · intro h
    refine ⟨gemma4Sizes_safe.ne_trap, fun sizes hsizes => ⟨guard_ne_trap, fun _ hexperts => ⟨gemma4LayerTypes_safe.ne_trap,
      fun layerTypes htypes => ⟨h sizes layerTypes hsizes (guard_eq_ok.1 hexperts) htypes, fun _ _ => ⟨guard_ne_trap, fun _ _ =>
        ⟨guard_ne_trap, fun _ _ => ⟨kvHeadsByLayer_ne_trap, fun _ _ => ⟨resolve_ne_trap, fun _ _ => nofun⟩⟩⟩⟩⟩⟩⟩⟩

end

/-! ## All builders -/

/-- No builder stops the process. The normalizer of weight names is that of the model type. -/
structure ConfigurationsReturn (naming : String → TensorNaming) (metadata : MetadataTable) (keyPrefix modelType : String)
    (tensorNames : List String) : Prop where
  qwen35Text : qwen35TextConfiguration metadata ≠ trap
  qwen35Vision : qwen35VisionConfiguration metadata ≠ trap
  gemma3 : gemma3TextConfiguration (naming "gemma3_text") metadata keyPrefix tensorNames ≠ trap
  apertus : apertusConfiguration (naming "apertus") metadata keyPrefix tensorNames ≠ trap
  gemma4 : gemma4IndexedConfiguration (naming "gemma4_text") metadata keyPrefix tensorNames ≠ trap
  standard : standardTextConfiguration metadata keyPrefix modelType ≠ trap

/-- Metadata whose unguarded fields do no harm. -/
structure FieldsFit (naming : TensorNaming) (metadata : MetadataTable) (keyPrefix : String) (tensorNames : List String) : Prop where
  stateSize : Qwen35Sized metadata → (integer metadata "qwen35.ssm.state_size").getD 128 ≠ 0 ∧
    ¬ (integer metadata "qwen35.ssm.inner_size" = some (-2 ^ 63) ∧ integer metadata "qwen35.ssm.state_size" = some (-1))
  patchSize : (∃ sizes, visionSizes metadata = ok sizes) → (integer metadata "clip.vision.patch_size").getD 16 ≠ 0 ∧
    ¬ (integer metadata "clip.vision.image_size" = some (-2 ^ 63) ∧ integer metadata "clip.vision.patch_size" = some (-1)) ∧
    ((integer metadata "clip.vision.image_size").getD 768).tdiv ((integer metadata "clip.vision.patch_size").getD 16) ^ 2 < 2 ^ 63
  feedForward : ∀ sizes layerTypes, gemma4Sizes metadata keyPrefix = ok sizes → tensorNames.filter (isExpertName naming) = [] →
    gemma4LayerTypes metadata keyPrefix sizes.hiddenLayers = ok layerTypes → ¬ Overdoubles metadata keyPrefix sizes

/-- For every table, prefix and set of names, all builders throw or return a configuration exactly where the fields fit. -/
theorem configurations_return_iff (naming : String → TensorNaming) (metadata : MetadataTable) (keyPrefix modelType : String)
    (tensorNames : List String) : ConfigurationsReturn naming metadata keyPrefix modelType tensorNames ↔
      FieldsFit (naming "gemma4_text") metadata keyPrefix tensorNames := by
  constructor
  · intro h
    exact ⟨qwen35TextConfiguration_ne_trap_iff.1 h.qwen35Text, qwen35VisionConfiguration_ne_trap_iff.1 h.qwen35Vision,
      gemma4IndexedConfiguration_ne_trap_iff.1 h.gemma4⟩
  · intro h
    exact ⟨qwen35TextConfiguration_ne_trap_iff.2 h.stateSize, qwen35VisionConfiguration_ne_trap_iff.2 h.patchSize,
      gemma3TextConfiguration_ne_trap, apertusConfiguration_ne_trap, gemma4IndexedConfiguration_ne_trap_iff.2 h.feedForward,
      standardTextConfiguration_ne_trap modelType⟩

/-- A Qwen3.5 file whose state size is zero. -/
def zeroState : MetadataTable := fun key => List.lookup key
  [("qwen35.embedding_length", .uint32 1024), ("qwen35.block_count", .uint32 1), ("qwen35.feed_forward_length", .uint32 4096),
    ("qwen35.attention.head_count", .uint32 8), ("qwen35.attention.head_count_kv", .uint32 2),
    ("tokenizer.ggml.tokens", .array [.string "a"]), ("qwen35.ssm.state_size", .uint32 0)]

theorem zeroState_traps : ¬ ∀ (naming : String → TensorNaming) (metadata : MetadataTable) (keyPrefix modelType : String)
    (tensorNames : List String), ConfigurationsReturn naming metadata keyPrefix modelType tensorNames := by
  intro h
  have htrap : qwen35TextConfiguration zeroState = trap := eq_trap_of_isTrap (by decide +kernel)
  exact (h (fun _ => ⟨fun _ _ => false, fun _ => []⟩) zeroState "" "" []).qwen35Text htrap

end Tanpopo.GGUF
