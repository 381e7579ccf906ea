import Mathlib.Algebra.Order.Field.Rat
import Mathlib.Data.Rat.Floor
import Mathlib.Tactic.Linarith
import Mathlib.Tactic.Positivity
/-!
# Memory limits of a request

`plan` estimates what a request needs and shrinks its prefill step to the
memory that is left. The estimates, `Double` in the source, are exact
rationals here.
-/

namespace Tanpopo.Server

inductive RequestError where
  | invalidRequest (message : String)
  | contextExceeded (prompt output limit : Int)
  | memoryBudget (prompt : Int)
  | busy (limit : Nat)
  | cancelled
  deriving DecidableEq, Repr

/-- What `config.json` says: its positive integers and the layer types. -/
structure ModelMetadata where
  positive : String → Option {n : Int // 0 < n}
  layerTypes : Option (List String)

structure MLXRequestLimits where
  contextLimit : Option Int
  attentionHeads : ℚ
  kvElementsPerToken : ℚ
  vocabularySize : ℚ
  intermediateSize : ℚ
  memoryLimit : Int
  maximumBufferBytes : Int
  attentionHeads_pos : 0 < attentionHeads
  kvElementsPerToken_nonneg : 0 ≤ kvElementsPerToken
  vocabularySize_pos : 0 < vocabularySize
  intermediateSize_pos : 0 < intermediateSize
  memoryLimit_pos : 0 < memoryLimit

def ModelMetadata.integer (m : ModelMetadata) (key : String) (value : {n : Int // 0 < n}) : {n : Int // 0 < n} :=
  (m.positive key).getD value

def contains (text pattern : String) : Bool := text.toList.tails.any fun tail => pattern.toList.isPrefixOf tail

/-- Layers that keep keys and values. -/
def ModelMetadata.kvLayers (m : ModelMetadata) : Int :=
  let layers := (m.integer "num_hidden_layers" ⟨32, by decide⟩).1
  let byInterval := match m.positive "full_attention_interval" with
    | some interval => max 1 (layers / interval.1)
    | none => layers
  match m.layerTypes with
  | some types =>
    if (types.length : Int) = layers then
      (types.filter fun type => !contains type "linear" && !contains type "mamba").length
    else byInterval
  | none => byInterval

theorem ModelMetadata.kvLayers_nonneg (m : ModelMetadata) : 0 ≤ m.kvLayers := by
  have hlayers := (m.integer "num_hidden_layers" ⟨32, by decide⟩).2
  have hinterval : 0 ≤ (match m.positive "full_attention_interval" with
      | some interval => max 1 ((m.integer "num_hidden_layers" ⟨32, by decide⟩).1 / interval.1)
      | none => (m.integer "num_hidden_layers" ⟨32, by decide⟩).1) := by
    split
    · exact (Int.zero_le_ofNat 1).trans (le_max_left _ _)
    · exact hlayers.le
  unfold ModelMetadata.kvLayers
  dsimp only
  split
  · split
    · exact Int.natCast_nonneg _
    · exact hinterval
  · exact hinterval

/-- `physical`, `memoryLimit` and `maxBufferSize` are the machine's; `runtimeLimitBytes` is the memory map's. -/
def MLXRequestLimits.init (m : ModelMetadata) (contextLimit runtimeLimitBytes : Option Int)
    (physical memoryLimit maxBufferSize : Int) : MLXRequestLimits :=
  let heads := m.integer "num_attention_heads" ⟨32, by decide⟩
  let kvHeads := m.integer "num_key_value_heads" heads
  let hidden := m.integer "hidden_size" ⟨4096, by decide⟩
  let headDim := max
    ((m.positive "head_dim").elim (max 1 (hidden.1 / heads.1)) (·.1)) ((m.positive "global_head_dim").elim 0 (·.1))
  let reserve := max (2 * 1024 * 1024 * 1024) (physical / 10)
  let limit := max 1 (min (runtimeLimitBytes.getD (max 1 (physical - reserve))) memoryLimit)
  { contextLimit
    attentionHeads := heads.1
    kvElementsPerToken := kvHeads.1 * headDim * m.kvLayers * 2
    vocabularySize := (m.integer "vocab_size" ⟨262144, by decide⟩).1
    intermediateSize := (m.positive "intermediate_size").elim ((hidden.1 : ℚ) * 4) fun n => (n.1 : ℚ)
    memoryLimit := limit
    maximumBufferBytes := if maxBufferSize > 0 then maxBufferSize else limit
    attentionHeads_pos := by exact_mod_cast heads.2
    kvElementsPerToken_nonneg := by
      have hkv : (0 : ℚ) ≤ kvHeads.1 := by exact_mod_cast kvHeads.2.le
      have hdim : (0 : ℚ) ≤ headDim := by
        have : (0 : Int) ≤ headDim := by
          refine le_max_of_le_right ?_
          cases m.positive "global_head_dim" with
          | none => exact le_refl _
          | some n => exact n.2.le
        exact_mod_cast this
      have hlayers : (0 : ℚ) ≤ m.kvLayers := by exact_mod_cast m.kvLayers_nonneg
      positivity
    vocabularySize_pos := by exact_mod_cast (m.integer "vocab_size" ⟨262144, by decide⟩).2
    intermediateSize_pos := by
      cases m.positive "intermediate_size" with
      | none =>
        have hhidden : (0 : ℚ) < hidden.1 := by exact_mod_cast hidden.2
        simpa using hhidden
      | some n =>
        have hn : (0 : ℚ) < n.1 := by exact_mod_cast n.2
        exact hn
    memoryLimit_pos := lt_of_lt_of_le Int.zero_lt_one (le_max_left _ _) }

structure GenerateParameters where
  maxTokens : Option Int
  prefillStepSize : Int
  deriving DecidableEq, Repr

def safetyMargin : ℚ := 512 * 1024 * 1024

namespace MLXRequestLimits
variable (limits : MLXRequestLimits)

def kvBytes (promptTokens outputTokens : Int) : ℚ := (promptTokens + outputTokens) * limits.kvElementsPerToken * 4

/-- Attention scores, softmax and mask, and the MLP and logits, for one row of the prompt. -/
def bytesPerRow (promptTokens : Int) : ℚ :=
  promptTokens * limits.attentionHeads * 12 + limits.vocabularySize * 4 + limits.intermediateSize * 16

def available (active kvBytes : ℚ) : ℚ := limits.memoryLimit - active - kvBytes - safetyMargin

def transientBudget (available : ℚ) (maximumConcurrentRequests : Nat) : ℚ :=
  let sharedScratchBudget := (limits.memoryLimit : ℚ) / max 1 maximumConcurrentRequests / 4
  min (min (available / 3) (limits.maximumBufferBytes / 2)) sharedScratchBudget

/-- `Int.max / 2` bounds the conversion from a double. -/
def safeRows (transientBudget bytesPerRow : ℚ) : Int := min (2 ^ 62 - 1) ⌊transientBudget / bytesPerRow⌋

/-- The prefill step and the rows it evaluates at a time, or nothing when the whole prompt does not fit. -/
def prefill (promptTokens prefillStepSize safeRows : Int) (supportsChunking : Bool) : Option (Int × Int) :=
  let actualPrefillChunk := if supportsChunking then min promptTokens (max 1 prefillStepSize) else promptTokens
  if actualPrefillChunk > safeRows then
    if supportsChunking then
      let step := max 1 (min prefillStepSize safeRows)
      some (step, min promptTokens step)
    else none
  else some (prefillStepSize, if supportsChunking then min promptTokens prefillStepSize else promptTokens)

/-- The parameters to generate with, and the bytes to reserve. `currentMemoryBytes`
is what the process uses at the moment. -/
def plan (currentMemoryBytes : Nat) (promptTokens : Int) (parameters : GenerateParameters) (supportsChunking : Bool)
    (reservedMemoryFloor : ℚ) (maximumConcurrentRequests : Nat) : Except RequestError (GenerateParameters × ℚ) :=
  if promptTokens ≤ 0 then .error (.invalidRequest "模型處理後的輸入不可為空。")
  else
    let outputTokens := parameters.maxTokens.getD 4096
    match limits.contextLimit.filter fun limit => promptTokens > limit ∨ outputTokens > limit - promptTokens with
    | some limit => .error (.contextExceeded promptTokens outputTokens limit)
    | none =>
      let kvBytes := limits.kvBytes promptTokens outputTokens
      let active := max (currentMemoryBytes : ℚ) reservedMemoryFloor
      let available := limits.available active kvBytes
      if available ≤ 0 then .error (.memoryBudget promptTokens)
      else
        let bytesPerRow := limits.bytesPerRow promptTokens
        let transientBudget := limits.transientBudget available maximumConcurrentRequests
        if 0 < bytesPerRow ∧ bytesPerRow ≤ transientBudget then
          match prefill promptTokens parameters.prefillStepSize (safeRows transientBudget bytesPerRow) supportsChunking with
          | none => .error (.memoryBudget promptTokens)
          | some (prefillStepSize, effectiveRows) =>
            .ok ({ parameters with prefillStepSize }, kvBytes + effectiveRows * bytesPerRow + safetyMargin)
        else .error (.memoryBudget promptTokens)

/-! ## The plan fits -/

theorem one_le_safeRows {budget row : ℚ} (hrow : 0 < row) (hle : row ≤ budget) : 1 ≤ safeRows budget row := by
  refine le_min (by decide) (Int.le_floor.2 ?_)
  rw [Int.cast_one]
  exact (one_le_div₀ hrow).2 hle

theorem rows_mul_le {rows : Int} {budget row : ℚ} (hrow : 0 < row) (h : rows ≤ safeRows budget row) :
    rows * row ≤ budget := by
  have hrows : (rows : ℚ) ≤ budget / row := Int.le_floor.1 (h.trans (min_le_right _ _))
  exact (le_div_iff₀ hrow).1 hrows

theorem prefill_some {promptTokens configured safeRows step rows : Int} {supportsChunking : Bool}
    (hprompt : 1 ≤ promptTokens) (hconfigured : 1 ≤ configured) (hsafe : 1 ≤ safeRows)
    (h : prefill promptTokens configured safeRows supportsChunking = some (step, rows)) :
    1 ≤ step ∧ step ≤ configured ∧ 1 ≤ rows ∧ rows ≤ safeRows := by
  unfold prefill at h
  cases supportsChunking with
  | true =>
    simp only [if_true] at h
    split at h <;> cases h <;> omega
  | false =>
    simp only [Bool.false_eq_true, if_false] at h
    split at h <;> cases h
    omega

theorem transientBudget_le (available : ℚ) (n : Nat) : limits.transientBudget available n ≤ available / 3 :=
  (min_le_left _ _).trans (min_le_left _ _)

variable {limits}

/-- A plan keeps the prefill step between 1 and the configured one, and its
bytes fit between the reserved floor and the limit. -/
theorem plan_ok {currentMemoryBytes : Nat} {promptTokens : Int} {parameters result : GenerateParameters}
    {supportsChunking : Bool} {floor bytes : ℚ} {n : Nat} (hstep : 1 ≤ parameters.prefillStepSize)
    (h : limits.plan currentMemoryBytes promptTokens parameters supportsChunking floor n = .ok (result, bytes)) :
    1 ≤ result.prefillStepSize ∧ result.prefillStepSize ≤ parameters.prefillStepSize ∧
      floor + bytes ≤ limits.memoryLimit ∧ (0 ≤ parameters.maxTokens.getD 4096 → 0 < bytes) := by
  unfold plan at h
  split at h
  · cases h
  rename_i hprompt
  dsimp only at h
  split at h
  · cases h
  split at h
  · cases h
  rename_i havailable
  split at h
  swap
  · cases h
  rename_i hrow
  split at h
  · cases h
  rename_i step rows hprefill
  cases h
  obtain ⟨hstep1, hstepn, hrows1, hrows⟩ :=
    prefill_some (by omega) hstep (one_le_safeRows hrow.1 hrow.2) hprefill
  have hscratch := (rows_mul_le hrow.1 hrows).trans (limits.transientBudget_le _ n)
  have hfloor := le_max_right (currentMemoryBytes : ℚ) floor
  refine ⟨hstep1, hstepn, ?_, fun houtput => ?_⟩
  · unfold available at hscratch havailable
    linarith
  · -- Each part of what is reserved is at least zero, and the rows are more.
    have hkv : 0 ≤ limits.kvBytes promptTokens (parameters.maxTokens.getD 4096) := by
      have htokens : (0 : ℚ) ≤ promptTokens + parameters.maxTokens.getD 4096 := by
        exact_mod_cast add_nonneg (Int.not_le.1 hprompt).le houtput
      have hkv := limits.kvElementsPerToken_nonneg
      unfold kvBytes
      positivity
    have hrowbytes : 0 < (rows : ℚ) * limits.bytesPerRow promptTokens := by
      have hpos : (0 : ℚ) < rows := by exact_mod_cast hrows1
      exact mul_pos hpos hrow.1
    have hmargin : 0 < safetyMargin := by norm_num [safetyMargin]
    linarith

end MLXRequestLimits
end Tanpopo.Server
