import Tanpopo.Models.Startup
import Mathlib
/-!
# The memory estimate without bounds

`estimateRuntimeMemoryBytes` computes in 64 bits. `unboundedEstimate` is its
formula over the natural numbers. `estimate_exact_iff` says when they agree,
and that a larger configuration then is never estimated as cheaper.
-/

namespace Tanpopo.Models

/-! ## The formula -/

def unboundedBytesPerToken (targetBytes : Nat) (kvQuantization : String) : Nat :=
  let bytesPerToken := max 65536 (min 1048576 (targetBytes / 60000))
  if kvQuantization = "q4" then bytesPerToken * 35 / 100
  else if kvQuantization = "q8" then bytesPerToken * 60 / 100
  else bytesPerToken

def unboundedBase (modelBytes : Nat) : Nat := modelBytes + modelBytes / 10 + 536870912

def unboundedEstimate (targetBytes companionBytes draftBytes : Nat) (contextSize batchSize : Int) (kvQuantization : String) :
    Nat :=
  let modelBytes := targetBytes + companionBytes + draftBytes
  unboundedBase modelBytes + unboundedBytesPerToken targetBytes kvQuantization * (max 128 contextSize).toNat +
    min (modelBytes * (max 128 batchSize).toNat / 8192) 8589934592

/-! ## Words -/

theorem toNat_max (a b : UInt64) : (max a b).toNat = max a.toNat b.toNat := by
  rw [show max a b = if a ≤ b then b else a from rfl, apply_ite UInt64.toNat, Nat.max_def]
  simp only [UInt64.le_iff_toNat_le]

theorem toNat_min (a b : UInt64) : (min a b).toNat = min a.toNat b.toNat := by
  rw [show min a b = if a ≤ b then a else b from rfl, apply_ite UInt64.toNat, Nat.min_def]
  simp only [UInt64.le_iff_toNat_le]

theorem toNat_bytesPerToken (targetBytes : UInt64) :
    (max (64 * 1024) (min (1024 * 1024) (targetBytes / 60000)) : UInt64).toNat =
      max 65536 (min 1048576 (targetBytes.toNat / 60000)) := by
  rw [toNat_max, toNat_min, UInt64.toNat_div]
  rfl

/-- The cost of a token is small enough for its quantized share. -/
theorem toNat_quantized (targetBytes : UInt64) (kvQuantization : String) :
    (if kvQuantization = "q4" then max (64 * 1024) (min (1024 * 1024) (targetBytes / 60000)) * 35 / 100
      else if kvQuantization = "q8" then max (64 * 1024) (min (1024 * 1024) (targetBytes / 60000)) * 60 / 100
      else max (64 * 1024) (min (1024 * 1024) (targetBytes / 60000)) : UInt64).toNat =
      unboundedBytesPerToken targetBytes.toNat kvQuantization := by
  have hshare : ∀ share : UInt64, share.toNat ≤ 60 →
      (max (64 * 1024) (min (1024 * 1024) (targetBytes / 60000)) * share / 100 : UInt64).toNat =
        max 65536 (min 1048576 (targetBytes.toNat / 60000)) * share.toNat / 100 := by
    intro share hshare
    have hbound : max 65536 (min 1048576 (targetBytes.toNat / 60000)) * share.toNat ≤ 1048576 * 60 :=
      Nat.mul_le_mul (by omega) hshare
    rw [UInt64.toNat_div, UInt64.toNat_mul, toNat_bytesPerToken, Nat.mod_eq_of_lt (by omega)]
    rfl
  unfold unboundedBytesPerToken
  split
  · exact hshare 35 (by decide)
  split
  · exact hshare 60 (by decide)
  · exact toNat_bytesPerToken targetBytes

/-- A count that is at least 128, as a word. -/
theorem toNat_count {count : Int} (h : count < 2 ^ 63) :
    (UInt64.ofNat (max 128 count).toNat).toNat = (max 128 count).toNat := by
  rw [UInt64.toNat_ofNat', Nat.mod_eq_of_lt (by omega)]

/-! ## The estimate in words -/

section Estimate
variable {targetBytes companionBytes draftBytes : UInt64} {contextSize batchSize : Int} {kvQuantization : String}

theorem toNat_estimate (hcontext : contextSize < 2 ^ 63) (hbatch : batchSize < 2 ^ 63) :
    (estimateRuntimeMemoryBytes targetBytes companionBytes draftBytes contextSize batchSize kvQuantization).toNat =
      (unboundedBase ((targetBytes.toNat + companionBytes.toNat + draftBytes.toNat) % 2 ^ 64) +
        unboundedBytesPerToken targetBytes.toNat kvQuantization * (max 128 contextSize).toNat +
        min ((targetBytes.toNat + companionBytes.toNat + draftBytes.toNat) % 2 ^ 64 * (max 128 batchSize).toNat % 2 ^ 64 /
          8192) 8589934592) % 2 ^ 64 := by
  have hmodel : (targetBytes + companionBytes + draftBytes).toNat =
      (targetBytes.toNat + companionBytes.toNat + draftBytes.toNat) % 2 ^ 64 := by
    rw [UInt64.toNat_add, UInt64.toNat_add, Nat.mod_add_mod]
  have hbase : (targetBytes + companionBytes + draftBytes + (targetBytes + companionBytes + draftBytes) / 10 +
      512 * 1024 * 1024).toNat =
      unboundedBase ((targetBytes.toNat + companionBytes.toNat + draftBytes.toNat) % 2 ^ 64) % 2 ^ 64 := by
    rw [UInt64.toNat_add, UInt64.toNat_add (targetBytes + companionBytes + draftBytes), UInt64.toNat_div, hmodel,
      Nat.mod_add_mod]
    rfl
  have hbatchBytes : (min ((targetBytes + companionBytes + draftBytes) * UInt64.ofNat (max 128 batchSize).toNat / 8192)
      (8 * gibibyte)).toNat =
      min ((targetBytes.toNat + companionBytes.toNat + draftBytes.toNat) % 2 ^ 64 * (max 128 batchSize).toNat % 2 ^ 64 /
        8192) 8589934592 := by
    rw [toNat_min, UInt64.toNat_div, UInt64.toNat_mul, hmodel, toNat_count hbatch]
    rfl
  unfold estimateRuntimeMemoryBytes
  dsimp only
  rw [UInt64.toNat_add, UInt64.toNat_add, UInt64.toNat_mul, hbase, toNat_quantized, toNat_count hcontext, hbatchBytes,
    ← Nat.add_mod, Nat.mod_add_mod]

/-- Each part of the estimate grows with what it is taken of. -/
theorem estimateParts_mono {model model' kv kv' product product' : Nat} (hmodel : model' ≤ model) (hkv : kv' ≤ kv)
    (hproduct : product' ≤ product) :
    unboundedBase model' + kv' + min (product' / 8192) 8589934592 ≤ unboundedBase model + kv + min (product / 8192) 8589934592 := by
  have hbatchBytes := Nat.div_le_div_right (c := 8192) hproduct
  have hmargin := Nat.div_le_div_right (c := 10) hmodel
  unfold unboundedBase
  omega

theorem unboundedEstimate_mono {t t' c c' d d' : Nat} {context context' batch batch' : Int} (ht : t' ≤ t) (hc : c' ≤ c)
    (hd : d' ≤ d) (hcontext : context' ≤ context) (hbatch : batch' ≤ batch) (kvQuantization : String) :
    unboundedEstimate t' c' d' context' batch' kvQuantization ≤ unboundedEstimate t c d context batch kvQuantization := by
  have hmodel : t' + c' + d' ≤ t + c + d := by omega
  have htoken : unboundedBytesPerToken t' kvQuantization ≤ unboundedBytesPerToken t kvQuantization := by
    have hcost : max 65536 (min 1048576 (t' / 60000)) ≤ max 65536 (min 1048576 (t / 60000)) := by
      have := Nat.div_le_div_right (c := 60000) ht
      omega
    unfold unboundedBytesPerToken
    dsimp only
    split_ifs <;> omega
  have hkv := Nat.mul_le_mul htoken (show (max 128 context').toNat ≤ (max 128 context).toNat by omega)
  have hproduct := Nat.mul_le_mul hmodel (show (max 128 batch').toNat ≤ (max 128 batch).toNat by omega)
  exact estimateParts_mono hmodel hkv hproduct

/-- Wrapping around only loses. -/
theorem estimate_le_unbounded (hcontext : contextSize < 2 ^ 63) (hbatch : batchSize < 2 ^ 63) :
    (estimateRuntimeMemoryBytes targetBytes companionBytes draftBytes contextSize batchSize kvQuantization).toNat ≤
      unboundedEstimate targetBytes.toNat companionBytes.toNat draftBytes.toNat contextSize batchSize kvQuantization := by
  rw [toNat_estimate hcontext hbatch]
  refine (Nat.mod_le _ _).trans ?_
  have hmodel := Nat.mod_le (targetBytes.toNat + companionBytes.toNat + draftBytes.toNat) (2 ^ 64)
  have hproduct := (Nat.mod_le _ (2 ^ 64)).trans (Nat.mul_le_mul_right (max 128 batchSize).toNat hmodel)
  exact estimateParts_mono hmodel le_rfl hproduct

theorem estimate_eq_unbounded_iff (hcontext : contextSize < 2 ^ 63) (hbatch : batchSize < 2 ^ 63) :
    (estimateRuntimeMemoryBytes targetBytes companionBytes draftBytes contextSize batchSize kvQuantization).toNat =
        unboundedEstimate targetBytes.toNat companionBytes.toNat draftBytes.toNat contextSize batchSize kvQuantization ↔
      unboundedEstimate targetBytes.toNat companionBytes.toNat draftBytes.toNat contextSize batchSize kvQuantization < 2 ^ 64 ∧
        ((targetBytes.toNat + companionBytes.toNat + draftBytes.toNat) * (max 128 batchSize).toNat < 2 ^ 64 ∨
          2 ^ 46 ≤ (targetBytes.toNat + companionBytes.toNat + draftBytes.toNat) * (max 128 batchSize).toNat % 2 ^ 64) := by
  rw [toNat_estimate hcontext hbatch]
  unfold unboundedEstimate unboundedBase
  dsimp only
  generalize unboundedBytesPerToken targetBytes.toNat kvQuantization * (max 128 contextSize).toNat = kv
  generalize targetBytes.toNat + companionBytes.toNat + draftBytes.toNat = model
  by_cases hmodel : model < 2 ^ 64
  · rw [Nat.mod_eq_of_lt hmodel]
    generalize model * (max 128 batchSize).toNat = product
    omega
  · have := Nat.mod_lt model (show 0 < 2 ^ 64 by decide)
    constructor
    · intro heq
      have := Nat.mod_lt (model % 2 ^ 64 + model % 2 ^ 64 / 10 + 536870912 + kv +
        min (model % 2 ^ 64 * (max 128 batchSize).toNat % 2 ^ 64 / 8192) 8589934592) (show 0 < 2 ^ 64 by decide)
      omega
    · rintro ⟨hlt, -⟩
      omega

theorem positiveArgument_lt {name : String} {arguments : List String} {value : Int}
    (h : positiveArgument name arguments = some value) : 0 < value ∧ value < 2 ^ 63 := by
  induction arguments with
  | nil => cases h
  | cons raw rest ih =>
    have hinline : (if Go.hasPrefix (Go.trimSpace raw) (name ++ "=") then
        Go.atoi (Go.trimSpace (Go.trimPrefix (Go.trimSpace raw) (name ++ "="))) else 0) < 2 ^ 63 := by
      split
      · exact Go.atoi_lt _
      · decide
    have hnext : (if Go.trimSpace raw = name then
        (rest.head?.map fun value => Go.atoi (Go.trimSpace value)).getD 0 else 0) < 2 ^ 63 := by
      split
      · cases rest.head? with
        | none => decide
        | some value => exact Go.atoi_lt _
      · decide
    have hfirst : ∀ inline next : Int, inline < 2 ^ 63 → next < 2 ^ 63 →
        (if 0 < inline then some inline else if 0 < next then some next else positiveArgument name rest) = some value →
        0 < value ∧ value < 2 ^ 63 := by
      intro inline next hinline hnext h
      split_ifs at h with hpositive hpositive
      · cases h
        exact ⟨hpositive, hinline⟩
      · cases h
        exact ⟨hpositive, hnext⟩
      · exact ih h
    exact hfirst _ _ hinline hnext h

/-- What an argument list can carry as the batch size. -/
theorem runtimeBatchSize_lt (c : StartupCommand) : 0 < runtimeBatchSize c ∧ runtimeBatchSize c < 2 ^ 63 := by
  unfold runtimeBatchSize
  cases h : positiveArgument (if c.isMLX then "--prefill-step-size" else "--batch-size") c.extraArgs with
  | none => decide
  | some value => exact positiveArgument_lt h

/-- The estimate is that of the unbounded formula, and no smaller configuration is estimated as dearer, exactly when the
formula stays in 64 bits and the product of model and batch stays there or wraps around to the cap. -/
theorem estimate_exact_iff (targetBytes companionBytes draftBytes : UInt64) (contextSize batchSize : Int)
    (kvQuantization : String) (hcontext : contextSize < 2 ^ 63) (hbatch : batchSize < 2 ^ 63) :
    ((estimateRuntimeMemoryBytes targetBytes companionBytes draftBytes contextSize batchSize kvQuantization).toNat =
        unboundedEstimate targetBytes.toNat companionBytes.toNat draftBytes.toNat contextSize batchSize kvQuantization ∧
      ∀ target' companion' draft' context' batch', target' ≤ targetBytes → companion' ≤ companionBytes →
        draft' ≤ draftBytes → context' ≤ contextSize → batch' ≤ batchSize →
        estimateRuntimeMemoryBytes target' companion' draft' context' batch' kvQuantization ≤
          estimateRuntimeMemoryBytes targetBytes companionBytes draftBytes contextSize batchSize kvQuantization) ↔
      unboundedEstimate targetBytes.toNat companionBytes.toNat draftBytes.toNat contextSize batchSize kvQuantization < 2 ^ 64 ∧
        ((targetBytes.toNat + companionBytes.toNat + draftBytes.toNat) * (max 128 batchSize).toNat < 2 ^ 64 ∨
          2 ^ 46 ≤ (targetBytes.toNat + companionBytes.toNat + draftBytes.toNat) * (max 128 batchSize).toNat % 2 ^ 64) := by
  rw [← estimate_eq_unbounded_iff hcontext hbatch]
  refine ⟨And.left, fun hexact => ⟨hexact, ?_⟩⟩
  intro target' companion' draft' context' batch' ht hc hd hcontext' hbatch'
  rw [UInt64.le_iff_toNat_le] at ht hc hd ⊢
  rw [hexact]
  exact (estimate_le_unbounded (by omega) (by omega)).trans (unboundedEstimate_mono ht hc hd hcontext' hbatch' kvQuantization)

/-- A model of 16 GiB with a batch of 2^30 costs less than with one of 512. -/
theorem hugeBatch_wraps :
    (estimateRuntimeMemoryBytes 17179869184 0 0 4096 1073741824 "").toNat ≠
        unboundedEstimate 17179869184 0 0 4096 1073741824 "" ∧
      ¬ estimateRuntimeMemoryBytes 17179869184 0 0 4096 512 "" ≤
        estimateRuntimeMemoryBytes 17179869184 0 0 4096 1073741824 "" := by decide

theorem usualBatch_exact :
    ((estimateRuntimeMemoryBytes 17179869184 0 0 131072 512 "q8").toNat =
        unboundedEstimate 17179869184 0 0 131072 512 "q8" ∧
      ∀ target' companion' draft' context' batch', target' ≤ 17179869184 → companion' ≤ 0 → draft' ≤ 0 →
        context' ≤ 131072 → batch' ≤ 512 →
        estimateRuntimeMemoryBytes target' companion' draft' context' batch' "q8" ≤
          estimateRuntimeMemoryBytes 17179869184 0 0 131072 512 "q8") ↔
      unboundedEstimate 17179869184 0 0 131072 512 "q8" < 2 ^ 64 ∧
        ((17179869184 + 0 + 0) * (max 128 (512 : Int)).toNat < 2 ^ 64 ∨
          2 ^ 46 ≤ (17179869184 + 0 + 0) * (max 128 (512 : Int)).toNat % 2 ^ 64) :=
  estimate_exact_iff 17179869184 0 0 131072 512 "q8" (by decide) (by decide)

end Estimate

end Tanpopo.Models
