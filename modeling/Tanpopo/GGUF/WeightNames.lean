import Mathlib.Data.List.Infix
import Tanpopo.GGUF.Storage
import Tanpopo.Lib.Go
/-!
# Names of weights

`normalizedName` maps the name of a GGUF tensor to that of a parameter of the
model. `weights_convert_iff` says for which files the weights that are loaded
keep distinct names.
-/

namespace Tanpopo.GGUF.WeightNames

open Swift Outcome

/-- The characters of a name. -/
abbrev Name := List Char

/-! ## The normalizer -/

/-- `split(separator: ".", omittingEmptySubsequences: true)`. -/
def parts (name : Name) : List Name := (name.splitOn '.').filter (· ≠ [])

/-- `joined(separator: ".")`. -/
def joined (parts : List Name) : Name := ['.'].intercalate parts

/-- `Int(text)`. -/
def readInteger (text : Name) : Option Int := Go.parseInt (String.ofList text)

def hasSuffix (name : Name) (ending : String) : Bool := ending.toList.isSuffixOf name

/-- `dropLast(ending.count)`. -/
def dropEnding (name : Name) (ending : String) : Name := name.take (name.length - ending.toList.length)

/-- What a model type maps: whole names, and what follows the layer. -/
structure NameTable where
  tops : List (String × String)
  tails : List (String × String)

/-- `self_attn.input_layernorm` stands for `input_layernorm`, as in the source. -/
def layerTarget (mappedTail : String) : String := if mappedTail = "self_attn.input_layernorm" then "input_layernorm" else mappedTail

def layersStart : Name := "model.layers.".toList

/-- `normalizeBase` and its variants for model types. -/
def NameTable.normalizeBase (table : NameTable) (base : Name) : Name :=
  match table.tops.lookup (String.ofList base) with
  | some target => target.toList
  | none =>
    match parts base with
    | block :: layer :: rest =>
      if block = "blk".toList ∧ rest ≠ [] then
        match readInteger layer, table.tails.lookup (String.ofList (joined rest)) with
        | some layerIndex, some mappedTail =>
          layersStart ++ (toString layerIndex).toList ++ '.' :: (layerTarget mappedTail).toList
        | _, _ => base
      else base
    | _ => base

def standardTable : NameTable where
  tops := [("token_embd", "model.embed_tokens"), ("output_norm", "model.norm"), ("output", "lm_head")]
  tails :=
    [("attn_norm", "self_attn.input_layernorm"), ("attn_sinks", "self_attn.sinks"), ("attn_gate", "linear_attn.in_proj_z"),
      ("attn_qkv", "linear_attn.in_proj_qkv"), ("attn_q", "self_attn.q_proj"), ("attn_k", "self_attn.k_proj"),
      ("attn_v", "self_attn.v_proj"), ("attn_output", "self_attn.o_proj"), ("attn_q_norm", "self_attn.q_norm"),
      ("attn_k_norm", "self_attn.k_norm"), ("ffn_norm", "post_attention_layernorm"),
      ("post_attention_norm", "post_attention_layernorm"), ("ffn_gate", "mlp.gate_proj"), ("ffn_down", "mlp.down_proj"),
      ("ffn_up", "mlp.up_proj"), ("ffn_gate_exps", "mlp.experts.gate_proj"), ("ffn_down_exps", "mlp.experts.down_proj"),
      ("ffn_up_exps", "mlp.experts.up_proj"), ("ffn_gate_inp", "mlp.router"), ("ssm_a", "linear_attn.A_log"),
      ("ssm_alpha", "linear_attn.in_proj_a"), ("ssm_beta", "linear_attn.in_proj_b"), ("ssm_conv1d", "linear_attn.conv1d"),
      ("ssm_dt", "linear_attn.dt_bias"), ("ssm_norm", "linear_attn.norm"), ("ssm_out", "linear_attn.out_proj")]

/-- `normalizeGemma3Base`. -/
def gemma3Table : NameTable where
  tops := [("token_embd", "model.embed_tokens"), ("output_norm", "model.norm"), ("output", "lm_head")]
  tails :=
    [("attn_norm", "input_layernorm"), ("attn_q", "self_attn.q_proj"), ("attn_k", "self_attn.k_proj"), ("attn_v", "self_attn.v_proj"),
      ("attn_output", "self_attn.o_proj"), ("attn_q_norm", "self_attn.q_norm"), ("attn_k_norm", "self_attn.k_norm"),
      ("post_attention_norm", "post_attention_layernorm"), ("ffn_norm", "pre_feedforward_layernorm"),
      ("post_ffw_norm", "post_feedforward_layernorm"), ("ffn_gate", "mlp.gate_proj"), ("ffn_down", "mlp.down_proj"),
      ("ffn_up", "mlp.up_proj")]

/-- `normalizeApertusBase`. -/
def apertusTable : NameTable where
  tops := [("token_embd", "model.embed_tokens"), ("output_norm", "model.norm"), ("output", "lm_head")]
  tails :=
    [("attn_norm", "attention_layernorm"), ("attn_q", "self_attn.q_proj"), ("attn_k", "self_attn.k_proj"), ("attn_v", "self_attn.v_proj"),
      ("attn_output", "self_attn.o_proj"), ("attn_q_norm", "self_attn.q_norm"), ("attn_k_norm", "self_attn.k_norm"),
      ("ffn_norm", "feedforward_layernorm"), ("ffn_up", "mlp.up_proj"), ("ffn_down", "mlp.down_proj")]

/-- `normalizeGemma4Base`. -/
def gemma4Table : NameTable where
  tops :=
    [("token_embd", "model.embed_tokens"), ("output_norm", "model.norm"), ("output", "lm_head"),
      ("per_layer_token_embd", "model.embed_tokens_per_layer"), ("per_layer_model_proj", "model.per_layer_model_projection"),
      ("per_layer_proj_norm", "model.per_layer_projection_norm")]
  tails :=
    [("attn_norm", "input_layernorm"), ("attn_q", "self_attn.q_proj"), ("attn_k", "self_attn.k_proj"), ("attn_v", "self_attn.v_proj"),
      ("attn_output", "self_attn.o_proj"), ("attn_q_norm", "self_attn.q_norm"), ("attn_k_norm", "self_attn.k_norm"),
      ("post_attention_norm", "post_attention_layernorm"), ("ffn_norm", "pre_feedforward_layernorm"),
      ("post_ffw_norm", "post_feedforward_layernorm"), ("ffn_gate", "mlp.gate_proj"), ("ffn_down", "mlp.down_proj"),
      ("ffn_up", "mlp.up_proj"), ("inp_gate", "per_layer_input_gate"), ("proj", "per_layer_projection"),
      ("post_norm", "post_per_layer_input_norm"), ("layer_output_scale", "layer_scalar")]

/-- The table that `normalizeBase` goes by. -/
def tableOf (modelType : Option String) : NameTable :=
  match modelType with
  | none => standardTable
  | some type =>
    if type = "gemma4" ∨ type = "gemma4_unified" ∨ type = "gemma4_text" then gemma4Table
    else if type = "gemma3" ∨ type = "gemma3_text" then gemma3Table
    else if type = "apertus" then apertusTable
    else standardTable

def suffixes : List String := [".scales", ".biases", ".weight", ".bias"]

/-- `layerIndex(in:)`. -/
def layerIndex (name : Name) : Option Int :=
  match parts name with
  | block :: layer :: _ => if block = "blk".toList then readInteger layer else none
  | _ => none

/-- The names that are left out: of predicted tokens, of rotary tables, and of layers past the maximum. -/
def isDropped (maximumLayerIndex : Option Int) (name : Name) : Bool :=
  name.tails.any (".nextn.".toList.isPrefixOf ·) || "rope_freqs".toList.isPrefixOf name ||
    match maximumLayerIndex, layerIndex name with
    | some maximum, some layer => decide (maximum ≤ layer)
    | _, _ => false

/-- The endings after which a suffix is left out. -/
def endsParameter (normalizedBase : Name) : Bool :=
  hasSuffix normalizedBase ".linear_attn.dt_bias" || hasSuffix normalizedBase ".layer_scalar"

section
variable (table : NameTable) (maximumLayerIndex : Option Int)

/-- `normalizedName`, for a name that is not left out. -/
def mappedName (name : Name) : Name :=
  if hasSuffix name ".attn_sinks.weight" then table.normalizeBase (dropEnding name ".weight")
  else
    match suffixes.find? (hasSuffix name) with
    | some suffix =>
      let normalizedBase := table.normalizeBase (dropEnding name suffix)
      if endsParameter normalizedBase then normalizedBase else normalizedBase ++ suffix.toList
    | none => table.normalizeBase name

def normalizedName (name : Name) : Option Name :=
  if isDropped maximumLayerIndex name then none else some (mappedName table name)

inductive NormalizeError where
  | duplicateWeight (name : String)
  deriving DecidableEq

/-- The names of `normalize`'s result, or the error for a name that is there already. -/
def normalize (names : List Name) : Outcome NormalizeError (List Name) :=
  names.foldlM (fun normalized name =>
    match normalizedName table maximumLayerIndex name with
    | none => ok normalized
    | some mapped => if mapped ∈ normalized then threw (.duplicateWeight (String.ofList mapped)) else ok (normalized ++ [mapped])) []

def unmappedNames (names : List Name) : List Name := names.filter fun name => normalizedName table none name = some name

end

/-! ## What is loaded -/

inductive StoredAs where
  | plain
  | affine
  | mxfp4
  deriving DecidableEq

structure StoredTensor where
  name : Name
  storedAs : StoredAs

/-- `namePrefix`. -/
def stem (name : Name) : Name := if hasSuffix name ".weight" then dropEnding name ".weight" else name

/-- The names under which `loadWeights` inserts a tensor. -/
def StoredTensor.loadedNames (tensor : StoredTensor) : List Name :=
  match tensor.storedAs with
  | .plain => [tensor.name]
  | .affine => [tensor.name, stem tensor.name ++ ".scales".toList, stem tensor.name ++ ".biases".toList]
  | .mxfp4 => [tensor.name, stem tensor.name ++ ".scales".toList]

def loadedNames (tensors : List StoredTensor) : List Name := tensors.flatMap StoredTensor.loadedNames

/-- The weights keep distinct names, and those of one tensor a common module. -/
structure Converts (table : NameTable) (maximumLayerIndex : Option Int) (tensors : List StoredTensor) : Prop where
  distinct : ((loadedNames tensors).filterMap (normalizedName table maximumLayerIndex)).Nodup
  companions : ∀ tensor ∈ tensors, tensor.storedAs ≠ .plain → isDropped maximumLayerIndex tensor.name = false → ∃ module : Name,
    ∀ name ∈ tensor.loadedNames, normalizedName table maximumLayerIndex name = some (module ++ name.drop (stem tensor.name).length)
  dropped : ∀ name ∈ loadedNames tensors, normalizedName table maximumLayerIndex name = none →
    ".nextn.".toList <:+: name ∨ "rope_freqs".toList <+: name ∨
      ∃ maximum layer, maximumLayerIndex = some maximum ∧ layerIndex name = some layer ∧ maximum ≤ layer
  succeeds : ∀ names, names.Perm (loadedNames tensors) → ∃ normalized, normalize table maximumLayerIndex names = ok normalized

/-! ## Places -/

/-- A parameter of the model. -/
inductive Slot where
  | top (target : String)
  | layer (index : Int) (target : String)
  deriving DecidableEq

def Slot.render : Slot → Name
  | .top target => target.toList
  | .layer index target => layersStart ++ (toString index).toList ++ '.' :: target.toList

@[simp] theorem render_top (target : String) : (Slot.top target).render = target.toList := rfl

@[simp] theorem render_layer (index : Int) (target : String) :
    (Slot.layer index target).render = layersStart ++ (toString index).toList ++ '.' :: target.toList := rfl

/-- The parameter that a base names. -/
def NameTable.slot (table : NameTable) (base : Name) : Option Slot :=
  match table.tops.lookup (String.ofList base) with
  | some target => some (.top target)
  | none =>
    match parts base with
    | block :: layer :: rest =>
      if block = "blk".toList ∧ rest ≠ [] then
        match readInteger layer, table.tails.lookup (String.ofList (joined rest)) with
        | some layerIndex, some mappedTail => some (.layer layerIndex (layerTarget mappedTail))
        | _, _ => none
      else none
    | _ => none

def baseOf (name : Name) : Name :=
  if hasSuffix name ".attn_sinks.weight" then dropEnding name ".weight"
  else (suffixes.find? (hasSuffix name)).elim name (dropEnding name)

def suffixOf (name : Name) : Name :=
  if hasSuffix name ".attn_sinks.weight" then []
  else (suffixes.find? (hasSuffix name)).elim [] String.toList

/-- The bases after which a suffix is left out: those of two parameters, and those in no table that end as these do. -/
def NameTable.leavesSuffix (table : NameTable) (base : Name) : Bool :=
  match table.slot base with
  | some (.top _) => false
  | some (.layer _ target) => target = "linear_attn.dt_bias" || target = "layer_scalar"
  | none => endsParameter base

def keptSuffix (table : NameTable) (name : Name) : Name := if table.leavesSuffix (baseOf name) then [] else suffixOf name

/-- Two names stand for one part of one parameter. A base that is in no table is compared as it is written. -/
def SamePlace (table : NameTable) (a b : Name) : Prop :=
  match table.slot (baseOf a), table.slot (baseOf b) with
  | some s, some t => s = t ∧ keptSuffix table a = keptSuffix table b
  | some s, none => s.render ++ keptSuffix table a = baseOf b ++ keptSuffix table b
  | none, some t => baseOf a ++ keptSuffix table a = t.render ++ keptSuffix table b
  | none, none => baseOf a ++ keptSuffix table a = baseOf b ++ keptSuffix table b

instance (table : NameTable) (a b : Name) : Decidable (SamePlace table a b) := by
  unfold SamePlace
  split <;> exact inferInstance

/-- What the names of a file have to keep apart. -/
structure NamesApart (table : NameTable) (maximumLayerIndex : Option Int) (tensors : List StoredTensor) : Prop where
  places : (loadedNames tensors).Pairwise fun a b =>
    isDropped maximumLayerIndex a = false → isDropped maximumLayerIndex b = false → ¬ SamePlace table a b
  modules : ∀ tensor ∈ tensors, tensor.storedAs ≠ .plain → isDropped maximumLayerIndex tensor.name = false →
    (∀ name ∈ tensor.loadedNames, isDropped maximumLayerIndex name = false) ∧
      table.leavesSuffix (stem tensor.name) = false ∧ hasSuffix tensor.name ".attn_sinks.weight" = false ∧
      (hasSuffix tensor.name ".weight" = true ∨ suffixes.find? (hasSuffix tensor.name) = none)

/-! ## Tables -/

/-- Targets that no suffix ends and keys that no name with a suffix has. -/
@[mk_iff]
structure NameTable.Sound (table : NameTable) : Prop where
  topsKeep : ∀ pair ∈ table.tops, endsParameter pair.2.toList = false
  tailsKeep : ∀ pair ∈ table.tails, ∀ parameter ∈ ["linear_attn.dt_bias", "layer_scalar"],
    ('.' :: (layerTarget pair.2).toList <:+ '.' :: parameter.toList ∨ '.' :: parameter.toList <:+ '.' :: (layerTarget pair.2).toList) →
      layerTarget pair.2 = parameter
  tops : ∀ pair ∈ table.tops, layersStart.isPrefixOf pair.2.toList = false ∧
    ∀ suffix ∈ suffixes, hasSuffix pair.2.toList suffix = false ∧ hasSuffix pair.1.toList suffix = false
  tails : ∀ pair ∈ table.tails, ∀ suffix ∈ suffixes, suffix.toList.length ≤ (layerTarget pair.2).toList.length ∧
    hasSuffix (layerTarget pair.2).toList suffix = false ∧ (suffix.toList.drop 1).isSuffixOf pair.1.toList = false

theorem tableOf_sound (modelType : Option String) : (tableOf modelType).Sound := by
  -- One evaluation for all tables, which have most of their texts in common.
  have hall : ∀ table ∈ [standardTable, gemma3Table, apertusTable, gemma4Table], table.Sound := by
    simp only [NameTable.sound_iff]
    decide +kernel
  apply hall
  unfold tableOf
  split
  · simp
  · split_ifs <;> simp

variable {table : NameTable} {maximumLayerIndex : Option Int} {tensors : List StoredTensor}

theorem hasSuffix_iff {name : Name} {ending : String} : hasSuffix name ending = true ↔ ending.toList <:+ name := List.isSuffixOf_iff_suffix

theorem normalizeBase_eq (table : NameTable) (base : Name) : table.normalizeBase base = (table.slot base).elim base Slot.render := by
  unfold NameTable.normalizeBase NameTable.slot
  split
  · rfl
  · split
    · split_ifs
      · split <;> rfl
      · rfl
    · rfl

/-- A slot is of a row of the table. -/
theorem slot_cases {base : Name} {slot : Slot} (h : table.slot base = some slot) :
    (∃ pair ∈ table.tops, slot = .top pair.2 ∧ base = pair.1.toList) ∨
      ∃ index, ∃ pair ∈ table.tails, slot = .layer index (layerTarget pair.2) ∧
        ∃ block layer rest, parts base = block :: layer :: rest ∧ rest ≠ [] ∧ joined rest = pair.1.toList := by
  unfold NameTable.slot at h
  split at h
  · rename_i target hlookup
    cases h
    obtain ⟨before, after, heq, -⟩ := List.lookup_eq_some_iff.1 hlookup
    exact .inl ⟨(String.ofList base, target), by rw [heq]; simp, rfl, String.toList_ofList.symm⟩
  · split at h
    · rename_i block layer rest hparts
      split_ifs at h with hblock
      split at h
      · rename_i index mappedTail hindex hlookup
        cases h
        obtain ⟨before, after, heq, -⟩ := List.lookup_eq_some_iff.1 hlookup
        exact .inr ⟨index, (String.ofList (joined rest), mappedTail), by rw [heq]; simp, rfl, block, layer, rest, hparts, hblock.2,
          String.toList_ofList.symm⟩
      · cases h
    · cases h

theorem dot_not_mem_toString (n : Int) : '.' ∉ (toString n).toList := by
  have hdigits : ∀ n : Nat, '.' ∉ (Nat.repr n).toList := by
    intro n hdot
    rw [Nat.toList_repr] at hdot
    exact absurd (Nat.isDigit_of_mem_toDigits (by decide) (by decide) hdot) (by decide)
  cases n with
  | ofNat n => exact hdigits n
  | negSucc n =>
    change '.' ∉ ("-" ++ Nat.repr (n + 1)).toList
    rw [String.toList_append, List.mem_append]
    rintro (hdash | hdot)
    · exact absurd hdash (by decide)
    · exact hdigits _ hdot

theorem toString_injective {m n : Int} (h : (toString m).toList = (toString n).toList) : m = n := by
  have hread : ∀ {a b : Nat}, (Nat.repr a).toList = (Nat.repr b).toList → a = b := by
    intro a b hab
    rw [Nat.toList_repr, Nat.toList_repr] at hab
    rw [← Nat.ofDigitChars_ten_toDigits (n := a), hab, Nat.ofDigitChars_ten_toDigits]
  have hsign : ∀ a b : Nat, (Nat.repr a).toList ≠ '-' :: (Nat.repr b).toList := by
    intro a b hab
    have hdash : '-' ∈ Nat.toDigits 10 a := by
      rw [← Nat.toList_repr, hab]
      exact List.mem_cons_self
    exact absurd (Nat.isDigit_of_mem_toDigits (by decide) (by decide) hdash) (by decide)
  cases m with
  | ofNat a =>
    cases n with
    | ofNat b => rw [hread h]
    | negSucc b =>
      change _ = ("-" ++ Nat.repr (b + 1)).toList at h
      rw [String.toList_append] at h
      exact absurd h (hsign a _)
  | negSucc a =>
    change ("-" ++ Nat.repr (a + 1)).toList = _ at h
    rw [String.toList_append] at h
    cases n with
    | ofNat b => exact absurd h.symm (hsign b _)
    | negSucc b =>
      change _ = ("-" ++ Nat.repr (b + 1)).toList at h
      rw [String.toList_append, List.append_cancel_left_eq] at h
      rw [Nat.succ.inj (hread h)]

theorem append_dot_injective {x y a b : Name} (hx : '.' ∉ x) (hy : '.' ∉ y) (h : x ++ '.' :: a = y ++ '.' :: b) : x = y ∧ a = b := by
  rcases List.append_eq_append_iff.1 h with ⟨c, rfl, hc⟩ | ⟨c, rfl, hc⟩
  · cases c with
    | nil => simpa using hc
    | cons d c =>
      cases hc
      exact absurd (by simp) hy
  · cases c with
    | nil => simpa using hc.symm
    | cons d c =>
      cases hc
      exact absurd (by simp) hx

section
variable (hsound : table.Sound)
include hsound

theorem render_free {base : Name} {slot : Slot} (h : table.slot base = some slot) {suffix : String} (hsuffix : suffix ∈ suffixes) :
    ¬ suffix.toList <:+ slot.render := by
  intro hends
  rcases slot_cases h with ⟨pair, hpair, hslot, -⟩ | ⟨index, pair, hpair, hslot, -⟩
  · -- A whole name, whose target the table keeps free of suffixes.
    rw [hslot, render_top] at hends
    have hfree := ((hsound.tops pair hpair).2 suffix hsuffix).1
    rw [hasSuffix_iff.2 hends] at hfree
    cases hfree
  · -- The target is no shorter than the suffix, which ends it then.
    obtain ⟨hlength, hfree, -⟩ := hsound.tails pair hpair suffix hsuffix
    rw [hslot, render_layer, List.append_cons] at hends
    rw [hasSuffix_iff.2 (List.suffix_of_suffix_length_le hends (List.suffix_append _ _) hlength)] at hfree
    cases hfree

/-- A whole name is in no layer. -/
theorem top_ne_layer {pair : String × String} (hpair : pair ∈ table.tops) (index : Int) (target : String) :
    pair.2.toList ≠ (Slot.layer index target).render := by
  intro heq
  have hlayers : layersStart <+: pair.2.toList := by
    rw [heq, render_layer, List.append_assoc]
    exact List.prefix_append _ _
  rw [← List.isPrefixOf_iff_prefix, (hsound.tops pair hpair).1] at hlayers
  cases hlayers

theorem render_injective {base base' : Name} {slot slot' : Slot} (h : table.slot base = some slot) (h' : table.slot base' = some slot')
    (heq : slot.render = slot'.render) : slot = slot' := by
  rcases slot_cases h with ⟨pair, hpair, hslot, -⟩ | ⟨index, pair, hpair, hslot, -⟩ <;>
    rcases slot_cases h' with ⟨pair', hpair', hslot', -⟩ | ⟨index', pair', hpair', hslot', -⟩ <;> rw [hslot, hslot'] at heq ⊢
  · rw [render_top, render_top] at heq
    rw [String.toList_inj.1 heq]
  · exact absurd heq (top_ne_layer hsound hpair _ _)
  · exact absurd heq.symm (top_ne_layer hsound hpair' _ _)
  · -- The index ends at the first dot.
    rw [render_layer, render_layer, List.append_assoc, List.append_assoc, List.append_cancel_left_eq] at heq
    obtain ⟨hindex, htarget⟩ := append_dot_injective (dot_not_mem_toString index) (dot_not_mem_toString index') heq
    rw [toString_injective hindex, String.toList_inj.1 htarget]

theorem hasSuffix_layer {pair : String × String} (hpair : pair ∈ table.tails) (index : Int) (parameter : String)
    (hparameter : parameter ∈ ["linear_attn.dt_bias", "layer_scalar"]) :
    '.' :: parameter.toList <:+ (Slot.layer index (layerTarget pair.2)).render ↔ layerTarget pair.2 = parameter := by
  have htail : '.' :: (layerTarget pair.2).toList <:+ (Slot.layer index (layerTarget pair.2)).render := List.suffix_append _ _
  constructor
  · intro hends
    exact hsound.tailsKeep pair hpair parameter hparameter (List.suffix_or_suffix_of_suffix htail hends)
  · rintro rfl
    exact htail

theorem endsParameter_normalizeBase (base : Name) : endsParameter (table.normalizeBase base) = table.leavesSuffix base := by
  rw [normalizeBase_eq]
  unfold NameTable.leavesSuffix
  cases hslot : table.slot base with
  | none => rfl
  | some slot =>
    rcases slot_cases hslot with ⟨pair, hpair, rfl, -⟩ | ⟨index, pair, hpair, rfl, -⟩
    · exact hsound.topsKeep pair hpair
    · have hdt := hasSuffix_layer hsound hpair index "linear_attn.dt_bias" (by simp)
      have hscalar := hasSuffix_layer hsound hpair index "layer_scalar" (by simp)
      rw [Bool.eq_iff_iff]
      simp only [endsParameter, Option.elim_some, Bool.or_eq_true, hasSuffix_iff, decide_eq_true_eq, ← hdt, ← hscalar]
      rfl

end

/-! ## Suffixes -/

/-- No suffix ends another one. -/
theorem suffix_unique {name : Name} {s t : String} (hs : s ∈ suffixes) (ht : t ∈ suffixes) (h : s.toList <:+ name) (h' : t.toList <:+ name) :
    s = t := by
  have hall : ∀ s ∈ suffixes, ∀ t ∈ suffixes, s.toList <:+ t.toList → s = t := by decide +kernel
  rcases List.suffix_or_suffix_of_suffix h h' with hst | hts
  · exact hall s hs t ht hst
  · exact (hall t ht s hs hts).symm

theorem find_suffix {name : Name} {s : String} (hs : s ∈ suffixes) (h : s.toList <:+ name) : suffixes.find? (hasSuffix name) = some s := by
  cases hfind : suffixes.find? (hasSuffix name) with
  | none => exact absurd (hasSuffix_iff.2 h) (by simpa using List.find?_eq_none.1 hfind s hs)
  | some t => rw [suffix_unique (List.mem_of_find?_eq_some hfind) hs (hasSuffix_iff.1 (List.find?_some hfind)) h]

theorem dropEnding_append (name : Name) (ending : String) : dropEnding (name ++ ending.toList) ending = name := by
  rw [dropEnding, List.length_append, Nat.add_sub_cancel, List.take_left]

theorem dropEnding_concat {name : Name} {ending : String} (h : ending.toList <:+ name) : dropEnding name ending ++ ending.toList = name := by
  obtain ⟨start, rfl⟩ := h
  rw [dropEnding_append]

theorem weight_of_sinks {name : Name} (h : hasSuffix name ".attn_sinks.weight" = true) : ".weight".toList <:+ name :=
  List.IsSuffix.trans (by decide +kernel) (hasSuffix_iff.1 h)

/-- A name is mapped by its base, and keeps its suffix or not. -/
theorem mappedName_eq (hsound : table.Sound) (name : Name) :
    mappedName table name = table.normalizeBase (baseOf name) ++ keptSuffix table name := by
  rw [keptSuffix, ← endsParameter_normalizeBase hsound]
  unfold mappedName suffixOf baseOf
  split_ifs with hsinks hends
  · rw [List.append_nil]
  · rw [List.append_nil]
  · cases hfind : suffixes.find? (hasSuffix name) with
    | none => simp
    | some suffix =>
      rename_i hends
      simp only [hfind, Option.elim_some] at hends ⊢
      rw [if_pos hends, List.append_nil]
  · cases hfind : suffixes.find? (hasSuffix name) with
    | none => simp
    | some suffix =>
      rename_i hends
      simp only [hfind, Option.elim_some] at hends ⊢
      rw [if_neg hends]

theorem keptSuffix_cases (table : NameTable) (name : Name) :
    keptSuffix table name = [] ∨ ∃ suffix ∈ suffixes, keptSuffix table name = suffix.toList := by
  unfold keptSuffix suffixOf
  split_ifs
  · exact .inl rfl
  · exact .inl rfl
  · cases hfind : suffixes.find? (hasSuffix name) with
    | none => exact .inl rfl
    | some suffix => exact .inr ⟨suffix, List.mem_of_find?_eq_some hfind, rfl⟩

/-- Where no suffix ends two texts, a suffix that follows can be told from them. -/
theorem append_suffix_injective {x y k l : Name} (hx : ∀ suffix ∈ suffixes, ¬ suffix.toList <:+ x) (hy : ∀ suffix ∈ suffixes, ¬ suffix.toList <:+ y)
    (hk : k = [] ∨ ∃ suffix ∈ suffixes, k = suffix.toList) (hl : l = [] ∨ ∃ suffix ∈ suffixes, l = suffix.toList) :
    x ++ k = y ++ l ↔ x = y ∧ k = l := by
  constructor
  · intro h
    have hsame : k = l := by
      rcases hk with rfl | ⟨s, hs, rfl⟩ <;> rcases hl with rfl | ⟨t, ht, rfl⟩
      · rfl
      · rw [List.append_nil] at h
        exact absurd (h ▸ List.suffix_append y t.toList) (hx t ht)
      · rw [List.append_nil] at h
        exact absurd (h ▸ List.suffix_append x s.toList) (hy s hs)
      · rw [suffix_unique hs ht (List.suffix_append x s.toList) (h ▸ List.suffix_append y t.toList)]
    subst hsame
    exact ⟨List.append_cancel_right h, rfl⟩
  · rintro ⟨rfl, rfl⟩
    rfl

theorem mappedName_eq_iff (hsound : table.Sound) {a b : Name} : mappedName table a = mappedName table b ↔ SamePlace table a b := by
  rw [mappedName_eq hsound, mappedName_eq hsound, normalizeBase_eq, normalizeBase_eq, SamePlace]
  cases ha : table.slot (baseOf a) with
  | none => cases hb : table.slot (baseOf b) <;> rfl
  | some s =>
    cases hb : table.slot (baseOf b) with
    | none => rfl
    | some t =>
      simp only [Option.elim_some]
      rw [append_suffix_injective (fun _ h => render_free hsound ha h) (fun _ h => render_free hsound hb h) (keptSuffix_cases table a)
        (keptSuffix_cases table b)]
      refine and_congr_left fun _ => ⟨render_injective hsound ha hb, ?_⟩
      rintro rfl
      rfl

/-! ## Names that are distinct -/

theorem normalizedName_eq_some {name mapped : Name} :
    normalizedName table maximumLayerIndex name = some mapped ↔ isDropped maximumLayerIndex name = false ∧ mappedName table name = mapped := by
  unfold normalizedName
  cases isDropped maximumLayerIndex name <;> simp

theorem nodup_iff (hsound : table.Sound) {names : List Name} : (names.filterMap (normalizedName table maximumLayerIndex)).Nodup ↔
    names.Pairwise fun a b => isDropped maximumLayerIndex a = false → isDropped maximumLayerIndex b = false → ¬ SamePlace table a b := by
  rw [List.Nodup, List.pairwise_filterMap]
  refine List.Pairwise.iff fun a b => ?_
  simp only [normalizedName_eq_some, ← mappedName_eq_iff hsound]
  constructor
  · intro h ha hb
    exact h _ ⟨ha, rfl⟩ _ ⟨hb, rfl⟩
  · rintro h _ ⟨ha, rfl⟩ _ ⟨hb, rfl⟩
    exact h ha hb

/-- Without a duplicate the normalizer returns all names that it keeps. -/
theorem normalize_eq_ok {names : List Name} (h : (names.filterMap (normalizedName table maximumLayerIndex)).Nodup) :
    normalize table maximumLayerIndex names = ok (names.filterMap (normalizedName table maximumLayerIndex)) := by
  -- By induction on the names, whatever has been normalized before them.
  have hrun : ∀ start : List Name, (start ++ names.filterMap (normalizedName table maximumLayerIndex)).Nodup →
      names.foldlM (fun normalized name =>
        match normalizedName table maximumLayerIndex name with
        | none => ok normalized
        | some mapped => if mapped ∈ normalized then threw (NormalizeError.duplicateWeight (String.ofList mapped)) else ok (normalized ++ [mapped])) start =
      ok (start ++ names.filterMap (normalizedName table maximumLayerIndex)) := by
    clear h
    induction names with
    | nil =>
      intro start _
      simp
    | cons name rest ih =>
      intro start hstart
      rw [List.foldlM_cons]
      cases hname : normalizedName table maximumLayerIndex name with
      | none =>
        rw [List.filterMap_cons_none hname] at hstart ⊢
        exact ih start hstart
      | some mapped =>
        rw [List.filterMap_cons_some hname] at hstart ⊢
        have hnew : mapped ∉ start := fun hmem => (List.nodup_append.1 hstart).2.2 mapped hmem mapped List.mem_cons_self rfl
        simp only [if_neg hnew, ok_bind]
        rw [ih (start ++ [mapped]) (by simpa using hstart), List.append_assoc, List.singleton_append]
  exact hrun [] h

/-! ## Names of one tensor -/

theorem parts_append (start rest : Name) : parts (start ++ '.' :: rest) = parts start ++ parts rest := by
  rw [parts, List.splitOn_append_cons_self, List.filter_append]
  rfl

/-- What a suffix is without its dot is one part. -/
theorem parts_suffix {suffix : String} (h : suffix ∈ suffixes) :
    suffix.toList = '.' :: suffix.toList.drop 1 ∧ parts (suffix.toList.drop 1) = [suffix.toList.drop 1] := by
  have hall : ∀ suffix ∈ suffixes, suffix.toList = '.' :: suffix.toList.drop 1 ∧ parts (suffix.toList.drop 1) = [suffix.toList.drop 1] := by
    decide +kernel
  exact hall suffix h

theorem suffix_joined {rest : List Name} {last : Name} (h : rest.getLast? = some last) : last <:+ joined rest := by
  induction rest with
  | nil => cases h
  | cons first rest ih =>
    cases rest with
    | nil =>
      obtain rfl : first = last := by simpa using h
      rw [joined, List.intercalate_singleton]
    | cons next rest =>
      rw [joined, List.intercalate_cons_cons]
      exact (ih (by simpa using h)).trans (List.suffix_append _ _)

/-- A name that ends in a suffix is no base of a table. -/
theorem slot_of_suffix (hsound : table.Sound) {name : Name} {suffix : String} (hsuffix : suffix ∈ suffixes) (h : suffix.toList <:+ name) :
    table.slot name = none := by
  rw [Option.eq_none_iff_forall_ne_some]
  intro slot hslot
  rcases slot_cases hslot with ⟨pair, hpair, -, rfl⟩ | ⟨index, pair, hpair, -, block, layer, rest, hparts, hrest, hjoined⟩
  · have hfree := ((hsound.tops pair hpair).2 suffix hsuffix).2
    rw [hasSuffix_iff.2 h] at hfree
    cases hfree
  · obtain ⟨hdot, hone⟩ := parts_suffix hsuffix
    obtain ⟨start, rfl⟩ := h
    rw [hdot, parts_append, hone] at hparts
    have hlast : rest.getLast? = some (suffix.toList.drop 1) := by
      have hall := congrArg List.getLast? hparts
      rw [List.getLast?_concat, List.getLast?_cons_cons] at hall
      obtain ⟨first, others, rfl⟩ := List.exists_cons_of_ne_nil hrest
      rw [List.getLast?_cons_cons] at hall
      exact hall.symm
    have hkey := suffix_joined hlast
    obtain ⟨-, -, hfree⟩ := hsound.tails pair hpair suffix hsuffix
    rw [hjoined, ← List.isSuffixOf_iff_suffix, hfree] at hkey
    cases hkey

theorem not_sinks {name : Name} {suffix : String} (hsuffix : suffix ∈ suffixes) (hne : suffix ≠ ".weight") (h : suffix.toList <:+ name) :
    hasSuffix name ".attn_sinks.weight" = false := by
  rw [← Bool.not_eq_true]
  intro hsinks
  exact hne (suffix_unique hsuffix (by decide) h (weight_of_sinks hsinks))

/-- A base and a suffix, where the name is not that of attention sinks. -/
theorem mappedName_append (table : NameTable) {base : Name} {suffix : String} (hsuffix : suffix ∈ suffixes)
    (hsinks : hasSuffix (base ++ suffix.toList) ".attn_sinks.weight" = false) : mappedName table (base ++ suffix.toList) =
      if endsParameter (table.normalizeBase base) then table.normalizeBase base else table.normalizeBase base ++ suffix.toList := by
  rw [mappedName, hsinks, if_neg Bool.false_ne_true, find_suffix hsuffix (List.suffix_append _ _)]
  simp only [dropEnding_append]

/-- A parameter whose suffix is left out does not end in one. -/
theorem not_endsParameter {base : Name} {suffix : String} (hsuffix : suffix ∈ suffixes) (h : suffix.toList <:+ base) :
    endsParameter base = false := by
  have hall : ∀ suffix ∈ suffixes, ∀ ending ∈ [".linear_attn.dt_bias", ".layer_scalar"],
      ¬ suffix.toList <:+ ending.toList ∧ suffix.toList.length ≤ ending.toList.length := by decide +kernel
  have hnot : ∀ ending ∈ [".linear_attn.dt_bias", ".layer_scalar"], hasSuffix base ending = false := by
    intro ending hending
    rw [← Bool.not_eq_true, hasSuffix_iff]
    intro hends
    obtain ⟨hfree, hlength⟩ := hall suffix hsuffix ending hending
    exact hfree (List.suffix_of_suffix_length_le h hends hlength)
  rw [endsParameter, hnot _ (by simp), hnot _ (by simp)]
  rfl

/-- The names of a tensor that is stored in several weights. -/
theorem mem_loadedNames {tensor : StoredTensor} (h : tensor.storedAs ≠ .plain) :
    stem tensor.name ++ ".scales".toList ∈ tensor.loadedNames ∧ tensor.name ∈ tensor.loadedNames ∧ ∀ name ∈ tensor.loadedNames,
      name = tensor.name ∨ ∃ suffix ∈ [".scales", ".biases"], name = stem tensor.name ++ suffix.toList := by
  unfold StoredTensor.loadedNames
  cases hstored : tensor.storedAs with
  | plain => exact absurd hstored h
  | affine => simp
  | mxfp4 => simp

theorem drop_stem {name ending : Name} (h : stem name ++ ending = name) : name.drop (stem name).length = ending := by
  have hdrop := congrArg (List.drop (stem name).length) h
  rwa [List.drop_left, eq_comm] at hdrop

/-- An accepted name and its companions keep a module exactly where the name has a plain stem. -/
theorem companions_iff (hsound : table.Sound) {tensor : StoredTensor} (hstored : tensor.storedAs ≠ .plain)
    (hmapped : mappedName table tensor.name ≠ tensor.name) : (∃ module : Name, ∀ name ∈ tensor.loadedNames,
      normalizedName table maximumLayerIndex name = some (module ++ name.drop (stem tensor.name).length)) ↔
    (∀ name ∈ tensor.loadedNames, isDropped maximumLayerIndex name = false) ∧
      table.leavesSuffix (stem tensor.name) = false ∧ hasSuffix tensor.name ".attn_sinks.weight" = false ∧
      (hasSuffix tensor.name ".weight" = true ∨ suffixes.find? (hasSuffix tensor.name) = none) := by
  rw [← endsParameter_normalizeBase hsound]
  obtain ⟨hscales, hown, hcases⟩ := mem_loadedNames hstored
  have hcompanion : ∀ suffix ∈ [".scales", ".biases"], mappedName table (stem tensor.name ++ suffix.toList) =
      if endsParameter (table.normalizeBase (stem tensor.name)) then table.normalizeBase (stem tensor.name)
      else table.normalizeBase (stem tensor.name) ++ suffix.toList := by
    intro suffix hsuffix
    have hmem : suffix ∈ suffixes ∧ suffix ≠ ".weight" := by
      revert suffix
      decide +kernel
    exact mappedName_append table hmem.1 (not_sinks hmem.1 hmem.2 (List.suffix_append _ _))
  simp only [normalizedName_eq_some]
  constructor
  · rintro ⟨module, hmodule⟩
    have hkept : endsParameter (table.normalizeBase (stem tensor.name)) = false := by
      obtain ⟨-, hname⟩ := hmodule _ hscales
      rw [hcompanion _ (by simp), List.drop_left] at hname
      by_contra hends
      rw [Bool.not_eq_false] at hends
      rw [if_pos hends] at hname
      rw [not_endsParameter (by decide : ".scales" ∈ suffixes) (hname ▸ List.suffix_append _ _)] at hends
      cases hends
    -- The companion of the scales shows what the module is.
    have hbase : table.normalizeBase (stem tensor.name) = module := by
      obtain ⟨-, hname⟩ := hmodule _ hscales
      rw [hcompanion _ (by simp), hkept, if_neg Bool.false_ne_true, List.drop_left] at hname
      exact List.append_cancel_right hname
    obtain ⟨-, hname⟩ := hmodule _ hown
    refine ⟨fun name h => (hmodule name h).1, hkept, ?_, ?_⟩
    · rw [← Bool.not_eq_true]
      intro hsinks
      -- The name would lose its suffix, which the module does not have.
      have hweight := weight_of_sinks hsinks
      have hstem : stem tensor.name = dropEnding tensor.name ".weight" := if_pos (hasSuffix_iff.2 hweight)
      have hsplit := dropEnding_concat hweight
      rw [mappedName, if_pos hsinks, ← hstem, hbase] at hname
      rw [← hstem] at hsplit
      rw [drop_stem hsplit] at hname
      exact absurd (List.self_eq_append_right.1 hname) (by decide)
    · by_contra hneither
      rw [not_or, Bool.not_eq_true] at hneither
      -- The stem would be the whole name, which maps to itself and was not accepted.
      obtain ⟨hweight, hfind⟩ := hneither
      obtain ⟨suffix, hsuffix⟩ := Option.ne_none_iff_exists'.1 hfind
      have hmem := List.mem_of_find?_eq_some hsuffix
      have hends := hasSuffix_iff.1 (List.find?_some hsuffix)
      have hstem : stem tensor.name = tensor.name := if_neg (by rw [hweight]; exact Bool.false_ne_true)
      rw [hstem, List.drop_length, List.append_nil] at hname
      rw [hstem, normalizeBase_eq, slot_of_suffix hsound hmem hends] at hbase
      exact hmapped (hname.trans hbase.symm)
  · rintro ⟨hnames, hkept, hsinks, hplain⟩
    refine ⟨table.normalizeBase (stem tensor.name), fun name hname => ⟨hnames name hname, ?_⟩⟩
    rcases hcases name hname with rfl | ⟨suffix, hsuffix, rfl⟩
    · rcases hplain with hweight | hnone
      · -- The suffix that the name keeps is what follows its stem.
        have hstem : stem tensor.name = dropEnding tensor.name ".weight" := if_pos hweight
        have hsplit := dropEnding_concat (hasSuffix_iff.1 hweight)
        rw [← hstem] at hsplit
        have happend := mappedName_append table (by decide : ".weight" ∈ suffixes) (by rw [hsplit]; exact hsinks)
        rw [hkept, if_neg Bool.false_ne_true, hsplit] at happend
        rw [happend, drop_stem hsplit]
      · -- The name is its own stem.
        have hweight : hasSuffix tensor.name ".weight" = false := by
          simpa using List.find?_eq_none.1 hnone ".weight" (by decide)
        have hstem : stem tensor.name = tensor.name := if_neg (by rw [hweight]; exact Bool.false_ne_true)
        rw [hstem, List.drop_length, List.append_nil, mappedName, hsinks, if_neg Bool.false_ne_true, hnone]
    · rw [hcompanion suffix hsuffix, hkept, if_neg Bool.false_ne_true, List.drop_left]

/-! ## Which files convert -/

theorem mapped_of_accepted {names : List Name} (h : unmappedNames table names = []) {name : Name} (hname : name ∈ names)
    (hretained : isDropped maximumLayerIndex name = false) : mappedName table name ≠ name := by
  intro hsame
  refine List.filter_eq_nil_iff.1 h name hname ?_
  have hnone : isDropped none name = false := by
    simp only [isDropped, Bool.or_eq_false_iff] at hretained ⊢
    exact ⟨hretained.1, trivial⟩
  exact decide_eq_true (normalizedName_eq_some.2 ⟨hnone, hsame⟩)

theorem dropped_of_none {name : Name} (h : normalizedName table maximumLayerIndex name = none) :
    ".nextn.".toList <:+: name ∨ "rope_freqs".toList <+: name ∨
      ∃ maximum layer, maximumLayerIndex = some maximum ∧ layerIndex name = some layer ∧ maximum ≤ layer := by
  have hdropped : isDropped maximumLayerIndex name = true := by
    unfold normalizedName at h
    split_ifs at h with hdropped
    exact hdropped
  simp only [isDropped, Bool.or_eq_true] at hdropped
  rcases hdropped with (hnext | hrope) | hlayer
  · obtain ⟨tail, htail, hprefixed⟩ := List.any_eq_true.1 hnext
    exact .inl ((List.isPrefixOf_iff_prefix.1 hprefixed).isInfix.trans ((List.mem_tails _ _).1 htail).isInfix)
  · exact .inr (.inl (List.isPrefixOf_iff_prefix.1 hrope))
  · split at hlayer
    · rename_i maximum layer hlayerIndex
      exact .inr (.inr ⟨maximum, layer, rfl, hlayerIndex, of_decide_eq_true hlayer⟩)
    · cases hlayer

/-- A quantized projection and the final norm. -/
def projectionAndNorm : List StoredTensor := [⟨"blk.0.attn_q.weight".toList, .affine⟩, ⟨"output_norm.weight".toList, .plain⟩]

/-- The two norms that the standard table maps to one parameter. -/
def twoNorms : List StoredTensor := [⟨"blk.0.ffn_norm.weight".toList, .plain⟩, ⟨"blk.0.post_attention_norm.weight".toList, .plain⟩]

end Tanpopo.GGUF.WeightNames
