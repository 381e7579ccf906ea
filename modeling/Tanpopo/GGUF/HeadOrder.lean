import Tanpopo.GGUF.LinearAttention
/-!
# Reordering heads and dequantizing

`reordering_commutes_iff`: the arrays of a quantized tensor are reordered
alike by rows always, and by columns when a value head is a whole number of
quantization groups, when there is nothing to reorder, or when one group spans
the row and a head is a whole number of words.
-/

namespace Tanpopo.GGUF

open Tensor

/-! ## Names -/

theorem hasSuffix_append {text suffix : String} (lead : String)
    (h : text.toList.isSuffixOf suffix.toList = false ∨ text = suffix) :
    hasSuffix (lead ++ text) suffix = suffix.toList.isSuffixOf text.toList := by
  have hend : text.toList <:+ (lead ++ text).toList := by
    rw [String.toList_append]
    exact List.suffix_append _ _
  unfold hasSuffix
  rw [Bool.eq_iff_iff, List.isSuffixOf_iff_suffix, List.isSuffixOf_iff_suffix]
  constructor
  · intro hsuffix
    rcases List.suffix_or_suffix_of_suffix hsuffix hend with hshort | hlong
    · exact hshort
    · rcases h with h | rfl
      · rw [← List.isSuffixOf_iff_suffix, h] at hlong
        cases hlong
      · exact List.suffix_refl _
  · exact fun hsuffix => hsuffix.trans hend

theorem dropLast_append (text suffix : String) : dropLast (text ++ suffix) suffix = text := by
  unfold dropLast
  rw [String.toList_append, List.length_append, Nat.add_sub_cancel, List.take_left, String.ofList_toList]

/-- The three arrays of a tensor are reordered by the name of its weight. -/
theorem baseName_append (stem : String) :
    baseName (stem ++ ".weight") = stem ++ ".weight" ∧ baseName (stem ++ ".scales") = stem ++ ".weight" ∧
      baseName (stem ++ ".biases") = stem ++ ".weight" := by
  refine ⟨?_, ?_, ?_⟩
  · rw [baseName, if_neg, if_neg]
    · rw [hasSuffix_append _ (by decide)]
      decide
    · rw [hasSuffix_append _ (by decide)]
      decide
  · rw [baseName, if_pos, dropLast_append]
    rw [hasSuffix_append _ (by decide)]
    decide
  · rw [baseName, if_neg, if_pos, dropLast_append]
    · rw [hasSuffix_append _ (by decide)]
      decide
    · rw [hasSuffix_append _ (by decide)]
      decide

section Named
variable (layout : LinearAttentionLayout) (value : Tensor Element) (lead : String)

theorem baseName_of_plain {ending : String} (hscales : hasSuffix (lead ++ ending) ".scales" = false)
    (hbiases : hasSuffix (lead ++ ending) ".biases" = false) : baseName (lead ++ ending) = lead ++ ending := by
  rw [baseName, hscales, hbiases]
  rfl

/-- What a name that ends in one of the known ways is reordered by. -/
theorem transformed_eq {name ending : String} (h : baseName name = lead ++ ending) :
    (ending = ".attn_qkv.weight" → transformed layout value name = some (reorderQKV layout value)) ∧
    (ending = ".attn_gate.weight" →
      transformed layout value name = some (reorderValueRows layout value layout.valueHeadDimension)) ∧
    (ending = ".ssm_alpha.weight" ∨ ending = ".ssm_beta.weight" ∨ ending = ".ssm_a" ∨ ending = ".ssm_dt.bias" →
      transformed layout value name = some (reorderValueRows layout value 1)) ∧
    (ending = ".ssm_conv1d.weight" → transformed layout value name = some (reorderConv1D layout value)) ∧
    (ending = ".ssm_out.weight" → transformed layout value name = some (reorderValueColumns layout value)) := by
  unfold transformed
  rw [h]
  refine ⟨?_, ?_, ?_, ?_, ?_⟩
  · rintro rfl
    simp (disch := decide) only [hasSuffix_append]
    rfl
  · rintro rfl
    simp (disch := decide) only [hasSuffix_append]
    rfl
  · rintro (rfl | rfl | rfl | rfl) <;> simp (disch := decide) only [hasSuffix_append] <;> rfl
  · rintro rfl
    simp (disch := decide) only [hasSuffix_append]
    rfl
  · rintro rfl
    simp (disch := decide) only [hasSuffix_append]
    rfl

end Named

/-! ## Head order -/

/-- The tiled position of an element that grouped order has at `position`. -/
def LinearAttentionLayout.tiled (layout : LinearAttentionLayout) (headDimension position : Nat) : Nat :=
  regroupedFrom layout.valuesPerKeyHead layout.numKeyHeads headDimension position

/-- The same of rows of which the first are left alone. -/
def LinearAttentionLayout.tiledAfter (layout : LinearAttentionLayout) (first headDimension position : Nat) : Nat :=
  if position < first then position else first + layout.tiled headDimension (position - first)

variable (layout : LinearAttentionLayout)

theorem valuesPerKeyHead_mul : layout.valuesPerKeyHead * layout.numKeyHeads = layout.numValueHeads :=
  Nat.div_mul_cancel layout.divides

theorem valuesPerKeyHead_pos : 0 < layout.valuesPerKeyHead :=
  Nat.div_pos (Nat.le_of_dvd layout.numValueHeads_pos layout.divides) layout.numKeyHeads_pos

/-- Element `element` of value head `value` of key head `key`, in grouped and in tiled order. -/
theorem tiled_head {headDimension value element : Nat} (key : Nat) (hvalue : value < layout.valuesPerKeyHead)
    (helement : element < headDimension) :
    layout.tiled headDimension ((key * layout.valuesPerKeyHead + value) * headDimension + element) =
      (value * layout.numKeyHeads + key) * headDimension + element := by
  have hpos : 0 < headDimension := by omega
  have hhead : ((key * layout.valuesPerKeyHead + value) * headDimension + element) / headDimension =
      key * layout.valuesPerKeyHead + value := by
    rw [Nat.mul_comm _ headDimension, Nat.mul_add_div hpos, Nat.div_eq_of_lt helement, Nat.add_zero]
  have hmod : (key * layout.valuesPerKeyHead + value) % layout.valuesPerKeyHead = value := by
    rw [Nat.mul_comm, Nat.mul_add_mod, Nat.mod_eq_of_lt hvalue]
  have hdiv : (key * layout.valuesPerKeyHead + value) / layout.valuesPerKeyHead = key := by
    rw [Nat.mul_comm, Nat.mul_add_div (by omega), Nat.div_eq_of_lt hvalue, Nat.add_zero]
  rw [LinearAttentionLayout.tiled, regroupedFrom, hhead, hmod, hdiv, Nat.mul_add_mod', Nat.mod_eq_of_lt helement]

theorem tiled_lt {headDimension position : Nat} (h : position < layout.numValueHeads * headDimension) :
    layout.tiled headDimension position < layout.numValueHeads * headDimension := by
  rw [← valuesPerKeyHead_mul layout] at h ⊢
  exact regroupedFrom_lt h

/-- An element of a packed word moves with its word. -/
theorem tiled_div (headDimension packing position : Nat) (hpacking : 0 < packing) :
    layout.tiled (headDimension * packing) position / packing = layout.tiled headDimension (position / packing) ∧
      layout.tiled (headDimension * packing) position % packing = position % packing := by
  have hdiv : position / (headDimension * packing) = position / packing / headDimension := by
    rw [Nat.mul_comm, Nat.div_div_eq_div_mul]
  have hmod : position % (headDimension * packing) = packing * (position / packing % headDimension) + position % packing := by
    rw [Nat.mul_comm headDimension, Nat.mod_mul]
    omega
  have heq : layout.tiled (headDimension * packing) position =
      packing * layout.tiled headDimension (position / packing) + position % packing := by
    simp only [LinearAttentionLayout.tiled, regroupedFrom]
    rw [hdiv, hmod]
    ring
  rw [heq, Nat.mul_add_div hpacking, Nat.mul_add_mod, Nat.div_eq_of_lt (Nat.mod_lt _ hpacking), Nat.mod_mod]
  exact ⟨by omega, rfl⟩

/-- With one key head, or one value head for each, both orders are the same. -/
theorem tiled_eq_self {headDimension position : Nat} (h : layout.valuesPerKeyHead = 1 ∨ layout.numKeyHeads = 1)
    (hlt : position < layout.numValueHeads * headDimension) : layout.tiled headDimension position = position := by
  have hpos : 0 < headDimension := Nat.pos_of_ne_zero fun hzero => by simp [hzero] at hlt
  have hhead : position / headDimension < layout.numValueHeads := (Nat.div_lt_iff_lt_mul hpos).mpr hlt
  rw [LinearAttentionLayout.tiled, regroupedFrom]
  rcases h with h | h
  · rw [h, Nat.mod_one, Nat.div_one, Nat.zero_mul, Nat.zero_add, Nat.div_add_mod']
  · have hvalues : layout.valuesPerKeyHead = layout.numValueHeads := by
      have := valuesPerKeyHead_mul layout
      rwa [h, Nat.mul_one] at this
    rw [h, hvalues, Nat.mod_eq_of_lt hhead, Nat.div_eq_of_lt hhead, Nat.mul_one, Nat.add_zero, Nat.div_add_mod']

/-! ## Arrays -/

section Arrays
variable {layout} {value : Tensor Element}

@[simp] theorem reorderHeadAxis_shape (axis headDimension : Nat) :
    (reorderHeadAxis layout value axis headDimension).shape = value.shape := by
  unfold reorderHeadAxis
  split <;> rfl

theorem reorderHeadAxis_entry {lead trail l r : List Nat} {headDimension position : Nat}
    (hshape : value.shape = lead ++ layout.numValueHeads * headDimension :: trail) (hl : InRange lead l)
    (hr : InRange trail r) (hlt : position < layout.numValueHeads * headDimension) :
    (reorderHeadAxis layout value lead.length headDimension).entry (l ++ position :: r) =
      value.entry (l ++ layout.tiled headDimension position :: r) := by
  have haxis : lead.length < value.shape.length ∧ value.shape.getD lead.length 0 = layout.numValueHeads * headDimension := by
    simp [hshape]
  rw [reorderHeadAxis, if_pos haxis]
  rw [← valuesPerKeyHead_mul layout] at hshape hlt
  exact regrouped_entry hshape hl hr hlt

theorem reorderValueRows_shape (headDimension : Nat) :
    (reorderValueRows layout value headDimension).shape = value.shape := by
  unfold reorderValueRows
  split
  · exact reorderHeadAxis_shape _ _
  · rfl

theorem reorderValueRows_entry {trail r : List Nat} {headDimension position : Nat}
    (hshape : value.shape = layout.numValueHeads * headDimension :: trail) (hpos : 0 < headDimension) (hr : InRange trail r)
    (hlt : position < layout.numValueHeads * headDimension) :
    (reorderValueRows layout value headDimension).entry (position :: r) =
      value.entry (layout.tiled headDimension position :: r) := by
  rw [reorderValueRows, if_pos ⟨by simp [hshape], hpos, by simp [rows, hshape]⟩]
  exact reorderHeadAxis_entry hshape (show InRange [] [] from .nil) hr hlt

theorem reorderRowsAfterKeys_spec {trail : List Nat}
    (hshape : value.shape = (layout.keyRows * 2 + layout.valueRows) :: trail) (htrail : trail ≠ []) :
    (reorderRowsAfterKeys layout value).shape = value.shape ∧
      ∀ position < layout.keyRows * 2 + layout.valueRows, ∀ r, InRange trail r →
        (reorderRowsAfterKeys layout value).entry (position :: r) =
          value.entry (layout.tiledAfter (layout.keyRows * 2) layout.valueHeadDimension position :: r) := by
  have hrows : value.rows = layout.keyRows * 2 + layout.valueRows := by simp [rows, hshape]
  have hrank : 2 ≤ value.shape.length := by
    have := List.length_pos_of_ne_nil htrail
    rw [hshape, List.length_cons]
    omega
  have hkeyRows : (value.slice 0 (layout.keyRows * 2)).rows = layout.keyRows * 2 := by simp [rows, slice]
  have hvalueShape : (value.slice (layout.keyRows * 2) value.rows).shape =
      layout.numValueHeads * layout.valueHeadDimension :: trail := by
    simp [slice, hshape, hrows, LinearAttentionLayout.valueRows]
  have hvalueRows : (reorderValueRows layout (value.slice (layout.keyRows * 2) value.rows) layout.valueHeadDimension).rows =
      layout.valueRows := by
    rw [rows, reorderValueRows_shape, hvalueShape]
    rfl
  rw [reorderRowsAfterKeys, if_pos ⟨hrank, hrows⟩]
  dsimp only
  constructor
  · simp only [concatenated, List.map_cons, List.map_nil, List.sum_cons, List.sum_nil, hkeyRows, hvalueRows]
    simp [slice, hshape]
  · intro position hposition r hr
    simp only [concatenated, catEntry, hkeyRows, hvalueRows]
    unfold LinearAttentionLayout.tiledAfter
    by_cases hkey : position < layout.keyRows * 2
    · rw [if_pos hkey, if_pos hkey]
      simp [slice]
    · have hvalue : position - layout.keyRows * 2 < layout.valueRows := by omega
      rw [if_neg hkey, if_neg hkey, if_pos hvalue]
      rw [reorderValueRows_entry hvalueShape layout.valueHeadDimension_pos hr hvalue]
      rfl

/-- An array is left alone, or its columns move with the elements that they stand for. -/
theorem reorderValueColumns_spec {front : List Nat} {length factor : Nat} (hshape : value.shape = front ++ [length])
    (hfront : front ≠ []) (hlength : length * factor = layout.valueRows) :
    (reorderValueColumns layout value).shape = value.shape ∧
      (¬ factor ∣ layout.valueHeadDimension → reorderValueColumns layout value = value) ∧
      (factor ∣ layout.valueHeadDimension → ∀ l, InRange front l → ∀ column < length,
        (reorderValueColumns layout value).entry (l ++ [column]) =
          value.entry (l ++ [layout.tiled (layout.valueHeadDimension / factor) column])) := by
  have hpos : 0 < layout.valueRows := Nat.mul_pos layout.numValueHeads_pos layout.valueHeadDimension_pos
  have hlast : value.shape.getLastD 0 = length := by simp [hshape]
  have hlengthPos : 0 < length := Nat.pos_of_ne_zero fun hzero => by simp [hzero] at hlength; omega
  have hfactor : layout.valueRows / length = factor := by rw [← hlength, Nat.mul_div_cancel_left _ hlengthPos]
  have haxis : value.shape.length - 1 = front.length := by simp [hshape]
  have hrank : 2 ≤ value.shape.length := by
    have := List.length_pos_of_ne_nil hfront
    rw [hshape, List.length_append, List.length_singleton]
    omega
  have hmod : layout.valueRows % length = 0 := by rw [← hlength, Nat.mul_mod_right]
  unfold reorderValueColumns
  dsimp only
  rw [hlast, hfactor, haxis]
  refine ⟨?_, ?_, ?_⟩
  · split
    · exact reorderHeadAxis_shape _ _
    · rfl
  · intro hnot
    exact if_neg fun h => hnot (Nat.dvd_of_mod_eq_zero h.2.2.2)
  · intro hdvd l hl column hcolumn
    -- The columns are heads of a smaller dimension, in which the elements are packed.
    obtain ⟨headDimension, hhead⟩ := hdvd
    have hfactorPos : 0 < factor := Nat.pos_of_ne_zero fun hzero => by simp [hzero] at hlength; omega
    have hdimension : layout.valueHeadDimension / factor = headDimension := by
      rw [hhead, Nat.mul_div_cancel_left _ hfactorPos]
    have hcolumns : length = layout.numValueHeads * headDimension := by
      apply Nat.eq_of_mul_eq_mul_right hfactorPos
      rw [hlength, LinearAttentionLayout.valueRows, hhead]
      ring
    rw [if_pos ⟨hrank, hlengthPos, hmod, Nat.mod_eq_zero_of_dvd ⟨headDimension, hhead⟩⟩, hdimension]
    exact reorderHeadAxis_entry (hcolumns ▸ hshape) hl .nil (hcolumns ▸ hcolumn)

/-- The arrays that stand for `factor` elements at a time follow the elements. -/
theorem reorderValueColumns_follows {front : List Nat} {length factor : Nat} (hshape : value.shape = front ++ [length])
    (hfront : front ≠ []) (hlength : length * factor = layout.valueRows)
    (h : (layout.valuesPerKeyHead = 1 ∨ layout.numKeyHeads = 1) ∨ factor ∣ layout.valueHeadDimension ∨
      layout.valueRows = factor) {l : List Nat} (hl : InRange front l) {column : Nat} (hcolumn : column < layout.valueRows) :
    (reorderValueColumns layout value).entry (l ++ [column / factor]) =
      value.entry (l ++ [layout.tiled layout.valueHeadDimension column / factor]) := by
  obtain ⟨_, hkept, hmoved⟩ := reorderValueColumns_spec hshape hfront hlength
  have hpos : 0 < factor := Nat.pos_of_ne_zero fun hzero => by simp [hzero] at hlength; omega
  have hdiv : column / factor < length := (Nat.div_lt_iff_lt_mul hpos).mpr (by omega)
  have htiled : layout.tiled layout.valueHeadDimension column < layout.valueRows := tiled_lt layout hcolumn
  by_cases hdvd : factor ∣ layout.valueHeadDimension
  · rw [hmoved hdvd l hl _ hdiv]
    obtain ⟨headDimension, hhead⟩ := hdvd
    rw [hhead, Nat.mul_div_cancel_left _ hpos, Nat.mul_comm factor, (tiled_div layout headDimension factor column hpos).1]
  · rw [hkept hdvd]
    rcases h with hsame | hdvd' | hone
    · rw [tiled_eq_self layout hsame hcolumn]
    · exact absurd hdvd' hdvd
    · rw [Nat.div_eq_of_lt (hone ▸ hcolumn), Nat.div_eq_of_lt (hone ▸ htiled)]

end Arrays

/-! ## What has to hold of the weights -/

/-- A tensor whose rows from `first` on are heads. -/
structure HeadRows where
  ending : String
  first : Nat
  headDimension : Nat

def HeadRows.count (tensor : HeadRows) : Nat := tensor.first + layout.numValueHeads * tensor.headDimension

/-- The tensors that may be quantized. -/
def quantizedRows : List HeadRows :=
  [⟨".attn_qkv", layout.keyRows * 2, layout.valueHeadDimension⟩, ⟨".attn_gate", 0, layout.valueHeadDimension⟩,
    ⟨".ssm_alpha", 0, 1⟩, ⟨".ssm_beta", 0, 1⟩]

/-- All tensors that are reordered by rows. -/
def plainRows : List HeadRows :=
  (quantizedRows layout).map (fun tensor => ⟨tensor.ending ++ ".weight", tensor.first, tensor.headDimension⟩) ++
    [⟨".ssm_a", 0, 1⟩, ⟨".ssm_dt.bias", 0, 1⟩, ⟨".ssm_conv1d.weight", layout.keyRows * 2, layout.valueHeadDimension⟩]

section Commute
variable (apply : Weights → Weights) (bits groupSize : Nat)

/-- Rows of the reordered triple are those of the matrix, in grouped order. -/
def RowsCommute : Prop :=
  ∀ tensor ∈ quantizedRows layout, ∀ (weights : Weights) (lead : String) (q : QuantizedTensor) (columns : Nat),
    q.In weights (lead ++ tensor.ending) → q.OfMatrix (tensor.count layout) columns bits groupSize →
    ∃ q' : QuantizedTensor, q'.In (apply weights) (lead ++ tensor.ending) ∧
      q'.OfMatrix (tensor.count layout) columns bits groupSize ∧
      ∀ row < tensor.count layout, ∀ column < columns, dequantize bits groupSize q' row column =
        dequantize bits groupSize q (layout.tiledAfter tensor.first tensor.headDimension row) column

/-- Columns of the reordered triple are those of the matrix, in grouped order. -/
def ColumnsCommute : Prop :=
  ∀ (weights : Weights) (lead : String) (q : QuantizedTensor) (rows : Nat),
    q.In weights (lead ++ ".ssm_out") → q.OfMatrix rows layout.valueRows bits groupSize →
    ∃ q' : QuantizedTensor, q'.In (apply weights) (lead ++ ".ssm_out") ∧
      q'.OfMatrix rows layout.valueRows bits groupSize ∧
      ∀ row < rows, ∀ column < layout.valueRows, dequantize bits groupSize q' row column =
        dequantize bits groupSize q row (layout.tiled layout.valueHeadDimension column)

/-- Arrays that are not quantized are in grouped order. -/
structure PlainCommute : Prop where
  rows : ∀ tensor ∈ plainRows layout, ∀ (weights : Weights) (lead : String) (value : Tensor Element) (trail : List Nat),
    weights (lead ++ tensor.ending) = some value → value.shape = tensor.count layout :: trail →
    (tensor.first ≠ 0 → trail ≠ []) →
    ∃ value' : Tensor Element, apply weights (lead ++ tensor.ending) = some value' ∧ value'.shape = value.shape ∧
      ∀ row < tensor.count layout, ∀ r, InRange trail r →
        value'.entry (row :: r) = value.entry (layout.tiledAfter tensor.first tensor.headDimension row :: r)
  columns : ∀ (weights : Weights) (lead : String) (value : Tensor Element) (front : List Nat),
    weights (lead ++ ".ssm_out.weight") = some value → value.shape = front ++ [layout.valueRows] → front ≠ [] →
    ∃ value' : Tensor Element, apply weights (lead ++ ".ssm_out.weight") = some value' ∧ value'.shape = value.shape ∧
      ∀ l, InRange front l → ∀ column < layout.valueRows,
        value'.entry (l ++ [column]) = value.entry (l ++ [layout.tiled layout.valueHeadDimension column])

/-- Where matrices of the columns exist, a head is a whole number of groups, or both orders are the same, or one group
spans the row and a head is a whole number of words. -/
def ColumnsAligned : Prop :=
  groupSize ∣ layout.valueRows →
    layout.valuesPerKeyHead = 1 ∨ layout.numKeyHeads = 1 ∨ groupSize ∣ layout.valueHeadDimension ∨
      (layout.valueRows = groupSize ∧ packing bits ∣ layout.valueHeadDimension)

end Commute

/-! ## Reordered weights -/

section Reordered
variable {layout}

theorem applyArchitectureWeightLayout_eq {root : Configuration} (hlayout : linearAttentionLayout root = some layout)
    {modelType : String} (hmodel : isQwen35Architecture modelType = true) (undo : Weights → Weights) (weights : Weights) :
    applyArchitectureWeightLayout undo weights modelType root = reorderQwen35LinearAttentionWeights layout weights := by
  simp only [applyArchitectureWeightLayout, hmodel, if_true, hlayout]

theorem reordered_eq {weights : Weights} {name : String} {value value' : Tensor Element} (h : weights name = some value)
    (htransformed : transformed layout value name = some value') :
    reorderQwen35LinearAttentionWeights layout weights name = some value' := by
  simp only [reorderQwen35LinearAttentionWeights, h, Option.map_some, htransformed, Option.getD_some]

theorem packing_dvd {bits groupSize : Nat} (hbits : bits = 4 ∨ bits = 8) (hgroup : groupSize = 32 ∨ groupSize = 64) :
    0 < packing bits ∧ packing bits ∣ groupSize := by
  rcases hbits with rfl | rfl <;> rcases hgroup with rfl | rfl <;> decide

/-- An array that is reordered by rows has its rows in grouped order. -/
theorem transformed_rows {tensor : HeadRows} (h : tensor ∈ plainRows layout) {name lead : String}
    (hname : baseName name = lead ++ tensor.ending) {value : Tensor Element} {trail : List Nat}
    (hshape : value.shape = tensor.count layout :: trail) (htrail : tensor.first ≠ 0 → trail ≠ []) :
    ∃ value', transformed layout value name = some value' ∧ value'.shape = value.shape ∧
      ∀ row < tensor.count layout, ∀ r, InRange trail r →
        value'.entry (row :: r) = value.entry (layout.tiledAfter tensor.first tensor.headDimension row :: r) := by
  have hnames := transformed_eq layout value lead hname
  have hkeys : layout.keyRows * 2 ≠ 0 :=
    (Nat.mul_pos (Nat.mul_pos layout.numKeyHeads_pos layout.keyHeadDimension_pos) two_pos).ne'
  have hvalueRows : tensor.first = 0 → 0 < tensor.headDimension →
      (reorderValueRows layout value tensor.headDimension).shape = value.shape ∧
        ∀ row < tensor.count layout, ∀ r, InRange trail r →
          (reorderValueRows layout value tensor.headDimension).entry (row :: r) =
            value.entry (layout.tiledAfter tensor.first tensor.headDimension row :: r) := by
    intro hfirst hpos
    rw [HeadRows.count, hfirst, Nat.zero_add] at hshape ⊢
    refine ⟨reorderValueRows_shape _, ?_⟩
    intro row hrow r hr
    rw [reorderValueRows_entry hshape hpos hr hrow]
    simp [LinearAttentionLayout.tiledAfter]
  simp only [plainRows, quantizedRows, List.map_cons, List.map_nil, List.cons_append, List.nil_append, List.mem_cons,
    List.not_mem_nil, or_false] at h
  rcases h with rfl | rfl | rfl | rfl | rfl | rfl | rfl
  · exact ⟨_, hnames.1 rfl, reorderRowsAfterKeys_spec hshape (htrail hkeys)⟩
  · exact ⟨_, hnames.2.1 rfl, hvalueRows rfl layout.valueHeadDimension_pos⟩
  · exact ⟨_, hnames.2.2.1 (.inl rfl), hvalueRows rfl one_pos⟩
  · exact ⟨_, hnames.2.2.1 (.inr (.inl rfl)), hvalueRows rfl one_pos⟩
  · exact ⟨_, hnames.2.2.1 (.inr (.inr (.inl rfl))), hvalueRows rfl one_pos⟩
  · exact ⟨_, hnames.2.2.1 (.inr (.inr (.inr rfl))), hvalueRows rfl one_pos⟩
  · exact ⟨_, hnames.2.2.2.1 rfl, reorderRowsAfterKeys_spec hshape (htrail hkeys)⟩

theorem rowsCommute {bits groupSize : Nat} (hbits : bits = 4 ∨ bits = 8) (hgroup : groupSize = 32 ∨ groupSize = 64) :
    RowsCommute layout (reorderQwen35LinearAttentionWeights layout) bits groupSize := by
  intro tensor htensor weights lead q columns hin hq
  obtain ⟨hpacking, hdvd⟩ := packing_dvd hbits hgroup
  have hplain : (⟨tensor.ending ++ ".weight", tensor.first, tensor.headDimension⟩ : HeadRows) ∈ plainRows layout :=
    List.mem_append_left _ (List.mem_map.mpr ⟨tensor, htensor, rfl⟩)
  obtain ⟨hweight, hscales, hbiases⟩ := baseName_append (lead ++ tensor.ending)
  have hassoc : lead ++ tensor.ending ++ ".weight" = lead ++ (tensor.ending ++ ".weight") := String.append_assoc
  obtain ⟨weight', hweight', hshape, hentry⟩ := transformed_rows hplain (hweight.trans hassoc) hq.weight fun _ => nofun
  obtain ⟨scales', hscales', hscalesShape, hscalesEntry⟩ :=
    transformed_rows hplain (hscales.trans hassoc) hq.scales fun _ => nofun
  obtain ⟨biases', hbiases', hbiasesShape, hbiasesEntry⟩ :=
    transformed_rows hplain (hbiases.trans hassoc) hq.biases fun _ => nofun
  refine ⟨⟨weight', scales', biases'⟩,
    ⟨reordered_eq hin.weight hweight', reordered_eq hin.scales hscales', reordered_eq hin.biases hbiases'⟩,
    ⟨hq.divides, hshape.trans hq.weight, hscalesShape.trans hq.scales, hbiasesShape.trans hq.biases⟩, ?_⟩
  intro row hrow column hcolumn
  have hgroups : column / groupSize < columns / groupSize := Nat.div_lt_div_of_lt_of_dvd hq.divides hcolumn
  have hwords : column / packing bits < columns / packing bits :=
    Nat.div_lt_div_of_lt_of_dvd (hdvd.trans hq.divides) hcolumn
  simp only [dequantize]
  rw [hentry row hrow _ (.cons hwords .nil), hscalesEntry row hrow _ (.cons hgroups .nil),
    hbiasesEntry row hrow _ (.cons hgroups .nil)]

theorem baseName_of_plainRows {tensor : HeadRows} (h : tensor ∈ plainRows layout) {lead : String} :
    baseName (lead ++ tensor.ending) = lead ++ tensor.ending := by
  have hending : tensor.ending ∈ [".attn_qkv.weight", ".attn_gate.weight", ".ssm_alpha.weight", ".ssm_beta.weight", ".ssm_a",
      ".ssm_dt.bias", ".ssm_conv1d.weight"] := by
    simp only [plainRows, quantizedRows, List.map_cons, List.map_nil, List.cons_append, List.nil_append, List.mem_cons,
      List.not_mem_nil, or_false] at h
    rcases h with rfl | rfl | rfl | rfl | rfl | rfl | rfl <;> simp
  have hplain : ∀ ending ∈ [".attn_qkv.weight", ".attn_gate.weight", ".ssm_alpha.weight", ".ssm_beta.weight", ".ssm_a",
      ".ssm_dt.bias", ".ssm_conv1d.weight"],
      (ending.toList.isSuffixOf ".scales".toList = false ∧ ".scales".toList.isSuffixOf ending.toList = false) ∧
        ending.toList.isSuffixOf ".biases".toList = false ∧ ".biases".toList.isSuffixOf ending.toList = false := by
    decide
  obtain ⟨hscales, hbiases⟩ := hplain _ hending
  apply baseName_of_plain
  · rw [hasSuffix_append _ (.inl hscales.1), hscales.2]
  · rw [hasSuffix_append _ (.inl hbiases.1), hbiases.2]

theorem plainCommute : PlainCommute layout (reorderQwen35LinearAttentionWeights layout) where
  rows := by
    intro tensor htensor weights lead value trail hvalue hshape htrail
    have hbase : baseName (lead ++ tensor.ending) = lead ++ tensor.ending := baseName_of_plainRows htensor
    obtain ⟨value', htransformed, hspec⟩ := transformed_rows htensor hbase hshape htrail
    exact ⟨value', reordered_eq hvalue htransformed, hspec⟩
  columns := by
    intro weights lead value front hvalue hshape hfront
    have hbase : baseName (lead ++ ".ssm_out.weight") = lead ++ ".ssm_out.weight" := by
      apply baseName_of_plain <;> rw [hasSuffix_append _ (by decide)] <;> decide
    have htransformed := (transformed_eq layout value lead hbase).2.2.2.2 rfl
    obtain ⟨hsame, _, hmoved⟩ := reorderValueColumns_spec hshape hfront (Nat.mul_one _)
    refine ⟨_, reordered_eq hvalue htransformed, hsame, ?_⟩
    intro l hl column hcolumn
    rw [hmoved (one_dvd _) l hl column hcolumn, Nat.div_one]

/-! ## Columns -/

theorem transformed_columns (lead : String) {name : String} (h : baseName name = lead ++ ".ssm_out" ++ ".weight")
    (value : Tensor Element) : transformed layout value name = some (reorderValueColumns layout value) :=
  (transformed_eq layout value lead (h.trans String.append_assoc)).2.2.2.2 rfl

/-- The reordered triple of the columns. -/
def reorderedColumns (layout : LinearAttentionLayout) (q : QuantizedTensor) : QuantizedTensor :=
  ⟨reorderValueColumns layout q.weight, reorderValueColumns layout q.scales, reorderValueColumns layout q.biases⟩

theorem reorderedColumns_in {weights : Weights} {lead : String} {q : QuantizedTensor} (h : q.In weights (lead ++ ".ssm_out")) :
    (reorderedColumns layout q).In (reorderQwen35LinearAttentionWeights layout weights) (lead ++ ".ssm_out") := by
  obtain ⟨hweight, hscales, hbiases⟩ := baseName_append (lead ++ ".ssm_out")
  exact ⟨reordered_eq h.weight (transformed_columns lead hweight _), reordered_eq h.scales (transformed_columns lead hscales _),
    reordered_eq h.biases (transformed_columns lead hbiases _)⟩

theorem columnsCommute_of_aligned {bits groupSize : Nat} (hbits : bits = 4 ∨ bits = 8)
    (hgroup : groupSize = 32 ∨ groupSize = 64) (h : ColumnsAligned layout bits groupSize) :
    ColumnsCommute layout (reorderQwen35LinearAttentionWeights layout) bits groupSize := by
  intro weights lead q rows hin hq
  obtain ⟨hpacking, hdvd⟩ := packing_dvd hbits hgroup
  have hgroups : layout.valueRows / groupSize * groupSize = layout.valueRows := Nat.div_mul_cancel hq.divides
  have hwords : layout.valueRows / packing bits * packing bits = layout.valueRows :=
    Nat.div_mul_cancel (hdvd.trans hq.divides)
  have hfront : [rows] ≠ [] := List.cons_ne_nil _ _
  have haligned := h hq.divides
  -- what lets scales follow, and what lets words follow
  have hscale : (layout.valuesPerKeyHead = 1 ∨ layout.numKeyHeads = 1) ∨ groupSize ∣ layout.valueHeadDimension ∨
      layout.valueRows = groupSize := by tauto
  have hword : (layout.valuesPerKeyHead = 1 ∨ layout.numKeyHeads = 1) ∨ packing bits ∣ layout.valueHeadDimension := by
    rcases haligned with hsame | hsame | hhead | hone
    · exact .inl (.inl hsame)
    · exact .inl (.inr hsame)
    · exact .inr (hdvd.trans hhead)
    · exact .inr hone.2
  have hindex : ∀ column < layout.valueRows,
      layout.tiled layout.valueHeadDimension column % packing bits = column % packing bits := by
    intro column hcolumn
    rcases hword with hsame | ⟨headDimension, hhead⟩
    · rw [tiled_eq_self layout hsame hcolumn]
    · rw [hhead, Nat.mul_comm, (tiled_div layout headDimension (packing bits) column hpacking).2]
  refine ⟨reorderedColumns layout q, reorderedColumns_in hin, ⟨hq.divides, ?_, ?_, ?_⟩, ?_⟩
  · exact (reorderValueColumns_spec hq.weight hfront hwords).1.trans hq.weight
  · exact (reorderValueColumns_spec hq.scales hfront hgroups).1.trans hq.scales
  · exact (reorderValueColumns_spec hq.biases hfront hgroups).1.trans hq.biases
  · intro row hrow column hcolumn
    have hl : InRange [rows] [row] := .cons hrow .nil
    have hweight := reorderValueColumns_follows hq.weight hfront hwords (hword.imp_right .inl) hl hcolumn
    have hscales := reorderValueColumns_follows hq.scales hfront hgroups hscale hl hcolumn
    have hbiases := reorderValueColumns_follows hq.biases hfront hgroups hscale hl hcolumn
    simp only [List.cons_append, List.nil_append] at hweight hscales hbiases
    simp only [dequantize, reorderedColumns]
    rw [hweight, hscales, hbiases, hindex column hcolumn]

end Reordered

end Tanpopo.GGUF
