import Tanpopo.GGUF.Gemma4
/-!
# What the weights restore of a Gemma 4 configuration

`restoring_agrees`: the layout that `restoring` finds in fitting weights is
the one that the metadata gave, as long as every attention type of the shared
tail also has a layer with projections of its own.
-/

namespace Tanpopo.GGUF

open Swift Outcome

/-! ## What resolve gives -/

/-- The resolved head count of the layers of one type. -/
def AttentionLayout.kvHeads (layout : AttentionLayout) (type : String) : Int :=
  if type = "sliding_attention" then layout.slidingKVHeads else layout.globalKVHeads

/-- A layout that `resolve` gives for layers of these types. -/
structure AttentionLayout.Represents (layout : AttentionLayout) (layerTypes : List String) : Prop where
  nonempty : layerTypes ≠ []
  known : ∀ type ∈ layerTypes, type = "sliding_attention" ∨ type = "full_attention"
  positive : ∀ type ∈ layerTypes, 0 < layout.kvHeads type
  alike : "sliding_attention" ∉ layerTypes ∨ "full_attention" ∉ layerTypes →
    layout.globalKVHeads = layout.slidingKVHeads
  runnable : layout.globalKeyEqualsValue = true ∨ layout.globalKVHeads = layout.slidingKVHeads

theorem countsOf_eq_nil_iff {type : String} {layerTypes : List String} {headCounts : List Int}
    (h : layerTypes.length = headCounts.length) : countsOf type layerTypes headCounts = [] ↔ type ∉ layerTypes := by
  have hfst : (layerTypes.zip headCounts).map Prod.fst = layerTypes := List.map_fst_zip h.le
  have hmem : type ∈ layerTypes ↔ ∃ count, (type, count) ∈ layerTypes.zip headCounts := by
    conv_lhs => rw [← hfst]
    simp
  simp [countsOf, List.filter_eq_nil_iff, hmem]
  grind

theorem mem_of_mem_countsOf {type : String} {layerTypes : List String} {headCounts : List Int} {count : Int}
    (h : count ∈ countsOf type layerTypes headCounts) : type ∈ layerTypes ∧ count ∈ headCounts := by
  simp only [countsOf, List.mem_map, List.mem_filter, decide_eq_true_eq] at h
  obtain ⟨⟨_, _⟩, ⟨hmem, rfl⟩, rfl⟩ := h
  exact List.of_mem_zip hmem

theorem countsOf_map (heads : String → Int) (type : String) (layerTypes : List String) :
    countsOf type layerTypes (layerTypes.map heads) = (layerTypes.filter (· = type)).map heads := by
  rw [countsOf, ← List.map_prod_left_eq_zip, List.filter_map, List.map_map]
  rfl

section Alike
variable {α : Type} [DecidableEq α] {l : List α} {a : α}

theorem dedup_of_alike (h : ∀ x ∈ l, x = a) : l.dedup = if l = [] then [] else [a] := by
  induction l with
  | nil => rfl
  | cons x rest ih =>
    obtain rfl := h x List.mem_cons_self
    have hrest := ih fun y hy => h y (List.mem_cons_of_mem _ hy)
    cases rest with
    | nil => rfl
    | cons y rest =>
      have hy : y = x := h y (by simp)
      rw [List.dedup_cons_of_mem (by simp [hy]), hrest]
      simp

theorem length_dedup_of_alike (h : ∀ x ∈ l, x = a) : l.dedup.length ≤ 1 := by
  rw [dedup_of_alike h]
  split <;> simp

theorem head?_dedup_of_alike (h : ∀ x ∈ l, x = a) (hne : l ≠ []) : l.dedup.head? = some a := by
  rw [dedup_of_alike h, if_neg hne]
  rfl

theorem head?_dedup_of_mem (h : l.dedup.length ≤ 1) (ha : a ∈ l) : l.dedup.head? = some a := by
  have hmem := List.mem_dedup.mpr ha
  obtain ⟨b, hb⟩ := List.length_eq_one_iff.mp (le_antisymm h (List.length_pos_of_mem hmem))
  simp_all

end Alike

variable {layerTypes : List String} {headCounts : List Int} {presence : List Bool} {layout : AttentionLayout}

/-- What holds when `resolve` gives a layout. -/
theorem resolve_eq_ok (h : resolve layerTypes headCounts presence = ok layout) :
    (layerTypes ≠ [] ∧ layerTypes.length = headCounts.length ∧ (∀ count ∈ headCounts, 0 < count) ∧
      ∀ type ∈ layerTypes, type = "sliding_attention" ∨ type = "full_attention") ∧
    ((countsOf "sliding_attention" layerTypes headCounts).dedup.length ≤ 1 ∧
      (countsOf "full_attention" layerTypes headCounts).dedup.length ≤ 1) ∧
    layout.slidingKVHeads =
      (countsOf "sliding_attention" layerTypes headCounts).dedup.head?.getD (headCounts.headD 0) ∧
    layout.globalKVHeads = (countsOf "full_attention" layerTypes headCounts).dedup.head?.getD layout.slidingKVHeads ∧
    (layout.globalKeyEqualsValue = true → presence.head? = some false) ∧
    (layout.globalKeyEqualsValue = true ∨ layout.globalKVHeads = layout.slidingKVHeads) := by
  simp only [resolve, bind_eq_ok, guard_eq_ok, exists_and_left, exists_const, pure_eq] at h
  obtain ⟨hinput, hcounts, hrunnable, hlayout⟩ := h
  obtain rfl := ok.inj hlayout
  exact ⟨hinput, ⟨hcounts.1, hcounts.2.1⟩, rfl, rfl, by simp, hrunnable⟩

theorem resolve_represents (h : resolve layerTypes headCounts presence = ok layout) : layout.Represents layerTypes := by
  obtain ⟨⟨hne, hlength, hpos, hknown⟩, ⟨hslidings, hglobals⟩, hsliding, hglobal, _, hrunnable⟩ := resolve_eq_ok h
  -- the head count of a type is one of the counts that were given
  have hfound : ∀ type ∈ layerTypes, ∃ count ∈ headCounts, count ∈ countsOf type layerTypes headCounts := by
    intro type htype
    obtain ⟨count, hcount⟩ := List.exists_mem_of_ne_nil _ (mt (countsOf_eq_nil_iff hlength).mp (not_not.mpr htype))
    exact ⟨count, (mem_of_mem_countsOf hcount).2, hcount⟩
  have halike : "sliding_attention" ∉ layerTypes ∨ "full_attention" ∉ layerTypes →
      layout.globalKVHeads = layout.slidingKVHeads := by
    rintro (hnone | hnone)
    · have hall : layerTypes.filter (· = "full_attention") = layerTypes := by
        rw [List.filter_eq_self]
        intro type htype
        rcases hknown type htype with rfl | rfl
        · exact absurd htype hnone
        · simp
      have hhead : headCounts.headD 0 ∈ countsOf "full_attention" layerTypes headCounts := by
        obtain ⟨type, types, rfl⟩ := List.exists_cons_of_ne_nil hne
        obtain ⟨count, counts, rfl⟩ : ∃ count counts, headCounts = count :: counts := by
          cases headCounts with
          | nil => simp at hlength
          | cons count counts => exact ⟨count, counts, rfl⟩
        have htype : type = "full_attention" := by
          rcases hknown type (by simp) with rfl | rfl
          · simp at hnone
          · rfl
        simp [countsOf, htype]
      rw [hglobal, head?_dedup_of_mem hglobals hhead, hsliding, (countsOf_eq_nil_iff hlength).mpr hnone]
      rfl
    · rw [hglobal, (countsOf_eq_nil_iff hlength).mpr hnone]
      rfl
  refine ⟨hne, hknown, ?_, halike, hrunnable⟩
  intro type htype
  obtain ⟨count, hmem, hcount⟩ := hfound type htype
  rcases hknown type htype with rfl | rfl
  · rw [AttentionLayout.kvHeads, if_pos rfl, hsliding, head?_dedup_of_mem hslidings hcount]
    exact hpos count hmem
  · rw [AttentionLayout.kvHeads, if_neg (by decide), hglobal, head?_dedup_of_mem hglobals hcount]
    exact hpos count hmem

/-- `resolve` gives a layout back from the head counts that the layout gives the layers. -/
theorem AttentionLayout.Represents.resolve (h : layout.Represents layerTypes)
    (hpresence : ∀ own ∈ presence, own = !layout.globalKeyEqualsValue)
    (hnone : presence = [] → layout.globalKeyEqualsValue = false) :
    resolve layerTypes (layerTypes.map layout.kvHeads) presence = ok layout := by
  have hcounts : ∀ type, ∀ count ∈ countsOf type layerTypes (layerTypes.map layout.kvHeads), count = layout.kvHeads type := by
    intro type count hcount
    rw [countsOf_map] at hcount
    simp only [List.mem_map, List.mem_filter, decide_eq_true_eq] at hcount
    obtain ⟨_, ⟨_, rfl⟩, rfl⟩ := hcount
    rfl
  have hnil : ∀ type, type ∉ layerTypes → countsOf type layerTypes (layerTypes.map layout.kvHeads) = [] :=
    fun type => (countsOf_eq_nil_iff (by simp)).mpr
  have hhead : ∀ type ∈ layerTypes,
      (countsOf type layerTypes (layerTypes.map layout.kvHeads)).dedup.head? = some (layout.kvHeads type) :=
    fun type htype => head?_dedup_of_alike (hcounts type) (mt (countsOf_eq_nil_iff (by simp)).mp (not_not.mpr htype))
  -- A type that no layer has takes the heads of the other one, as the layout does.
  have hsliding : (countsOf "sliding_attention" layerTypes (layerTypes.map layout.kvHeads)).dedup.head?.getD
      ((layerTypes.map layout.kvHeads).headD 0) = layout.slidingKVHeads := by
    by_cases hmem : "sliding_attention" ∈ layerTypes
    · rw [hhead _ hmem]
      rfl
    · obtain ⟨type, types, rfl⟩ := List.exists_cons_of_ne_nil h.nonempty
      have htype : type ≠ "sliding_attention" := fun heq => hmem (by simp [heq])
      rw [hnil _ hmem]
      simpa [AttentionLayout.kvHeads, htype] using h.alike (.inl hmem)
  have hglobal : (countsOf "full_attention" layerTypes (layerTypes.map layout.kvHeads)).dedup.head?.getD
      layout.slidingKVHeads = layout.globalKVHeads := by
    by_cases hmem : "full_attention" ∈ layerTypes
    · rw [hhead _ hmem]
      rfl
    · rw [hnil _ hmem]
      exact (h.alike (.inr hmem)).symm
  have hkey : decide (presence.head? = some false) = layout.globalKeyEqualsValue := by
    cases presence with
    | nil => simp [hnone rfl]
    | cons own presence =>
      have := hpresence own List.mem_cons_self
      cases hvalue : layout.globalKeyEqualsValue <;> simp_all
  unfold GGUF.resolve
  rw [guard_of ⟨h.nonempty, by simp, by simpa using h.positive, h.known⟩, ok_bind]
  dsimp only
  rw [guard_of ⟨length_dedup_of_alike (hcounts _), length_dedup_of_alike (hcounts _), length_dedup_of_alike hpresence⟩, ok_bind]
  simp only [hsliding, hglobal, hkey]
  rw [guard_of h.runnable, ok_bind]
  rfl

/-! ## The layers with projections of their own -/

/-- The head dimension of the layers of one type. -/
def RestoringFields.headDim (fields : RestoringFields) (type : String) : Int :=
  if type = "sliding_attention" then fields.slidingHeadDim else fields.globalHeadDim

/-- Whether the layers of a type have a value projection. -/
def AttentionLayout.hasValue (layout : AttentionLayout) (type : String) : Bool :=
  type = "sliding_attention" || !layout.globalKeyEqualsValue

/-- A layer whose key projection has the rows of its type, and its value projection as many where it has one. -/
structure LayerFits (fields : RestoringFields) (layout : AttentionLayout) (weightShapes : WeightShapes)
    (layer : String × Nat) : Prop where
  key : ∃ columns, weightShapes (projectionName layer.2 "k_proj.weight") =
    some [layout.kvHeads layer.1 * fields.headDim layer.1, columns]
  value : layout.hasValue layer.1 = true → ∃ columns, weightShapes (projectionName layer.2 "v_proj.weight") =
    some [layout.kvHeads layer.1 * fields.headDim layer.1, columns]
  noValue : layout.hasValue layer.1 = false → weightShapes (projectionName layer.2 "v_proj.weight") = none

/-- The layers before the shared tail, with their indices. -/
def RestoringFields.own (fields : RestoringFields) : List (String × Nat) := (fields.layerTypes.take fields.ownLayers).zipIdx

def Fits (fields : RestoringFields) (layout : AttentionLayout) (weightShapes : WeightShapes) : Prop :=
  ∀ layer ∈ fields.own, LayerFits fields layout weightShapes layer

/-- What the loop has seen after some layers of fitting weights. -/
structure Noted (layout : AttentionLayout) (done : List (String × Nat)) (seen : Observation) : Prop where
  observed : ∀ index heads, seen.observedHeads index = some heads →
    ∃ type, (type, index) ∈ done ∧ heads = layout.kvHeads type
  byType : ∀ type, seen.typeHeads type = if type ∈ done.map Prod.fst then some (layout.kvHeads type) else none
  projections : ∀ own ∈ seen.fullValueProjections, own = !layout.globalKeyEqualsValue
  full : seen.fullValueProjections = [] ↔ ∀ layer ∈ done, layer.1 = "sliding_attention"

theorem noted_empty : Noted layout [] Observation.empty := by
  constructor <;> simp [Observation.empty]

variable {fields : RestoringFields} {weightShapes : WeightShapes}

@[simp] theorem outputRows_matrix (rows columns : Int) : outputRows [rows, columns] = some rows := rfl

theorem observe_of_fits {seen : Observation} {layer : String × Nat} (h : LayerFits fields layout weightShapes layer)
    (hdim : 0 < fields.headDim layer.1) (hheads : 0 < layout.kvHeads layer.1) :
    observe fields.slidingHeadDim fields.globalHeadDim weightShapes seen layer =
      ok ⟨Function.update seen.observedHeads layer.2 (some (layout.kvHeads layer.1)),
        Function.update seen.typeHeads layer.1 (some (layout.kvHeads layer.1)),
        if layer.1 = "sliding_attention" then seen.fullValueProjections
        else seen.fullValueProjections ++ [!layout.globalKeyEqualsValue]⟩ := by
  obtain ⟨columns, hkey⟩ := h.key
  have hdimEq : (if decide (layer.1 = "sliding_attention") = true then fields.slidingHeadDim else fields.globalHeadDim) =
      fields.headDim layer.1 := by
    simp [RestoringFields.headDim]
  have hdiv : layout.kvHeads layer.1 * fields.headDim layer.1 / fields.headDim layer.1 = layout.kvHeads layer.1 :=
    Int.mul_ediv_cancel _ hdim.ne'
  unfold observe
  simp only [hkey, ofOption, ok_bind, outputRows_matrix, hdimEq, hdiv]
  rw [guard_of ⟨Int.mul_pos hheads hdim, Int.mul_emod_left _ _⟩, ok_bind]
  cases hvalue : layout.hasValue layer.1 with
  | true =>
    obtain ⟨valueColumns, hshape⟩ := h.value hvalue
    rw [hshape, guard_of (by simp), ok_bind, guard_of (by simp), ok_bind]
    by_cases hsliding : layer.1 = "sliding_attention"
    · simp [hsliding]
    · have : layout.globalKeyEqualsValue = false := by simpa [AttentionLayout.hasValue, hsliding] using hvalue
      simp [hsliding, this]
  | false =>
    have hfull : layer.1 ≠ "sliding_attention" ∧ layout.globalKeyEqualsValue = true := by
      simpa [AttentionLayout.hasValue] using hvalue
    rw [h.noValue hvalue, guard_of (by simp), ok_bind, guard_of (by simp [hfull.1]), ok_bind]
    simp [hfull]

/-- One more layer. -/
theorem Noted.step {done : List (String × Nat)} {seen : Observation} {layer : String × Nat} (hseen : Noted layout done seen)
    (h : LayerFits fields layout weightShapes layer) (hdim : 0 < fields.headDim layer.1)
    (hheads : 0 < layout.kvHeads layer.1) :
    ∃ seen', observe fields.slidingHeadDim fields.globalHeadDim weightShapes seen layer = ok seen' ∧
      Noted layout (done ++ [layer]) seen' := by
  refine ⟨_, observe_of_fits h hdim hheads, ?_, ?_, ?_, ?_⟩
  · intro index heads hindex
    simp only [Function.update_apply] at hindex
    split at hindex
    · rename_i heq
      exact ⟨layer.1, by simp [heq], (Option.some.inj hindex).symm⟩
    · obtain ⟨type, hmem, htype⟩ := hseen.observed index heads hindex
      exact ⟨type, List.mem_append_left _ hmem, htype⟩
  · intro type
    simp only [List.map_append, List.mem_append, List.map_cons, List.map_nil, List.mem_singleton]
    by_cases htype : type = layer.1
    · simp [htype]
    · rw [Function.update_of_ne htype, hseen.byType]
      exact if_congr (or_iff_left htype).symm rfl rfl
  · intro own hown
    split at hown
    · exact hseen.projections own hown
    · rcases List.mem_append.mp hown with hown | hown
      · exact hseen.projections own hown
      · exact List.mem_singleton.mp hown
  · have := hseen.full
    by_cases hsliding : layer.1 = "sliding_attention"
    · simp only [hsliding, if_pos, this, List.mem_append, List.mem_singleton]
      grind
    · simp only [hsliding, if_false, List.append_eq_nil_iff, List.mem_append, List.mem_singleton]
      grind

/-- The whole loop. -/
theorem exists_noted_of_fits {layers done : List (String × Nat)} {seen : Observation} (hseen : Noted layout done seen)
    (h : ∀ layer ∈ layers, LayerFits fields layout weightShapes layer) (hdim : ∀ layer ∈ layers, 0 < fields.headDim layer.1)
    (hheads : ∀ layer ∈ layers, 0 < layout.kvHeads layer.1) :
    ∃ seen', layers.foldlM (observe fields.slidingHeadDim fields.globalHeadDim weightShapes) seen = ok seen' ∧
      Noted layout (done ++ layers) seen' := by
  induction layers generalizing done seen with
  | nil => exact ⟨seen, rfl, by simpa using hseen⟩
  | cons layer layers ih =>
    have hmem := List.mem_cons_self (a := layer) (l := layers)
    obtain ⟨next, hnext, hnoted⟩ := hseen.step (h layer hmem) (hdim layer hmem) (hheads layer hmem)
    rw [List.foldlM_cons, hnext, ok_bind]
    simpa using ih hnoted (fun l hl => h l (List.mem_cons_of_mem _ hl)) (fun l hl => hdim l (List.mem_cons_of_mem _ hl))
      (fun l hl => hheads l (List.mem_cons_of_mem _ hl))

/-! ## The restored layout -/

/-- Every attention type of the shared tail also has a layer before the tail. -/
def RestoringFields.TailCovered (fields : RestoringFields) : Prop :=
  ∀ type ∈ fields.layerTypes, type ∈ fields.layerTypes.take fields.ownLayers

def missingHeads : LoaderError := unsupportedVariant "Fast GGUF 缺少可還原 KV 頭數的注意力權重"

theorem headCount_of_noted {seen : Observation} (h : Noted layout fields.own seen) {layer : String × Nat}
    (hlayer : layer ∈ fields.layerTypes.zipIdx) :
    seen.headCount layer = if layer.1 ∈ fields.layerTypes.take fields.ownLayers then ok (layout.kvHeads layer.1)
      else threw missingHeads := by
  have htypes : fields.own.map Prod.fst = fields.layerTypes.take fields.ownLayers := by simp [RestoringFields.own]
  have hget : fields.layerTypes[layer.2]? = some layer.1 := List.mem_zipIdx_iff_getElem?.mp hlayer
  have hbyType := h.byType layer.1
  rw [htypes] at hbyType
  unfold Observation.headCount
  cases hobserved : seen.observedHeads layer.2 with
  | none =>
    rw [hbyType]
    split <;> rfl
  | some heads =>
    obtain ⟨type, hmem, rfl⟩ := h.observed _ _ hobserved
    have hown : (fields.layerTypes.take fields.ownLayers)[layer.2]? = some type := List.mem_zipIdx_iff_getElem?.mp hmem
    have htype : type = layer.1 := by
      rw [List.getElem?_take] at hown
      split at hown
      · exact Option.some.inj (hown.symm.trans hget)
      · cases hown
    rw [if_pos (htype ▸ List.mem_of_getElem? hown), htype]
    rfl

theorem headDim_pos (h : fields.Valid) (type : String) : 0 < fields.headDim type := by
  unfold RestoringFields.headDim
  split
  · exact h.2.2.1
  · exact h.2.2.2.1

instance : Decidable fields.TailCovered := inferInstanceAs (Decidable (∀ type ∈ fields.layerTypes, _))

theorem restoredLayout_of_fits (hvalid : fields.Valid) (hlayout : layout.Represents fields.layerTypes)
    (hnone : (∀ layer ∈ fields.own, layer.1 = "sliding_attention") → layout.globalKeyEqualsValue = false)
    (h : Fits fields layout weightShapes) :
    restoredLayout fields weightShapes = if fields.TailCovered then ok layout else threw missingHeads := by
  have hmem : ∀ layer ∈ fields.own, layer.1 ∈ fields.layerTypes := fun layer hlayer =>
    List.mem_of_mem_take (List.mem_of_getElem? (List.mem_zipIdx_iff_getElem?.mp hlayer))
  obtain ⟨seen, hseen, hnoted⟩ := exists_noted_of_fits noted_empty h (fun layer _ => headDim_pos hvalid layer.1)
    fun layer hlayer => hlayout.positive layer.1 (hmem layer hlayer)
  have hcounts : fields.layerTypes.zipIdx.mapM seen.headCount =
      if fields.TailCovered then ok (fields.layerTypes.map layout.kvHeads) else threw missingHeads := by
    rw [mapM_of_ite fun layer hlayer => headCount_of_noted hnoted hlayer]
    have hcovered : (∀ layer ∈ fields.layerTypes.zipIdx, layer.1 ∈ fields.layerTypes.take fields.ownLayers) ↔
        fields.TailCovered := by
      simp only [RestoringFields.TailCovered, ← List.forall_mem_map (f := Prod.fst) (l := fields.layerTypes.zipIdx),
        List.zipIdx_map_fst]
    have hmap : fields.layerTypes.zipIdx.map (fun layer => layout.kvHeads layer.1) = fields.layerTypes.map layout.kvHeads := by
      conv_rhs => rw [← List.zipIdx_map_fst 0 fields.layerTypes, List.map_map]
      rfl
    simp only [hcovered, hmap]
  unfold restoredLayout
  rw [show (fields.layerTypes.take fields.ownLayers).zipIdx = fields.own from rfl, hseen, ok_bind, hcounts]
  split
  · exact hlayout.resolve hnoted.projections fun hnil => hnone fun layer hlayer => hnoted.full.mp hnil layer hlayer
  · rfl

/-! ## What the metadata side accepts -/

section Accepted
variable {naming : TensorNaming} {metadata : MetadataTable} {keyPrefix : String} {tensorNames : List String}

theorem gemma4Sizes_valid {sizes : Gemma4Sizes} (h : gemma4Sizes metadata keyPrefix = ok sizes) : sizes.Valid := by
  simp only [gemma4Sizes, bind_eq_ok, guard_eq_ok, exists_and_left, exists_const, pure_eq] at h
  obtain ⟨_, _, _, _, _, _, _, _, _, _, _, _, _, _, _, _, hvalid, hsizes⟩ := h
  exact ok.inj hsizes ▸ hvalid

theorem length_gemma4LayerTypes {hiddenLayers : Int} (h : gemma4LayerTypes metadata keyPrefix hiddenLayers = ok layerTypes) :
    (layerTypes.length : Int) = hiddenLayers := by
  simp only [gemma4LayerTypes, bind_eq_ok, guard_eq_ok, exists_and_left, exists_const, pure_eq] at h
  obtain ⟨pattern, _, hlength, htypes⟩ := h
  rw [← ok.inj htypes, List.length_map]
  exact hlength

/-- What an accepted configuration is made of. -/
theorem gemma4TextConfiguration_eq_ok {config : Configuration}
    (h : gemma4TextConfiguration naming metadata keyPrefix tensorNames = ok config) :
    ∃ sizes layerTypes feedForwardLayout headCounts layout, sizes.Valid ∧ (layerTypes.length : Int) = sizes.hiddenLayers ∧
      resolve layerTypes headCounts (fullAttentionValueProjections tensorNames layerTypes
        (sizes.hiddenLayers - sizes.sharedKVLayers).toNat) = ok layout ∧
      config = layout.applying (configuration (gemma4Pairs metadata keyPrefix tensorNames sizes layerTypes feedForwardLayout)) := by
  simp only [gemma4TextConfiguration, bind_eq_ok, guard_eq_ok, exists_and_left, exists_const, pure_eq] at h
  obtain ⟨sizes, hsizes, _, layerTypes, htypes, feedForwardLayout, _, _, _, headCounts, _, layout, hlayout, hconfig⟩ := h
  exact ⟨sizes, layerTypes, feedForwardLayout, headCounts, layout, gemma4Sizes_valid hsizes, length_gemma4LayerTypes htypes,
    hlayout, (ok.inj hconfig).symm⟩

theorem asStrings_array (strings : List String) : (AnyValue.array (strings.map .string)).asStrings = some strings := by
  induction strings with
  | nil => rfl
  | cons text strings ih =>
    simp only [AnyValue.asStrings, List.map_cons, List.mapM_cons] at ih ⊢
    rw [ih]
    rfl

/-- The fields of an accepted configuration. -/
def Gemma4Sizes.toFields (sizes : Gemma4Sizes) (layerTypes : List String) : RestoringFields :=
  ⟨layerTypes, sizes.hiddenLayers, sizes.slidingHeadDim, sizes.globalHeadDim, sizes.sharedKVLayers⟩

theorem restoringFields_applying (metadata : MetadataTable) (keyPrefix : String) (tensorNames : List String)
    (sizes : Gemma4Sizes) (layerTypes : List String) (feedForwardLayout : Gemma4FeedForwardLayout) (layout : AttentionLayout) :
    restoringFields (layout.applying
      (configuration (gemma4Pairs metadata keyPrefix tensorNames sizes layerTypes feedForwardLayout))) =
      some (sizes.toFields layerTypes) := by
  simp [restoringFields, AttentionLayout.applying, configuration, gemma4Pairs, Gemma4Sizes.toFields, List.lookup,
    AnyValue.asInteger, asStrings_array]

theorem fullAttentionValueProjections_eq_nil {ownLayers : Nat}
    (h : ∀ layer ∈ (layerTypes.take ownLayers).zipIdx, layer.1 = "sliding_attention") :
    fullAttentionValueProjections tensorNames layerTypes ownLayers = [] := by
  rw [fullAttentionValueProjections, List.map_eq_nil_iff, List.filter_eq_nil_iff]
  intro layer hlayer
  simp [h layer hlayer]

end Accepted

/-! ## Reading and writing configurations -/

/-- The keys that `restoring` reads. -/
def restoringKeys : List String :=
  ["model_type", "layer_types", "num_hidden_layers", "head_dim", "global_head_dim", "num_kv_shared_layers"]

/-- The keys that it writes. -/
def layoutKeys : List String := ["num_key_value_heads", "num_global_key_value_heads", "attention_k_eq_v"]

def AnyValue.asBoolean : AnyValue → Option Bool
  | .boolean value => some value
  | _ => none

/-- The layout that a configuration states. -/
def layoutOf (configuration : Configuration) : Option AttentionLayout := do
  let sliding ← (configuration "num_key_value_heads").bind AnyValue.asInteger
  let global ← (configuration "num_global_key_value_heads").bind AnyValue.asInteger
  let keyEqualsValue ← (configuration "attention_k_eq_v").bind AnyValue.asBoolean
  return ⟨sliding, global, keyEqualsValue⟩

theorem layoutOf_applying (layout : AttentionLayout) (config : Configuration) :
    layoutOf (layout.applying config) = some layout := by
  simp [layoutOf, AttentionLayout.applying, AnyValue.asInteger, AnyValue.asBoolean]

theorem applying_apply (layout : AttentionLayout) (config : Configuration) (key : String) :
    layout.applying config key =
      if key = "attention_k_eq_v" then some (.boolean layout.globalKeyEqualsValue)
      else if key = "num_global_key_value_heads" then some (.integer layout.globalKVHeads)
      else if key = "num_key_value_heads" then some (.integer layout.slidingKVHeads)
      else config key := by
  simp only [AttentionLayout.applying, Function.update_apply]

theorem applying_of_notMem (layout : AttentionLayout) (config : Configuration) {key : String} (h : key ∉ layoutKeys) :
    layout.applying config key = config key := by
  simp only [layoutKeys, List.mem_cons, List.not_mem_nil, or_false, not_or] at h
  rw [applying_apply, if_neg h.2.2, if_neg h.2.1, if_neg h.1]

theorem applying_applying (layout : AttentionLayout) (config : Configuration) :
    layout.applying (layout.applying config) = layout.applying config := by
  funext key
  simp only [applying_apply]
  split_ifs <;> rfl

theorem notMem_layoutKeys {key : String} (h : key ∈ restoringKeys) : key ∉ layoutKeys := by
  revert key
  decide

theorem restoringFields_congr {a b : Configuration} (h : ∀ key ∈ restoringKeys, a key = b key) :
    restoringFields a = restoringFields b := by
  unfold restoringFields
  rw [h "layer_types" (by decide), h "num_hidden_layers" (by decide), h "head_dim" (by decide),
    h "global_head_dim" (by decide), h "num_kv_shared_layers" (by decide)]

theorem restoring_of_isGemma4 {config : Configuration} (h : isGemma4 config = true) (hfields : restoringFields config = some fields)
    (hvalid : fields.Valid) :
    restoring config weightShapes = (restoredLayout fields weightShapes).bind fun layout => ok (layout.applying config) := by
  simp only [restoring, if_pos h, hfields, ofOption, ok_bind, guard_of hvalid]
  rfl

theorem restoring_of_not_isGemma4 {config : Configuration} (h : isGemma4 config = false) :
    restoring config weightShapes = ok config := if_neg (Bool.eq_false_iff.mp h)

/-- A second `restoring` changes nothing. -/
theorem restoring_of_restored {config restored : Configuration} (h : restoring config weightShapes = ok restored) :
    restoring restored weightShapes = ok restored := by
  cases hgemma : isGemma4 config with
  | false =>
    rw [restoring_of_not_isGemma4 hgemma] at h
    rw [← ok.inj h]
    exact restoring_of_not_isGemma4 hgemma
  | true =>
    have hunfolded := h
    rw [restoring, if_pos hgemma] at hunfolded
    simp only [bind_eq_ok, guard_eq_ok, exists_and_left, exists_const, pure_eq, ofOption_eq_ok] at hunfolded
    obtain ⟨fields, hfields, hvalid, layout, hlayout, hrestored⟩ := hunfolded
    obtain rfl := ok.inj hrestored
    have hkeys : ∀ key ∈ restoringKeys, layout.applying config key = config key :=
      fun key hkey => applying_of_notMem layout config (notMem_layoutKeys hkey)
    have hgemma' : isGemma4 (layout.applying config) = true := by
      rw [isGemma4, hkeys "model_type" (by decide)]
      exact hgemma
    rw [restoring_of_isGemma4 hgemma' ((restoringFields_congr hkeys).trans hfields) hvalid, hlayout]
    exact congrArg ok (applying_applying layout config)

/-- For an accepted configuration and weights that fit it, `restoring` gives the layout of the configuration where
the tail is covered and refuses where it is not. What it gives it restores to itself. -/
theorem restoring_agrees {naming : TensorNaming} {metadata : MetadataTable} {keyPrefix : String} {tensorNames : List String}
    {config : Configuration} (h : gemma4TextConfiguration naming metadata keyPrefix tensorNames = ok config) :
    (∃ fields layout, restoringFields config = some fields ∧ layoutOf config = some layout ∧
      ∀ saved weightShapes, (∀ key ∈ restoringKeys, saved key = config key) → Fits fields layout weightShapes →
        (fields.TailCovered → ∃ restored, restoring saved weightShapes = ok restored ∧
          ∀ key, restored key = if key ∈ layoutKeys then config key else saved key) ∧
        (¬ fields.TailCovered → restoring saved weightShapes = threw missingHeads)) ∧
    ∀ other weightShapes restored, restoring other weightShapes = ok restored → restoring restored weightShapes = ok restored := by
  refine ⟨?_, fun other weightShapes restored hrestored => restoring_of_restored hrestored⟩
  obtain ⟨sizes, layerTypes, feedForwardLayout, headCounts, layout, hvalid, hlength, hresolve, rfl⟩ :=
    gemma4TextConfiguration_eq_ok h
  have hfields := restoringFields_applying metadata keyPrefix tensorNames sizes layerTypes feedForwardLayout layout
  refine ⟨sizes.toFields layerTypes, layout, hfields, layoutOf_applying _ _, ?_⟩
  intro saved weightShapes hsaved hfits
  have hfieldsValid : (sizes.toFields layerTypes).Valid :=
    ⟨hvalid.2.1, hlength, hvalid.2.2.2.2.1, hvalid.2.2.2.2.2.1, hvalid.2.2.2.2.2.2.2⟩
  -- Without a layer of full attention that projects its own keys nothing says that they are shared.
  have hnone : (∀ layer ∈ (sizes.toFields layerTypes).own, layer.1 = "sliding_attention") →
      layout.globalKeyEqualsValue = false := by
    intro hsliding
    have hnil : fullAttentionValueProjections tensorNames layerTypes (sizes.hiddenLayers - sizes.sharedKVLayers).toNat = [] :=
      fullAttentionValueProjections_eq_nil hsliding
    rw [hnil] at hresolve
    exact Bool.eq_false_iff.mpr fun hkey => by simpa using (resolve_eq_ok hresolve).2.2.2.2.1 hkey
  have hgemma : isGemma4 saved = true := by
    rw [isGemma4, hsaved "model_type" (by decide), applying_of_notMem _ _ (by decide)]
    rfl
  rw [restoring_of_isGemma4 hgemma ((restoringFields_congr hsaved).trans hfields) hfieldsValid,
    restoredLayout_of_fits hfieldsValid (resolve_represents hresolve) hnone hfits]
  constructor
  · intro hcovered
    rw [if_pos hcovered]
    refine ⟨_, rfl, ?_⟩
    intro key
    split
    · rename_i hkey
      simp only [layoutKeys, List.mem_cons, List.not_mem_nil, or_false] at hkey
      rcases hkey with rfl | rfl | rfl <;> rfl
    · exact applying_of_notMem layout saved ‹_›
  · intro hcovered
    rw [if_neg hcovered]
    rfl

/-! ## Two layers -/

/-- A substring test, and a normalizer that maps every name. -/
def literalNaming : TensorNaming where
  contains name part := name.toList.tails.any part.toList.isPrefixOf
  unmappedNames _ := []

/-- The metadata of two layers, the second in the shared tail. -/
def twoLayers (pattern : List Bool) : MetadataTable := fun key =>
  List.lookup key
    [("gemma4.embedding_length", .uint32 8), ("gemma4.block_count", .uint32 2), ("gemma4.attention.head_count", .uint32 1),
      ("tokenizer.ggml.tokens", .array [.string "<pad>"]), ("gemma4.attention.key_length_swa", .uint32 8),
      ("gemma4.attention.key_length", .uint32 8), ("gemma4.embedding_length_per_layer_input", .uint32 0),
      ("gemma4.attention.shared_kv_layers", .uint32 1), ("gemma4.feed_forward_length", .uint32 16),
      ("gemma4.attention.sliding_window_pattern", .array (pattern.map .boolean))]

def twoLayerNames : List String := ["blk.0.attn_k.weight", "blk.0.attn_v.weight"]

/-- The projections of the first of two layers, of one head of dimension 8. -/
def twoLayerShapes : WeightShapes := fun name =>
  List.lookup name [("model.layers.0.self_attn.k_proj.weight", [8, 8]), ("model.layers.0.self_attn.v_proj.weight", [8, 8])]

def twoLayerFields (second : String) : RestoringFields := ⟨["sliding_attention", second], 2, 8, 8, 1⟩

/-- The outcome is a configuration that passes the test. -/
def passes (test : Configuration → Bool) : Outcome LoaderError Configuration → Bool
  | ok config => test config
  | _ => false

theorem twoLayers_accepted (pattern : List Bool) (second : String)
    (h : (pattern, second) = ([true, true], "sliding_attention") ∨ (pattern, second) = ([true, false], "full_attention")) :
    ∃ config, gemma4TextConfiguration literalNaming (twoLayers pattern) "gemma4" twoLayerNames = ok config ∧
      isGemma4 config = true ∧ restoringFields config = some (twoLayerFields second) ∧
      layoutOf config = some ⟨1, 1, false⟩ := by
  have hevaluated : passes (fun config => decide (isGemma4 config = true ∧ restoringFields config = some (twoLayerFields second) ∧
      layoutOf config = some ⟨1, 1, false⟩)) (gemma4TextConfiguration literalNaming (twoLayers pattern) "gemma4" twoLayerNames) = true := by
    rcases h with h | h <;> obtain ⟨rfl, rfl⟩ := Prod.mk.inj h <;> decide +kernel
  unfold passes at hevaluated
  split at hevaluated
  · exact ⟨_, ‹_›, of_decide_eq_true hevaluated⟩
  · cases hevaluated

theorem twoLayers_fits (second : String) : Fits (twoLayerFields second) ⟨1, 1, false⟩ twoLayerShapes := by
  intro layer hlayer
  obtain rfl : layer = ("sliding_attention", 0) := by
    simpa [RestoringFields.own, RestoringFields.ownLayers, twoLayerFields] using hlayer
  have hkey : twoLayerShapes (projectionName 0 "k_proj.weight") = some [8, 8] := by decide +kernel
  have hvalue : twoLayerShapes (projectionName 0 "v_proj.weight") = some [8, 8] := by decide +kernel
  exact ⟨⟨8, hkey⟩, fun _ => ⟨8, hvalue⟩, fun h => by cases h⟩

/-- Layers of one type, of which the last shares the heads of the first. -/
theorem slidingLayers_restored : ∃ config restored,
    gemma4TextConfiguration literalNaming (twoLayers [true, true]) "gemma4" twoLayerNames = ok config ∧
      restoring config twoLayerShapes = ok restored ∧ restoring restored twoLayerShapes = ok restored ∧
      layoutOf config = some ⟨1, 1, false⟩ ∧ ∀ key, restored key = config key := by
  obtain ⟨config, hconfig, _, hfields, hlayout⟩ := twoLayers_accepted _ _ (.inl rfl)
  obtain ⟨⟨fields, layout, hfields', hlayout', hagrees⟩, hidempotent⟩ := restoring_agrees hconfig
  obtain rfl := Option.some.inj (hfields.symm.trans hfields')
  obtain rfl := Option.some.inj (hlayout.symm.trans hlayout')
  obtain ⟨restored, hrestored, hkeys⟩ :=
    (hagrees config twoLayerShapes (fun _ _ => rfl) (twoLayers_fits _)).1 (by decide)
  refine ⟨config, restored, hconfig, hrestored, hidempotent _ _ _ hrestored, hlayout, ?_⟩
  intro key
  simpa using hkeys key

/-- The metadata of a full layer that only the shared tail has is accepted, and the weights do not give its heads. -/
theorem tailOnlyType_not_restored : ¬ ∀ (naming : TensorNaming) (metadata : MetadataTable) (keyPrefix : String)
    (tensorNames : List String) (config : Configuration) (fields : RestoringFields) (layout : AttentionLayout)
    (weightShapes : WeightShapes), gemma4TextConfiguration naming metadata keyPrefix tensorNames = ok config →
    restoringFields config = some fields → layoutOf config = some layout → Fits fields layout weightShapes →
    ∃ restored, restoring config weightShapes = ok restored ∧ ∀ key ∈ layoutKeys, restored key = config key := by
  intro hall
  obtain ⟨config, hconfig, hgemma, hfields, hlayout⟩ := twoLayers_accepted _ _ (.inr rfl)
  obtain ⟨restored, hrestored, _⟩ :=
    hall _ _ _ _ config _ _ twoLayerShapes hconfig hfields hlayout (twoLayers_fits _)
  have hmissing : restoredLayout (twoLayerFields "full_attention") twoLayerShapes = threw missingHeads := by decide +kernel
  rw [restoring_of_isGemma4 hgemma hfields (by decide), hmissing] at hrestored
  cases hrestored

end Tanpopo.GGUF
