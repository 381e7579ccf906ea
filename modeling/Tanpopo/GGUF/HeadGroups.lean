import Tanpopo.GGUF.HeadOrder
import Mathlib.Tactic.Linarith
/-!
# Value heads and quantization groups

`reordering_commutes_iff`: which layouts are reordered alike in the words, the
scales and the biases. `exists_other_group`: heads that do not fill whole
groups leave their group, unless there is one group only.
-/

namespace Tanpopo.GGUF

open Tensor

variable {layout : LinearAttentionLayout}

/-! ## Groups that heads leave -/

/-- If a set of places `< n` of `m` by `k` heads is kept by the exchange of orders, it has all but the last head. -/
theorem fills_of_kept {m k : Nat} {P : Nat → Prop} (hdown : ∀ a b, a ≤ b → P b → P a) (hone : P 1)
    (hkept : ∀ key < k + 2, ∀ value < m + 2, P (key * (m + 2) + value) ↔ P (value * (k + 2) + key)) :
    P ((m + 2) * (k + 2) - 2) := by
  have hvalues : ∀ value < m + 2, P value := by
    intro value
    induction value with
    | zero => exact fun _ => hdown 0 1 (by omega) hone
    | succ value ih =>
      intro hlt
      rcases Nat.eq_zero_or_pos value with rfl | hpos
      · exact hone
      · have hmoved := (hkept 0 (by omega) value (by omega)).mp (by simpa using ih (by omega))
        exact hdown _ _ (by nlinarith) hmoved
  have hkeys : ∀ key < k + 2, P key := by
    intro key
    induction key with
    | zero => exact fun _ => hdown 0 1 (by omega) hone
    | succ key ih =>
      intro hlt
      rcases Nat.eq_zero_or_pos key with rfl | hpos
      · exact hone
      · have hmoved := (hkept key (by omega) 0 (by omega)).mpr (by simpa using ih (by omega))
        exact hdown _ _ (by nlinarith) hmoved
  -- the last key head starts inside, so all value heads of the one before are inside
  have hlast : P ((k + 1) * (m + 2)) := by
    have := (hkept (k + 1) (by omega) 0 (by omega)).mpr (by simpa using hkeys (k + 1) (by omega))
    simpa using this
  have hbefore : P (k * (m + 2) + (m + 1)) := hdown _ _ (by ring_nf; omega) hlast
  have hmoved := (hkept k (by omega) (m + 1) (by omega)).mp hbefore
  have hlength : (m + 1) * (k + 2) + k = (m + 2) * (k + 2) - 2 := by
    have : (m + 2) * (k + 2) = (m + 1) * (k + 2) + k + 2 := by ring
    omega
  rwa [hlength] at hmoved

theorem exists_other_group {groupSize : Nat} (hdvd : groupSize ∣ layout.valueRows) (hne : layout.valueRows ≠ groupSize)
    (hvalues : layout.valuesPerKeyHead ≠ 1) (hkeys : layout.numKeyHeads ≠ 1)
    (hhead : ¬ groupSize ∣ layout.valueHeadDimension) :
    ∃ column < layout.valueRows, column / groupSize ≠ layout.tiled layout.valueHeadDimension column / groupSize := by
  by_contra hnone
  push Not at hnone
  obtain ⟨k, hk⟩ : ∃ k, layout.numKeyHeads = k + 2 := ⟨layout.numKeyHeads - 2, by have := layout.numKeyHeads_pos; omega⟩
  obtain ⟨m, hm⟩ : ∃ m, layout.valuesPerKeyHead = m + 2 :=
    ⟨layout.valuesPerKeyHead - 2, by have := valuesPerKeyHead_pos layout; omega⟩
  have hheads : layout.numValueHeads = (m + 2) * (k + 2) := by rw [← valuesPerKeyHead_mul layout, hm, hk]
  have hd := layout.valueHeadDimension_pos
  have hrows : layout.valueRows = (m + 2) * (k + 2) * layout.valueHeadDimension := by
    rw [LinearAttentionLayout.valueRows, hheads]
  have hpos : 0 < layout.valueRows := Nat.mul_pos layout.numValueHeads_pos hd
  have hgroup : 0 < groupSize := Nat.pos_of_dvd_of_pos hdvd hpos
  have htwice : 2 * groupSize ≤ layout.valueRows := by
    obtain ⟨n, hn⟩ := hdvd
    have : n ≠ 0 := fun hzero => by simp [hzero] at hn; omega
    have : n ≠ 1 := fun hone => hne (by rw [hn, hone, Nat.mul_one])
    rw [hn, Nat.mul_comm]
    exact Nat.mul_le_mul_left _ (by omega)
  -- the starts of corresponding heads are in one group
  have hsame : ∀ key < k + 2, ∀ value < m + 2, (key * (m + 2) + value) * layout.valueHeadDimension / groupSize =
      (value * (k + 2) + key) * layout.valueHeadDimension / groupSize := by
    intro key hkey value hvalue
    have hlt : (key * (m + 2) + value) * layout.valueHeadDimension < layout.valueRows := by
      rw [hrows]
      apply Nat.mul_lt_mul_of_pos_right _ hd
      nlinarith
    have htiled := tiled_head layout key (hm ▸ hvalue) hd
    rw [hm, hk, Nat.add_zero] at htiled
    rw [hnone _ hlt, htiled, Nat.add_zero]
  rcases Nat.lt_or_ge layout.valueHeadDimension groupSize with hsmall | hlarge
  · -- heads smaller than a group: the first group would hold all heads but the last
    have hfills := fills_of_kept (P := fun head => head * layout.valueHeadDimension < groupSize)
      (fun a b hab hb => (Nat.mul_le_mul_right _ hab).trans_lt hb) (by simpa using hsmall)
      (fun key hkey value hvalue => by
        rw [← Nat.div_eq_zero_iff_lt hgroup, ← Nat.div_eq_zero_iff_lt hgroup, hsame key hkey value hvalue])
    have hfour : 4 ≤ (m + 2) * (k + 2) := by nlinarith
    obtain ⟨heads, hcount⟩ : ∃ heads, (m + 2) * (k + 2) = heads + 4 := ⟨(m + 2) * (k + 2) - 4, by omega⟩
    rw [hrows, hcount] at htwice
    rw [hcount, show heads + 4 - 2 = heads + 2 by omega] at hfills
    nlinarith
  · -- heads larger than a group: the second head moves by more than a group
    have hsecond := hsame 0 (by omega) 1 (by omega)
    have hmore : groupSize < layout.valueHeadDimension :=
      lt_of_le_of_ne hlarge fun heq => hhead (heq ▸ dvd_refl _)
    have hfar : layout.valueHeadDimension / groupSize + 1 ≤ (k + 2) * layout.valueHeadDimension / groupSize := by
      rw [← Nat.add_div_right _ hgroup]
      apply Nat.div_le_div_right
      nlinarith
    simp only [Nat.zero_mul, Nat.zero_add, Nat.one_mul, Nat.add_zero] at hsecond
    omega

/-! ## Triples that are not reordered alike -/

/-- The three arrays under one name, and no others. -/
def QuantizedTensor.weights (q : QuantizedTensor) (stem : String) : Weights := fun name =>
  if name = stem ++ ".weight" then some q.weight
  else if name = stem ++ ".scales" then some q.scales
  else if name = stem ++ ".biases" then some q.biases
  else none

theorem append_ne {stem a b : String} (h : a ≠ b) : stem ++ a ≠ stem ++ b := by
  intro heq
  have := congrArg String.toList heq
  simp only [String.toList_append, List.append_cancel_left_eq] at this
  exact h (String.toList_injective this)

theorem QuantizedTensor.in_weights (q : QuantizedTensor) (stem : String) : q.In (q.weights stem) stem := by
  refine ⟨if_pos rfl, ?_, ?_⟩
  · rw [QuantizedTensor.weights, if_neg (append_ne (by decide)), if_pos rfl]
  · rw [QuantizedTensor.weights, if_neg (append_ne (by decide)), if_neg (append_ne (by decide)), if_pos rfl]

/-- What the reordering gives for the columns of a triple. -/
theorem dequantize_of_columnsCommute {bits groupSize : Nat}
    (h : ColumnsCommute layout (reorderQwen35LinearAttentionWeights layout) bits groupSize) (q : QuantizedTensor) (rows : Nat)
    (hq : q.OfMatrix rows layout.valueRows bits groupSize) {row column : Nat} (hrow : row < rows)
    (hcolumn : column < layout.valueRows) :
    dequantize bits groupSize (reorderedColumns layout q) row column =
      dequantize bits groupSize q row (layout.tiled layout.valueHeadDimension column) := by
  have hin := q.in_weights ("" ++ ".ssm_out")
  obtain ⟨q', hin', _, hequal⟩ := h _ "" q rows hin hq
  have hreordered : (reorderedColumns layout q).In _ ("" ++ ".ssm_out") := reorderedColumns_in hin
  have hweight := Option.some.inj (hreordered.weight.symm.trans hin'.weight)
  have hscales := Option.some.inj (hreordered.scales.symm.trans hin'.scales)
  have hbiases := Option.some.inj (hreordered.biases.symm.trans hin'.biases)
  rw [← hequal row hrow column hcolumn]
  simp only [dequantize, hweight, hscales, hbiases]

/-- One row whose elements are the numbers of their groups. -/
def groupNumbers (columns bits groupSize : Nat) : QuantizedTensor where
  weight := ⟨[1, columns / packing bits], fun _ => .word 0⟩
  scales := ⟨[1, columns / groupSize], fun _ => .real 0⟩
  biases := ⟨[1, columns / groupSize], fun idx => .real (idx.getD 1 0 : Nat)⟩

/-- One row whose only element that is not zero is at `column`. -/
def indicator (columns bits groupSize column : Nat) : QuantizedTensor where
  weight := ⟨[1, columns / packing bits], fun idx =>
    .word (if idx = [0, column / packing bits] then UInt32.ofNat (2 ^ (bits * (column % packing bits))) else 0)⟩
  scales := ⟨[1, columns / groupSize], fun _ => .real 1⟩
  biases := ⟨[1, columns / groupSize], fun _ => .real 0⟩

theorem code_power {bits : Nat} (h : bits = 4 ∨ bits = 8) :
    ∀ i < packing bits, ∀ j < packing bits, code bits (UInt32.ofNat (2 ^ (bits * i))) j = if i = j then 1 else 0 := by
  rcases h with rfl | rfl <;> decide

theorem dequantize_indicator {columns bits groupSize column : Nat} (h : bits = 4 ∨ bits = 8) (other : Nat) :
    dequantize bits groupSize (indicator columns bits groupSize column) 0 other = if other = column then 1 else 0 := by
  have hpacking : 0 < packing bits := by rcases h with rfl | rfl <;> decide
  have hcode := code_power h _ (Nat.mod_lt column hpacking) _ (Nat.mod_lt other hpacking)
  simp only [dequantize, indicator, Element.value, one_mul, add_zero, List.cons.injEq, true_and, and_true]
  by_cases hword : other / packing bits = column / packing bits
  · have hsame : column % packing bits = other % packing bits ↔ other = column := by
      constructor
      · intro hmod
        rw [← Nat.div_add_mod other (packing bits), ← Nat.div_add_mod column (packing bits), hword, hmod]
      · rintro rfl
        rfl
    rw [if_pos hword, Element.bits, hcode]
    simp only [hsame]
    split <;> simp
  · have hne : other ≠ column := fun heq => hword (by rw [heq])
    rw [if_neg hword, if_neg hne]
    simp [Element.bits, code]

theorem aligned_of_columnsCommute {bits groupSize : Nat} (hbits : bits = 4 ∨ bits = 8)
    (hgroup : groupSize = 32 ∨ groupSize = 64)
    (h : ColumnsCommute layout (reorderQwen35LinearAttentionWeights layout) bits groupSize) :
    ColumnsAligned layout bits groupSize := by
  intro hdvd
  by_contra hnone
  push Not at hnone
  obtain ⟨hvalues, hkeys, hhead, hone⟩ := hnone
  obtain ⟨hpacking, hpackingDvd⟩ := packing_dvd hbits hgroup
  have hfront : [1] ≠ [] := List.cons_ne_nil _ _
  have hgroups : layout.valueRows / groupSize * groupSize = layout.valueRows := Nat.div_mul_cancel hdvd
  have hwords : layout.valueRows / packing bits * packing bits = layout.valueRows :=
    Nat.div_mul_cancel (hpackingDvd.trans hdvd)
  -- an array with one entry for a group stays as it is
  have hkept : ∀ t : Tensor Element, t.shape = [1, layout.valueRows / groupSize] → reorderValueColumns layout t = t :=
    fun t hshape => (reorderValueColumns_spec hshape hfront hgroups).2.1 hhead
  by_cases hword : packing bits ∣ layout.valueHeadDimension
  · obtain ⟨column, hcolumn, hother⟩ := exists_other_group hdvd (fun heq => hone heq hword) hvalues hkeys hhead
    have hnumbers := dequantize_of_columnsCommute h (groupNumbers layout.valueRows bits groupSize) 1
      ⟨hdvd, rfl, rfl, rfl⟩ one_pos hcolumn
    simp only [dequantize, reorderedColumns] at hnumbers
    rw [hkept (groupNumbers layout.valueRows bits groupSize).scales rfl,
      hkept (groupNumbers layout.valueRows bits groupSize).biases rfl] at hnumbers
    simp only [groupNumbers, Element.value, zero_mul, zero_add, List.getD_cons_succ, List.getD_cons_zero] at hnumbers
    exact hother (by exact_mod_cast hnumbers)
  · have hkeptWords : ∀ t : Tensor Element, t.shape = [1, layout.valueRows / packing bits] → reorderValueColumns layout t = t :=
      fun t hshape => (reorderValueColumns_spec hshape hfront hwords).2.1 hword
    have hd := layout.valueHeadDimension_pos
    have hmany : 1 < layout.valuesPerKeyHead := by
      have := valuesPerKeyHead_pos layout
      omega
    have hkeyHeads : 1 < layout.numKeyHeads := by
      have := layout.numKeyHeads_pos
      omega
    have hheads : 1 < layout.numValueHeads := by
      rw [← valuesPerKeyHead_mul layout]
      nlinarith
    -- the second head comes from elsewhere
    have hcolumn : layout.valueHeadDimension < layout.valueRows := by
      unfold LinearAttentionLayout.valueRows
      nlinarith
    have htiled := tiled_head layout 0 hmany hd
    simp only [Nat.zero_mul, Nat.zero_add, Nat.one_mul, Nat.add_zero] at htiled
    have hindicator := dequantize_of_columnsCommute h
      (indicator layout.valueRows bits groupSize layout.valueHeadDimension) 1 ⟨hdvd, rfl, rfl, rfl⟩ one_pos hcolumn
    have hsame : reorderedColumns layout (indicator layout.valueRows bits groupSize layout.valueHeadDimension) =
        indicator layout.valueRows bits groupSize layout.valueHeadDimension := by
      rw [reorderedColumns, hkeptWords _ rfl, hkept _ rfl, hkept _ rfl]
    have hmoved : layout.numKeyHeads * layout.valueHeadDimension ≠ layout.valueHeadDimension := by
      intro heq
      nlinarith
    rw [hsame, htiled, dequantize_indicator hbits, dequantize_indicator hbits, if_pos rfl, if_neg hmoved] at hindicator
    exact one_ne_zero hindicator

def linearAttentionRoot (keyHeads valueHeads headDimension : Int) : Configuration :=
  configuration [("linear_num_key_heads", .integer keyHeads), ("linear_num_value_heads", .integer valueHeads),
    ("linear_key_head_dim", .integer headDimension), ("linear_value_head_dim", .integer headDimension)]

end Tanpopo.GGUF
