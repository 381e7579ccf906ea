import Tanpopo.GGUF.Repacking
import Tanpopo.Lib.Rounding
/-!
# Quantizing a group

The kernel that decodes the values of a group and quantizes them again. The
scale is fitted so that the edge of larger magnitude becomes a code; the other
edge may then need one code more than there is.
-/

namespace Tanpopo.GGUF

open Writes PackedWords

/-! ## The kernel -/

/-- What is written for a group. -/
structure QuantizedGroup where
  wq : List UInt32
  scale : ℚ
  bias : ℚ

def bins (bits : Nat) : Nat := (1 <<< bits) - 1

/-- The scale and the bias for a range of values. -/
def fitGroup (bits : Nat) (minimum maximum : ℚ) : ℚ × ℚ :=
  let scale := max ((maximum - minimum) / bins bits) (1 / 10000000)
  let useMinimumAsEdge := |minimum| > |maximum|
  let scale := if useMinimumAsEdge then scale else -scale
  let edge := if useMinimumAsEdge then minimum else maximum
  let initialQuantizedEdge := roundAway (edge / scale)
  let bias := if initialQuantizedEdge = 0 then 0 else edge
  let scale := if initialQuantizedEdge = 0 then scale else edge / initialQuantizedEdge
  (scale, bias)

def quantizedValue (value scale bias : ℚ) (bins : Nat) : Nat := nearestCode bins ((value - bias) / scale)

def wordsPerGroup (bits groupSize : Nat) : Nat := groupSize * bits / 32

def quantizedGroupWord (values : List ℚ) (scale bias : ℚ) (bits wordIndex : Nat) : Option Nat :=
  let valuesPerWord := 32 / bits
  let start := wordIndex * valuesPerWord
  packLoop bits (fun index => do
    let value ← values[start + index]?
    return quantizedValue value scale bias (bins bits)) valuesPerWord

/-- The loop over the values after the first one. -/
def valueRange : List ℚ → Option (ℚ × ℚ)
  | [] => none
  | first :: rest => some (rest.foldl min first, rest.foldl max first)

/-- The part of the kernel after the values are decoded. -/
def quantizeGroup (bits : Nat) (values : List ℚ) : Option QuantizedGroup := do
  let (minimum, maximum) ← valueRange values
  let (scale, bias) := fitGroup bits minimum maximum
  let wq ← each (List.range (wordsPerGroup bits values.length)) fun word => do
    let result ← quantizedGroupWord values scale bias bits word
    return [UInt32.ofNat result]
  return ⟨wq, scale, bias⟩

/-- `kernel`, for the thread of a group. -/
def quantizeThread (raw : Memory) (iq3sGrid : Nat → Option UInt32) (sourceType bits targetGroupSize groupIndex : Nat) :
    Option QuantizedGroup := do
  let groupStart := groupIndex * targetGroupSize
  let values ← each (List.range targetGroupSize) fun index => do
    let value ← sourceValue raw iq3sGrid sourceType (groupStart + index)
    return [value]
  quantizeGroup bits values

/-! ## The fit -/

/-- How a fit places the values of its range among the codes. -/
inductive Fit (bits : Nat) (minimum maximum scale bias : ℚ) : Prop
  /-- All values are nearer to zero than half a scale. -/
  | small (hbias : bias = 0) (hscale : scale ≠ 0) (hvalue : ∀ v, minimum ≤ v → v ≤ maximum → |v / scale| < 1 / 2)
  /-- The edge is the code zero and the values lie on one side of it. -/
  | edge (hbias : bias = if |minimum| > |maximum| then minimum else maximum) (hne : bias ≠ 0) (hscale : scale ≠ 0)
    (hvalue : ∀ v, minimum ≤ v → v ≤ maximum → 0 ≤ (v - bias) / scale ∧ (v - bias) / scale ≤ bins bits + 1)
    (hzero : minimum ≤ 0 → 0 ≤ maximum → ∃ n : ℤ, 0 ≤ n ∧ n ≤ bins bits ∧ (0 - bias) / scale = n)

section
variable {bits : Nat} {s e d w v : ℚ}

/-- The other edge is one code too far at most: rounding moves the first edge by half a scale, and the range is at most
twice as wide as the edge is far from zero. -/
theorem reach {b : ℚ} (hs : 0 < s) (he : 0 < e) (hd : d ≤ w) (hw : 0 ≤ w) (hbins : w ≤ b * s) (hdouble : w ≤ 2 * e) :
    d * roundAway (e / s) / e ≤ b + 1 := by
  have hround : (roundAway (e / s) : ℚ) ≤ e / s + 1 / 2 := roundAway_le (div_nonneg he.le hs.le)
  have hnonneg : (0 : ℚ) ≤ roundAway (e / s) := Int.cast_nonneg (roundAway_nonneg (div_nonneg he.le hs.le))
  have hquotient : w / s ≤ b := (div_le_iff₀ hs).2 hbins
  have hhalf : w / (2 * e) ≤ 1 := (div_le_one (by linarith)).2 hdouble
  calc d * roundAway (e / s) / e ≤ w * roundAway (e / s) / e := by gcongr
    _ ≤ w * (e / s + 1 / 2) / e := by gcongr
    _ = w / s + w / (2 * e) := by field_simp
    _ ≤ b + 1 := add_le_add hquotient hhalf

/-- The edge is further from zero than the scale is wide, or it rounds to zero. -/
theorem edge_pos (hs : 0 < s) (he : 0 ≤ e) (hround : roundAway (e / s) ≠ 0) : 0 < e ∧ (0 : ℚ) < roundAway (e / s) := by
  have hpos : 0 < roundAway (e / s) := lt_of_le_of_ne (roundAway_nonneg (div_nonneg he hs.le)) (Ne.symm hround)
  refine ⟨lt_of_le_of_ne he ?_, Int.cast_pos.2 hpos⟩
  rintro rfl
  rw [zero_div] at hround
  exact hround (by simpa using roundAway_intCast (K := ℚ) 0)

/-- Where the edge rounds to zero, so does every value. -/
theorem small_value (hs : 0 < s) (he : 0 ≤ e) (hround : roundAway (e / s) = 0) (hv : |v| ≤ e) : |v| / s < 1 / 2 :=
  (div_le_div_of_nonneg_right hv hs.le).trans_lt (lt_half_of_roundAway_eq_zero (div_nonneg he hs.le) hround)

end

section
variable {bits : Nat} {minimum maximum s : ℚ} (hs : 0 < s) (hwide : maximum - minimum ≤ bins bits * s)
include hs

/-- Where all values are one, it is the edge or is small. -/
theorem fit_single {v : ℚ} (hneg : v < 0) : Fit bits v v (if roundAway (v / -s) = 0 then -s else v / roundAway (v / -s))
    (if roundAway (v / -s) = 0 then 0 else v) := by
  have hsame : ∀ w, v ≤ w → w ≤ v → w = v := fun w hlow hhigh => le_antisymm hhigh hlow
  by_cases hzero : roundAway (v / -s) = 0
  · rw [if_pos hzero, if_pos hzero]
    rw [← neg_div_neg_eq, neg_neg] at hzero
    refine .small rfl (neg_ne_zero.2 hs.ne') fun w hlow hhigh => ?_
    rw [abs_div, abs_neg, abs_of_pos hs, hsame w hlow hhigh]
    exact small_value hs (neg_pos.2 hneg).le hzero (abs_of_neg hneg).le
  · rw [if_neg hzero, if_neg hzero]
    refine .edge (if_neg (lt_irrefl _)).symm hneg.ne (div_ne_zero hneg.ne (Int.cast_ne_zero.2 hzero)) (fun w hlow hhigh => ?_)
      fun _ hnot => absurd hnot (not_le.2 hneg)
    rw [hsame w hlow hhigh, sub_self, zero_div]
    exact ⟨le_rfl, by positivity⟩

include hwide

/-- The edge is the minimum, and the codes go up from it. -/
theorem fit_minimum (hle : minimum ≤ maximum) (hedge : |minimum| > |maximum|) :
    Fit bits minimum maximum (if roundAway (minimum / s) = 0 then s else minimum / roundAway (minimum / s))
      (if roundAway (minimum / s) = 0 then 0 else minimum) := by
  have hmin : minimum < 0 := by
    by_contra hnot
    rw [abs_of_nonneg (not_lt.1 hnot), abs_of_nonneg ((not_lt.1 hnot).trans hle)] at hedge
    exact absurd hle (not_le.2 hedge)
  have habs : |maximum| < -minimum := by rwa [abs_of_neg hmin] at hedge
  have hround : roundAway (minimum / s) = -roundAway (-minimum / s) := by rw [neg_div, roundAway_neg, neg_neg]
  simp only [hround, neg_eq_zero]
  by_cases hzero : roundAway (-minimum / s) = 0
  · rw [if_pos hzero, if_pos hzero]
    refine .small rfl hs.ne' fun v hmv hvM => ?_
    rw [abs_div, abs_of_pos hs]
    refine small_value hs (by linarith) hzero (abs_le.2 ⟨by linarith, ?_⟩)
    linarith [(abs_lt.1 habs).2]
  · obtain ⟨he, hr⟩ := edge_pos hs (by linarith) hzero
    rw [if_neg hzero, if_neg hzero]
    have hcode : ∀ v, (v - minimum) / (minimum / ((-roundAway (-minimum / s) : ℤ) : ℚ)) =
        (v - minimum) * roundAway (-minimum / s) / -minimum := by
      intro v
      push_cast
      field_simp
    refine .edge (if_pos hedge).symm hmin.ne (div_ne_zero hmin.ne (Int.cast_ne_zero.2 (neg_ne_zero.2 hzero))) (fun v hmv hvM => ?_)
      fun _ hmax => ?_
    · rw [hcode]
      refine ⟨by positivity, reach hs he (by linarith) (by linarith) hwide ?_⟩
      linarith [(abs_lt.1 habs).2]
    · -- Zero is as many codes above the edge as the edge rounds to.
      refine ⟨roundAway (-minimum / s), roundAway_nonneg (by positivity), ?_, ?_⟩
      · refine roundAway_le_int (by positivity) ((div_le_iff₀ hs).2 ?_)
        push_cast
        linarith
      · rw [hcode, zero_sub, mul_div_cancel_left₀ _ he.ne']

/-- The edge is the maximum, and the codes go down from it. -/
theorem fit_maximum (hedge : |minimum| ≤ maximum) (hmax : 0 ≤ maximum) :
    Fit bits minimum maximum (if roundAway (maximum / -s) = 0 then -s else maximum / roundAway (maximum / -s))
      (if roundAway (maximum / -s) = 0 then 0 else maximum) := by
  have hround : roundAway (maximum / -s) = -roundAway (maximum / s) := by rw [div_neg, roundAway_neg]
  simp only [hround, neg_eq_zero]
  by_cases hzero : roundAway (maximum / s) = 0
  · rw [if_pos hzero, if_pos hzero]
    refine .small rfl (neg_ne_zero.2 hs.ne') fun v hmv hvM => ?_
    rw [abs_div, abs_neg, abs_of_pos hs]
    refine small_value hs hmax hzero (abs_le.2 ⟨?_, hvM⟩)
    linarith [(abs_le.1 hedge).1]
  · obtain ⟨he, hr⟩ := edge_pos hs hmax hzero
    rw [if_neg hzero, if_neg hzero]
    have hcode : ∀ v, (v - maximum) / (maximum / ((-roundAway (maximum / s) : ℤ) : ℚ)) =
        (maximum - v) * roundAway (maximum / s) / maximum := by
      intro v
      push_cast
      field_simp
      ring
    have hother : ¬ |minimum| > |maximum| := not_lt.2 (by rwa [abs_of_nonneg hmax])
    refine .edge (if_neg hother).symm he.ne' (div_ne_zero he.ne' (Int.cast_ne_zero.2 (neg_ne_zero.2 hzero))) (fun v hmv hvM => ?_)
      fun hmin _ => ?_
    · have hdistance : 0 ≤ maximum - v := by linarith
      rw [hcode]
      refine ⟨by positivity, reach hs he (by linarith) (by linarith) hwide ?_⟩
      linarith [(abs_le.1 hedge).1]
    · refine ⟨roundAway (maximum / s), roundAway_nonneg (by positivity), ?_, ?_⟩
      · refine roundAway_le_int (by positivity) ((div_le_iff₀ hs).2 ?_)
        push_cast
        linarith
      · rw [hcode, sub_zero, mul_div_cancel_left₀ _ he.ne']

end

theorem fitGroup_fit {bits : Nat} (hbins : 0 < bins bits) {minimum maximum : ℚ} (hle : minimum ≤ maximum) :
    Fit bits minimum maximum (fitGroup bits minimum maximum).1 (fitGroup bits minimum maximum).2 := by
  have hb : (0 : ℚ) < bins bits := Nat.cast_pos.2 hbins
  obtain ⟨s, hs⟩ : ∃ s, s = max ((maximum - minimum) / bins bits) (1 / 10000000 : ℚ) := ⟨_, rfl⟩
  have hspos : 0 < s := hs ▸ lt_max_of_lt_right (by norm_num)
  have hwide : maximum - minimum ≤ bins bits * s := by
    rw [mul_comm, ← div_le_iff₀ hb, hs]
    exact le_max_left _ _
  unfold fitGroup
  simp only [← hs]
  by_cases hedge : |minimum| > |maximum|
  · simp only [if_pos hedge]
    exact fit_minimum hspos hwide hle hedge
  · simp only [if_neg hedge]
    rw [gt_iff_lt, not_lt] at hedge
    rcases le_or_gt 0 maximum with hmax | hmax
    · rw [abs_of_nonneg hmax] at hedge
      exact fit_maximum hspos hwide hedge hmax
    · -- Both are negative, so their magnitudes and with them all values are equal.
      obtain rfl : minimum = maximum := by
        rw [abs_of_neg hmax, abs_of_neg (hle.trans_lt hmax)] at hedge
        linarith
      exact fit_single hspos hmax

/-! ## The error of a code -/

section
variable {bits : Nat} {minimum maximum scale bias v : ℚ} (h : Fit bits minimum maximum scale bias)
include h

theorem Fit.scale_ne : scale ≠ 0 := by
  cases h with
  | small _ hscale _ => exact hscale
  | edge _ _ hscale _ _ => exact hscale

theorem Fit.error (hmin : minimum ≤ v) (hmax : v ≤ maximum) :
    |v - (scale * quantizedValue v scale bias (bins bits) + bias)| ≤ |scale| := by
  cases h with
  | small hbias hscale hvalue =>
    have hv := hvalue v hmin hmax
    have hcode : quantizedValue v scale bias (bins bits) = 0 := nearestCode_eq_zero (by rwa [hbias, sub_zero])
    rw [abs_div, div_lt_iff₀ (abs_pos.2 hscale)] at hv
    rw [hcode, hbias, Nat.cast_zero, mul_zero, add_zero, sub_zero]
    linarith [abs_nonneg scale]
  | edge _ _ hscale hvalue _ =>
    obtain ⟨hlow, hhigh⟩ := hvalue v hmin hmax
    have hsplit : v - (scale * quantizedValue v scale bias (bins bits) + bias) =
        scale * ((v - bias) / scale - quantizedValue v scale bias (bins bits)) := by
      rw [mul_sub, mul_div_cancel₀ _ hscale]
      ring
    rw [hsplit, abs_mul]
    exact mul_le_of_le_one_right (abs_nonneg scale) (abs_sub_nearestCode_le hlow hhigh)

/-- The edge of larger magnitude is reproduced. -/
theorem Fit.edge_exact (hbias : bias ≠ 0) :
    bias = (if |minimum| > |maximum| then minimum else maximum) ∧
      scale * quantizedValue bias scale bias (bins bits) + bias = bias := by
  cases h with
  | small hzero _ _ => exact absurd hzero hbias
  | edge hedge _ _ _ _ =>
    have hcode : quantizedValue bias scale bias (bins bits) = 0 := by
      rw [quantizedValue, sub_self, zero_div]
      exact nearestCode_eq_zero (by norm_num)
    refine ⟨hedge, ?_⟩
    rw [hcode, Nat.cast_zero, mul_zero, zero_add]

/-- Zero is reproduced where it is in the range. -/
theorem Fit.zero_exact (hmin : minimum ≤ 0) (hmax : 0 ≤ maximum) :
    scale * quantizedValue 0 scale bias (bins bits) + bias = 0 := by
  cases h with
  | small hbias _ _ =>
    have hcode : quantizedValue 0 scale bias (bins bits) = 0 := by
      rw [quantizedValue, hbias, sub_zero, zero_div]
      exact nearestCode_eq_zero (by norm_num)
    rw [hcode, hbias, Nat.cast_zero, mul_zero, add_zero]
  | edge _ _ hscale _ hzero =>
    obtain ⟨n, hn, hle, hcode⟩ := hzero hmin hmax
    have hexact : (quantizedValue 0 scale bias (bins bits) : ℚ) = n := by
      have hint : (nearestCode (bins bits) (n : ℚ) : ℤ) = n := nearestCode_intCast hn hle
      rw [quantizedValue, hcode, ← Int.cast_natCast, hint]
    rw [hexact, ← hcode, mul_div_cancel₀ _ hscale]
    ring

end

/-! ## Groups -/

theorem foldl_min_le (rest : List ℚ) (first : ℚ) :
    rest.foldl min first ≤ first ∧ ∀ v ∈ rest, rest.foldl min first ≤ v := by
  induction rest generalizing first with
  | nil => exact ⟨le_rfl, nofun⟩
  | cons x rest ih =>
    obtain ⟨hfirst, hrest⟩ := ih (min first x)
    refine ⟨hfirst.trans (min_le_left _ _), fun v hv => ?_⟩
    rcases List.mem_cons.1 hv with rfl | hv
    · exact hfirst.trans (min_le_right _ _)
    · exact hrest v hv

theorem le_foldl_max (rest : List ℚ) (first : ℚ) :
    first ≤ rest.foldl max first ∧ ∀ v ∈ rest, v ≤ rest.foldl max first := by
  induction rest generalizing first with
  | nil => exact ⟨le_rfl, nofun⟩
  | cons x rest ih =>
    obtain ⟨hfirst, hrest⟩ := ih (max first x)
    refine ⟨(le_max_left _ _).trans hfirst, fun v hv => ?_⟩
    rcases List.mem_cons.1 hv with rfl | hv
    · exact (le_max_right _ _).trans hfirst
    · exact hrest v hv

theorem valueRange_spec {values : List ℚ} {minimum maximum : ℚ} (h : valueRange values = some (minimum, maximum)) :
    ∀ v ∈ values, minimum ≤ v ∧ v ≤ maximum := by
  cases values with
  | nil => cases h
  | cons first rest =>
    rw [valueRange, Option.some.injEq, Prod.mk.injEq] at h
    intro v hv
    rw [← h.1, ← h.2]
    rcases List.mem_cons.1 hv with heq | hv
    · rw [heq]
      exact ⟨(foldl_min_le rest first).1, (le_foldl_max rest first).1⟩
    · exact ⟨(foldl_min_le rest first).2 v hv, (le_foldl_max rest first).2 v hv⟩

section
variable {bits : Nat} {values : List ℚ} {scale bias : ℚ}

/-- A word holds the codes of its values. -/
theorem quantizedGroupWord_eq {word : Nat} (hword : (word + 1) * (32 / bits) ≤ values.length) :
    quantizedGroupWord values scale bias bits word =
      some (packFields bits (fun index => quantizedValue (values.getD (word * (32 / bits) + index) 0) scale bias (bins bits))
        (32 / bits)) := by
  refine packLoop_eq _ fun index hindex => ?_
  have hplace : word * (32 / bits) + index < values.length := by
    rw [Nat.succ_mul] at hword
    omega
  simp only [List.getD_eq_getElem?_getD, List.getElem?_eq_getElem hplace, Option.getD_some]
  rfl

def groupWord (bits : Nat) (values : List ℚ) (scale bias : ℚ) (word : Nat) : UInt32 :=
  UInt32.ofNat (packFields bits
    (fun index => quantizedValue (values.getD (word * (32 / bits) + index) 0) scale bias (bins bits)) (32 / bits))

theorem quantizeGroup_eq {minimum maximum : ℚ} (hrange : valueRange values = some (minimum, maximum))
    (hwhole : wordsPerGroup bits values.length * (32 / bits) ≤ values.length) :
    quantizeGroup bits values = some ⟨(List.range (wordsPerGroup bits values.length)).map
      (groupWord bits values (fitGroup bits minimum maximum).1 (fitGroup bits minimum maximum).2),
      (fitGroup bits minimum maximum).1, (fitGroup bits minimum maximum).2⟩ := by
  rw [quantizeGroup, hrange, Option.bind_eq_bind, Option.bind_some]
  refine each_bind (fun word => [groupWord bits values (fitGroup bits minimum maximum).1 (fitGroup bits minimum maximum).2 word])
    (fun word hword => ?_) ?_
  · rw [quantizedGroupWord_eq ((Nat.mul_le_mul_right _ hword).trans hwhole)]
    rfl
  · rw [flatMap_single]
    rfl

theorem code_groupWord (hsize : 32 / bits * bits = 32) (hbits : bins bits < 2 ^ bits) (word : Nat) {index : Nat}
    (hindex : index < 32 / bits) : code bits (groupWord bits values scale bias word) index =
      quantizedValue (values.getD (word * (32 / bits) + index) 0) scale bias (bins bits) :=
  code_packFields (fun _ _ => (nearestCode_le _ _).trans_lt hbits) hsize hindex

end

/-- The codes that a group gets, and what they stand for. -/
theorem quantizeGroup_error (bits : Nat) (hbits : bits = 4 ∨ bits = 8) (values : List ℚ)
    (hsize : values.length = 32 ∨ values.length = 64) :
    ∃ group minimum maximum, quantizeGroup bits values = some group ∧ valueRange values = some (minimum, maximum) ∧
      group.scale ≠ 0 ∧
      (∀ i v, values[i]? = some v → ∃ word, group.wq[i / packing bits]? = some word ∧
        code bits word (i % packing bits) ≤ 2 ^ bits - 1 ∧
        |v - (group.scale * code bits word (i % packing bits) + group.bias)| ≤ |group.scale| ∧
        (group.bias ≠ 0 → v = (if |minimum| > |maximum| then minimum else maximum) →
          group.scale * code bits word (i % packing bits) + group.bias = v) ∧
        (minimum ≤ 0 → 0 ≤ maximum → v = 0 → group.scale * code bits word (i % packing bits) + group.bias = 0)) ∧
      (group.bias ≠ 0 → group.bias = if |minimum| > |maximum| then minimum else maximum) ∧
      (minimum ≤ 0 → 0 ≤ maximum → ∃ q ≤ 2 ^ bits - 1, group.scale * (q : ℕ) + group.bias = 0) := by
  have hne : values ≠ [] := by
    rintro rfl
    rcases hsize with h | h <;> cases h
  obtain ⟨minimum, maximum, hrange⟩ : ∃ minimum maximum, valueRange values = some (minimum, maximum) := by
    cases values with
    | nil => exact absurd rfl hne
    | cons first rest => exact ⟨_, _, rfl⟩
  have hspec := valueRange_spec hrange
  obtain ⟨first, hfirst⟩ := List.exists_mem_of_ne_nil _ hne
  have hsome : 0 < bins bits := by rcases hbits with rfl | rfl <;> decide
  have hfit := fitGroup_fit hsome ((hspec first hfirst).1.trans (hspec first hfirst).2)
  have hbins : bins bits = 2 ^ bits - 1 := by rw [bins, Nat.one_shiftLeft]
  -- Codes fill a word without a gap, and words a group.
  have hfull : 32 / bits * bits = 32 ∧ bins bits < 2 ^ bits ∧ packing bits = 32 / bits ∧ 0 < 32 / bits ∧
      wordsPerGroup bits values.length * (32 / bits) = values.length := by
    unfold wordsPerGroup
    rcases hbits with rfl | rfl <;> rcases hsize with h | h <;> rw [h] <;> decide
  obtain ⟨hword, hlt, hpacking, hpos, hwhole⟩ := hfull
  refine ⟨_, minimum, maximum, quantizeGroup_eq hrange hwhole.le, hrange, hfit.scale_ne, fun i v hv => ?_,
    fun hbias => (hfit.edge_exact hbias).1, fun hmin hmax => ⟨_, ?_, hfit.zero_exact hmin hmax⟩⟩
  · obtain ⟨hi, hvalue⟩ := List.getElem?_eq_some_iff.1 hv
    have hmem : v ∈ values := List.mem_of_getElem? hv
    have hplace : i / (32 / bits) < wordsPerGroup bits values.length :=
      (Nat.div_lt_iff_lt_mul hpos).2 (by rwa [hwhole])
    have hcode : code bits (groupWord bits values (fitGroup bits minimum maximum).1 (fitGroup bits minimum maximum).2
        (i / (32 / bits))) (i % (32 / bits)) =
        quantizedValue v (fitGroup bits minimum maximum).1 (fitGroup bits minimum maximum).2 (bins bits) := by
      rw [code_groupWord hword hlt _ (Nat.mod_lt _ hpos), Nat.div_add_mod', List.getD_eq_getElem?_getD, hv, Option.getD_some]
    rw [hpacking]
    refine ⟨_, by rw [List.getElem?_map, List.getElem?_range hplace]; rfl, ?_⟩
    rw [hcode]
    refine ⟨hbins ▸ nearestCode_le _ _, hfit.error (hspec v hmem).1 (hspec v hmem).2, ?_, ?_⟩
    · rintro hbias rfl
      obtain ⟨hedge, hexact⟩ := hfit.edge_exact hbias
      rw [← hedge]
      exact hexact
    · rintro hmin hmax rfl
      exact hfit.zero_exact hmin hmax
  · exact hbins ▸ nearestCode_le _ _

theorem constantGroup_error : ∃ group, quantizeGroup 4 (List.replicate 32 5) = some group ∧ group.scale ≠ 0 ∧
    ∀ i < 32, ∃ word, group.wq[i / packing 4]? = some word ∧
      |5 - (group.scale * code 4 word (i % packing 4) + group.bias)| ≤ |group.scale| := by
  obtain ⟨group, _, _, hgroup, _, hscale, hvalues, _⟩ :=
    quantizeGroup_error 4 (.inl rfl) (List.replicate 32 5) (.inl List.length_replicate)
  refine ⟨group, hgroup, hscale, fun i hi => ?_⟩
  obtain ⟨word, hword, -, herror, -⟩ := hvalues i 5 (by rw [List.getElem?_replicate, if_pos hi])
  exact ⟨word, hword, herror⟩

/-- A thread quantizes the values of its group. -/
theorem quantizeThread_eq {raw : Memory} {iq3sGrid : Nat → Option UInt32} {sourceType bits targetGroupSize groupIndex : Nat}
    (value : Nat → ℚ) (h : ∀ index < targetGroupSize,
      sourceValue raw iq3sGrid sourceType (groupIndex * targetGroupSize + index) = some (value index)) :
    quantizeThread raw iq3sGrid sourceType bits targetGroupSize groupIndex =
      quantizeGroup bits ((List.range targetGroupSize).map value) := by
  refine each_bind (fun index => [value index]) (fun index hindex => ?_) ?_
  · rw [h index hindex]
    rfl
  · rw [flatMap_single]

end Tanpopo.GGUF
