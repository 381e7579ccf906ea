import Mathlib.Algebra.Order.Round
import Mathlib.Tactic.FieldSimp
import Mathlib.Tactic.Linarith
/-!
# Rounding away from zero

Numbers are rounded to the nearest integer, and halves away from zero.
-/

namespace Tanpopo

variable {K : Type*} [Field K] [LinearOrder K] [IsStrictOrderedRing K] [FloorRing K]

def roundAway (x : K) : ℤ := if 0 ≤ x then ⌊x + 1 / 2⌋ else -⌊-x + 1 / 2⌋

variable {x : K}

omit [IsStrictOrderedRing K] in
theorem roundAway_of_nonneg (h : 0 ≤ x) : roundAway x = ⌊x + 1 / 2⌋ := if_pos h

theorem roundAway_neg (x : K) : roundAway (-x) = -roundAway x := by
  have hhalf : ⌊(1 / 2 : K)⌋ = 0 := Int.floor_eq_zero_iff.2 ⟨by norm_num, by norm_num⟩
  unfold roundAway
  rcases lt_trichotomy x 0 with h | rfl | h
  · rw [if_pos (by linarith), if_neg (not_le.2 h), neg_neg]
  · simp only [neg_zero, le_refl, if_true, zero_add, hhalf]
  · rw [if_neg (by linarith), if_pos h.le, neg_neg]

theorem roundAway_nonneg (h : 0 ≤ x) : 0 ≤ roundAway x := by
  rw [roundAway_of_nonneg h]
  exact Int.floor_nonneg.2 (by linarith)

theorem roundAway_le (h : 0 ≤ x) : (roundAway x : K) ≤ x + 1 / 2 := by
  rw [roundAway_of_nonneg h]
  exact Int.floor_le _

theorem lt_roundAway (h : 0 ≤ x) : x - 1 / 2 < roundAway x := by
  rw [roundAway_of_nonneg h]
  linarith [Int.lt_floor_add_one (x + 1 / 2)]

theorem roundAway_le_int (h : 0 ≤ x) {n : ℤ} (hn : x ≤ n) : roundAway x ≤ n := by
  have hlt : (roundAway x : K) < (n + 1 : ℤ) := by
    push_cast
    linarith [roundAway_le h]
  exact Int.lt_add_one_iff.1 (Int.cast_lt.1 hlt)

@[simp] theorem roundAway_intCast (n : ℤ) : roundAway (n : K) = n := by
  have hnat : ∀ n : ℤ, 0 ≤ n → roundAway (n : K) = n := by
    intro n hn
    have hcast : (0 : K) ≤ n := by exact_mod_cast hn
    refine le_antisymm (roundAway_le_int hcast le_rfl) ?_
    have hlt : ((n - 1 : ℤ) : K) < roundAway (n : K) := by
      push_cast
      linarith [lt_roundAway hcast]
    exact Int.sub_one_lt_iff.1 (Int.cast_lt.1 hlt)
  rcases le_total 0 n with h | h
  · exact hnat n h
  · have hneg := hnat (-n) (by omega)
    rw [Int.cast_neg, roundAway_neg] at hneg
    omega

theorem roundAway_eq_zero (h : |x| < 1 / 2) : roundAway x = 0 := by
  have hnonneg : ∀ y : K, 0 ≤ y → y < 1 / 2 → roundAway y = 0 := by
    intro y hy hlt
    rw [roundAway_of_nonneg hy, Int.floor_eq_zero_iff]
    exact ⟨by linarith, by linarith⟩
  obtain ⟨hlow, hhigh⟩ := abs_lt.1 h
  rcases le_total 0 x with hx | hx
  · exact hnonneg x hx hhigh
  · have hneg := hnonneg (-x) (by linarith) (by linarith)
    rw [roundAway_neg] at hneg
    omega

theorem lt_half_of_roundAway_eq_zero (h : 0 ≤ x) (hzero : roundAway x = 0) : x < 1 / 2 := by
  have := lt_roundAway h
  rw [hzero, Int.cast_zero] at this
  linarith

/-! ## Codes in a range -/

/-- The nearest code that there is. -/
def nearestCode (bins : ℕ) (x : K) : ℕ := (min (max (roundAway x) 0) bins).toNat

omit [IsStrictOrderedRing K] in
theorem nearestCode_le (bins : ℕ) (x : K) : nearestCode bins x ≤ bins := by
  unfold nearestCode
  omega

theorem nearestCode_intCast {bins : ℕ} {n : ℤ} (h : 0 ≤ n) (hle : n ≤ bins) : (nearestCode bins (n : K) : ℤ) = n := by
  rw [nearestCode, roundAway_intCast]
  omega

theorem nearestCode_eq_zero {bins : ℕ} (h : |x| < 1 / 2) : nearestCode bins x = 0 := by
  rw [nearestCode, roundAway_eq_zero h]
  omega

/-- One code too far is an error of one at most. -/
theorem abs_sub_nearestCode_le {bins : ℕ} (h : 0 ≤ x) (hle : x ≤ bins + 1) : |x - nearestCode bins x| ≤ 1 := by
  have hcode : (nearestCode bins x : ℤ) = min (roundAway x) bins := by
    have := roundAway_nonneg h
    unfold nearestCode
    omega
  have hcast : (nearestCode bins x : K) = ((min (roundAway x) bins : ℤ) : K) := by
    rw [← hcode, Int.cast_natCast]
  rw [hcast]
  rcases le_total (roundAway x) bins with hin | hout
  · rw [min_eq_left hin, abs_le]
    constructor <;> linarith [roundAway_le h, lt_roundAway h]
  · have hreach : ((bins : ℤ) : K) ≤ roundAway x := Int.cast_le.2 hout
    rw [min_eq_right hout, Int.cast_natCast, abs_le]
    rw [Int.cast_natCast] at hreach
    constructor <;> linarith [roundAway_le h]

end Tanpopo
