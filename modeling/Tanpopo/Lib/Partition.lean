import Mathlib.Algebra.Order.Group.Nat
import Mathlib.Tactic.Ring
import Mathlib.Tactic.Linarith
/-!
# Balanced partitions of an interval

`[0, total)` cut into `n` consecutive blocks whose lengths differ by at most
one, the longer blocks first. Block `r` is `[start r, start (r + 1))`.
-/

namespace Tanpopo.Partition

/-- Where block `r` starts. -/
def start (total n r : Nat) : Nat := r * (total / n) + min r (total % n)

/-- How long block `r` is. -/
def count (total n r : Nat) : Nat := total / n + if r < total % n then 1 else 0

/-- The length every block is padded to. -/
def stride (total n : Nat) : Nat := (total + n - 1) / n

variable {total n : Nat}

@[simp] theorem start_zero : start total n 0 = 0 := by simp [start]

theorem start_succ (r : Nat) : start total n (r + 1) = start total n r + count total n r := by
  unfold start count
  have hmul : (r + 1) * (total / n) = r * (total / n) + total / n := by ring
  rw [hmul]
  split <;> omega

theorem start_last (hn : 0 < n) : start total n n = total := by
  have hmod := Nat.mod_lt total hn
  have hdiv := Nat.div_add_mod total n
  unfold start
  rw [Nat.min_eq_right (by omega)]
  exact hdiv

theorem start_mono {q r : Nat} (h : q ≤ r) : start total n q ≤ start total n r := by
  induction r, h using Nat.le_induction with
  | base => exact le_refl _
  | succ r _ ih => rw [start_succ]; omega

theorem start_add_count_le (hn : 0 < n) {r : Nat} (hr : r < n) :
    start total n r + count total n r ≤ total := by
  rw [← start_succ]
  calc start total n (r + 1) ≤ start total n n := start_mono hr
    _ = total := start_last hn

/-- Every position lies in some block. -/
theorem exists_block (hn : 0 < n) {i : Nat} (hi : i < total) :
    ∃ r < n, start total n r ≤ i ∧ i < start total n r + count total n r := by
  have key : ∀ m, i < start total n m → ∃ r < m, start total n r ≤ i ∧ i < start total n r + count total n r := by
    intro m
    induction m with
    | zero => simp
    | succ m ih =>
      intro h
      by_cases hm : i < start total n m
      · obtain ⟨r, hr, hb⟩ := ih hm
        exact ⟨r, by omega, hb⟩
      · exact ⟨m, by omega, by omega, by rw [← start_succ]; exact h⟩
  exact key n (by rw [start_last hn]; exact hi)

/-- Blocks in order do not overlap. -/
theorem blocks_ordered {q r : Nat} (h : q < r) : start total n q + count total n q ≤ start total n r := by
  rw [← start_succ]
  exact start_mono h

theorem count_pos (hn : 0 < n) (h : n ≤ total) (r : Nat) : 0 < count total n r := by
  have : 0 < total / n := Nat.div_pos h hn
  unfold count
  omega

/-- The padded length, spelled with the quotient and the remainder. -/
theorem stride_eq (hn : 0 < n) : stride total n = total / n + if total % n = 0 then 0 else 1 := by
  have hdiv := Nat.div_add_mod total n
  have hmod := Nat.mod_lt total hn
  unfold stride
  split
  · rename_i h0
    have : total + n - 1 = (n - 1) + n * (total / n) := by omega
    rw [this, Nat.add_mul_div_left _ _ hn, Nat.div_eq_of_lt (by omega)]
    omega
  · rename_i h0
    have : total + n - 1 = (total % n - 1) + n * (total / n + 1) := by rw [mul_add]; omega
    rw [this, Nat.add_mul_div_left _ _ hn, Nat.div_eq_of_lt (by omega)]
    omega

theorem count_le_stride (hn : 0 < n) (r : Nat) : count total n r ≤ stride total n := by
  rw [stride_eq hn]
  unfold count
  split <;> split <;> omega

theorem start_eq_mul_stride (hn : 0 < n) (h : total % n = 0) (r : Nat) :
    start total n r = r * stride total n := by
  rw [stride_eq hn]
  simp [start, h]

end Tanpopo.Partition
