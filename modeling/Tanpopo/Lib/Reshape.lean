import Tanpopo.Lib.Tensor
import Mathlib.Algebra.BigOperators.Group.List.Basic
import Mathlib.Algebra.Order.BigOperators.Group.List
import Mathlib.Data.List.GetD
import Mathlib.Logic.Equiv.Basic
import Mathlib.Tactic.Ring
/-!
# Reshaping and transposing dense arrays

Entries in row-major order, `reshaped` and `transposed`, and what splitting an
axis in three, exchanging the outer two and joining them again does to it.
-/

namespace Tanpopo.Tensor

variable {α : Type}

/-! ## Row-major order -/

/-- The offset of an entry in row-major order, after `start` arrays of the shape. -/
def offsetFrom : Nat → List Nat → List Nat → Nat
  | start, n :: shape, i :: idx => offsetFrom (start * n + i) shape idx
  | start, _, _ => start

def offset (shape idx : List Nat) : Nat := offsetFrom 0 shape idx

/-- The entry at an offset. -/
def position : List Nat → Nat → List Nat
  | [], _ => []
  | _ :: shape, offset => offset / shape.prod :: position shape (offset % shape.prod)

theorem offsetFrom_append {lead idx : List Nat} (h : InRange lead idx) (start : Nat) (shape rest : List Nat) :
    offsetFrom start (lead ++ shape) (idx ++ rest) = offsetFrom (offsetFrom start lead idx) shape rest := by
  induction h generalizing start with
  | nil => rfl
  | cons _ _ ih => exact ih _

theorem offsetFrom_eq {shape idx : List Nat} (h : InRange shape idx) (start : Nat) :
    offsetFrom start shape idx = start * shape.prod + offset shape idx := by
  induction h generalizing start with
  | nil => simp [offsetFrom, offset]
  | @cons i n idx shape _ _ ih =>
    rw [offset, offsetFrom, offsetFrom, ih, ih, List.prod_cons]
    ring

theorem offset_cons {shape idx : List Nat} (h : InRange shape idx) (n i : Nat) :
    offset (n :: shape) (i :: idx) = i * shape.prod + offset shape idx := by
  rw [offset, offsetFrom, offsetFrom_eq h, Nat.zero_mul, Nat.zero_add]

theorem offset_lt {shape idx : List Nat} (h : InRange shape idx) : offset shape idx < shape.prod := by
  induction h with
  | nil => exact Nat.one_pos
  | @cons i n idx shape hi hrest ih =>
    rw [offset_cons hrest, List.prod_cons]
    calc i * shape.prod + offset shape idx < i * shape.prod + shape.prod := Nat.add_lt_add_left ih _
      _ = (i + 1) * shape.prod := by ring
      _ ≤ n * shape.prod := Nat.mul_le_mul_right _ hi

theorem position_offset {shape idx : List Nat} (h : InRange shape idx) : position shape (offset shape idx) = idx := by
  induction h with
  | nil => rfl
  | @cons i n idx shape hi hrest ih =>
    have hlt := offset_lt hrest
    rw [offset_cons hrest, position, Nat.mul_comm, Nat.mul_add_div (by omega), Nat.div_eq_of_lt hlt, Nat.mul_add_mod,
      Nat.mod_eq_of_lt hlt, ih, Nat.add_zero]

/-! ## The operations -/

/-- `reshaped(shape)`. -/
def reshaped (t : Tensor α) (shape : List Nat) : Tensor α :=
  ⟨shape, fun idx => t.entry (position t.shape (offset shape idx))⟩

/-- `transposed(axes:)`: axis `i` of the result is axis `axes[i]` of the array. -/
def transposed (t : Tensor α) (axes : List Nat) : Tensor α :=
  ⟨axes.map fun axis => t.shape.getD axis 0,
    fun idx => t.entry ((List.range t.shape.length).map fun axis => idx.getD (axes.idxOf axis) 0)⟩

theorem reshaped_entry {t : Tensor α} {shape idx idx' : List Nat} (h : InRange t.shape idx')
    (hoffset : offset shape idx = offset t.shape idx') : (t.reshaped shape).entry idx = t.entry idx' := by
  simp only [reshaped]
  rw [hoffset, position_offset h]

/-! ## Exchanging two neighbouring axes -/

/-- The axes of an array of rank `rank`, with `axis` and the next one exchanged. -/
def exchanged (axis rank : Nat) : List Nat := ((List.range rank).set axis (axis + 1)).set (axis + 1) axis

theorem exchanged_eq_map (axis rank : Nat) :
    exchanged axis rank = (List.range rank).map (Equiv.swap axis (axis + 1)) := by
  apply List.ext_getElem
  · simp [exchanged]
  · intro i hi hi'
    simp only [exchanged, List.getElem_set, List.getElem_range, List.getElem_map, Equiv.swap_apply_def]
    split_ifs <;> omega

theorem idxOf_exchanged {axis rank a : Nat} (h : axis + 1 < rank) (ha : a < rank) :
    (exchanged axis rank).idxOf a = Equiv.swap axis (axis + 1) a := by
  have hlt : Equiv.swap axis (axis + 1) a < rank := by
    rw [Equiv.swap_apply_def]
    split_ifs <;> omega
  have hnodup : (exchanged axis rank).Nodup := by
    rw [exchanged_eq_map]
    exact List.nodup_range.map (Equiv.injective _)
  have hget : (exchanged axis rank)[Equiv.swap axis (axis + 1) a]? = some a := by
    simp [exchanged_eq_map, hlt]
  obtain ⟨hindex, hget⟩ := List.getElem?_eq_some_iff.mp hget
  conv_lhs => rw [← hget]
  exact hnodup.idxOf_getElem _ _

/-- Exchanging the axes of a list is exchanging its elements. -/
theorem map_getD_swap (lead trail : List Nat) (i j : Nat) :
    ((List.range (lead.length + 2 + trail.length)).map fun a =>
      (lead ++ i :: j :: trail).getD (Equiv.swap lead.length (lead.length + 1) a) 0) = lead ++ j :: i :: trail := by
  apply List.ext_getElem
  · simp
    omega
  · intro a ha ha'
    have ha : a < lead.length + 2 + trail.length := by simpa using ha
    simp only [List.getElem_map, List.getElem_range]
    rw [Equiv.swap_apply_def]
    split_ifs with hfirst hsecond
    · subst hfirst
      simp
    · subst hsecond
      simp [List.getElem_append_right]
    · rcases Nat.lt_or_ge a lead.length with hlead | htrail
      · rw [List.getD_append _ _ _ _ hlead, List.getD_eq_getElem _ _ hlead, List.getElem_append_left hlead]
      · obtain ⟨b, rfl⟩ : ∃ b, a = lead.length + (b + 2) := ⟨a - lead.length - 2, by omega⟩
        have hb : b < trail.length := by omega
        simp [List.getElem_append_right, hb]

theorem transposed_shape {t : Tensor α} {lead trail : List Nat} {m k : Nat} (h : t.shape = lead ++ m :: k :: trail) :
    (t.transposed (exchanged lead.length t.shape.length)).shape = lead ++ k :: m :: trail := by
  have hrank : t.shape.length = lead.length + 2 + trail.length := by
    simp [h]
    omega
  rw [transposed, exchanged_eq_map, List.map_map, hrank, ← map_getD_swap lead trail m k, h]
  rfl

theorem transposed_entry {t : Tensor α} {lead trail l r : List Nat} {m k i j : Nat} (h : t.shape = lead ++ m :: k :: trail)
    (hl : l.length = lead.length) (hr : r.length = trail.length) :
    (t.transposed (exchanged lead.length t.shape.length)).entry (l ++ i :: j :: r) = t.entry (l ++ j :: i :: r) := by
  have hrank : t.shape.length = lead.length + 2 + trail.length := by
    simp [h]
    omega
  simp only [transposed]
  rw [← map_getD_swap l r i j, hrank, hl, hr]
  apply congrArg t.entry
  apply List.map_congr_left
  intro a ha
  rw [idxOf_exchanged (by omega) (List.mem_range.mp ha)]

/-! ## Regrouping an axis -/

/-- The array whose axis of `lead.length` is split in `m`, `k` and `d`, and joined again as `k`, `m` and `d`. -/
def regrouped (t : Tensor α) (axis m k d : Nat) : Tensor α :=
  let shape := t.shape.take axis ++ [m, k, d] ++ t.shape.drop (axis + 1)
  ((t.reshaped shape).transposed (exchanged axis shape.length)).reshaped t.shape

@[simp] theorem regrouped_shape (t : Tensor α) (axis m k d : Nat) : (t.regrouped axis m k d).shape = t.shape := rfl

/-- Where an element of a regrouped axis comes from. -/
def regroupedFrom (m k d p : Nat) : Nat := (p / d % m * k + p / d / m) * d + p % d

theorem regroupedFrom_lt {m k d p : Nat} (h : p < m * k * d) : regroupedFrom m k d p < m * k * d := by
  have hd : 0 < d := Nat.pos_of_ne_zero fun hzero => by simp [hzero] at h
  have hm : 0 < m := Nat.pos_of_ne_zero fun hzero => by simp [hzero] at h
  have hblock : p / d < m * k := (Nat.div_lt_iff_lt_mul hd).mpr h
  have hinner : p / d % m < m := Nat.mod_lt _ hm
  have houter : p / d / m < k := (Nat.div_lt_iff_lt_mul hm).mpr (by rwa [Nat.mul_comm])
  have hhead : p / d % m * k + p / d / m < m * k := by
    calc p / d % m * k + p / d / m < p / d % m * k + k := Nat.add_lt_add_left houter _
      _ = (p / d % m + 1) * k := by ring
      _ ≤ m * k := Nat.mul_le_mul_right _ hinner
  calc regroupedFrom m k d p < (p / d % m * k + p / d / m) * d + d := Nat.add_lt_add_left (Nat.mod_lt _ hd) _
    _ = (p / d % m * k + p / d / m + 1) * d := by ring
    _ ≤ m * k * d := Nat.mul_le_mul_right _ hhead

/-- An axis may be split in three where its element is. -/
theorem offset_split {lead l : List Nat} (h : InRange lead l) (a b c i j e : Nat) (trail r : List Nat) :
    offset (lead ++ a :: b :: c :: trail) (l ++ i :: j :: e :: r) =
      offset (lead ++ a * b * c :: trail) (l ++ ((i * b + j) * c + e) :: r) := by
  have hstart : ∀ start : Nat, ((start * a + i) * b + j) * c + e = start * (a * b * c) + ((i * b + j) * c + e) := by
    intro start
    ring
  unfold offset
  rw [offsetFrom_append h, offsetFrom_append h]
  simp only [offsetFrom]
  rw [hstart]

theorem inRange_append {lead trail l r : List Nat} (hl : InRange lead l) (hr : InRange trail r) :
    InRange (lead ++ trail) (l ++ r) := List.rel_append hl hr

theorem regrouped_entry {t : Tensor α} {lead trail l r : List Nat} {m k d p : Nat}
    (hshape : t.shape = lead ++ m * k * d :: trail) (hl : InRange lead l) (hr : InRange trail r) (hp : p < m * k * d) :
    (t.regrouped lead.length m k d).entry (l ++ p :: r) = t.entry (l ++ regroupedFrom m k d p :: r) := by
  have hd : 0 < d := Nat.pos_of_ne_zero fun hzero => by simp [hzero] at hp
  have hm : 0 < m := Nat.pos_of_ne_zero fun hzero => by simp [hzero] at hp
  have hinner : p / d % m < m := Nat.mod_lt _ hm
  have houter : p / d / m < k :=
    (Nat.div_lt_iff_lt_mul hm).mpr (by rw [Nat.mul_comm]; exact (Nat.div_lt_iff_lt_mul hd).mpr hp)
  have helement : p % d < d := Nat.mod_lt _ hd
  have hsplit : t.shape.take lead.length ++ [m, k, d] ++ t.shape.drop (lead.length + 1) = lead ++ m :: k :: d :: trail := by
    simp [hshape]
  unfold regrouped
  rw [hsplit]
  have hreshaped : (t.reshaped (lead ++ m :: k :: d :: trail)).shape = lead ++ m :: k :: d :: trail := rfl
  have htransposed : ((t.reshaped (lead ++ m :: k :: d :: trail)).transposed
      (exchanged lead.length (lead ++ m :: k :: d :: trail).length)).shape = lead ++ k :: m :: d :: trail :=
    transposed_shape hreshaped
  -- joined again, the element is at its block and place in the exchanged axes
  have hjoined : offset t.shape (l ++ p :: r) =
      offset (lead ++ k :: m :: d :: trail) (l ++ (p / d / m) :: (p / d % m) :: (p % d) :: r) := by
    have hp : (p / d / m * m + p / d % m) * d + p % d = p := by
      rw [Nat.div_add_mod', Nat.div_add_mod']
    rw [offset_split hl, hp, hshape, Nat.mul_comm k m]
  calc ((t.reshaped _).transposed _ |>.reshaped t.shape).entry (l ++ p :: r)
      = ((t.reshaped (lead ++ m :: k :: d :: trail)).transposed (exchanged lead.length
          (lead ++ m :: k :: d :: trail).length)).entry (l ++ (p / d / m) :: (p / d % m) :: (p % d) :: r) := by
        apply reshaped_entry
        · rw [htransposed]
          exact inRange_append hl (.cons houter (.cons hinner (.cons helement hr)))
        · rw [htransposed]
          exact hjoined
    _ = (t.reshaped (lead ++ m :: k :: d :: trail)).entry (l ++ (p / d % m) :: (p / d / m) :: (p % d) :: r) :=
        transposed_entry hreshaped hl.length_eq (by simp [hr.length_eq])
    _ = t.entry (l ++ regroupedFrom m k d p :: r) := by
        apply reshaped_entry
        · rw [hshape]
          exact inRange_append hl (.cons (regroupedFrom_lt hp) hr)
        · rw [offset_split hl, hshape]
          rfl

end Tanpopo.Tensor
