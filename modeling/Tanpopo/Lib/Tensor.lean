import Mathlib
/-!
# Dense arrays

An array is its shape and its entries, one coordinate per axis. Operations
act on the leading axis, as the array library's `concatenated(axis: 0)` and
range subscript do, and on the pair of outer axes (`swappedAxes(0, -1)`).
Entries outside the shape carry no meaning: `Same` ignores them.
-/

namespace Tanpopo

structure Tensor (α : Type) where
  shape : List Nat
  entry : List Nat → α

namespace Tensor
variable {α : Type}

/-- `idx` addresses an entry of an array of shape `shape`. -/
def InRange (shape idx : List Nat) : Prop := List.Forall₂ (· < ·) idx shape

/-- An index into `lead ++ [n]` ends in a position below `n`. -/
theorem InRange.split_last {lead idx : List Nat} {n : Nat} (h : InRange (lead ++ [n]) idx) :
    ∃ front i, idx = front ++ [i] ∧ i < n := by
  have hlast := List.forall₂_drop_append idx lead [n] h
  rw [List.forall₂_cons_right_iff] at hlast
  obtain ⟨i, rest, hi, hrest, hdrop⟩ := hlast
  rw [List.forall₂_nil_right_iff] at hrest
  refine ⟨idx.take lead.length, i, ?_, hi⟩
  rw [← hrest, ← hdrop, List.take_append_drop]

/-- Equal shapes and equal entries. -/
structure Same (t u : Tensor α) : Prop where
  shape : t.shape = u.shape
  entry : ∀ idx, InRange t.shape idx → t.entry idx = u.entry idx

/-- Length of the leading axis. -/
def rows (t : Tensor α) : Nat := t.shape.headD 0

/-! ## The outer axes -/

/-- Exchange the first and the last element. -/
def swapEnds {β : Type} : List β → List β
  | [] => []
  | x :: xs => match xs.getLast? with
    | none => [x]
    | some y => y :: (xs.dropLast ++ [x])

@[simp] theorem swapEnds_append {β : Type} (l : List β) (y : β) :
    swapEnds (l ++ [y]) = y :: l.rotate 1 := by
  cases l with
  | nil => rfl
  | cons x xs => simp [swapEnds]

@[simp] theorem swapEnds_swapEnds {β : Type} (l : List β) : swapEnds (swapEnds l) = l := by
  rcases List.eq_nil_or_concat l with rfl | ⟨xs, y, rfl⟩
  · rfl
  · rw [List.concat_eq_append, swapEnds_append]
    cases xs with
    | nil => rfl
    | cons x xs => simp [swapEnds]

/-- `swappedAxes(0, -1)`. -/
def swappedAxes (t : Tensor α) : Tensor α := ⟨swapEnds t.shape, fun idx => t.entry (swapEnds idx)⟩

@[simp] theorem swappedAxes_shape (t : Tensor α) : t.swappedAxes.shape = swapEnds t.shape := rfl
@[simp] theorem swappedAxes_entry (t : Tensor α) (idx : List Nat) :
    t.swappedAxes.entry idx = t.entry (swapEnds idx) := rfl

/-! ## The leading axis -/

variable [Zero α]

def zeros (shape : List Nat) : Tensor α := ⟨shape, fun _ => 0⟩

def catEntry : List (Tensor α) → List Nat → α
  | t :: ts, i :: rest => if i < t.rows then t.entry (i :: rest) else catEntry ts ((i - t.rows) :: rest)
  | _, _ => 0

/-- `concatenated(axis: 0)`: the rows of the arrays one after the other. -/
def concatenated (ts : List (Tensor α)) : Tensor α :=
  ⟨(ts.map rows).sum :: (ts.head?.elim [] (·.shape.tail)), catEntry ts⟩

omit [Zero α] in
/-- `t[lower..<upper]`. -/
def slice (t : Tensor α) (lower upper : Nat) : Tensor α :=
  ⟨(upper - lower) :: t.shape.tail, fun
    | [] => t.entry []
    | i :: rest => t.entry ((lower + i) :: rest)⟩

/-- A row of a concatenation is a row of the block it falls into. -/
theorem catEntry_append (pre post : List (Tensor α)) (t : Tensor α) (j : Nat) (rest : List Nat) (h : j < t.rows) :
    catEntry (pre ++ t :: post) (((pre.map rows).sum + j) :: rest) = t.entry (j :: rest) := by
  induction pre with
  | nil => simp [catEntry, h]
  | cons p pre ih =>
    simp only [List.cons_append, List.map_cons, List.sum_cons, catEntry]
    rw [if_neg (by omega), show p.rows + (pre.map rows).sum + j - p.rows = (pre.map rows).sum + j by omega]
    exact ih

section Blocks
-- `n` blocks given by a function of their position, block `r` starting at row `offset r`.
variable (f : Nat → Tensor α) (offset : Nat → Nat) {n : Nat}

omit [Zero α] in
theorem sum_rows_range (h0 : offset 0 = 0) {m : Nat} (hstep : ∀ r < m, offset (r + 1) = offset r + (f r).rows) :
    (((List.range m).map f).map rows).sum = offset m := by
  induction m with
  | zero => simp [h0]
  | succ m ih =>
    rw [List.range_succ, List.map_append, List.map_append, List.sum_append, ih fun r hr => hstep r (by omega),
      hstep m (by omega)]
    simp

theorem catEntry_range (h0 : offset 0 = 0) (hstep : ∀ r < n, offset (r + 1) = offset r + (f r).rows)
    {r j : Nat} (hr : r < n) (hj : j < (f r).rows) (rest : List Nat) :
    catEntry ((List.range n).map f) ((offset r + j) :: rest) = (f r).entry (j :: rest) := by
  obtain ⟨m, rfl⟩ : ∃ m, n = r + (m + 1) := ⟨n - r - 1, by omega⟩
  have hsplit : (List.range (r + (m + 1))).map f =
      (List.range r).map f ++ f r :: (List.range m).map (fun i => f (r + (i + 1))) := by
    rw [List.range_add, List.map_append, List.range_succ_eq_map]
    simp [Function.comp_def]
  rw [hsplit, ← sum_rows_range f offset h0 fun q hq => hstep q (by omega)]
  exact catEntry_append _ _ _ _ _ hj

theorem concatenated_range_shape (h0 : offset 0 = 0) (hstep : ∀ r < n, offset (r + 1) = offset r + (f r).rows)
    (hn : 0 < n) : (concatenated ((List.range n).map f)).shape = offset n :: (f 0).shape.tail := by
  have htail : ((List.range n).map f).head?.elim [] (·.shape.tail) = (f 0).shape.tail := by
    obtain ⟨m, rfl⟩ : ∃ m, n = m + 1 := ⟨n - 1, by omega⟩
    simp [List.range_succ_eq_map]
  simp only [concatenated, sum_rows_range f offset h0 hstep, htail]

end Blocks

end Tensor

end Tanpopo
