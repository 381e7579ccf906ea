import Tanpopo.Distributed.LockStep
import Mathlib.Algebra.BigOperators.Group.Finset.Basic
/-!
# A sharded layer computes the whole layer

Each rank keeps the weight rows of its `rowRange`, multiplies the summed input
by them and pads its rows to a common stride; the gather puts the ranks' rows
one after the other, and `gatherOutput` drops the padding. In exact arithmetic
this is the unsharded product, entry for entry.
-/

namespace Tanpopo.Distributed

open Tensor

/-! ## Row ranges -/

theorem rowRange_lower (output rank size : Nat) : (rowRange output rank size).lower = Partition.start output size rank :=
  rfl

theorem rowRange_upper (output rank size : Nat) :
    (rowRange output rank size).upper = Partition.start output size (rank + 1) := by
  rw [Partition.start_succ, ← rowRange_count, ← rowRange_lower, RowRange.count]
  have := (rowRange output rank size).le
  omega

/-- The row ranges of ranks `0 .. size - 1` cut `[0, output)` into consecutive
pieces of at most `stride` rows, none of them empty. -/
structure Covers (output size stride : Nat) : Prop where
  first : (rowRange output 0 size).lower = 0
  contiguous : ∀ rank, (rowRange output rank size).upper = (rowRange output (rank + 1) size).lower
  last : (rowRange output (size - 1) size).upper = output
  nonempty : ∀ rank < size, (rowRange output rank size).lower < (rowRange output rank size).upper
  disjoint : ∀ q r, q < r → (rowRange output q size).upper ≤ (rowRange output r size).lower
  cover : ∀ i < output, ∃! rank, rank < size ∧
    (rowRange output rank size).lower ≤ i ∧ i < (rowRange output rank size).upper
  bounded : ∀ rank, (rowRange output rank size).count ≤ stride

theorem rowRange_covers {output size : Nat} (hsize : 0 < size) (h : size ≤ output) :
    Covers output size ((output + size - 1) / size) where
  first := by rw [rowRange_lower, Partition.start_zero]
  contiguous rank := by rw [rowRange_upper, rowRange_lower]
  last := by rw [rowRange_upper, Nat.sub_add_cancel hsize, Partition.start_last hsize]
  nonempty rank _ := by
    have := Partition.count_pos hsize h rank
    rw [rowRange_upper, rowRange_lower, Partition.start_succ]
    omega
  disjoint q r hqr := by rw [rowRange_upper, rowRange_lower]; exact Partition.start_mono hqr
  cover i hi := by
    obtain ⟨r, hr, hlo, hup⟩ := Partition.exists_block hsize hi
    refine ⟨r, ⟨hr, hlo, by rw [rowRange_upper, Partition.start_succ]; exact hup⟩, ?_⟩
    rintro q ⟨-, hq, hq'⟩
    rw [rowRange_lower] at hq
    rw [rowRange_upper, Partition.start_succ] at hq'
    rcases Nat.lt_trichotomy q r with hlt | rfl | hgt
    · have := @Partition.blocks_ordered output size q r hlt
      omega
    · rfl
    · have := @Partition.blocks_ordered output size r q hgt
      omega
  bounded rank := by rw [rowRange_count]; exact Partition.count_le_stride hsize rank

/-! ## Linear layers -/

variable {α π : Type}

/-- Layout of a quantised weight. -/
structure Quantization where
  groupSize : Nat
  bits : Nat
  mode : String
  deriving DecidableEq, Repr

/-- `Linear` and `QuantizedLinear`: the parameters, each with the output rows
on its leading axis. `π` is the packed weight word. -/
inductive Linear (α π : Type) where
  | dense (weight : Tensor α) (bias : Option (Tensor α))
  | quantized (weight : Tensor π) (scales : Tensor α) (biases : Option (Tensor α)) (bias : Option (Tensor α))
      (quantization : Quantization)

/-- `linear.shape.0`. -/
def Linear.output : Linear α π → Nat
  | .dense weight _ => weight.rows
  | .quantized weight .. => weight.rows

def Linear.bias : Linear α π → Option (Tensor α)
  | .dense _ bias => bias
  | .quantized _ _ _ bias _ => bias

/-- `copyRows`: the rows of a parameter, refused outside its leading axis. -/
def copyRows {β : Type} (input : Tensor β) (rows : RowRange) : Option (Tensor β) :=
  if input.shape.length < 1 ∨ rows.upper ≤ rows.lower ∨ input.rows < rows.upper then none
  else some (input.slice rows.lower rows.upper)

/-- `copyRows` on a parameter the layer may lack. -/
def copyOptional {β : Type} (input : Option (Tensor β)) (rows : RowRange) : Option (Option (Tensor β)) :=
  match input with
  | none => some none
  | some t => (copyRows t rows).map some

/-- The shard `install` builds on one rank; `none` when the layer stays on the
coordinator or a parameter cannot be cut. -/
def Linear.install (linear : Linear α π) (rank size : Nat) : Option (Linear α π) :=
  if linear.output < size then none
  else
    let rows := rowRange linear.output rank size
    match linear with
    | .dense weight bias => do
      let weight ← copyRows weight rows
      let bias ← copyOptional bias rows
      some (.dense weight bias)
    | .quantized weight scales biases bias quantization => do
      let weight ← copyRows weight rows
      let bias ← copyOptional bias rows
      let scales ← copyRows scales rows
      let biases ← copyOptional biases rows
      some (.quantized weight scales biases bias quantization)

section Product
variable [AddCommMonoid α] [Mul α]
-- MLX's dequantisation of one row: layout, packed words, scales and biases of the row.
variable (dequantize : Quantization → (List Nat → π) → (List Nat → α) → Option (List Nat → α) → Nat → α)

/-- Row `j` of the weight matrix the product uses. -/
def Linear.weightRow : Linear α π → Nat → Nat → α
  | .dense weight _, j => fun k => weight.entry [j, k]
  | .quantized weight scales biases _ quantization, j =>
    dequantize quantization (fun i => weight.entry (j :: i)) (fun i => scales.entry (j :: i))
      (biases.map fun b i => b.entry (j :: i))

def Linear.biasAt (linear : Linear α π) (j : Nat) : α := linear.bias.elim 0 fun b => b.entry [j]

/-- `layer(x)`: the last axis becomes the output rows. -/
def Linear.apply (linear : Linear α π) (x : Tensor α) : Tensor α where
  shape := x.shape.dropLast ++ [linear.output]
  entry idx :=
    let j := idx.getLastD 0
    (∑ k ∈ Finset.range (x.shape.getLastD 0), x.entry (idx.dropLast ++ [k]) * linear.weightRow dequantize j k) +
      linear.biasAt j

end Product

/-! ## Gathering -/

section Gather
variable [Zero α]

/-- The padding step of `gatherOutput`. -/
def pad (stride : Nat) (transposed : Tensor α) : Tensor α :=
  if transposed.rows < stride then
    concatenated [transposed, zeros ((stride - transposed.rows) :: transposed.shape.tail)]
  else transposed

/-- `gatherOutput`, given every rank's local output. `group.gather` puts the
ranks' arrays one after the other. -/
def gatherOutput (total size : Nat) (outputs : Nat → Tensor α) : Tensor α :=
  let stride := (total + size - 1) / size
  let combined := concatenated ((List.range size).map fun rank => pad stride (outputs rank).swappedAxes)
  if total % size = 0 then combined.swappedAxes
  else
    let chunks := (List.range size).map fun rank =>
      combined.slice (rank * stride) (rank * stride + (rowRange total rank size).count)
    (concatenated chunks).swappedAxes

end Gather

/-! ## The gather restores the rows -/

section Restore
variable [Zero α] {total size : Nat}

theorem pad_rows (stride : Nat) (t : Tensor α) (h : t.rows ≤ stride) : (pad stride t).rows = stride := by
  unfold pad
  split
  · simp only [concatenated, zeros, rows, List.map_cons, List.map_nil, List.sum_cons, List.sum_nil, List.headD_cons]
    simp only [rows] at h
    omega
  · omega

theorem pad_tail (stride : Nat) (t : Tensor α) : (pad stride t).shape.tail = t.shape.tail := by
  unfold pad
  split <;> rfl

theorem pad_entry (stride : Nat) (t : Tensor α) (j : Nat) (rest : List Nat) (h : j < t.rows) :
    (pad stride t).entry (j :: rest) = t.entry (j :: rest) := by
  unfold pad
  split
  · simp [concatenated, catEntry, h]
  · rfl

/-- The ranks' outputs hold the columns of `full` in the order of their row ranges. -/
structure Shards (total size : Nat) (full : Tensor α) (lead : List Nat) (outputs : Nat → Tensor α) : Prop where
  full_shape : full.shape = lead ++ [total]
  shape : ∀ rank < size, (outputs rank).shape = lead ++ [Partition.count total size rank]
  entry : ∀ rank < size, ∀ front j, j < Partition.count total size rank →
    (outputs rank).entry (front ++ [j]) = full.entry (front ++ [Partition.start total size rank + j])

variable {full : Tensor α} {lead : List Nat} {outputs : Nat → Tensor α}

omit [Zero α] in
theorem Shards.swapped_shape (h : Shards total size full lead outputs) {rank : Nat} (hr : rank < size) :
    (outputs rank).swappedAxes.shape = Partition.count total size rank :: lead.rotate 1 := by
  simp [h.shape rank hr]

omit [Zero α] in
theorem Shards.swapped_rows (h : Shards total size full lead outputs) {rank : Nat} (hr : rank < size) :
    (outputs rank).swappedAxes.rows = Partition.count total size rank := by
  rw [rows, h.swapped_shape hr, List.headD_cons]

theorem Shards.padded_rows (h : Shards total size full lead outputs) (hsize : 0 < size) {rank : Nat} (hr : rank < size) :
    (pad (Partition.stride total size) (outputs rank).swappedAxes).rows = Partition.stride total size := by
  apply pad_rows
  rw [h.swapped_rows hr]
  exact Partition.count_le_stride hsize rank

/-- The array the gather returns. -/
def combined (total size : Nat) (outputs : Nat → Tensor α) : Tensor α :=
  concatenated ((List.range size).map fun rank => pad (Partition.stride total size) (outputs rank).swappedAxes)

theorem Shards.combined_shape (h : Shards total size full lead outputs) (hsize : 0 < size) :
    (combined total size outputs).shape = size * Partition.stride total size :: lead.rotate 1 := by
  have hshape := concatenated_range_shape (fun rank => pad (Partition.stride total size) (outputs rank).swappedAxes)
    (· * Partition.stride total size) (by simp) (fun r hr => by rw [h.padded_rows hsize hr]; ring) hsize
  rw [combined, hshape, pad_tail, h.swapped_shape hsize, List.tail_cons]

/-- Rank `r`'s rows start at `r * stride` of the gathered array. -/
theorem Shards.combined_entry (h : Shards total size full lead outputs) (hsize : 0 < size) {rank j : Nat}
    (hr : rank < size) (hj : j < Partition.count total size rank) (front : List Nat) :
    (combined total size outputs).entry ((rank * Partition.stride total size + j) :: front.rotate 1) =
      full.entry (front ++ [Partition.start total size rank + j]) := by
  have hcat := catEntry_range (fun rank => pad (Partition.stride total size) (outputs rank).swappedAxes)
    (· * Partition.stride total size) (by simp) (fun r hr => by rw [h.padded_rows hsize hr]; ring) hr
    (j := j) (by rw [h.padded_rows hsize hr]; exact hj.trans_le (Partition.count_le_stride hsize rank))
    (front.rotate 1)
  calc (combined total size outputs).entry ((rank * Partition.stride total size + j) :: front.rotate 1)
      = (pad (Partition.stride total size) (outputs rank).swappedAxes).entry (j :: front.rotate 1) := hcat
    _ = (outputs rank).entry (swapEnds (j :: front.rotate 1)) := pad_entry _ _ _ _ (by rw [h.swapped_rows hr]; exact hj)
    _ = (outputs rank).entry (front ++ [j]) := by rw [← swapEnds_append front j, swapEnds_swapEnds]
    _ = full.entry (front ++ [Partition.start total size rank + j]) := h.entry rank hr front j hj

/-- What the gathered array becomes without its padding. -/
def unpadded (total size : Nat) (combined : Tensor α) : Tensor α :=
  if total % size = 0 then combined
  else concatenated ((List.range size).map fun rank =>
    combined.slice (rank * Partition.stride total size)
      (rank * Partition.stride total size + (rowRange total rank size).count))

theorem gatherOutput_eq (total size : Nat) (outputs : Nat → Tensor α) :
    gatherOutput total size outputs = (unpadded total size (combined total size outputs)).swappedAxes := by
  unfold gatherOutput unpadded combined Partition.stride
  split <;> rfl

theorem Shards.unpadded_shape (h : Shards total size full lead outputs) (hsize : 0 < size) :
    (unpadded total size (combined total size outputs)).shape = total :: lead.rotate 1 := by
  unfold unpadded
  split
  · rename_i hdiv
    have hstart := Partition.start_eq_mul_stride hsize hdiv size
    rw [Partition.start_last hsize] at hstart
    rw [h.combined_shape hsize, ← hstart]
  · rw [concatenated_range_shape _ (Partition.start total size) Partition.start_zero
      (fun r _ => by simp [Partition.start_succ, rows, slice, rowRange_count]) hsize, Partition.start_last hsize]
    simp [slice, h.combined_shape hsize]

theorem Shards.unpadded_entry (h : Shards total size full lead outputs) (hsize : 0 < size) {i : Nat} (hi : i < total)
    (front : List Nat) :
    (unpadded total size (combined total size outputs)).entry (i :: front.rotate 1) = full.entry (front ++ [i]) := by
  obtain ⟨rank, hr, hlo, hup⟩ := Partition.exists_block hsize hi
  obtain ⟨j, rfl⟩ : ∃ j, i = Partition.start total size rank + j := ⟨i - Partition.start total size rank, by omega⟩
  have hj : j < Partition.count total size rank := by omega
  rw [← h.combined_entry hsize hr hj front]
  unfold unpadded
  split
  · rename_i hdiv
    rw [Partition.start_eq_mul_stride hsize hdiv]
  · exact catEntry_range _ (Partition.start total size) Partition.start_zero
      (fun r _ => by simp [Partition.start_succ, rows, slice, rowRange_count]) hr
      (by simpa [rows, slice, rowRange_count] using hj) _

theorem Shards.gathered_shape (h : Shards total size full lead outputs) (hsize : 0 < size) :
    (gatherOutput total size outputs).shape = lead ++ [total] := by
  rw [gatherOutput_eq, swappedAxes_shape, h.unpadded_shape hsize, ← swapEnds_append, swapEnds_swapEnds]

/-- Padding, gathering and removing the padding restores `full`. -/
theorem Shards.gatherOutput_same (h : Shards total size full lead outputs) (hsize : 0 < size) :
    Same (gatherOutput total size outputs) full where
  shape := by rw [h.gathered_shape hsize, h.full_shape]
  entry idx hidx := by
    rw [h.gathered_shape hsize] at hidx
    obtain ⟨front, i, rfl, hi⟩ := hidx.split_last
    rw [gatherOutput_eq, swappedAxes_entry, swapEnds_append]
    exact h.unpadded_entry hsize hi front

end Restore

/-! ## Shards of a layer -/

theorem copyRows_spec {β : Type} {t u : Tensor β} {r : RowRange} (h : copyRows t r = some u) :
    u = t.slice r.lower r.upper := by
  unfold copyRows at h
  split at h
  · cases h
  · exact (Option.some.inj h).symm

theorem copyOptional_spec {β : Type} {t u : Option (Tensor β)} {r : RowRange} (h : copyOptional t r = some u) :
    u = t.map (·.slice r.lower r.upper) := by
  cases t with
  | none => exact (Option.some.inj h).symm
  | some t =>
    simp only [copyOptional, Option.map_eq_some_iff] at h
    obtain ⟨v, hv, rfl⟩ := h
    simp [copyRows_spec hv]

section Layer
variable [AddCommMonoid α] [Mul α]
variable (dequantize : Quantization → (List Nat → π) → (List Nat → α) → Option (List Nat → α) → Nat → α)

/-- What `install` keeps on one rank: the rows of its range, unchanged. -/
structure IsShard (linear shard : Linear α π) (rank size : Nat) : Prop where
  size_le : size ≤ linear.output
  output : shard.output = Partition.count linear.output size rank
  weightRow : ∀ j, shard.weightRow dequantize j =
    linear.weightRow dequantize (Partition.start linear.output size rank + j)
  biasAt : ∀ j, shard.biasAt j = linear.biasAt (Partition.start linear.output size rank + j)

omit [Mul α] in
theorem install_spec {linear shard : Linear α π} {rank size : Nat} (h : linear.install rank size = some shard) :
    IsShard dequantize linear shard rank size := by
  have hcount : (rowRange linear.output rank size).upper - (rowRange linear.output rank size).lower =
      Partition.count linear.output size rank := rowRange_count linear.output rank size
  unfold Linear.install at h
  split at h
  · cases h
  · rename_i hsize
    cases linear with
    | dense weight bias =>
      simp only [Option.bind_eq_bind, Option.bind_eq_some_iff, Option.some.injEq] at h
      obtain ⟨w, hw, b, hb, rfl⟩ := h
      rw [copyRows_spec hw, copyOptional_spec hb]
      exact ⟨by omega, hcount, fun j => rfl, fun j => by cases bias <;> rfl⟩
    | quantized weight scales biases bias quantization =>
      simp only [Option.bind_eq_bind, Option.bind_eq_some_iff, Option.some.injEq] at h
      obtain ⟨w, hw, b, hb, sc, hsc, bs, hbs, rfl⟩ := h
      rw [copyRows_spec hw, copyOptional_spec hb, copyRows_spec hsc, copyOptional_spec hbs]
      exact ⟨by omega, hcount, fun j => by cases biases <;> rfl, fun j => by cases bias <;> rfl⟩

/-- Every parameter has the output rows on its leading axis. -/
def Linear.WellShaped (linear : Linear α π) : Prop :=
  match linear with
  | .dense weight bias => 1 ≤ weight.shape.length ∧ ∀ b ∈ bias, 1 ≤ b.shape.length ∧ b.rows = weight.rows
  | .quantized weight scales biases bias _ => 1 ≤ weight.shape.length ∧
      (1 ≤ scales.shape.length ∧ scales.rows = weight.rows) ∧
      (∀ b ∈ biases, 1 ≤ b.shape.length ∧ b.rows = weight.rows) ∧ ∀ b ∈ bias, 1 ≤ b.shape.length ∧ b.rows = weight.rows

theorem copyRows_isSome {β : Type} {t : Tensor β} {r : RowRange} (hdim : 1 ≤ t.shape.length) (hlt : r.lower < r.upper)
    (hle : r.upper ≤ t.rows) : ∃ u, copyRows t r = some u := by
  unfold copyRows
  rw [if_neg (by omega)]
  exact ⟨_, rfl⟩

theorem copyOptional_isSome {β : Type} {t : Option (Tensor β)} {r : RowRange} (hlt : r.lower < r.upper)
    (h : ∀ b ∈ t, 1 ≤ b.shape.length ∧ r.upper ≤ b.rows) : ∃ u, copyOptional t r = some u := by
  cases t with
  | none => exact ⟨none, rfl⟩
  | some b =>
    obtain ⟨u, hu⟩ := copyRows_isSome (h b rfl).1 hlt (h b rfl).2
    exact ⟨some u, by simp [copyOptional, hu]⟩

omit [AddCommMonoid α] [Mul α] in
/-- `install` shards every well-shaped layer with at least as many rows as ranks. -/
theorem install_wellShaped {linear : Linear α π} {rank size : Nat} (hw : linear.WellShaped) (hsize : 0 < size)
    (h : size ≤ linear.output) (hr : rank < size) : ∃ shard, linear.install rank size = some shard := by
  have hlt := (rowRange_covers hsize h).nonempty rank hr
  have hle : (rowRange linear.output rank size).upper ≤ linear.output := by
    rw [rowRange_upper, Partition.start_succ]
    exact Partition.start_add_count_le hsize hr
  unfold Linear.install
  rw [if_neg (by omega)]
  generalize rowRange linear.output rank size = range at hlt hle
  cases linear with
  | dense weight bias =>
    obtain ⟨w, hweight⟩ := copyRows_isSome hw.1 hlt hle
    obtain ⟨b, hbias⟩ := copyOptional_isSome (t := bias) hlt fun b hb => ⟨(hw.2 b hb).1, (hw.2 b hb).2 ▸ hle⟩
    exact ⟨.dense w b, by simp [hweight, hbias]⟩
  | quantized weight scales biases bias quantization =>
    obtain ⟨hweight, hscales, hbiases, hbias⟩ := hw
    obtain ⟨w, hw⟩ := copyRows_isSome hweight hlt hle
    obtain ⟨b, hb⟩ := copyOptional_isSome (t := bias) hlt fun b hb => ⟨(hbias b hb).1, (hbias b hb).2 ▸ hle⟩
    obtain ⟨sc, hsc⟩ := copyRows_isSome hscales.1 hlt (hscales.2 ▸ hle)
    obtain ⟨bs, hbs⟩ := copyOptional_isSome (t := biases) hlt fun b hb => ⟨(hbiases b hb).1, (hbiases b hb).2 ▸ hle⟩
    exact ⟨.quantized w sc bs b quantization, by simp [hw, hb, hsc, hbs]⟩

/-- The array a rank really hands to the gather has the shape `gatherShape` says. -/
theorem pad_shape {linear : Linear α π} {size rank : Nat} {shard : Linear α π} (hsize : 0 < size)
    (h : linear.install rank size = some shard) (x : Tensor α) (layer : Layer) (hl : layer.output = linear.output) :
    (pad (Partition.stride linear.output size) (shard.apply dequantize x).swappedAxes).shape =
      gatherShape layer size (x.shape.dropLast ++ [(rowRange layer.output rank size).count]) := by
  have hswap : (shard.apply dequantize x).swappedAxes.shape =
      Partition.count linear.output size rank :: x.shape.dropLast.rotate 1 := by
    simp [Linear.apply, (install_spec dequantize h).output]
  have hrows := pad_rows (Partition.stride linear.output size) (shard.apply dequantize x).swappedAxes
    (by rw [rows, hswap, List.headD_cons]; exact Partition.count_le_stride hsize rank)
  have htail := pad_tail (Partition.stride linear.output size) (shard.apply dequantize x).swappedAxes
  rw [gatherShape_eq layer size rank x.shape hsize, hl]
  rw [hswap, List.tail_cons] at htail
  generalize pad (Partition.stride linear.output size) (shard.apply dequantize x).swappedAxes = padded at hrows htail ⊢
  rcases hshape : padded.shape with _ | ⟨a, rest⟩
  · have := Partition.count_pos hsize (install_spec dequantize h).size_le rank
    have := @Partition.count_le_stride linear.output size hsize rank
    simp only [rows, hshape, List.headD_nil] at hrows
    omega
  · simp only [rows, hshape, List.headD_cons, List.tail_cons] at hrows htail
    rw [hrows, htail]

/-- The ranks' products are the rows of the whole product. -/
theorem shards_of_install {linear : Linear α π} {size : Nat} {shards : Nat → Linear α π}
    (h : ∀ rank < size, linear.install rank size = some (shards rank)) (x : Tensor α) :
    Shards linear.output size (linear.apply dequantize x) x.shape.dropLast
      (fun rank => (shards rank).apply dequantize x) where
  full_shape := rfl
  shape rank hr := by simp [Linear.apply, (install_spec dequantize (h rank hr)).output]
  entry rank hr front j _ := by
    have hs := install_spec dequantize (h rank hr)
    simp [Linear.apply, hs.weightRow, hs.biasAt]

/-! ## The operation of rank 0 -/

/-- `group.sum`: entrywise over the ranks. -/
def groupSumTensor (xs : List (Tensor α)) : Tensor α :=
  ⟨xs.head?.elim [] (·.shape), fun idx => (xs.map (·.entry idx)).sum⟩

/-- `execute` after the guard: the workers contribute zeros to the input, every
rank multiplies, rank 0 gathers. -/
def executeProduct (total size : Nat) (layers : Nat → Linear α π) (input : Tensor α) : Tensor α :=
  let shared := groupSumTensor (input :: List.replicate (size - 1) (zeros input.shape))
  gatherOutput total size fun rank => (layers rank).apply dequantize shared

omit [Mul α] in
theorem groupSumTensor_input (input : Tensor α) (workers : Nat) :
    groupSumTensor (input :: List.replicate workers (zeros input.shape)) = input := by
  simp [groupSumTensor, zeros]

/-- A sharded layer's row ranges partition its output rows, and rank 0 gets
exactly the unsharded product. -/
theorem executeProduct_same (linear : Linear α π) (size : Nat) (h2 : 2 ≤ size) (h8 : size ≤ 8)
    (shards : Nat → Linear α π) (h : ∀ rank < size, linear.install rank size = some (shards rank)) (x : Tensor α) :
    Covers linear.output size ((linear.output + size - 1) / size) ∧
      Same (executeProduct dequantize linear.output size shards x) (linear.apply dequantize x) := by
  have hsize : 0 < size := by omega
  refine ⟨rowRange_covers hsize (install_spec dequantize (h 0 hsize)).size_le, ?_⟩
  rw [executeProduct, groupSumTensor_input]
  exact (shards_of_install dequantize h x).gatherOutput_same hsize

/-- Three rows on two ranks: rank 0 owns two rows, rank 1 owns one. -/
def threeRows : Linear Int Nat := .dense ⟨[3, 1], fun idx => (idx.headD 0 : Int) + 1⟩ (some ⟨[3], fun _ => 5⟩)

theorem threeRows_sharded :
    Covers 3 2 2 ∧ Same (executeProduct (fun _ _ _ _ _ => 0) 3 2 (fun rank => (threeRows.install rank 2).getD threeRows)
      ⟨[1], fun _ => 7⟩) (threeRows.apply (fun _ _ _ _ _ => 0) ⟨[1], fun _ => 7⟩) :=
  executeProduct_same (fun _ _ _ _ _ => 0) threeRows 2 (by decide) (by decide)
    (fun rank => (threeRows.install rank 2).getD threeRows) (fun rank hr => by interval_cases rank <;> rfl) ⟨[1], fun _ => 7⟩

end Layer

end Tanpopo.Distributed
