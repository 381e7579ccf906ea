import Mathlib.Data.List.Perm.Basic
/-!
# Loops that write

A loop that reads a memory, where a read may be out of bounds, carries
variables from turn to turn and collects what the turns write. When each turn
succeeds the loop does, and its writes are those of the turns.
-/

namespace Tanpopo.Writes

variable {ω σ β : Type}

/-- A memory of bytes, and `none` where a read would be out of bounds. -/
abbrev Memory := Nat → Option UInt8

/-- A loop over a range that carries variables. -/
def carry (turn : Nat → σ → Option (List ω × σ)) : List Nat → σ → Option (List ω × σ)
  | [], s => some ([], s)
  | i :: rest, s => do
    let (first, s) ← turn i s
    let (others, s) ← carry turn rest s
    return (first ++ others, s)

/-- A loop over a range whose turns are independent. -/
def each : List Nat → (Nat → Option (List ω)) → Option (List ω)
  | [], _ => some []
  | i :: rest, turn => do
    let first ← turn i
    let others ← each rest turn
    return first ++ others

theorem carry_range' {turn : Nat → σ → Option (List ω × σ)} {state : Nat → σ} {writes : Nat → List ω} {n k : Nat}
    (h : ∀ i, k ≤ i → i < k + n → turn i (state i) = some (writes i, state (i + 1))) :
    carry turn (List.range' k n) (state k) = some ((List.range' k n).flatMap writes, state (k + n)) := by
  induction n generalizing k with
  | zero => rfl
  | succ n ih =>
    have hrest := ih (k := k + 1) fun i hk hi => h i (by omega) (by omega)
    rw [List.range'_succ, carry, h k (Nat.le_refl _) (by omega), List.flatMap_cons,
      show k + (n + 1) = k + 1 + n by omega]
    simp only [Option.bind_eq_bind, Option.bind_some, hrest]
    rfl

/-- The invariant rule: `state i` is what the variables hold before turn `i`. -/
theorem carry_range {turn : Nat → σ → Option (List ω × σ)} (state : Nat → σ) {writes : Nat → List ω} {n : Nat}
    (h : ∀ i < n, turn i (state i) = some (writes i, state (i + 1))) :
    carry turn (List.range n) (state 0) = some ((List.range n).flatMap writes, state n) := by
  have hrange' : ∀ i, 0 ≤ i → i < 0 + n → turn i (state i) = some (writes i, state (i + 1)) :=
    fun i _ hi => h i (by omega)
  have := carry_range' hrange'
  rwa [Nat.zero_add, ← List.range_eq_range'] at this

theorem each_eq {turn : Nat → Option (List ω)} {writes : Nat → List ω} {l : List Nat} (h : ∀ i ∈ l, turn i = some (writes i)) :
    each l turn = some (l.flatMap writes) := by
  induction l with
  | nil => rfl
  | cons i rest ih =>
    rw [each, h i List.mem_cons_self, List.flatMap_cons, ih fun j hj => h j (List.mem_cons_of_mem _ hj)]
    rfl

theorem each_range {turn : Nat → Option (List ω)} {writes : Nat → List ω} {n : Nat} (h : ∀ i < n, turn i = some (writes i)) :
    each (List.range n) turn = some ((List.range n).flatMap writes) :=
  each_eq fun i hi => h i (List.mem_range.1 hi)

/-- A loop, and what is done with its writes and the last state. -/
theorem carry_bind {turn : Nat → σ → Option (List ω × σ)} (state : Nat → σ) (writes : Nat → List ω) {n : Nat}
    {next : List ω × σ → Option β} {result : Option β}
    (h : ∀ i < n, turn i (state i) = some (writes i, state (i + 1)))
    (hnext : next ((List.range n).flatMap writes, state n) = result) :
    (carry turn (List.range n) (state 0)).bind next = result := by
  rw [carry_range state h]
  exact hnext

theorem each_bind {turn : Nat → Option (List ω)} (writes : Nat → List ω) {n : Nat} {next : List ω → Option β}
    {result : Option β} (h : ∀ i < n, turn i = some (writes i)) (hnext : next ((List.range n).flatMap writes) = result) :
    (each (List.range n) turn).bind next = result := by
  rw [each_range h]
  exact hnext

/-! ## Bytes that are there -/

/-- The memory holds these bytes from an offset on. -/
def Covers (memory : Memory) (offset count : Nat) (bytes : Nat → UInt8) : Prop :=
  ∀ i < count, memory (offset + i) = some (bytes i)

theorem Covers.read {memory : Memory} {offset count address : Nat} {bytes : Nat → UInt8} (h : Covers memory offset count bytes)
    (i : Nat) (hi : i < count) (ha : address = offset + i) : memory address = some (bytes i) := ha ▸ h i hi

/-- Only a part of the memory can be read. -/
def only (memory : Memory) (offset count : Nat) : Memory := fun address =>
  if offset ≤ address ∧ address < offset + count then memory address else none

theorem Covers.only {memory : Memory} {offset count : Nat} {bytes : Nat → UInt8} (h : Covers memory offset count bytes) :
    Covers (only memory offset count) offset count bytes := by
  intro i hi
  rw [Writes.only, if_pos (by omega)]
  exact h i hi

/-- A list of bytes as a memory. -/
def ofList (bytes : List UInt8) : Memory := fun address => bytes[address]?

theorem covers_ofList {bytes : List UInt8} {offset count : Nat} (h : offset + count ≤ bytes.length) :
    Covers (ofList bytes) offset count fun i => bytes.getD (offset + i) 0 := by
  intro i hi
  simp only [ofList, List.getD_eq_getElem?_getD, List.getElem?_eq_getElem (show offset + i < bytes.length by omega),
    Option.getD_some]

/-! ## What was written last -/

/-- The values after the writes. -/
def apply (values : List ω) (writes : List (Nat × ω)) : List ω :=
  writes.foldl (fun values write => values.set write.1 write.2) values

@[simp] theorem apply_length (values : List ω) (writes : List (Nat × ω)) : (apply values writes).length = values.length := by
  induction writes generalizing values with
  | nil => rfl
  | cons write writes ih => rw [apply, List.foldl_cons, ← apply, ih, List.length_set]

theorem apply_getElem?_of_not_mem {values : List ω} {writes : List (Nat × ω)} {i : Nat} (h : i ∉ writes.map Prod.fst) :
    (apply values writes)[i]? = values[i]? := by
  induction writes generalizing values with
  | nil => rfl
  | cons write writes ih =>
    rw [List.map_cons, List.mem_cons, not_or] at h
    rw [apply, List.foldl_cons, ← apply, ih h.2, List.getElem?_set_ne (Ne.symm h.1)]

/-- Where every index is written once, the write decides. -/
theorem apply_getElem? {values : List ω} {writes : List (Nat × ω)} (hnodup : (writes.map Prod.fst).Nodup) {i : Nat} {w : ω}
    (hmem : (i, w) ∈ writes) (hi : i < values.length) : (apply values writes)[i]? = some w := by
  induction writes generalizing values with
  | nil => cases hmem
  | cons write writes ih =>
    rw [List.map_cons, List.nodup_cons] at hnodup
    rw [apply, List.foldl_cons, ← apply]
    rcases List.mem_cons.1 hmem with rfl | hmem
    · rw [apply_getElem?_of_not_mem hnodup.1, List.getElem?_set_self hi]
    · exact ih hnodup.2 hmem (by rwa [List.length_set])

/-! ## Blocks that are filled one after another -/

theorem flatMap_blocks (n elements : Nat) :
    ((List.range n).flatMap fun block => (List.range elements).map fun i => block * elements + i) = List.range (n * elements) := by
  induction n with
  | zero => simp
  | succ n ih =>
    rw [List.range_succ, List.flatMap_append, ih, Nat.succ_mul, List.range_add]
    simp

/-- Where each block is filled in the order of `positions`, every index is written once. -/
theorem blocks_perm {positions : List Nat} {n elements : Nat} (h : positions.Perm (List.range elements)) (value : Nat → Nat → ω) :
    (((List.range n).flatMap fun block => positions.map fun p => (block * elements + p, value block p)).map Prod.fst).Perm
      (List.range (n * elements)) := by
  rw [List.map_flatMap, ← flatMap_blocks]
  refine List.Perm.flatMap_left _ fun block _ => ?_
  rw [List.map_map]
  exact h.map _

/-- And the values end up at their places. -/
theorem apply_blocks {positions : List Nat} {n elements : Nat} (h : positions.Perm (List.range elements))
    (value : Nat → Nat → ω) (initial : ω) {block i : Nat} (hblock : block < n) (hi : i < elements) :
    (apply (List.replicate (n * elements) initial)
      ((List.range n).flatMap fun block => positions.map fun p => (block * elements + p, value block p)))[block * elements + i]? =
      some (value block i) := by
  refine apply_getElem? ((blocks_perm h value).nodup_iff.2 List.nodup_range) ?_ ?_
  · refine List.mem_flatMap.2 ⟨block, List.mem_range.2 hblock, List.mem_map.2 ⟨i, ?_, rfl⟩⟩
    exact h.mem_iff.2 (List.mem_range.2 hi)
  · rw [List.length_replicate]
    calc block * elements + i < block * elements + elements := Nat.add_lt_add_left hi _
      _ = (block + 1) * elements := (Nat.succ_mul _ _).symm
      _ ≤ n * elements := Nat.mul_le_mul_right _ hblock

end Tanpopo.Writes
