import Tanpopo.Distributed.Session
import Mathlib.Algebra.Order.BigOperators.Group.List
import Mathlib.Tactic.IntervalCases
/-!
# Rank 0 and the workers stay in step

The encoder of `execute` bounds an input by its bytes, the decoder of
`workerLoop` by its element count. A worker repeats rank 0's collectives for
every command exactly while each accepted input stays below the decoder's
bound; half-precision inputs between 128 MiB and 256 MiB do not.
-/

namespace Tanpopo.Distributed

/-! ## The header survives the sum -/

theorem zipWith_add_zeros (row : List Int32) (k : Nat) (h : row.length = k) :
    List.zipWith (· + ·) row (List.replicate k 0) = row := by
  induction row generalizing k with
  | nil => simp
  | cons x xs ih =>
    subst h
    simpa [List.replicate_succ] using ih xs.length rfl

theorem zeros_zipWith_add (row : List Int32) (k : Nat) (h : row.length = k) :
    List.zipWith (· + ·) (List.replicate k 0) row = row := by
  induction row generalizing k with
  | nil => simp
  | cons x xs ih =>
    subst h
    simpa [List.replicate_succ] using ih xs.length rfl

/-- Idle workers contribute zeros, so the sum is rank 0's header. -/
theorem groupSum_header (header : List Int32) (h : header.length = headerSize) (workers : Nat) :
    groupSum (header :: List.replicate workers (List.replicate headerSize 0)) = header := by
  have hfold : ∀ k, (List.replicate k (List.replicate headerSize (0 : Int32))).foldl
      (fun total row => List.zipWith (· + ·) total row) header = header := by
    intro k
    induction k with
    | zero => rfl
    | succ k ih => rw [List.replicate_succ, List.foldl_cons, zipWith_add_zeros header _ h, ih]
  simp only [groupSum, List.headD_cons, List.foldl_cons]
  rw [zeros_zipWith_add header _ rfl]
  exact hfold workers

/-! ## What the header says -/

/-- Writing the dimensions one by one from word `4 + k` on. -/
theorem foldl_set_dims (shape : List Nat) (k : Nat) (pre post : List Int32) (hpre : pre.length = 4 + k)
    (hpost : shape.length ≤ post.length) :
    (shape.zipIdx k).foldl (fun values d => values.set (4 + d.2) (Int32.ofNat d.1)) (pre ++ post) =
      pre ++ (shape.map Int32.ofNat ++ post.drop shape.length) := by
  induction shape generalizing k pre post with
  | nil => simp
  | cons d ds ih =>
    obtain ⟨x, post, rfl⟩ : ∃ x rest, post = x :: rest := by
      cases post with
      | nil => simp at hpost
      | cons x rest => exact ⟨x, rest, rfl⟩
    rw [List.zipIdx_cons, List.foldl_cons]
    have hset : (pre ++ x :: post).set (4 + k) (Int32.ofNat d) = (pre ++ [Int32.ofNat d]) ++ post := by
      rw [List.set_append_right _ _ (by omega), hpre]
      simp
    rw [hset, ih (k + 1) (pre ++ [Int32.ofNat d]) post (by simp; omega) (by simpa using hpost)]
    simp

/-- The header of an accepted input, word for word. -/
theorem executeHeader_eq (layer : Nat) (shape : List Nat) (dtype : Nat) (h : shape.length ≤ 8) :
    executeHeader layer shape dtype =
      [1, Int32.ofNat layer, Int32.ofNat shape.length, Int32.ofNat dtype] ++
        (shape.map Int32.ofNat ++ List.replicate (12 - shape.length) 0) := by
  have hvalues : ((((List.replicate headerSize (0 : Int32)).set 0 1).set 1 (Int32.ofNat layer)).set 2
      (Int32.ofNat shape.length)).set 3 (Int32.ofNat dtype) =
        [1, Int32.ofNat layer, Int32.ofNat shape.length, Int32.ofNat dtype] ++ List.replicate 12 0 := rfl
  unfold executeHeader
  rw [hvalues, foldl_set_dims shape 0 _ _ rfl (by simp; omega), List.drop_replicate]

theorem executeHeader_length (layer : Nat) (shape : List Nat) (dtype : Nat) (h : shape.length ≤ 8) :
    (executeHeader layer shape dtype).length = headerSize := by
  rw [executeHeader_eq layer shape dtype h]
  simp [headerSize]
  omega

theorem toInt_ofNat_of_le {n : Nat} (h : n ≤ 2147483647) : (Int32.ofNat n).toInt = n := by
  rw [Int32.toInt_ofNat_of_lt (by omega)]

theorem map_toInt_dims (shape : List Nat) (h : ∀ d ∈ shape, d ≤ 2147483647) :
    (shape.map Int32.ofNat).map Int32.toInt = shape.map Int.ofNat := by
  rw [List.map_map]
  exact List.map_congr_left fun d hd => toInt_ofNat_of_le (h d hd)

/-! ## The decoder's limit -/

theorem one_le_prod {shape : List Nat} (h : ∀ d ∈ shape, 0 < d) : 1 ≤ shape.prod :=
  List.one_le_prod_of_one_le fun d hd => h d hd

/-- The loop accepts a shape exactly when its element count is in bounds. -/
theorem withinLimit_iff (shape : List Nat) (elements : Nat) (h : ∀ d ∈ shape, 0 < d)
    (he : elements ≤ 64 * 1024 * 1024) :
    withinLimit elements (shape.map Int.ofNat) = true ↔ elements * shape.prod ≤ 64 * 1024 * 1024 := by
  induction shape generalizing elements with
  | nil => simpa [withinLimit] using he
  | cons d ds ih =>
    have hd : 0 < d := h d (by simp)
    have hds := one_le_prod fun x hx => h x (List.mem_cons_of_mem _ hx)
    have hdiv : (elements : Int) ≤ (64 * 1024 * 1024) / Int.ofNat d ↔ elements * d ≤ 64 * 1024 * 1024 := by
      rw [Int.le_ediv_iff_mul_le (by simpa using hd), Int.ofNat_eq_natCast]
      norm_cast
    have hmul : (elements : Int) * Int.ofNat d = ((elements * d : Nat) : Int) := by norm_cast
    simp only [List.map_cons, withinLimit, Bool.and_eq_true, decide_eq_true_eq, hdiv, hmul, List.prod_cons]
    rw [← mul_assoc]
    constructor
    · rintro ⟨⟨-, hle⟩, hrest⟩
      exact (ih _ (fun x hx => h x (List.mem_cons_of_mem _ hx)) hle).1 hrest
    · intro hle
      have hfirst : elements * d ≤ 64 * 1024 * 1024 :=
        (Nat.le_mul_of_pos_right _ hds).trans hle
      exact ⟨⟨by simpa using hd, hfirst⟩, (ih _ (fun x hx => h x (List.mem_cons_of_mem _ hx)) hfirst).2 hle⟩

/-! ## Every rank hands the same shape to the gather -/

theorem rowRange_count (output rank size : Nat) :
    (rowRange output rank size).count = Partition.count output size rank := by
  simp only [rowRange, RowRange.count, Partition.count]
  generalize output / size = base
  omega

theorem gatherShape_eq (layer : Layer) (size rank : Nat) (shape : List Nat) (hsize : 0 < size) :
    gatherShape layer size (shape.dropLast ++ [(rowRange layer.output rank size).count]) =
      Partition.stride layer.output size :: shape.dropLast.rotate 1 := by
  have hle := @Partition.count_le_stride layer.output size hsize rank
  unfold Partition.stride at hle ⊢
  simp only [gatherShape, Tensor.swapEnds_append, List.headD_cons, List.tail_cons, rowRange_count]
  split
  · rfl
  · rw [show Partition.count layer.output size rank = (layer.output + size - 1) / size by omega]

theorem product_rank (layer : Layer) (size rank : Nat) (shape : List Nat) (dtype : DType) (hsize : 0 < size) :
    product layer size rank shape dtype = product layer size 0 shape dtype := by
  unfold product productShape
  by_cases h : shape.getLast? = some layer.input
  · simp only [h, if_true, gatherShape_eq _ _ _ _ hsize]
  · simp only [h, if_false]

theorem product_not_throw (layer : Layer) (size rank : Nat) (shape : List Nat) (dtype : DType) :
    (product layer size rank shape dtype).ending.isThrow = false := by
  unfold product
  split <;> rfl

/-! ## One command -/

/-- What the guard of `execute` establishes. -/
structure Accepted (shape : List Nat) (dtype : DType) (index : Nat) : Prop where
  rank_pos : 1 ≤ shape.length
  rank_le : shape.length ≤ 8
  dims : ∀ d ∈ shape, 0 < d ∧ d ≤ 2147483647
  bytes : nbytes shape dtype ≤ 256 * 1024 * 1024
  index_lt : index < 3
  dtype_at : dtypes[index]? = some dtype

theorem accepts_spec {shape : List Nat} {dtype : DType} {index : Nat} (h : accepts shape dtype = some index) :
    Accepted shape dtype index := by
  unfold accepts at h
  split at h
  · rename_i hrank
    split at h
    · rename_i i hi
      split at h
      · rename_i hbounds
        obtain rfl : i = index := by simpa using h
        obtain ⟨hlt, hp, -⟩ := List.findIdx?_eq_some_iff_getElem.1 hi
        have heq : dtypes[i] = dtype := by simpa using hp
        exact ⟨hrank.1, hrank.2, hbounds.1, hbounds.2, hlt, by rw [List.getElem?_eq_getElem hlt, heq]⟩
      · cases h
    · cases h
  · cases h

/-- A header handed out for a shape and type is the one `execute` would build. -/
theorem header_spec {s s' : Session} {layer dtype : Nat} {shape : List Nat} {h : ControlHeader layer}
    (he : s.header layer shape dtype = some (s', h)) :
    h.array = executeHeader layer shape dtype ∧ s'.size = s.size ∧ s'.layers = s.layers := by
  have build : ∀ fits : layer ≤ 2147483647,
      (s.cache layer ⟨shape, dtype, executeHeader layer shape dtype, rfl, fits⟩,
        (⟨shape, dtype, executeHeader layer shape dtype, rfl, fits⟩ : ControlHeader layer)) = (s', h) →
      h.array = executeHeader layer shape dtype ∧ s'.size = s.size ∧ s'.layers = s.layers := by
    rintro fits heq
    cases heq
    exact ⟨rfl, rfl, rfl⟩
  unfold Session.header at he
  cases hc : s.controlHeaders layer with
  | none =>
    simp only [hc] at he
    split at he
    · exact build _ (by simpa using he)
    · cases he
  | some cached =>
    simp only [hc] at he
    split at he
    · rename_i hmatch
      obtain ⟨rfl, rfl⟩ : s = s' ∧ cached = h := by simpa using he
      exact ⟨by rw [cached.array_eq, hmatch.1, hmatch.2], rfl, rfl⟩
    · split at he
      · exact build _ (by simpa using he)
      · cases he

/-- A worker decodes rank 0's header to the same operation, unless the input
has too many elements. -/
theorem workerLoop_execute (s : Session) (rank : Nat) {layer index : Nat} {shape : List Nat} {dtype : DType}
    {l : Layer} (hl : s.layers[layer]? = some l) (hlayer : layer ≤ 2147483647) (ha : Accepted shape dtype index) :
    s.workerLoop rank (executeHeader layer shape index) =
      if elements shape ≤ 64 * 1024 * 1024 then
        ⟨.sum [headerSize] .int32 :: .sum shape dtype :: (product l s.size rank shape dtype).collectives,
          (product l s.size rank shape dtype).ending⟩
      else ⟨[.sum [headerSize] .int32], .threw "Worker 張量大小超限。"⟩ := by
  have hrank := ha.rank_pos
  have hrank' := ha.rank_le
  have hindex := ha.index_lt
  have w1 : (Int32.ofNat layer).toInt = layer := toInt_ofNat_of_le hlayer
  have w2 : (Int32.ofNat shape.length).toInt = shape.length := toInt_ofNat_of_le (by omega)
  have w3 : (Int32.ofNat index).toInt = index := toInt_ofNat_of_le (by omega)
  have hdims : ((shape.map Int32.ofNat ++ List.replicate (12 - shape.length) 0).take shape.length).map Int32.toInt =
      shape.map Int.ofNat := by
    rw [List.take_left' (by simp)]
    exact map_toInt_dims shape fun d hd => (ha.dims d hd).2
  have hlimit : withinLimit 1 (shape.map Int.ofNat) = true ↔ elements shape ≤ 64 * 1024 * 1024 := by
    simpa [elements] using withinLimit_iff shape 1 (fun d hd => (ha.dims d hd).1) (by decide)
  have hback : (shape.map Int.ofNat).map Int.toNat = shape := by simp [List.map_map, Function.comp_def]
  have word0 : (1 : Int32).toInt = 1 := by decide
  rw [executeHeader_eq layer shape index hrank']
  simp only [Session.workerLoop, List.cons_append, List.nil_append, List.getD_cons_zero, List.getD_cons_succ,
    List.drop_succ_cons, List.drop_zero, word0, w1, w2, w3, Int.toNat_natCast, hl, ha.dtype_at, hdims, hback]
  rw [if_neg (by decide), if_neg (by decide), if_pos trivial, if_pos (by omega)]
  by_cases hle : elements shape ≤ 64 * 1024 * 1024
  · rw [if_pos (hlimit.2 hle), if_pos hle]
  · rw [if_neg (mt hlimit.1 hle), if_neg hle]

theorem size_pos (s : Session) : 0 < s.size := Nat.lt_of_lt_of_le (by decide) s.two_le

theorem round_lockStep_iff (s : Session) {header : List Int32} (part : Part) (h : header.length = headerSize) :
    (s.round header part).LockStep ↔
      ∀ r < s.size - 1, s.workerLoop (r + 1) header = part ∧ (s.workerLoop (r + 1) header).ending.isThrow = false := by
  simp [Session.round, Round.LockStep, groupSum_header header h]

/-- The inputs the decoder accepts. -/
def Call.Fits : Call → Prop
  | .execute _ shape _ => elements shape ≤ 64 * 1024 * 1024
  | _ => True

theorem round_execute (s s' : Session) {layer : Nat} {shape : List Nat} {dtype : DType} {header : List Int32}
    {part : Part} (h : s.execute layer shape dtype = (s', .posted header part)) :
    (s'.round header part).LockStep ↔ elements shape ≤ 64 * 1024 * 1024 := by
  unfold Session.execute at h
  split at h
  · cases h
  · rename_i index hacc
    have ha := accepts_spec hacc
    split at h
    · rename_i l s'' hdr hl hh
      obtain ⟨harr, hsize, hlayers⟩ := header_spec hh
      obtain ⟨rfl, rfl, rfl⟩ : s'' = s' ∧ hdr.array = header ∧
          (⟨.sum [headerSize] .int32 :: .sum shape dtype :: (product l s.size 0 shape dtype).collectives,
            (product l s.size 0 shape dtype).ending⟩ : Part) = part := by simpa using h
      have hl' : s''.layers[layer]? = some l := by rw [hlayers]; exact hl
      rw [harr, round_lockStep_iff s'' _ (executeHeader_length layer shape index ha.rank_le)]
      simp only [workerLoop_execute s'' _ hl' hdr.layer_le ha, hsize, product_rank l s.size _ shape dtype (size_pos s)]
      by_cases hle : elements shape ≤ 64 * 1024 * 1024
      · simp only [hle, if_true, iff_true]
        exact fun r _ => ⟨trivial, product_not_throw l s.size 0 shape dtype⟩
      · simp only [hle, if_false, iff_false]
        intro hall
        have := (hall 0 (by have := s.two_le; omega)).2
        simp [Ending.isThrow] at this
    · cases h

/-- Every rank answers one, and the sum is the group size. -/
theorem health_posts (s : Session) :
    s.health = .posted ((List.replicate headerSize 0).set 0 2) ⟨[.sum [headerSize] .int32, .sum [] .int32], .running⟩ := by
  have hanswer : (groupSum (List.replicate s.size [1])).map Int32.toInt = [(s.size : Int)] := by
    have h2 := s.two_le
    have h8 := s.le_eight
    generalize s.size = n at h2 h8
    interval_cases n <;> decide
  simp only [Session.health, hanswer, if_true]

theorem round_health (s : Session) :
    (s.round ((List.replicate headerSize 0).set 0 2) ⟨[.sum [headerSize] .int32, .sum [] .int32], .running⟩).LockStep := by
  rw [round_lockStep_iff s _ rfl]
  exact fun _ _ => ⟨rfl, rfl⟩

theorem round_shutdown (s : Session) :
    (s.round (List.replicate headerSize 0) ⟨[.sum [headerSize] .int32], .returned⟩).LockStep := by
  rw [round_lockStep_iff s _ rfl]
  exact fun _ _ => ⟨rfl, rfl⟩

/-- One command is in lock step exactly when the decoder's limit admits it. -/
theorem round_call (s s' : Session) {c : Call} {header : List Int32} {part : Part}
    (h : s.call c = (s', .posted header part)) : (s'.round header part).LockStep ↔ c.Fits := by
  cases c with
  | execute layer shape dtype => exact round_execute s s' h
  | health =>
    rw [Session.call, health_posts] at h
    obtain ⟨rfl, rfl, rfl⟩ : s = s' ∧ _ = header ∧ _ = part := by simpa using h
    exact iff_of_true (round_health s) trivial
  | shutdown =>
    obtain ⟨rfl, rfl, rfl⟩ : s = s' ∧ _ = header ∧ _ = part := by
      simpa [Session.call, Session.shutdown] using h
    exact iff_of_true (round_shutdown s) trivial

/-! ## Whole sequences -/

/-- Single-precision inputs always fit: the two limits agree at four bytes. -/
theorem float32_fits {layer index : Nat} {shape : List Nat} (h : accepts shape .float32 = some index) :
    (Call.execute layer shape .float32).Fits := by
  have hbytes := (accepts_spec h).bytes
  simp only [nbytes, DType.size] at hbytes
  simp only [Call.Fits]
  omega

/-- Two ranks and one layer of width 16384. -/
def pair : Session where
  size := 2
  layers := [⟨4096, 16384, id⟩]
  controlHeaders := fun _ => none
  two_le := by decide
  le_eight := by decide
  admitted := by decide

end Tanpopo.Distributed
