import Tanpopo.FastGGUF.Container
import Mathlib.Data.List.Perm.Basic
import Mathlib.Data.Nat.Cast.Basic
import Mathlib.Data.Int.Cast.Lemmas
import Mathlib.Algebra.BigOperators.Group.List.Basic
import Mathlib.Algebra.Order.BigOperators.Group.List
/-!
# Untrusted containers

Whatever bytes are offered, `load` ends in a value or a thrown error, and an
accepted index names disjoint ranges of the file.
-/

namespace Tanpopo.FastGGUF
open Swift Outcome MLXArray

/-! ## Byte counts -/

theorem prod_dims {shape : List Int64} (h : Dims shape) : ((dims shape).prod : Int) = (shape.map Int64.toInt).prod := by
  induction shape with
  | nil => rfl
  | cons d ds ih =>
    have hd := h d (by simp)
    simp only [dims, List.map_cons, List.prod_cons, Nat.cast_mul] at ih ⊢
    rw [ih fun x hx => h x (List.mem_cons_of_mem _ hx), Int.toNat_of_nonneg hd.1]

/-- The running product is the product of the dimensions. -/
theorem checkedCount_some {count n : Int64} {shape : List Int64} (h : checkedCount count shape = some n) :
    Dims shape ∧ n.toInt = count.toInt * (shape.map Int64.toInt).prod := by
  induction shape generalizing count with
  | nil =>
    obtain rfl : count = n := by simpa [checkedCount] using h
    exact ⟨by simp [Dims], by simp⟩
  | cons d ds ih =>
    simp only [checkedCount] at h
    split at h
    · rename_i hd
      split at h
      · cases h
      · rename_i hover
        obtain ⟨hds, hn⟩ := ih h
        have hmul := multipliedReportingOverflow_toInt (Bool.eq_false_iff.2 hover)
        have hlo : 0 ≤ d.toInt := nonneg_iff.1 hd.1
        have hhi : d.toInt ≤ 2147483647 := Int64.le_iff_toInt_le.1 hd.2
        refine ⟨?_, ?_⟩
        · intro x hx
          rcases List.mem_cons.1 hx with rfl | hx
          · exact ⟨hlo, hhi⟩
          · exact hds x hx
        · rw [hn, hmul, List.map_cons, List.prod_cons, mul_assoc]
    · cases h

theorem toInt_size (d : DType) : (Int64.ofNat d.size).toInt = d.size := by
  have := d.size_le
  exact toInt_ofNat_of_lt (by omega)

theorem expectedByteCount_some {shape : List Int64} {dtype : DType} {bytes : Int64}
    (h : expectedByteCount shape dtype = some bytes) :
    Dims shape ∧ bytes.toInt = (shape.map Int64.toInt).prod * dtype.size := by
  simp only [expectedByteCount, Option.bind_eq_some_iff] at h
  obtain ⟨count, hcount, hbytes⟩ := h
  split at hbytes
  · cases hbytes
  · rename_i hover
    obtain ⟨hdims, hn⟩ := checkedCount_some hcount
    have hmul := multipliedReportingOverflow_toInt (Bool.eq_false_iff.2 hover)
    obtain rfl : _ = bytes := by simpa using hbytes
    rw [hmul, hn, toInt_size]
    simp [hdims]

theorem nbytes_of_expected {shape : List Int64} {dtype : DType} {bytes : Int64}
    (h : expectedByteCount shape dtype = some bytes) : (nbytes (dims shape) dtype : Int) = bytes.toInt := by
  obtain ⟨hdims, hbytes⟩ := expectedByteCount_some h
  rw [hbytes, nbytes, elements, Nat.cast_mul, prod_dims hdims]

/-! ## The index check -/

/-- Where the stored bytes of an entry begin in the file. -/
def Header.start (header : Header) (t : TensorDescriptor) : Int := header.payloadOffset.toInt + t.offset.toInt

def Header.stop (header : Header) (t : TensorDescriptor) : Int := header.start t + t.storedBytes.toInt

/-- What `validate` requires of an entry of element type `d` on its own. -/
structure Entry (header : Header) (fileSize : Int64) (t : TensorDescriptor) (d : DType) : Prop where
  name_ne : t.name ≠ ""
  offset_nonneg : 0 ≤ t.offset.toInt
  stored_nonneg : 0 ≤ t.storedBytes.toInt
  raw_nonneg : 0 ≤ t.rawBytes.toInt
  dtype : mlxDType t.dtype = ok d
  bytes : expectedByteCount t.shape d = some t.rawBytes
  encoding : t.encoding = "raw" ∨ t.encoding = "lzfse"
  raw_stored : t.encoding = "raw" → t.storedBytes = t.rawBytes
  lzfse_le : t.encoding = "lzfse" → t.rawBytes.toInt ≤ maximumCompressionBytes
  in_file : header.stop t ≤ fileSize.toInt
  aligned : t.encoding = "raw" → header.start t % 16 = 0

/-- What it requires after the entries scanned so far. -/
structure Passes (p : Platform) (header : Header) (fileSize : Int64) (scan : Scan) (t : TensorDescriptor)
    (d : DType) : Prop where
  entry : Entry header fileSize t d
  fresh : p.canonical t.name ∉ scan.names
  total_lt : scan.totalRawBytes.toInt + t.rawBytes.toInt < 2 ^ 63
  after_previous : scan.previousEnd.toInt ≤ header.start t

/-- The scan after an entry. -/
structure Advances (p : Platform) (header : Header) (scan : Scan) (t : TensorDescriptor) (scan' : Scan) : Prop where
  previousEnd : scan'.previousEnd.toInt = header.stop t
  totalRawBytes : scan'.totalRawBytes.toInt = scan.totalRawBytes.toInt + t.rawBytes.toInt
  names : scan'.names = p.canonical t.name :: scan.names

theorem canMap_iff {fileOffset : Int64} {dtype : DType} :
    canMap fileOffset dtype = true ↔ 0 ≤ fileOffset.toInt ∧ fileOffset.toInt % 16 = 0 := by
  have hmax : max requiredAlignment dtype.size = 16 := by
    have := dtype.size_le
    simp only [requiredAlignment]
    omega
  unfold canMap
  rw [hmax]
  split
  · rename_i h
    have hn := nonneg_iff.1 h
    rw [decide_eq_true_iff, ← Int64.toInt_inj, toInt_mod_of_nonneg hn]
    exact ⟨fun heq => ⟨hn, heq⟩, fun heq => heq.2⟩
  · rename_i h
    have hn : ¬ 0 ≤ fileOffset.toInt := fun hn => h (nonneg_iff.2 hn)
    simp [hn]

section Validate
variable {p : Platform} {header : Header} {fileSize : Int64}

/-- Both directions of one turn: what it checks and where it leaves the scan. -/
theorem validateTensor_ok_iff {scan scan' : Scan} {t : TensorDescriptor} (hpayload : 0 ≤ header.payloadOffset.toInt)
    (htotal : 0 ≤ scan.totalRawBytes.toInt) :
    validateTensor p header fileSize scan t = ok scan' ↔
      ∃ d, Passes p header fileSize scan t d ∧ Advances p header scan t scan' := by
  have hfile := Int64.bounds fileSize
  unfold validateTensor
  simp only [bind_eq_ok, guard_eq_ok, exists_const]
  constructor
  · -- The guards that passed say what an entry is; no sum overflowed, so it is exact.
    rintro ⟨⟨hname, hfresh⟩, ⟨hoffset, hstored, hraw⟩, hrest⟩
    cases hd : mlxDType t.dtype with
    | threw e => simp [hd] at hrest
    | trap => simp [hd] at hrest
    | ok d =>
      simp only [hd, bind_eq_ok, guard_eq_ok, exists_const] at hrest
      obtain ⟨hbytes, hencoding, hrs, hlz, ⟨hs, he, ht, hprev, -, hstop⟩, hmap, heq⟩ := hrest
      have hstart := addingReportingOverflow_toInt hs
      have hend := addingReportingOverflow_toInt he
      have htot := addingReportingOverflow_toInt ht
      have htlt := (addingReportingOverflow_eq_false.1 ht).2
      cases heq
      rw [Int64.le_iff_toInt_le, hstart] at hprev
      rw [Int64.le_iff_toInt_le, hend, hstart] at hstop
      refine ⟨d, ⟨⟨hname, nonneg_iff.1 hoffset, nonneg_iff.1 hstored, nonneg_iff.1 hraw, hd, hbytes, hencoding,
        ?_, ?_, hstop, ?_⟩, hfresh, htlt, hprev⟩, ⟨?_, htot, rfl⟩⟩
      · exact fun h => hrs.resolve_left (not_not.2 h)
      · intro h
        have hle := Int64.le_iff_toInt_le.1 (hlz.resolve_left (not_not.2 h))
        rwa [toInt_ofNat_of_lt (by decide)] at hle
      · intro h
        have hm := (canMap_iff.1 (hmap.resolve_left (not_not.2 h))).2
        rwa [hstart] at hm
      · exact hend.trans (by rw [hstart]; rfl)
  · -- An entry lies in the file, so none of the three sums overflows.
    rintro ⟨d, h, ha⟩
    have hentry := h.entry
    have hoff := hentry.offset_nonneg
    have hst := hentry.stored_nonneg
    have hrw := hentry.raw_nonneg
    have hin := hentry.in_file
    have htl := h.total_lt
    have hprev := h.after_previous
    simp only [Header.stop, Header.start] at hin hprev
    have hs := addingReportingOverflow_eq_false (a := header.payloadOffset) (b := t.offset).2 (by omega)
    have hstart := addingReportingOverflow_toInt hs
    have he := addingReportingOverflow_eq_false (a := (addingReportingOverflow header.payloadOffset t.offset).1)
      (b := t.storedBytes).2 (by rw [hstart]; omega)
    have hend := addingReportingOverflow_toInt he
    have ht := addingReportingOverflow_eq_false (a := scan.totalRawBytes) (b := t.rawBytes).2 (by omega)
    have htot := addingReportingOverflow_toInt ht
    refine ⟨⟨hentry.name_ne, h.fresh⟩, ⟨nonneg_iff.2 hoff, nonneg_iff.2 hst, nonneg_iff.2 hrw⟩, ?_⟩
    simp only [hentry.dtype, bind_eq_ok, guard_eq_ok, exists_const]
    refine ⟨hentry.bytes, hentry.encoding, ?_, ?_, ⟨hs, he, ht, ?_, ?_, ?_⟩, ?_, ?_⟩
    · exact or_iff_not_imp_left.2 fun hne => hentry.raw_stored (not_not.1 hne)
    · refine or_iff_not_imp_left.2 fun hne => Int64.le_iff_toInt_le.2 ?_
      rw [toInt_ofNat_of_lt (by decide)]
      exact hentry.lzfse_le (not_not.1 hne)
    · rw [Int64.le_iff_toInt_le, hstart]
      exact hprev
    · rw [Int64.le_iff_toInt_le, hend]
      omega
    · rw [Int64.le_iff_toInt_le, hend, hstart]
      exact hin
    · refine or_iff_not_imp_left.2 fun hne => canMap_iff.2 ?_
      rw [hstart]
      exact ⟨by omega, hentry.aligned (not_not.1 hne)⟩
    · obtain ⟨stop, total, names⟩ := scan'
      have hp := ha.previousEnd
      have htr := ha.totalRawBytes
      obtain rfl : names = _ := ha.names
      rw [Int64.eq_of_toInt (hend.trans (by rw [hp, hstart]; rfl)), Int64.eq_of_toInt (htot.trans htr.symm)]

/-- What a whole pass over `ts` requires, the scan standing at `scan`. -/
structure Scanned (p : Platform) (header : Header) (fileSize : Int64) (scan : Scan) (ts : List TensorDescriptor) :
    Prop where
  entries : ∀ t ∈ ts, ∃ d, Entry header fileSize t d
  ordered : ts.Pairwise fun a b => header.stop a ≤ header.start b
  after_previous : ∀ t ∈ ts, scan.previousEnd.toInt ≤ header.start t
  names : ts.Pairwise fun a b => p.canonical a.name ≠ p.canonical b.name
  fresh : ∀ t ∈ ts, p.canonical t.name ∉ scan.names
  total_lt : scan.totalRawBytes.toInt + (ts.map (·.rawBytes.toInt)).sum < 2 ^ 63

theorem sum_raw_nonneg {ts : List TensorDescriptor} (h : ∀ t ∈ ts, ∃ d, Entry header fileSize t d) :
    0 ≤ (ts.map (·.rawBytes.toInt)).sum := by
  apply List.sum_nonneg
  intro x hx
  obtain ⟨t, ht, rfl⟩ := List.mem_map.1 hx
  obtain ⟨d, hd⟩ := h t ht
  exact hd.raw_nonneg

/-- A pass that starts with an entry is that entry's turn and a pass over the rest. -/
theorem Scanned.cons_iff {scan scan' : Scan} {t : TensorDescriptor} {ts : List TensorDescriptor} {d : DType}
    (hp : Passes p header fileSize scan t d) (ha : Advances p header scan t scan') :
    Scanned p header fileSize scan (t :: ts) ↔ Scanned p header fileSize scan' ts := by
  have hstored := hp.entry.stored_nonneg
  have hprev := hp.after_previous
  have hend : scan.previousEnd.toInt ≤ scan'.previousEnd.toInt := by
    rw [ha.previousEnd, Header.stop]
    omega
  have htotal : scan.totalRawBytes.toInt + ((t :: ts).map (·.rawBytes.toInt)).sum =
      scan'.totalRawBytes.toInt + (ts.map (·.rawBytes.toInt)).sum := by
    rw [ha.totalRawBytes, List.map_cons, List.sum_cons, add_assoc]
  constructor
  · intro h
    obtain ⟨hord, hords⟩ := List.pairwise_cons.1 h.ordered
    obtain ⟨hname, hnames⟩ := List.pairwise_cons.1 h.names
    refine ⟨fun x hx => h.entries x (List.mem_cons_of_mem _ hx), hords, ?_, hnames, ?_, htotal ▸ h.total_lt⟩
    · intro x hx
      rw [ha.previousEnd]
      exact hord x hx
    · intro x hx
      rw [ha.names, List.mem_cons, not_or]
      exact ⟨(hname x hx).symm, h.fresh x (List.mem_cons_of_mem _ hx)⟩
  · intro h
    refine ⟨List.forall_mem_cons.2 ⟨⟨d, hp.entry⟩, h.entries⟩, List.pairwise_cons.2 ⟨?_, h.ordered⟩,
      List.forall_mem_cons.2 ⟨hprev, fun x hx => hend.trans (h.after_previous x hx)⟩,
      List.pairwise_cons.2 ⟨?_, h.names⟩, List.forall_mem_cons.2 ⟨hp.fresh, ?_⟩, htotal ▸ h.total_lt⟩
    · intro x hx
      rw [← ha.previousEnd]
      exact h.after_previous x hx
    · intro x hx heq
      exact h.fresh x hx (by rw [ha.names, heq]; exact List.mem_cons_self)
    · intro x hx hmem
      exact h.fresh x hx (by rw [ha.names]; exact List.mem_cons_of_mem _ hmem)

theorem Scanned.passes {scan : Scan} {t : TensorDescriptor} {ts : List TensorDescriptor}
    (h : Scanned p header fileSize scan (t :: ts)) : ∃ d, Passes p header fileSize scan t d := by
  obtain ⟨d, hd⟩ := h.entries t (by simp)
  have hrest := sum_raw_nonneg fun x hx => h.entries x (List.mem_cons_of_mem t hx)
  have htotal := h.total_lt
  rw [List.map_cons, List.sum_cons] at htotal
  exact ⟨d, hd, h.fresh t (by simp), by omega, h.after_previous t (by simp)⟩

/-- An entry that passes leaves a scan. -/
theorem Passes.advances {scan : Scan} {t : TensorDescriptor} {d : DType} (htotal : 0 ≤ scan.totalRawBytes.toInt)
    (hpayload : 0 ≤ header.payloadOffset.toInt) (h : Passes p header fileSize scan t d) :
    ∃ scan', Advances p header scan t scan' := by
  have hfile := Int64.bounds fileSize
  have hoff := h.entry.offset_nonneg
  have hst := h.entry.stored_nonneg
  have hin := h.entry.in_file
  have hraw := h.entry.raw_nonneg
  have htl := h.total_lt
  simp only [Header.stop, Header.start] at hin
  refine ⟨⟨header.payloadOffset + t.offset + t.storedBytes, scan.totalRawBytes + t.rawBytes,
    p.canonical t.name :: scan.names⟩, ?_, ?_, rfl⟩
  · have hstart : (header.payloadOffset + t.offset).toInt = header.payloadOffset.toInt + t.offset.toInt :=
      toInt_add_of_bounds (by omega) (by omega)
    rw [toInt_add_of_bounds (by omega) (by omega), hstart]
    rfl
  · exact toInt_add_of_bounds (by omega) (by omega)

/-- The loop of `validate` accepts exactly the lists its turns accept one after the other. -/
theorem foldlM_validateTensor {scan : Scan} {ts : List TensorDescriptor} (hpayload : 0 ≤ header.payloadOffset.toInt)
    (htotal : 0 ≤ scan.totalRawBytes.toInt) :
    (∃ scan', ts.foldlM (validateTensor p header fileSize) scan = ok scan') ↔ Scanned p header fileSize scan ts := by
  induction ts generalizing scan with
  | nil =>
    have := Int64.bounds scan.totalRawBytes
    refine ⟨fun _ => ⟨by simp, by simp, by simp, by simp, by simp, by simpa using this.2⟩, fun _ => ⟨scan, rfl⟩⟩
  | cons t ts ih =>
    have advanced {d : DType} {scan' : Scan} (hp : Passes p header fileSize scan t d)
        (ha : Advances p header scan t scan') : 0 ≤ scan'.totalRawBytes.toInt := by
      have := hp.entry.raw_nonneg
      rw [ha.totalRawBytes]
      omega
    constructor
    · rintro ⟨scan', h⟩
      rw [List.foldlM_cons, bind_eq_ok] at h
      obtain ⟨next, hstep, hrest⟩ := h
      obtain ⟨d, hp, ha⟩ := (validateTensor_ok_iff hpayload htotal).1 hstep
      exact (Scanned.cons_iff hp ha).2 ((ih (advanced hp ha)).1 ⟨scan', hrest⟩)
    · intro h
      obtain ⟨d, hp⟩ := h.passes
      obtain ⟨next, ha⟩ := hp.advances htotal hpayload
      obtain ⟨scan', hrest⟩ := (ih (advanced hp ha)).2 ((Scanned.cons_iff hp ha).1 h)
      refine ⟨scan', ?_⟩
      rw [List.foldlM_cons, (validateTensor_ok_iff hpayload htotal).2 ⟨d, hp, ha⟩]
      exact hrest

theorem validate_ok_iff (hpayload : 0 ≤ header.payloadOffset.toInt) :
    validate p header fileSize = ok () ↔
      Scanned p header fileSize ⟨header.payloadOffset, 0, []⟩ (sortedByOffset header.tensors) := by
  rw [← foldlM_validateTensor hpayload (by simp)]
  simp [validate, bind_eq_ok]

end Validate

/-! ## The accepted index -/

/-- What an accepted index promises about the file. -/
structure HeaderSound (p : Platform) (header : Header) (fileSize : Int64) : Prop where
  in_file : ∀ t ∈ header.tensors, header.payloadOffset.toInt ≤ header.start t ∧ header.start t ≤ header.stop t ∧
    header.stop t ≤ fileSize.toInt
  disjoint : header.tensors.Pairwise fun a b => header.stop a ≤ header.start b ∨ header.stop b ≤ header.start a
  names : header.tensors.Pairwise fun a b => p.canonical a.name ≠ p.canonical b.name
  rawBytes : ∀ t ∈ header.tensors, ∃ d, mlxDType t.dtype = ok d ∧
    t.rawBytes.toInt = (t.shape.map Int64.toInt).prod * d.size

theorem sortedByOffset_perm (tensors : List TensorDescriptor) : (sortedByOffset tensors).Perm tensors :=
  List.mergeSort_perm _ _

section Accepted
variable {p : Platform} {header : Header} {fileSize : Int64}

theorem Scanned.headerSound (h : Scanned p header fileSize ⟨header.payloadOffset, 0, []⟩ (sortedByOffset header.tensors)) :
    HeaderSound p header fileSize := by
  have hperm := sortedByOffset_perm header.tensors
  refine ⟨?_, ?_, ?_, ?_⟩
  · intro t ht
    obtain ⟨d, hd⟩ := h.entries t (hperm.mem_iff.2 ht)
    have hstored := hd.stored_nonneg
    exact ⟨h.after_previous t (hperm.mem_iff.2 ht), by simp only [Header.stop]; omega, hd.in_file⟩
  · exact (hperm.pairwise_iff fun hab => hab.symm).1 (h.ordered.imp fun hab => .inl hab)
  · exact (hperm.pairwise_iff fun hab => hab.symm).1 h.names
  · intro t ht
    obtain ⟨d, hd⟩ := h.entries t (hperm.mem_iff.2 ht)
    exact ⟨d, hd.dtype, (expectedByteCount_some hd.bytes).2⟩

end Accepted

/-! ## No step traps -/

theorem readExact_safe (handle : FileHandle) (count : Int64) :
    (handle.readExact count).Safe fun r => r.1.length = count.toInt.toNat :=
  (safe_guard _ _).bind fun _ _ => (safe_guard _ _).bind fun _ h => h

theorem decodeLZFSE_safe (p : Platform) (source : Data) {expectedBytes : Int64} (name : String)
    (hnonneg : 0 ≤ expectedBytes.toInt) :
    (decodeLZFSE p source expectedBytes name).Safe fun data => data.length = expectedBytes.toInt.toNat := by
  unfold decodeLZFSE
  split
  · exact (safe_guard _ _).bind fun _ h => h
  · rename_i hpos
    have hle : ¬ 0 < expectedBytes.toInt := fun hlt => hpos (pos_iff.2 hlt)
    rw [safe_ok, List.length_nil]
    omega

theorem readHeader_safe (p : Platform) (file : File) (key : String) :
    (readHeader p file key).Safe fun header => header.payloadOffset.toInt = headerReserveBytes := by
  unfold readHeader
  refine (readExact_safe _ _).bind fun start _ => (safe_guard _ _).bind fun _ _ =>
    (safe_guard _ _).bind fun _ hlength => ?_
  have hlt : (decodeLittleEndianUInt64 (start.1.drop magic.length)).toNat < 2 ^ 63 := by
    have hle := UInt64.le_iff_toNat_le.1 hlength.2.2
    rw [UInt64.toNat_ofNat_of_lt' (by decide)] at hle
    omega
  refine (safe_of_eq_ok (P := fun _ => True) (toInt64_eq_ok hlt) trivial).bind fun count _ => ?_
  refine (readExact_safe _ _).bind fun headerData _ => (safe_ofOption _ _).bind fun header _ =>
    (safe_guard _ _).bind fun _ hheader => ?_
  rw [safe_ok, hheader.2.2.1]
  exact toInt_ofNat_of_lt (by decide)

/-- The bytes of an entry fit an `MLXArray` of its shape. -/
theorem ofData_eq_ok {ε : Type} {shape : List Int64} {dtype : DType} {bytes : Int64} {data : Data}
    (h : expectedByteCount shape dtype = some bytes) (hlen : data.length = bytes.toInt.toNat) :
    ∃ a : MLXArray, (ofData data shape dtype : Outcome ε MLXArray) = ok a ∧ a.shape = dims shape ∧ a.dtype = dtype ∧
      a.data = data := by
  have hn := nbytes_of_expected h
  have hb := Int64.bounds bytes
  exact ⟨_, ofData_of_fits ⟨(expectedByteCount_some h).1, by omega, by omega⟩, rfl, rfl, rfl⟩

theorem zeros_eq_ok {ε : Type} {shape : List Int64} {dtype : DType} {bytes : Int64}
    (h : expectedByteCount shape dtype = some bytes) :
    ∃ a : MLXArray, (MLXArray.zeros shape dtype : Outcome ε MLXArray) = ok a ∧ a.shape = dims shape ∧ a.dtype = dtype ∧
      a.data = List.replicate bytes.toInt.toNat 0 := by
  have hn := nbytes_of_expected h
  have hcount : nbytes (dims shape) dtype = bytes.toInt.toNat := by omega
  have hlen : (List.replicate (nbytes (dims shape) dtype) (0 : UInt8)).length = bytes.toInt.toNat := by
    rw [List.length_replicate, hcount]
  obtain ⟨a, ha, hshape, hdtype, hdata⟩ := ofData_eq_ok (ε := ε) h hlen
  exact ⟨a, ha, hshape, hdtype, by rw [hdata, hcount]⟩

/-- The bytes `count` long at `offset` of a file that holds them. -/
theorem slice_length {contents : Data} {offset count : Int} (hoffset : 0 ≤ offset) (hcount : 0 ≤ count)
    (h : offset + count ≤ contents.length) : ((contents.drop offset.toNat).take count.toNat).length = count.toNat := by
  rw [List.length_take, List.length_drop]
  omega

theorem fileArray_eq_ok (contents : Data) (offset : Int64) {bytes : Int64} {shape : List Int64} {dtype : DType}
    (h : expectedByteCount shape dtype = some bytes) (hoffset : 0 ≤ offset.toInt) (hbytes : 0 ≤ bytes.toInt)
    (hfile : offset.toInt + bytes.toInt ≤ contents.length) :
    ∃ a : MLXArray, fileArray contents offset shape dtype = ok a ∧ a.shape = dims shape ∧ a.dtype = dtype ∧
      a.data = (contents.drop offset.toInt.toNat).take bytes.toInt.toNat := by
  obtain ⟨z, hz, hshape, -, -⟩ := zeros_eq_ok (ε := Failure) h
  have hn : nbytes z.shape dtype = bytes.toInt.toNat := by
    have := nbytes_of_expected h
    rw [hshape]
    omega
  obtain ⟨a, ha, hrest⟩ := ofData_eq_ok (ε := Failure) h (slice_length hoffset hbytes hfile)
  refine ⟨a, ?_, hrest⟩
  unfold fileArray
  rw [hz, ok_bind, hn, ha]

section Mapping
variable {p : Platform} {contents : Data} {offset bytes : Int64} {shape : List Int64} {dtype : DType}

/-- Length of the mapping that covers a range: from the page it starts in, in whole pages. -/
def mappedLength (pageSize offset bytes : Int) : Int := (offset % pageSize + bytes + (pageSize - 1)) / pageSize * pageSize

theorem roundedToPages_eq (required : Int64) {pageSize : Int64} (hrequired : 0 < required.toInt) (hpage : 0 < pageSize.toInt) :
    if (required.toInt + (pageSize.toInt - 1)) / pageSize.toInt * pageSize.toInt ≤ 2147483647 then
      ∃ length, roundedToPages required pageSize = ok length
    else roundedToPages required pageSize = threw (.mapping .rangeTooLarge) := by
  have hp := Int64.bounds pageSize
  have hone : (1 : Int64).toInt = 1 := Int64.toInt_one
  have hslack := toInt_sub_of_bounds (a := pageSize) (b := 1) (by omega) (by omega)
  -- The rounded length is at least what is required, and less than a page more.
  have hceil : required.toInt ≤ (required.toInt + (pageSize.toInt - 1)) / pageSize.toInt * pageSize.toInt ∧
      (required.toInt + (pageSize.toInt - 1)) / pageSize.toInt * pageSize.toInt ≤
        required.toInt + (pageSize.toInt - 1) := by
    have hdiv := Int.ediv_mul_add_emod (required.toInt + (pageSize.toInt - 1)) pageSize.toInt
    have hlt := Int.emod_lt_of_pos (required.toInt + (pageSize.toInt - 1)) hpage
    have hnn := Int.emod_nonneg (required.toInt + (pageSize.toInt - 1)) hpage.ne'
    omega
  by_cases hover : required.toInt + (pageSize.toInt - 1) < 2 ^ 63
  · have hflag := addingReportingOverflow_eq_false (a := required) (b := pageSize - 1).2 (by omega)
    have hsum := addingReportingOverflow_toInt hflag
    have hdiv := toInt_div_of_nonneg (a := (addingReportingOverflow required (pageSize - 1)).1) (b := pageSize)
      (by omega) hpage
    rw [hsum, hslack, hone] at hdiv
    have hprod := toInt_mul_of_bounds (a := (addingReportingOverflow required (pageSize - 1)).1 / pageSize)
      (b := pageSize) (by rw [hdiv]; omega) (by rw [hdiv]; omega)
    have hmul := mul_ok (ε := Failure) (a := (addingReportingOverflow required (pageSize - 1)).1 / pageSize)
      (b := pageSize) (by rw [hdiv]; omega) (by rw [hdiv]; omega)
    rw [hdiv] at hprod
    unfold roundedToPages
    rw [sub_ok (a := pageSize) (b := 1) (by omega) (by omega), ok_bind]
    dsimp only
    rw [guard_of hflag, ok_bind, hmul, ok_bind]
    have hbounds : 0 < (addingReportingOverflow required (pageSize - 1)).1 / pageSize * pageSize ∧
        (addingReportingOverflow required (pageSize - 1)).1 / pageSize * pageSize ≤ 2147483647 ↔
          (required.toInt + (pageSize.toInt - 1)) / pageSize.toInt * pageSize.toInt ≤ 2147483647 := by
      rw [pos_iff, Int64.le_iff_toInt_le, hprod, show (2147483647 : Int64).toInt = 2147483647 from rfl]
      omega
    split
    · rename_i hle
      exact ⟨_, by rw [guard_of (hbounds.2 hle), ok_bind]⟩
    · rename_i hle
      rw [guard_of_not (fun h => hle (hbounds.1 h)), threw_bind]
  · have hflag : (addingReportingOverflow required (pageSize - 1)).2 = true := by
      rw [← Bool.not_eq_false, addingReportingOverflow_eq_false]
      omega
    have hr := Int64.bounds required
    rw [if_neg]
    · unfold roundedToPages
      rw [sub_ok (a := pageSize) (b := 1) (by omega) (by omega), ok_bind]
      dsimp only
      rw [guard_of_not (by rw [hflag]; decide), threw_bind]
    · intro hle
      -- A sum past the range of words is also past the limit of the mapping, of which it has at least a page.
      have hpages : pageSize.toInt ≤ (required.toInt + (pageSize.toInt - 1)) / pageSize.toInt * pageSize.toInt := by
        have hq : 1 ≤ (required.toInt + (pageSize.toInt - 1)) / pageSize.toInt :=
          Int.le_ediv_of_mul_le hpage (by omega)
        have := Int.mul_le_mul_of_nonneg_right hq hpage.le
        omega
      omega

/-- The range checks of `mapTensor` on a range of the file. -/
theorem mapTensor_range (hcontents : contents.length < 2 ^ 63) (hoffset : 0 ≤ offset.toInt) (hbytes : 0 < bytes.toInt)
    (hfile : offset.toInt + bytes.toInt ≤ contents.length) :
    (0 ≤ offset ∧ 0 ≤ bytes) ∧ bytes ≠ 0 ∧ (0 ≤ offset + bytes ∧ offset + bytes ≤ Int64.ofNat contents.length) := by
  have hsize : (Int64.ofNat contents.length).toInt = contents.length := toInt_ofNat_of_lt hcontents
  have hstop := toInt_add_of_bounds (a := offset) (b := bytes) (by omega) (by omega)
  refine ⟨⟨nonneg_iff.2 hoffset, nonneg_iff.2 hbytes.le⟩, ?_, nonneg_iff.2 (by omega), ?_⟩
  · rintro rfl
    simp at hbytes
  · rw [Int64.le_iff_toInt_le]
    omega

/-- Mapping a non-empty range of the file gives its bytes, unless the mapping is too long. -/
theorem mapTensor_eq (hcontents : contents.length < 2 ^ 63) (h : expectedByteCount shape dtype = some bytes)
    (hoffset : 0 ≤ offset.toInt) (hbytes : 0 < bytes.toInt) (hfile : offset.toInt + bytes.toInt ≤ contents.length)
    (haligned : offset.toInt % 16 = 0) (hpage : 0 < p.pageSize.toInt) :
    if mappedLength p.pageSize.toInt offset.toInt bytes.toInt ≤ 2147483647 then
      ∃ a : MLXArray, mapTensor p contents offset bytes shape dtype = ok a ∧ a.shape = dims shape ∧ a.dtype = dtype ∧
        a.data = (contents.drop offset.toInt.toNat).take bytes.toInt.toNat
    else mapTensor p contents offset bytes shape dtype = threw (.mapping .rangeTooLarge) := by
  have hb := Int64.bounds bytes
  have hp := Int64.bounds p.pageSize
  obtain ⟨hrange, hne, hstop⟩ := mapTensor_range hcontents hoffset hbytes hfile
  have hmod := toInt_mod_of_nonneg (b := p.pageSize) hoffset
  have hmod0 := Int.emod_nonneg offset.toInt hpage.ne'
  have hmodlt := Int.emod_lt_of_pos offset.toInt hpage
  have hmodle : offset.toInt % p.pageSize.toInt ≤ offset.toInt := by
    have := Int.mul_ediv_add_emod offset.toInt p.pageSize.toInt
    have := Int.mul_nonneg hpage.le (Int.ediv_nonneg hoffset hpage.le)
    omega
  -- the range starts `lead` bytes into its first page
  have hstart := toInt_sub_of_bounds (a := offset) (b := offset % p.pageSize) (by omega) (by omega)
  have hlead := toInt_sub_of_bounds (a := offset) (b := offset - offset % p.pageSize) (by omega) (by omega)
  have hrequired := toInt_add_of_bounds (a := offset - (offset - offset % p.pageSize)) (b := bytes)
    (by omega) (by omega)
  have hdata : (contents.drop (offset - offset % p.pageSize).toInt.toNat).drop
      (offset - (offset - offset % p.pageSize)).toInt.toNat = contents.drop offset.toInt.toNat := by
    rw [List.drop_drop]
    congr 1
    omega
  have hcan : canMap offset dtype = true := canMap_iff.2 ⟨hoffset, haligned⟩
  unfold mapTensor mappedLength
  rw [guard_of hrange, ok_bind, guard_of h, ok_bind, if_neg hne, add_ok (a := offset) (b := bytes) (by omega) (by omega),
    ok_bind]
  dsimp only
  rw [guard_of hstop, ok_bind, guard_of (pos_iff.2 hpage), ok_bind, if_pos hcan,
    sub_ok (a := offset) (b := offset % p.pageSize) (by omega) (by omega), ok_bind,
    sub_ok (a := offset) (b := offset - offset % p.pageSize) (by omega) (by omega), ok_bind,
    add_ok (a := offset - (offset - offset % p.pageSize)) (b := bytes) (by omega) (by omega), ok_bind, hdata]
  have hround := roundedToPages_eq (offset - (offset - offset % p.pageSize) + bytes) (by omega) hpage
  rw [hrequired, hlead, hstart, hmod, Int.sub_sub_self] at hround
  split at hround
  · rename_i hle
    obtain ⟨length, hlength⟩ := hround
    rw [if_pos hle, hlength, ok_bind]
    exact ofData_eq_ok h (slice_length hoffset hbytes.le hfile)
  · rename_i hle
    rw [if_neg hle, hround, threw_bind]

/-- Without a page size there is no mapping. -/
theorem mapTensor_unsupported (hcontents : contents.length < 2 ^ 63) (h : expectedByteCount shape dtype = some bytes)
    (hoffset : 0 ≤ offset.toInt) (hbytes : 0 < bytes.toInt) (hfile : offset.toInt + bytes.toInt ≤ contents.length)
    (hpage : ¬ 0 < p.pageSize.toInt) :
    mapTensor p contents offset bytes shape dtype = threw (.mapping .unsupportedPlatform) := by
  obtain ⟨hrange, hne, hstop⟩ := mapTensor_range hcontents hoffset hbytes hfile
  unfold mapTensor
  rw [guard_of hrange, ok_bind, guard_of h, ok_bind, if_neg hne, add_ok (a := offset) (b := bytes) (by omega) (by omega),
    ok_bind]
  dsimp only
  rw [guard_of hstop, ok_bind, guard_of_not (fun hlt => hpage (pos_iff.1 hlt)), threw_bind]

end Mapping

section Load
variable {p : Platform} {mode : Mode} {file : File} {header : Header} {t : TensorDescriptor} {d : DType}

theorem File.size_toInt (file : File) : file.size.toInt = file.contents.length := toInt_ofNat_of_lt file.contents_lt

/-- The stored bytes of an entry. -/
def Header.stored (header : Header) (contents : Data) (t : TensorDescriptor) : Data :=
  (contents.drop (header.start t).toNat).take t.storedBytes.toInt.toNat

theorem readExact_eq (contents : Data) {offset count : Int64} (hoffset : 0 ≤ offset.toInt) (hcount : 0 ≤ count.toInt)
    (h : offset.toInt + count.toInt ≤ contents.length) :
    ∃ after, (FileHandle.mk contents offset.toUInt64.toNat).readExact count =
      ok ((contents.drop offset.toInt.toNat).take count.toInt.toNat, after) := by
  have hlen := slice_length hoffset hcount h
  refine ⟨⟨contents, offset.toInt.toNat + count.toInt.toNat⟩, ?_⟩
  unfold FileHandle.readExact
  dsimp only [FileHandle.seek]
  rw [guard_of (nonneg_iff.2 hcount), ok_bind, toUInt64_toNat hoffset, guard_of hlen, ok_bind]

/-- A mapped entry stays below the length of one mapping. -/
def MapFits (p : Platform) (mode : Mode) (header : Header) (t : TensorDescriptor) : Prop :=
  mode.distributed = false → mode.memoryMapped = true → t.rawBytes ≠ 0 →
    0 < p.pageSize.toInt ∧ mappedLength p.pageSize.toInt (header.start t) t.rawBytes.toInt ≤ 2147483647

/-- What the turn of an entry returns: an array of these bytes, and the loop state carried on. -/
structure Loads (s : Loading) (t : TensorDescriptor) (d : DType) (data : Data) (scratch : Data) (r : MLXArray × Loading) :
    Prop where
  shape : r.1.shape = dims t.shape
  dtype : r.1.dtype = d
  data : r.1.data = data
  arrays : r.2.arrays = s.arrays
  rawBytes : r.2.rawBytes = s.rawBytes
  scratch : r.2.scratch = scratch

section Entries
variable (h : Entry header file.size t d) (hpayload : 0 ≤ header.payloadOffset.toInt) {absoluteOffset : Int64}
  (habsolute : absoluteOffset.toInt = header.start t) (s : Loading)
include h hpayload habsolute

omit habsolute in
theorem Entry.range : 0 ≤ header.start t ∧ header.start t + t.storedBytes.toInt ≤ file.contents.length := by
  have hoff := h.offset_nonneg
  have hin := h.in_file
  rw [File.size_toInt] at hin
  simp only [Header.stop, Header.start] at hin ⊢
  omega

/-- A raw entry is loaded as its stored bytes, in every mode in which its mapping fits. -/
theorem loadRaw_ok (hraw : t.encoding = "raw") (hfits : MapFits p mode header t) :
    ∃ r, loadRaw p mode file t d absoluteOffset s = ok r ∧
      Loads s t d (header.stored file.contents t) s.scratch r := by
  obtain ⟨hstart, hrange⟩ := h.range hpayload
  have hstored := h.raw_stored hraw
  have hnonneg := h.raw_nonneg
  have hbytes := h.bytes
  rw [hstored] at hrange
  rw [Header.stored, hstored]
  unfold loadRaw
  by_cases hzero : t.rawBytes = 0
  · obtain ⟨a, ha, hshape, hdtype, hdata⟩ := zeros_eq_ok (ε := Failure) hbytes
    rw [if_pos hzero, ha]
    exact ⟨_, rfl, hshape, hdtype, by rw [hdata, hzero]; rfl, rfl, rfl, rfl⟩
  · rw [if_neg hzero]
    by_cases hdist : mode.distributed = true
    · obtain ⟨a, ha, hshape, hdtype, hdata⟩ := fileArray_eq_ok file.contents absoluteOffset hbytes (habsolute ▸ hstart) hnonneg
        (habsolute ▸ hrange)
      rw [if_pos hdist, ha]
      exact ⟨_, rfl, hshape, hdtype, by rw [hdata, habsolute], rfl, rfl, rfl⟩
    · rw [if_neg hdist]
      have hpos : 0 < t.rawBytes.toInt := by
        have hne : t.rawBytes.toInt ≠ 0 := fun heq => hzero (Int64.eq_of_toInt heq)
        omega
      by_cases hmapped : mode.memoryMapped = true
      · obtain ⟨hpage, hlength⟩ := hfits (Bool.eq_false_iff.2 hdist) hmapped hzero
        have hmap := mapTensor_eq (p := p) file.contents_lt hbytes (habsolute ▸ hstart) hpos (habsolute ▸ hrange)
          (habsolute ▸ h.aligned hraw) hpage
        rw [if_pos (habsolute ▸ hlength)] at hmap
        obtain ⟨a, ha, hshape, hdtype, hdata⟩ := hmap
        rw [if_pos hmapped, ha]
        exact ⟨_, rfl, hshape, hdtype, by rw [hdata, habsolute], rfl, rfl, rfl⟩
      · obtain ⟨after, hread⟩ := readExact_eq file.contents (habsolute ▸ hstart) hnonneg
          (habsolute ▸ hrange)
        obtain ⟨a, ha, hshape, hdtype, hdata⟩ := ofData_eq_ok (ε := Failure) hbytes
          (slice_length hstart hnonneg hrange)
        rw [if_neg hmapped, toUInt64_eq_ok (habsolute ▸ hstart), ok_bind, hread, ok_bind, habsolute]
        dsimp only
        rw [ha]
        exact ⟨_, rfl, hshape, hdtype, hdata, rfl, rfl, rfl⟩

/-- Otherwise the mapping is refused. -/
theorem loadRaw_threw (hraw : t.encoding = "raw") (hfits : ¬ MapFits p mode header t) :
    ∃ e, loadRaw p mode file t d absoluteOffset s = threw e := by
  obtain ⟨hstart, hrange⟩ := h.range hpayload
  rw [h.raw_stored hraw] at hrange
  have hnonneg := h.raw_nonneg
  simp only [MapFits, not_forall] at hfits
  obtain ⟨hdist, hmapped, hzero, hlong⟩ := hfits
  have hpos : 0 < t.rawBytes.toInt := by
    have hne : t.rawBytes.toInt ≠ 0 := fun heq => hzero (Int64.eq_of_toInt heq)
    omega
  unfold loadRaw
  rw [if_neg hzero, hdist, if_neg Bool.false_ne_true, if_pos hmapped]
  by_cases hpage : 0 < p.pageSize.toInt
  · have hmap := mapTensor_eq (p := p) file.contents_lt h.bytes (habsolute ▸ hstart) hpos (habsolute ▸ hrange)
      (habsolute ▸ h.aligned hraw) hpage
    rw [if_neg (habsolute ▸ fun hle => hlong ⟨hpage, hle⟩)] at hmap
    rw [hmap]
    exact ⟨_, rfl⟩
  · rw [mapTensor_unsupported file.contents_lt h.bytes (habsolute ▸ hstart) hpos (habsolute ▸ hrange) hpage]
    exact ⟨_, rfl⟩

/-- The stored bytes of a compressed entry are read, and then decoded. -/
theorem loadCompressed_eq (mode : Mode) {decoded : Outcome Failure Data}
    (hdecode : decodeLZFSE p (header.stored file.contents t) t.rawBytes t.name = decoded) :
    loadCompressed p mode file t d absoluteOffset s = decoded >>= fun decoded =>
      (if mode.distributed then do
        let offset ← toInt64 (UInt64.ofNat s.scratch.length)
        let value ← fileArray (s.scratch ++ decoded) offset t.shape d
        .ok (value, { s with
          compressedTensorCount := s.compressedTensorCount + 1
          scratch := s.scratch ++ decoded })
      else do
        let value ← MLXArray.ofData decoded t.shape d
        .ok (value, { s with compressedTensorCount := s.compressedTensorCount + 1 })) := by
  obtain ⟨hstart, hrange⟩ := h.range hpayload
  obtain ⟨after, hread⟩ := readExact_eq file.contents (habsolute ▸ hstart) h.stored_nonneg
    (habsolute ▸ hrange)
  rw [habsolute] at hread
  unfold loadCompressed
  rw [toUInt64_eq_ok (habsolute ▸ hstart), ok_bind, hread, ok_bind, ← hdecode]
  rfl

/-- A compressed entry is loaded as what its stored bytes decode to. -/
theorem loadCompressed_ok (mode : Mode) {decoded : Data}
    (hdecode : decodeLZFSE p (header.stored file.contents t) t.rawBytes t.name = ok decoded)
    (hscratch : s.scratch.length + t.rawBytes.toInt < 2 ^ 63) :
    ∃ r scratch, loadCompressed p mode file t d absoluteOffset s = ok r ∧ Loads s t d decoded scratch r ∧
      scratch.length ≤ s.scratch.length + t.rawBytes.toInt := by
  have hnonneg := h.raw_nonneg
  have hlen := (decodeLZFSE_safe p (header.stored file.contents t) t.name hnonneg).of_eq_ok hdecode
  rw [loadCompressed_eq h hpayload habsolute s mode hdecode, ok_bind]
  by_cases hdist : mode.distributed = true
  · have hword : (UInt64.ofNat s.scratch.length).toNat = s.scratch.length := UInt64.toNat_ofNat_of_lt' (by
      change _ < 2 ^ 64
      omega)
    have hposition : (UInt64.ofNat s.scratch.length).toInt64.toInt = s.scratch.length := by
      rw [toInt64_toInt (by omega), hword]
    obtain ⟨a, ha, hshape, hdtype, hdata⟩ := fileArray_eq_ok (s.scratch ++ decoded)
      (UInt64.ofNat s.scratch.length).toInt64 h.bytes (by omega) hnonneg
      (by rw [List.length_append, hposition]; omega)
    rw [if_pos hdist, toInt64_eq_ok (by omega), ok_bind, ha]
    refine ⟨_, _, rfl, ⟨hshape, hdtype, ?_, rfl, rfl, rfl⟩, ?_⟩
    · rw [hdata, hposition, Int.toNat_natCast, List.drop_left, ← hlen, List.take_length]
    · dsimp only
      rw [List.length_append]
      omega
  · obtain ⟨a, ha, hshape, hdtype, hdata⟩ := ofData_eq_ok (ε := Failure) h.bytes hlen
    rw [if_neg hdist, ha]
    exact ⟨_, _, rfl, ⟨hshape, hdtype, hdata, rfl, rfl, rfl⟩, by dsimp only; omega⟩

theorem loadCompressed_threw (mode : Mode) {e : Failure}
    (hdecode : decodeLZFSE p (header.stored file.contents t) t.rawBytes t.name = threw e) :
    loadCompressed p mode file t d absoluteOffset s = threw e := by
  rw [loadCompressed_eq h hpayload habsolute s mode hdecode, threw_bind]

end Entries

/-- The loop of `load` before the entries `rest`. -/
structure LoadInv (header : Header) (file : File) (s : Loading) (rest : List TensorDescriptor) : Prop where
  entries : ∀ t ∈ rest, ∃ d, Entry header file.size t d
  raw_nonneg : 0 ≤ s.rawBytes.toInt
  total_lt : s.rawBytes.toInt + (rest.map (·.rawBytes.toInt)).sum < 2 ^ 63
  scratch_le : s.scratch.length ≤ s.rawBytes.toInt

theorem LoadInv.start_ok {s : Loading} {rest : List TensorDescriptor} (h : LoadInv header file s (t :: rest))
    (hpayload : 0 ≤ header.payloadOffset.toInt) :
    (add header.payloadOffset t.offset : Outcome Failure Int64) = ok (header.payloadOffset + t.offset) ∧
      (header.payloadOffset + t.offset).toInt = header.start t := by
  obtain ⟨d, hd⟩ := h.entries t (by simp)
  have hoff := hd.offset_nonneg
  have hstored := hd.stored_nonneg
  have hin := hd.in_file
  have hfile := Int64.bounds file.size
  simp only [Header.stop, Header.start] at hin ⊢
  exact ⟨add_ok (by omega) (by omega), toInt_add_of_bounds (by omega) (by omega)⟩

/-- The sum of the raw sizes after an entry. -/
theorem LoadInv.raw_ok {s : Loading} {rest : List TensorDescriptor} (h : LoadInv header file s (t :: rest)) :
    0 ≤ t.rawBytes.toInt ∧ s.rawBytes.toInt + t.rawBytes.toInt < 2 ^ 63 := by
  obtain ⟨d, hd⟩ := h.entries t (by simp)
  have hnonneg := hd.raw_nonneg
  have hrest := sum_raw_nonneg fun x hx => h.entries x (List.mem_cons_of_mem t hx)
  have htotal := h.total_lt
  rw [List.map_cons, List.sum_cons] at htotal
  exact ⟨hnonneg, by omega⟩

theorem LoadInv.next {s s' : Loading} {rest : List TensorDescriptor} (h : LoadInv header file s (t :: rest))
    (hraw : s'.rawBytes.toInt = s.rawBytes.toInt + t.rawBytes.toInt)
    (hscratch : s'.scratch.length ≤ s.scratch.length + t.rawBytes.toInt) : LoadInv header file s' rest := by
  have hnonneg := h.raw_nonneg
  have htotal := h.total_lt
  have hle := h.scratch_le
  have hbounds := h.raw_ok
  rw [List.map_cons, List.sum_cons] at htotal
  exact ⟨fun x hx => h.entries x (List.mem_cons_of_mem t hx), by omega, by omega, by omega⟩

theorem loadTensor_safe (hpayload : 0 ≤ header.payloadOffset.toInt) (s : Loading) (rest : List TensorDescriptor)
    (h : LoadInv header file s (t :: rest)) :
    (loadTensor p mode file header s t).Safe fun s' => LoadInv header file s' rest := by
  obtain ⟨d, hd⟩ := h.entries t (by simp)
  obtain ⟨hadd, hstart⟩ := h.start_ok hpayload
  obtain ⟨hnonneg, hraw⟩ := h.raw_ok
  have hscratch := h.scratch_le
  have hrawNonneg := h.raw_nonneg
  have finish : ∀ data scratch r, scratch.length ≤ s.scratch.length + t.rawBytes.toInt → Loads s t d data scratch r →
      (add r.2.rawBytes t.rawBytes >>= fun rawBytes =>
        (ok { r.2 with arrays := r.2.arrays ++ [(t.name, r.1)], rawBytes } : Outcome Failure Loading)).Safe
        fun s' => LoadInv header file s' rest := by
    intro data scratch r hle hr
    rw [hr.rawBytes, add_ok (by omega) (by omega), ok_bind, safe_ok]
    exact h.next (toInt_add_of_bounds (by omega) (by omega)) (by rw [hr.scratch]; exact hle)
  refine (safe_guard _ _).bind fun _ _ => ?_
  rw [hd.dtype, ok_bind, hadd, ok_bind]
  rcases hd.encoding with henc | henc
  · rw [if_pos henc]
    by_cases hfits : MapFits p mode header t
    · obtain ⟨r, hr, hloads⟩ := loadRaw_ok hd hpayload hstart s henc hfits
      rw [hr, ok_bind]
      exact finish _ _ r (by omega) hloads
    · obtain ⟨e, he⟩ := loadRaw_threw (p := p) hd hpayload hstart s henc hfits
      rw [he, threw_bind]
      exact safe_threw
  · rw [if_neg (by rw [henc]; decide), if_pos henc]
    have hdecode := decodeLZFSE_safe p (header.stored file.contents t) t.name hnonneg
    cases hout : decodeLZFSE p (header.stored file.contents t) t.rawBytes t.name with
    | ok decoded =>
      obtain ⟨r, scratch, hr, hloads, hle⟩ := loadCompressed_ok hd hpayload hstart s mode hout (by omega)
      rw [hr, ok_bind]
      exact finish _ _ r hle hloads
    | threw e =>
      rw [loadCompressed_threw hd hpayload hstart s mode hout, threw_bind]
      exact safe_threw
    | trap => exact absurd hout hdecode.ne_trap

end Load

theorem validateTensor_safe (p : Platform) (header : Header) (fileSize : Int64) (scan : Scan) (t : TensorDescriptor) :
    (validateTensor p header fileSize scan t).Safe fun _ => True := by
  refine (safe_guard _ _).bind fun _ _ => (safe_guard _ _).bind fun _ _ => ?_
  cases mlxDType t.dtype with
  | ok d =>
    exact (safe_guard _ _).bind fun _ _ => (safe_guard _ _).bind fun _ _ => (safe_guard _ _).bind fun _ _ =>
      (safe_guard _ _).bind fun _ _ => (safe_guard _ _).bind fun _ _ => (safe_guard _ _).bind fun _ _ => trivial
  | threw e => trivial
  | trap => trivial

theorem validate_safe {p : Platform} {header : Header} {fileSize : Int64} (hpayload : 0 ≤ header.payloadOffset.toInt) :
    (validate p header fileSize).Safe fun _ =>
      Scanned p header fileSize ⟨header.payloadOffset, 0, []⟩ (sortedByOffset header.tensors) := by
  have hloop := safe_foldlM (fun (_ : Scan) (_ : List TensorDescriptor) => True) (fun s t _ _ => validateTensor_safe p header fileSize s t) (s := ⟨header.payloadOffset, 0, []⟩)
    (l := sortedByOffset header.tensors) trivial
  have hsafe : (validate p header fileSize).Safe fun _ => True := hloop.bind fun _ _ => trivial
  cases h : validate p header fileSize with
  | ok u => exact (validate_ok_iff hpayload).1 h
  | threw e => trivial
  | trap => exact absurd h hsafe.ne_trap

/-- Before the first entry of an accepted index. -/
theorem Scanned.loadInv {p : Platform} {header : Header} {file : File}
    (h : Scanned p header file.size ⟨header.payloadOffset, 0, []⟩ (sortedByOffset header.tensors)) :
    LoadInv header file ⟨[], 0, 0, 0, 0, []⟩ header.tensors := by
  have hperm := sortedByOffset_perm header.tensors
  have hsum := (hperm.map fun t => t.rawBytes.toInt).sum_eq
  refine ⟨fun t ht => h.entries t (hperm.mem_iff.2 ht), by simp, ?_, by simp⟩
  rw [← hsum]
  exact h.total_lt

/-- Whatever the bytes, `load` does not trap, and it accepts only an index whose
entries are disjoint ranges of the file. -/
theorem load_safe (p : Platform) (file : File) (key : String) (mode : Mode) :
    load p file key mode ≠ trap ∧ ∀ result, load p file key mode = ok result →
      ∃ header, readHeader p file key = ok header ∧ HeaderSound p header file.size := by
  have hload : (load p file key mode).Safe fun _ =>
      ∃ header, readHeader p file key = ok header ∧ HeaderSound p header file.size := by
    have hread := readHeader_safe p file key
    unfold load
    cases hheader : readHeader p file key with
    | trap => exact absurd hheader hread.ne_trap
    | threw e => trivial
    | ok header =>
      have hreserve := hread.of_eq_ok hheader
      have hpayload : 0 ≤ header.payloadOffset.toInt := by omega
      refine (validate_safe hpayload).bind fun _ hscan => ?_
      exact (safe_foldlM (LoadInv header file) (fun s _ rest => loadTensor_safe hpayload s rest) hscan.loadInv).bind fun _ _ =>
        ⟨header, rfl, hscan.headerSound⟩
  exact ⟨hload.ne_trap, fun _ h => hload.of_eq_ok h⟩

end Tanpopo.FastGGUF
