import Tanpopo.Lib.Recency
import Tanpopo.Lib.Table
import Tanpopo.Lib.Loop
import Tanpopo.Mlx
import Mathlib.Data.List.MinMax
import Mathlib.Logic.Relation
/-!
# The zero buffers of a worker

A worker keeps the zero arrays it has made, within a limit of bytes and one of
entries. Where the loop that makes room does not overflow, the bytes that are
retained are those of the entries, and what is evicted was requested longest
ago; `buffers_sound_iff` says for which requests that is so.
-/

namespace Tanpopo

open Swift Outcome Looping Recency

namespace DistributedZeroBuffers

/-! ## The cache -/

structure Key where
  shape : List Int64
  dtype : DType
  deriving DecidableEq

structure Entry where
  array : MLXArray
  accessed : UInt64

end DistributedZeroBuffers

structure DistributedZeroBuffers where
  byteLimit : Int64
  entryLimit : Int64
  entries : Table DistributedZeroBuffers.Key DistributedZeroBuffers.Entry
  clock : UInt64
  retainedBytes : Int64

namespace DistributedZeroBuffers

/-- `max(0, limit)`. -/
def atLeastZero (limit : Int64) : Int64 := if 0 ≤ limit.toInt then limit else 0

/-- `init`. -/
def new (byteLimit entryLimit : Int64) : DistributedZeroBuffers where
  byteLimit := atLeastZero byteLimit
  entryLimit := atLeastZero entryLimit
  entries := ∅
  clock := 0
  retainedBytes := 0

/-- The limits of a worker loop, which are the defaults of `init`. -/
def defaultByteLimit : Int64 := 16 * 1024 * 1024

def defaultEntryLimit : Int64 := 32

/-- `MLXArray.nbytes`, which is an `Int`. -/
def nbytes (array : MLXArray) : Int64 := Int64.ofNat array.data.length

/-- `min(by:)` on the times of access. -/
def oldest (entries : Table Key Entry) : Option (Key × Entry) := entries.entries.argmin fun entry => entry.2.accessed.toNat

/-- One turn of the loop that makes room: it evicts an entry, or the loop ends. -/
def evictTurn (needed : Int64) (b : DistributedZeroBuffers) : DistributedZeroBuffers ⊕ Outcome Empty DistributedZeroBuffers :=
  match add b.retainedBytes needed with
  | ok sum =>
    if sum.toInt > b.byteLimit.toInt ∨ (b.entries.length : Int) ≥ b.entryLimit.toInt then
      match oldest b.entries with
      | none => .inr (ok b)
      | some (key, entry) =>
        match sub b.retainedBytes (nbytes entry.array) with
        | ok retainedBytes => .inl { b with retainedBytes, entries := b.entries.delete key }
        | threw error => .inr (threw error)
        | trap => .inr trap
    else .inr (ok b)
  | threw error => .inr (threw error)
  | trap => .inr trap

theorem get?_oldest {entries : Table Key Entry} {key : Key} {entry : Entry} (h : oldest entries = some (key, entry)) :
    entries.get? key = some entry := Table.get?_eq_some.2 (List.argmin_mem h)

/-- What a turn that evicts does. -/
theorem evictTurn_eq_inl {needed : Int64} {b b' : DistributedZeroBuffers} (h : evictTurn needed b = .inl b') :
    ∃ key entry retainedBytes, oldest b.entries = some (key, entry) ∧
      (sub b.retainedBytes (nbytes entry.array) : Outcome Empty Int64) = ok retainedBytes ∧
      b' = { b with retainedBytes, entries := b.entries.delete key } := by
  unfold evictTurn at h
  split at h
  · split at h
    · split at h
      · cases h
      · rename_i key entry hold
        split at h
        · rename_i retainedBytes hsub
          cases h
          exact ⟨key, entry, retainedBytes, hold, hsub, rfl⟩
        · cases h
        · cases h
    · cases h
  · cases h
  · cases h

theorem evictTurn_smaller {needed : Int64} {b b' : DistributedZeroBuffers} (h : evictTurn needed b = .inl b') :
    b'.entries.length < b.entries.length := by
  obtain ⟨key, entry, retainedBytes, hold, -, rfl⟩ := evictTurn_eq_inl h
  exact Table.length_delete_lt (get?_oldest hold)

/-- The loop. -/
def makeRoom (needed : Int64) (b : DistributedZeroBuffers) : Outcome Empty DistributedZeroBuffers :=
  match _h : evictTurn needed b with
  | .inl b' => makeRoom needed b'
  | .inr result => result
termination_by b.entries.length
decreasing_by exact evictTurn_smaller _h

def zeros (b : DistributedZeroBuffers) (shape : List Int64) (dtype : DType) : Outcome Empty (DistributedZeroBuffers × MLXArray) :=
  let b := { b with clock := b.clock + 1 }
  let key : Key := ⟨shape, dtype⟩
  match b.entries.get? key with
  | some entry => ok ({ b with entries := b.entries.set key { entry with accessed := b.clock } }, entry.array)
  | none => do
    let array ← MLXArray.zeros shape dtype
    if ¬ (0 < (nbytes array).toInt ∧ (nbytes array).toInt ≤ b.byteLimit.toInt ∧ 0 < b.entryLimit.toInt) then return (b, array)
    let b ← makeRoom (nbytes array) b
    let retainedBytes ← add b.retainedBytes (nbytes array)
    return ({ b with entries := b.entries.set key ⟨array, b.clock⟩, retainedBytes }, array)

/-! ## Requests -/

/-- One request, and the array that it returns. -/
def ask (state : DistributedZeroBuffers × List MLXArray) (request : Key) : Outcome Empty (DistributedZeroBuffers × List MLXArray) := do
  let (b, array) ← state.1.zeros request.shape request.dtype
  return (b, state.2 ++ [array])

/-- The buffers after these requests, and the arrays that they returned. -/
def run (byteLimit entryLimit : Int64) (requests : List Key) : Outcome Empty (DistributedZeroBuffers × List MLXArray) :=
  requests.foldlM ask (new byteLimit entryLimit, [])

theorem ask_of_zeros {b b' : DistributedZeroBuffers} {array : MLXArray} {request : Key} (arrays : List MLXArray)
    (h : b.zeros request.shape request.dtype = ok (b', array)) : ask (b, arrays) request = ok (b', arrays ++ [array]) := by
  unfold ask
  rw [h]
  rfl

theorem run_singleton (byteLimit entryLimit : Int64) (request : Key) :
    run byteLimit entryLimit [request] = ask (new byteLimit entryLimit, []) request := by
  simp only [run, List.foldlM_cons, List.foldlM_nil, bind_pure]

theorem run_concat (byteLimit entryLimit : Int64) (requests : List Key) (request : Key) :
    run byteLimit entryLimit (requests ++ [request]) = run byteLimit entryLimit requests >>= fun state => ask state request := by
  simp only [run, List.foldlM_append, List.foldlM_cons, List.foldlM_nil, bind_pure]

/-! ## What is retained -/

/-- The bytes of the arrays. -/
def totalBytes (entries : Table Key Entry) : Nat := (entries.map fun entry => entry.array.data.length).total

theorem toInt_nbytes (array : MLXArray) : (nbytes array).toInt = array.data.length := toInt_ofNat_of_lt array.data_lt

theorem totalBytes_delete {entries : Table Key Entry} {key : Key} {entry : Entry} (h : entries.get? key = some entry) :
    totalBytes entries = entry.array.data.length + totalBytes (entries.delete key) := by
  unfold totalBytes
  rw [Table.total_eq_delete key, Table.get?_map, h, Table.map_delete]
  rfl

theorem delete_of_none {entries : Table Key Entry} {key : Key} (h : entries.get? key = none) : totalBytes (entries.delete key) = totalBytes entries := by
  unfold totalBytes
  rw [Table.map_delete]
  conv_rhs => rw [Table.total_eq_delete key, Table.get?_map, h]
  simp

theorem totalBytes_of_nil {entries : Table Key Entry} (h : entries.entries = []) : totalBytes entries = 0 := by
  obtain rfl : entries = ∅ := Table.ext_entries h
  rfl

theorem totalBytes_set (entries : Table Key Entry) (key : Key) (entry : Entry) :
    totalBytes (entries.set key entry) = entry.array.data.length + totalBytes (entries.delete key) := by
  unfold totalBytes
  rw [Table.map_set, Table.total_set, Table.map_delete]

/-! ## The arrays -/

/-- The bytes of the array of this key. -/
def Key.bytes (key : Key) : Nat := Tanpopo.nbytes (MLXArray.dims key.shape) key.dtype

/-- MLX has an array of this key. -/
def Key.isArray (key : Key) : Bool := key.shape.all (fun d => decide (0 ≤ d.toInt) && decide (d.toInt ≤ 2147483647)) && decide (key.bytes < 2 ^ 63)

theorem Key.isArray_iff {key : Key} : key.isArray = true ↔ MLXArray.Dims key.shape ∧ key.bytes < 2 ^ 63 := by
  simp only [Key.isArray, Bool.and_eq_true, List.all_eq_true, decide_eq_true_eq, MLXArray.Dims]

theorem fits_zeros {key : Key} (hdims : MLXArray.Dims key.shape) (hbytes : key.bytes < 2 ^ 63) :
    MLXArray.Fits (List.replicate key.bytes 0) key.shape key.dtype := by
  refine ⟨hdims, List.length_replicate, ?_⟩
  rw [List.length_replicate]
  exact hbytes

theorem exists_zeros {key : Key} (hdims : MLXArray.Dims key.shape) (hbytes : key.bytes < 2 ^ 63) :
    ∃ array, MLXArray.zeros key.shape key.dtype = (ok array : Outcome Empty MLXArray) :=
  ⟨_, MLXArray.ofData_of_fits (fits_zeros hdims hbytes)⟩

/-- An array of zeros has the shape and the type of its key. -/
theorem eq_of_zeros {key : Key} {array : MLXArray} (h : MLXArray.zeros key.shape key.dtype = (ok array : Outcome Empty MLXArray)) :
    MLXArray.Dims key.shape ∧ array.shape = MLXArray.dims key.shape ∧ array.dtype = key.dtype ∧
      array.data = List.replicate key.bytes 0 := by
  unfold MLXArray.zeros MLXArray.ofData at h
  split at h
  · rename_i hfits
    cases h
    exact ⟨(MLXArray.fits_iff.1 hfits).1, rfl, rfl, rfl⟩
  · cases h

theorem length_of_zeros {key : Key} {array : MLXArray} (h : MLXArray.zeros key.shape key.dtype = (ok array : Outcome Empty MLXArray)) :
    array.data.length = key.bytes := by
  obtain ⟨-, -, -, hdata⟩ := eq_of_zeros h
  rw [hdata, List.length_replicate]

theorem toInt_nbytes_of_zeros {key : Key} {array : MLXArray} (h : MLXArray.zeros key.shape key.dtype = (ok array : Outcome Empty MLXArray)) :
    (nbytes array).toInt = key.bytes := by
  rw [toInt_nbytes, length_of_zeros h]

theorem dims_of_zeros {key : Key} {array : MLXArray} (h : MLXArray.zeros key.shape key.dtype = (ok array : Outcome Empty MLXArray)) :
    MLXArray.Dims key.shape ∧ key.bytes < 2 ^ 63 :=
  ⟨(eq_of_zeros h).1, length_of_zeros h ▸ array.data_lt⟩

/-! ## What is kept -/

/-- Every entry is the array of its key and knows the last request of it, and the bytes and the entries are within the limits. -/
structure Kept (history : List Key) (b : DistributedZeroBuffers) : Prop where
  byteLimit : 0 ≤ b.byteLimit.toInt
  entryLimit : 0 ≤ b.entryLimit.toInt
  array : ∀ key entry, b.entries.get? key = some entry → MLXArray.zeros key.shape key.dtype = (ok entry.array : Outcome Empty MLXArray)
  accessed : ∀ key entry, b.entries.get? key = some entry →
    0 < lastRequest history key ∧ entry.accessed.toNat = lastRequest history key
  retained : b.retainedBytes.toInt = totalBytes b.entries
  bytes : b.retainedBytes.toInt ≤ b.byteLimit.toInt
  count : (b.entries.length : Int) ≤ b.entryLimit.toInt

/-- A turn evicts the entry that was requested longest ago. -/
def EvictsOldest (history : List Key) (b b' : DistributedZeroBuffers) : Prop :=
  ∃ key entry, b.entries.get? key = some entry ∧ b'.entries = b.entries.delete key ∧
    ∀ other entry', b.entries.get? other = some entry' → other ≠ key → lastRequest history key < lastRequest history other

variable {history : List Key} {b b' : DistributedZeroBuffers} {needed : Int64}

theorem Kept.evictsOldest (h : Kept history b) (hturn : evictTurn needed b = .inl b') : EvictsOldest history b b' := by
  obtain ⟨key, entry, retainedBytes, hold, -, rfl⟩ := evictTurn_eq_inl hturn
  have hentry := get?_oldest hold
  refine ⟨key, entry, hentry, rfl, fun other entry' hother hne => ?_⟩
  obtain ⟨hpos, hkey⟩ := h.accessed key entry hentry
  obtain ⟨-, hlast⟩ := h.accessed other entry' hother
  have hle : entry.accessed.toNat ≤ entry'.accessed.toNat :=
    List.le_of_mem_argmin (f := fun e : Key × Entry => e.2.accessed.toNat) (Table.get?_eq_some.1 hother) hold
  -- Two keys are never requested at once, so the oldest time is that of one key.
  rw [hkey, hlast] at hle
  exact lt_of_le_of_ne hle fun heq => hne (lastRequest_injective hpos heq).symm

/-- What a turn leaves is less, and is kept as before. -/
theorem Kept.turn (h : Kept history b) (hturn : evictTurn needed b = .inl b') : Kept history b' ∧
    b'.retainedBytes.toInt ≤ b.retainedBytes.toInt ∧ b'.byteLimit = b.byteLimit ∧ b'.entryLimit = b.entryLimit ∧ b'.clock = b.clock ∧
      ∀ key, b.entries.get? key = none → b'.entries.get? key = none := by
  have hsmaller := evictTurn_smaller hturn
  obtain ⟨key, entry, retainedBytes, hold, hsub, rfl⟩ := evictTurn_eq_inl hturn
  have hentry := get?_oldest hold
  have htotal := totalBytes_delete hentry
  have hretained := sub_eq_ok.1 hsub
  rw [toInt_nbytes, h.retained] at hretained
  have hless : retainedBytes.toInt ≤ b.retainedBytes.toInt := by
    rw [h.retained]
    omega
  refine ⟨⟨h.byteLimit, h.entryLimit, fun other entry' hother => ?_, fun other entry' hother => ?_, ?_, hless.trans h.bytes, ?_⟩, hless,
    rfl, rfl, rfl, fun other hother => ?_⟩
  · exact h.array other entry' (Table.get?_delete_eq_some.1 hother).2
  · exact h.accessed other entry' (Table.get?_delete_eq_some.1 hother).2
  · show retainedBytes.toInt = totalBytes (b.entries.delete key)
    omega
  · have hcount := h.count
    show ((b.entries.delete key).length : Int) ≤ b.entryLimit.toInt
    have hlt : (b.entries.delete key).length < b.entries.length := hsmaller
    omega
  · show (b.entries.delete key).get? other = none
    rw [Table.get?_delete, hother, ite_self]

/-! ## Making room -/

/-- There is room for so many bytes and one entry. -/
def HasRoom (needed : Int64) (b : DistributedZeroBuffers) : Prop :=
  b.retainedBytes.toInt + needed.toInt ≤ b.byteLimit.toInt ∧ (b.entries.length : Int) < b.entryLimit.toInt

/-- The loop ends where there is room, and it always comes there: without entries nothing is retained. -/
theorem Kept.room (h : Kept history b) (hpos : 0 < needed.toInt) (hneeded : needed.toInt ≤ b.byteLimit.toInt)
    (hlimit : 0 < b.entryLimit.toInt) (hfits : b.retainedBytes.toInt + needed.toInt < 2 ^ 63)
    {result : Outcome Empty DistributedZeroBuffers} (hturn : evictTurn needed b = .inr result) : result = ok b ∧ HasRoom needed b := by
  have hretained := h.retained
  have hsum : (add b.retainedBytes needed : Outcome Empty Int64) = ok (b.retainedBytes + needed) := add_ok (by omega) hfits
  have hvalue := add_eq_ok.1 hsum
  unfold evictTurn at hturn
  rw [hsum] at hturn
  simp only at hturn
  split_ifs at hturn with hover
  · split at hturn
    · rename_i hnone
      -- Nothing is left to evict: then nothing is retained, and the loop would have ended.
      have hempty : b.entries.entries = [] := List.argmin_eq_none.1 hnone
      have hzero := totalBytes_of_nil hempty
      rw [Table.length, hempty, List.length_nil] at hover
      omega
    · rename_i key entry hold
      -- The bytes of an entry are among those retained, so there is a turn.
      have htotal := totalBytes_delete (get?_oldest hold)
      have hsub : (sub b.retainedBytes (nbytes entry.array) : Outcome Empty Int64) = ok (b.retainedBytes - nbytes entry.array) := by
        apply sub_ok
        all_goals
          rw [toInt_nbytes]
          omega
      rw [hsub] at hturn
      cases hturn
  · cases hturn
    exact ⟨rfl, by omega, by omega⟩

theorem Kept.makes_room (h : Kept history b) (hpos : 0 < needed.toInt) (hneeded : needed.toInt ≤ b.byteLimit.toInt)
    (hlimit : 0 < b.entryLimit.toInt) (hfits : b.retainedBytes.toInt + needed.toInt < 2 ^ 63) :
    ∃ b', makeRoom needed b = ok b' ∧ Kept history b' ∧ HasRoom needed b' ∧ b'.byteLimit = b.byteLimit ∧ b'.entryLimit = b.entryLimit ∧
      b'.clock = b.clock ∧ ∀ key, b.entries.get? key = none → b'.entries.get? key = none := by
  fun_induction makeRoom needed b with
  | case1 b b₁ hturn ih =>
    -- What is retained only shrinks, so the sum fits after the turn as well.
    obtain ⟨hkept, hless, hbytes, hentries, hclock, hnone⟩ := h.turn hturn
    obtain ⟨b', heq, hkept', hroom, hbytes', hentries', hclock', hnone'⟩ :=
      ih hkept (hbytes ▸ hneeded) (hentries ▸ hlimit) (by omega)
    exact ⟨b', heq, hkept', hroom, hbytes'.trans hbytes, hentries'.trans hentries, hclock'.trans hclock,
      fun key hkey => hnone' key (hnone key hkey)⟩
  | case2 b result hturn =>
    obtain ⟨rfl, hroom⟩ := h.room hpos hneeded hlimit hfits hturn
    exact ⟨b, rfl, h, hroom, rfl, rfl, rfl, fun _ hkey => hkey⟩

theorem makeRoom_of_inr {result : Outcome Empty DistributedZeroBuffers} (h : evictTurn needed b = .inr result) :
    makeRoom needed b = result := by
  rw [makeRoom]
  split
  · rename_i hinl
    rw [h] at hinl
    cases hinl
  · rename_i result' hinr
    rw [h] at hinr
    exact (Sum.inr.inj hinr).symm

theorem makeRoom_of_inl (h : evictTurn needed b = .inl b') :
    makeRoom needed b = makeRoom needed b' := by
  rw [makeRoom]
  split
  · rename_i b₁ hinl
    rw [h] at hinl
    rw [Sum.inl.inj hinl]
  · rename_i hinr
    rw [h] at hinr
    cases hinr

/-- The first turn traps where the sum of what is retained and what is needed overflows. -/
theorem makeRoom_trap (hover : 2 ^ 63 ≤ b.retainedBytes.toInt + needed.toInt) : makeRoom needed b = trap := by
  have hsum : (add b.retainedBytes needed : Outcome Empty Int64) = trap := by
    cases hadd : (add b.retainedBytes needed : Outcome Empty Int64) with
    | ok sum =>
      have hvalue := add_eq_ok.1 hadd
      have hbounds := Int64.bounds sum
      omega
    | threw error => cases error
    | trap => rfl
  apply makeRoom_of_inr
  unfold evictTurn
  rw [hsum]

/-- The loop returns what `makeRoom` is. -/
theorem returns_makeRoom (needed : Int64) (b : DistributedZeroBuffers) :
    Returns (evictTurn needed) b (makeRoom needed b) := by
  have hturns : ∀ s, makeRoom needed s = makeRoom needed b →
      Turn (fun s => makeRoom needed s = makeRoom needed b)
        (fun s s' => s.entries.length < s'.entries.length) (· = makeRoom needed b) s (evictTurn needed s) := by
    intro s hs
    cases hturn : evictTurn needed s with
    | inl s' => exact ⟨(makeRoom_of_inl hturn).symm.trans hs, evictTurn_smaller hturn⟩
    | inr result => exact (makeRoom_of_inr hturn).symm.trans hs
  obtain ⟨result, rfl, hreturns⟩ :=
    exists_returns (measure fun s : DistributedZeroBuffers => s.entries.length).wf hturns rfl
  exact hreturns

/-! ## One request -/

section
variable {request : Key} {clock : UInt64}

theorem Kept.tick (h : Kept history b) (clock : UInt64) : Kept history { b with clock } :=
  ⟨h.byteLimit, h.entryLimit, h.array, h.accessed, h.retained, h.bytes, h.count⟩

/-- A request that no entry answers leaves the entries as recent as they are. -/
theorem Kept.absent (h : Kept history b) (hnone : b.entries.get? request = none) : Kept (history ++ [request]) b := by
  refine ⟨h.byteLimit, h.entryLimit, h.array, fun key entry hentry => ?_, h.retained, h.bytes, h.count⟩
  have hne : key ≠ request := by
    rintro rfl
    rw [hnone] at hentry
    cases hentry
  rw [lastRequest_other _ hne]
  exact h.accessed key entry hentry

/-- The entry of the request is the most recent one; the others are as recent as before. -/
theorem Kept.entries_set (h : Kept history b) {entry : Entry}
    (harray : MLXArray.zeros request.shape request.dtype = (ok entry.array : Outcome Empty MLXArray))
    (haccessed : entry.accessed.toNat = history.length + 1) {key : Key} {entry' : Entry}
    (hkey : (b.entries.set request entry).get? key = some entry') :
    MLXArray.zeros key.shape key.dtype = (ok entry'.array : Outcome Empty MLXArray) ∧
      0 < lastRequest (history ++ [request]) key ∧ entry'.accessed.toNat = lastRequest (history ++ [request]) key := by
  rcases Table.get?_set_eq_some.1 hkey with ⟨rfl, rfl⟩ | ⟨hne, hold⟩
  · rw [lastRequest_self]
    exact ⟨harray, Nat.succ_pos _, haccessed⟩
  · rw [lastRequest_other _ hne]
    exact ⟨h.array key entry' hold, h.accessed key entry' hold⟩

theorem Kept.hit (h : Kept history b) {entry : Entry} (hentry : b.entries.get? request = some entry)
    (hclock : clock.toNat = history.length + 1) :
    Kept (history ++ [request]) { b with entries := b.entries.set request { entry with accessed := clock } } := by
  have hset {key : Key} {entry' : Entry} := @Kept.entries_set history b request h { entry with accessed := clock }
    (h.array request entry hentry) hclock key entry'
  refine ⟨h.byteLimit, h.entryLimit, fun key entry' hkey => ?_, fun key entry' hkey => ?_, ?_, h.bytes, ?_⟩
  · exact (hset hkey).1
  · exact (hset hkey).2
  · show b.retainedBytes.toInt = totalBytes (b.entries.set request { entry with accessed := clock })
    rw [totalBytes_set, ← totalBytes_delete hentry]
    exact h.retained
  · have hlength : (b.entries.set request { entry with accessed := clock }).length ≤ b.entries.length := Table.length_set_le_of_get? hentry
    have hcount := h.count
    show ((b.entries.set request _).length : Int) ≤ b.entryLimit.toInt
    omega

theorem Kept.insert (h : Kept history b) (hnone : b.entries.get? request = none) {array : MLXArray}
    (harray : MLXArray.zeros request.shape request.dtype = (ok array : Outcome Empty MLXArray)) (hroom : HasRoom (nbytes array) b)
    (hclock : clock.toNat = history.length + 1) {retainedBytes : Int64}
    (hretained : retainedBytes.toInt = b.retainedBytes.toInt + (nbytes array).toInt) :
    Kept (history ++ [request]) { b with entries := b.entries.set request ⟨array, clock⟩, retainedBytes } := by
  obtain ⟨hbytes, hcount⟩ := hroom
  refine ⟨h.byteLimit, h.entryLimit, fun key entry hkey => ?_, fun key entry hkey => ?_, ?_, hretained ▸ hbytes, ?_⟩
  · exact (h.entries_set harray hclock hkey).1
  · exact (h.entries_set harray hclock hkey).2
  · show retainedBytes.toInt = totalBytes (b.entries.set request ⟨array, clock⟩)
    have htotal : totalBytes (b.entries.set request ⟨array, clock⟩) = array.data.length + totalBytes (b.entries.delete request) :=
      totalBytes_set b.entries request ⟨array, clock⟩
    rw [delete_of_none hnone] at htotal
    rw [htotal, hretained, toInt_nbytes, h.retained]
    omega
  · have hlength := Table.length_set_le (t := b.entries) request (Entry.mk array clock)
    show ((b.entries.set request _).length : Int) ≤ b.entryLimit.toInt
    omega

/-- The request is answered by an entry, or MLX has its array and, where it is cached, it adds to what is retained without an overflow. -/
def Addable (request : Key) (b : DistributedZeroBuffers) : Prop :=
  b.entries.get? request = none → MLXArray.Dims request.shape ∧ request.bytes < 2 ^ 63 ∧
    (0 < request.bytes → (request.bytes : Int) ≤ b.byteLimit.toInt → 0 < b.entryLimit.toInt →
      b.retainedBytes.toInt + request.bytes < 2 ^ 63)

theorem Kept.zeros_eq (h : Kept history b) (hclock : b.clock.toNat = history.length) (hlength : history.length + 1 < 2 ^ 64)
    (haddable : Addable request b) : ∃ b' array, b.zeros request.shape request.dtype = ok (b', array) ∧ Kept (history ++ [request]) b' ∧
      b'.clock.toNat = history.length + 1 ∧ b'.byteLimit = b.byteLimit ∧ b'.entryLimit = b.entryLimit ∧
      MLXArray.zeros request.shape request.dtype = (ok array : Outcome Empty MLXArray) := by
  have hnext : (b.clock + 1).toNat = history.length + 1 := by
    rw [UInt64.toNat_add, hclock]
    exact Nat.mod_eq_of_lt hlength
  have htick := h.tick (b.clock + 1)
  unfold zeros
  cases hentry : b.entries.get? request with
  | some entry =>
    exact ⟨_, entry.array, by simp only [hentry], htick.hit hentry hnext, hnext, rfl, rfl, h.array request entry hentry⟩
  | none =>
    -- A new array, which is cached where it may be.
    obtain ⟨hdims, hbytes, hfits⟩ := haddable hentry
    obtain ⟨array, harray⟩ := exists_zeros hdims hbytes
    have hcount := toInt_nbytes_of_zeros harray
    simp only [hentry, harray, ok_bind]
    by_cases hcached : 0 < (nbytes array).toInt ∧ (nbytes array).toInt ≤ b.byteLimit.toInt ∧ 0 < b.entryLimit.toInt
    · obtain ⟨hpos, hneeded, hlimit⟩ := hcached
      have hsmall : b.retainedBytes.toInt + (nbytes array).toInt < 2 ^ 63 := by
        rw [hcount] at hpos hneeded ⊢
        exact hfits (by exact_mod_cast hpos) hneeded hlimit
      obtain ⟨b', hmade, hkept, hroom, hbytes, hentries, hclock', hnone⟩ := htick.makes_room hpos hneeded hlimit hsmall
      have hbounds := Int64.bounds b'.byteLimit
      have hretained := hkept.retained
      have hadd : (add b'.retainedBytes (nbytes array) : Outcome Empty Int64) = ok (b'.retainedBytes + nbytes array) :=
        add_ok (by omega) (by have := hroom.1; omega)
      rw [if_neg (not_not.2 ⟨hpos, hneeded, hlimit⟩), hmade, ok_bind, hadd, ok_bind]
      have hvalue := add_eq_ok.1 hadd
      have hclock'' : b'.clock.toNat = history.length + 1 := (congrArg UInt64.toNat hclock').trans hnext
      exact ⟨_, array, rfl, hkept.insert (hnone request hentry) harray hroom hclock'' hvalue, hclock'', hbytes, hentries, rfl⟩
    · rw [if_pos hcached]
      exact ⟨_, array, rfl, htick.absent hentry, hnext, rfl, rfl, rfl⟩

/-- A request that no entry answers returns only where it can be added. -/
theorem addable_of_zeros {result : DistributedZeroBuffers × MLXArray} (h : b.zeros request.shape request.dtype = ok result) :
    Addable request b := by
  intro hnone
  unfold zeros at h
  simp only [hnone, bind_eq_ok] at h
  obtain ⟨array, harray, h⟩ := h
  have hcount := toInt_nbytes_of_zeros harray
  obtain ⟨hdims, hbytes⟩ := dims_of_zeros harray
  refine ⟨hdims, hbytes, fun hpos hneeded hlimit => ?_⟩
  by_contra hover
  have hcached : 0 < (nbytes array).toInt ∧ (nbytes array).toInt ≤ b.byteLimit.toInt ∧ 0 < b.entryLimit.toInt := by
    rw [hcount]
    exact ⟨by exact_mod_cast hpos, hneeded, hlimit⟩
  have htrap : makeRoom (nbytes array) { b with clock := b.clock + 1 } = trap := by
    apply makeRoom_trap
    rw [hcount]
    exact not_lt.1 hover
  rw [if_neg (not_not.2 hcached), htrap] at h
  cases h

/-! ## Runs -/

/-- What is promised after these requests, whatever is asked for next. -/
structure Promised (byteLimit entryLimit : Int64) (history : List Key) (b : DistributedZeroBuffers) (arrays : List MLXArray) : Prop where
  byteLimit : b.byteLimit.toInt = max 0 byteLimit.toInt
  entryLimit : b.entryLimit.toInt = max 0 entryLimit.toInt
  retained : b.retainedBytes.toInt = totalBytes b.entries
  bytes : b.retainedBytes.toInt ≤ b.byteLimit.toInt
  count : (b.entries.length : Int) ≤ b.entryLimit.toInt
  arrays : List.Forall₂ (fun (request : Key) (array : MLXArray) =>
    array.shape.map Int.ofNat = request.shape.map Int64.toInt ∧ array.dtype = request.dtype) history arrays
  returns : ∀ needed, Returns (evictTurn needed) { b with clock := b.clock + 1 } (makeRoom needed { b with clock := b.clock + 1 })
  evicts : ∀ needed b₁ b₂, Relation.ReflTransGen (fun x y => evictTurn needed x = .inl y) { b with clock := b.clock + 1 } b₁ →
    evictTurn needed b₁ = .inl b₂ → EvictsOldest history b₁ b₂

/-- Every request of the list returns, and what is promised holds after each. -/
def Sound (byteLimit entryLimit : Int64) (requests : List Key) : Prop :=
  ∀ history, history <+: requests → ∃ b arrays, run byteLimit entryLimit history = ok (b, arrays) ∧
    Promised byteLimit entryLimit history b arrays

/-- Each request of the list can be added to the buffers that it meets. -/
def AllAddable (byteLimit entryLimit : Int64) (requests : List Key) : Prop :=
  ∀ history request, history ++ [request] <+: requests → ∀ b arrays, run byteLimit entryLimit history = ok (b, arrays) →
    Addable request b

theorem toInt_atLeastZero (limit : Int64) : (atLeastZero limit).toInt = max 0 limit.toInt := by
  unfold atLeastZero
  split_ifs with h
  · rw [max_eq_right h]
  · rw [max_eq_left (by omega)]
    rfl

theorem kept_new (byteLimit entryLimit : Int64) : Kept [] (new byteLimit entryLimit) where
  byteLimit := by
    rw [new, toInt_atLeastZero]
    exact le_max_left _ _
  entryLimit := by
    rw [new, toInt_atLeastZero]
    exact le_max_left _ _
  array := fun _ _ h => by cases h
  accessed := fun _ _ h => by cases h
  retained := rfl
  bytes := by
    show (0 : Int) ≤ (atLeastZero byteLimit).toInt
    rw [toInt_atLeastZero]
    exact le_max_left _ _
  count := by
    show (0 : Int) ≤ (atLeastZero entryLimit).toInt
    rw [toInt_atLeastZero]
    exact le_max_left _ _

/-- Turns keep what is kept. -/
theorem Kept.turns (h : Kept history b) (hturns : Relation.ReflTransGen (fun x y => evictTurn needed x = .inl y) b b') : Kept history b' := by
  induction hturns with
  | refl => exact h
  | tail _ hturn ih => exact (ih.turn hturn).1

theorem shape_of_dims {shape : List Int64} (h : MLXArray.Dims shape) : (MLXArray.dims shape).map Int.ofNat = shape.map Int64.toInt := by
  unfold MLXArray.dims
  rw [List.map_map]
  apply List.map_congr_left
  intro d hd
  exact Int.toNat_of_nonneg (h d hd).1

/-- What a whole run has kept. -/
structure Running (byteLimit entryLimit : Int64) (history : List Key) (b : DistributedZeroBuffers) (arrays : List MLXArray) : Prop where
  kept : Kept history b
  clock : b.clock.toNat = history.length
  byteLimit : b.byteLimit = atLeastZero byteLimit
  entryLimit : b.entryLimit = atLeastZero entryLimit
  arrays : List.Forall₂ (fun (request : Key) (array : MLXArray) =>
    MLXArray.zeros request.shape request.dtype = (ok array : Outcome Empty MLXArray)) history arrays

variable {byteLimit entryLimit : Int64} {arrays : List MLXArray} {requests : List Key}

theorem addable_of_ask {result : DistributedZeroBuffers × List MLXArray} (h : ask (b, arrays) request = ok result) : Addable request b := by
  unfold ask at h
  rw [bind_eq_ok] at h
  obtain ⟨answer, hzeros, -⟩ := h
  exact addable_of_zeros hzeros

theorem Running.ask (h : Running byteLimit entryLimit history b arrays) (hlength : history.length + 1 < 2 ^ 64)
    (haddable : Addable request b) :
    ∃ b' arrays', ask (b, arrays) request = ok (b', arrays') ∧ Running byteLimit entryLimit (history ++ [request]) b' arrays' := by
  obtain ⟨b', array, hzeros, hkept, hclock, hbytes, hentries, harray⟩ := h.kept.zeros_eq h.clock hlength haddable
  refine ⟨b', arrays ++ [array], ask_of_zeros arrays hzeros, hkept, ?_, hbytes.trans h.byteLimit, hentries.trans h.entryLimit, ?_⟩
  · rw [hclock, List.length_append, List.length_singleton]
  · exact List.rel_append h.arrays (List.Forall₂.cons harray List.Forall₂.nil)

/-- What a run that returns has kept. -/
theorem running_of_run (hlength : history.length < 2 ^ 64) (hrun : run byteLimit entryLimit history = ok (b, arrays)) :
    Running byteLimit entryLimit history b arrays := by
  induction history using List.reverseRecOn generalizing b arrays with
  | nil =>
    cases hrun
    exact ⟨kept_new byteLimit entryLimit, rfl, rfl, rfl, List.Forall₂.nil⟩
  | append_singleton history request ih =>
    rw [List.length_append, List.length_singleton] at hlength
    rw [run_concat, bind_eq_ok] at hrun
    obtain ⟨⟨b₀, arrays₀⟩, hbefore, hask⟩ := hrun
    have hrunning := ih (Nat.lt_of_succ_lt hlength) hbefore
    obtain ⟨b', arrays', hask', hrunning'⟩ := hrunning.ask hlength (addable_of_ask hask)
    cases hask'.symm.trans hask
    exact hrunning'

theorem run_of_addable (hlength : requests.length < 2 ^ 64) (h : AllAddable byteLimit entryLimit requests) (hbegins : history <+: requests) :
    ∃ b arrays, run byteLimit entryLimit history = ok (b, arrays) := by
  induction history using List.reverseRecOn with
  | nil => exact ⟨new byteLimit entryLimit, [], rfl⟩
  | append_singleton history request ih =>
    obtain ⟨b, arrays, hrun⟩ := ih ((List.prefix_append history [request]).trans hbegins)
    have hle := hbegins.length_le
    rw [List.length_append, List.length_singleton] at hle
    have hrunning := running_of_run (by omega) hrun
    obtain ⟨b', arrays', hask, -⟩ := hrunning.ask (by omega) (h history request hbegins b arrays hrun)
    refine ⟨b', arrays', ?_⟩
    rw [run_concat, hrun]
    exact hask

theorem Running.promised (h : Running byteLimit entryLimit history b arrays) : Promised byteLimit entryLimit history b arrays where
  byteLimit := by rw [h.byteLimit, toInt_atLeastZero]
  entryLimit := by rw [h.entryLimit, toInt_atLeastZero]
  retained := h.kept.retained
  bytes := h.kept.bytes
  count := h.kept.count
  arrays := h.arrays.imp fun request array harray => by
    obtain ⟨hdims, hshape, hdtype, -⟩ := eq_of_zeros harray
    rw [hshape]
    exact ⟨shape_of_dims hdims, hdtype⟩
  returns := fun needed => returns_makeRoom needed _
  evicts := fun _ _ _ hturns hturn => ((h.kept.tick _).turns hturns).evictsOldest hturn

theorem addable_of_sound (h : Sound byteLimit entryLimit requests) : AllAddable byteLimit entryLimit requests := by
  intro history request hbegins b arrays hrun
  obtain ⟨b', arrays', hask, -⟩ := h _ hbegins
  rw [run_concat, hrun] at hask
  exact addable_of_ask hask

theorem sound_of_addable (hcount : requests.length < 2 ^ 64) (h : AllAddable byteLimit entryLimit requests) :
    Sound byteLimit entryLimit requests := by
  intro history hbegins
  obtain ⟨b, arrays, hrun⟩ := run_of_addable hcount h hbegins
  have hrunning := running_of_run (hbegins.length_le.trans_lt hcount) hrun
  exact ⟨b, arrays, hrun, hrunning.promised⟩

/-- The worker's buffers do all that is promised exactly where each request can be added. -/
theorem buffers_sound_iff (byteLimit entryLimit : Int64) (requests : List Key) (hcount : requests.length < 2 ^ 64) :
    Sound byteLimit entryLimit requests ↔ AllAddable byteLimit entryLimit requests :=
  ⟨addable_of_sound, sound_of_addable hcount⟩

/-- Below half of the range of `Int` it is enough that MLX has the arrays. -/
theorem addable_of_limit_lt (hlimit : byteLimit.toInt < 2 ^ 62) (hcount : requests.length < 2 ^ 64)
    (harrays : ∀ request ∈ requests, MLXArray.Dims request.shape ∧ request.bytes < 2 ^ 63) :
    AllAddable byteLimit entryLimit requests := by
  intro history request hbegins b arrays hrun _
  have hle := hbegins.length_le
  rw [List.length_append, List.length_singleton] at hle
  have hrunning := running_of_run (by omega) hrun
  obtain ⟨hdims, hbytes⟩ := harrays request (hbegins.subset (List.mem_append_right _ (List.mem_singleton_self request)))
  refine ⟨hdims, hbytes, fun _ hneeded _ => ?_⟩
  have hkept := hrunning.kept.bytes
  rw [hrunning.byteLimit, toInt_atLeastZero] at hkept hneeded
  omega

theorem few_buffers_sound : Sound 64 2 [⟨[8], .float32⟩, ⟨[2, 4], .float32⟩, ⟨[8], .float32⟩, ⟨[4, 2], .float32⟩, ⟨[32], .float32⟩] :=
  (buffers_sound_iff 64 2 _ (by decide)).2 (addable_of_limit_lt (by decide) (by decide)
    fun request hrequest => Key.isArray_iff.1 (List.all_eq_true.1 (by decide +kernel) request hrequest))

/-- With the limits of a worker loop nothing overflows. -/
theorem default_sound (hcount : requests.length < 2 ^ 64)
    (harrays : ∀ request ∈ requests, MLXArray.Dims request.shape ∧ request.bytes < 2 ^ 63) :
    Sound defaultByteLimit defaultEntryLimit requests :=
  sound_of_addable hcount (addable_of_limit_lt (by decide) hcount harrays)

/-- Where there is room, the array is added and nothing is evicted. -/
theorem zeros_of_room {array : MLXArray} (hnone : b.entries.get? request = none)
    (harray : MLXArray.zeros request.shape request.dtype = (ok array : Outcome Empty MLXArray)) (hretained : 0 ≤ b.retainedBytes.toInt)
    (hpos : 0 < (nbytes array).toInt) (hroom : HasRoom (nbytes array) b) :
    b.zeros request.shape request.dtype = ok ({ b with
      clock := b.clock + 1
      entries := b.entries.set request ⟨array, b.clock + 1⟩
      retainedBytes := b.retainedBytes + nbytes array }, array) := by
  obtain ⟨hbytes, hcount⟩ := hroom
  have hbounds := Int64.bounds b.byteLimit
  have hadd : (add b.retainedBytes (nbytes array) : Outcome Empty Int64) = ok (b.retainedBytes + nbytes array) :=
    add_ok (by omega) (by omega)
  have hsum := add_eq_ok.1 hadd
  have hmade : makeRoom (nbytes array) { b with clock := b.clock + 1 } = ok { b with clock := b.clock + 1 } := by
    apply makeRoom_of_inr
    unfold evictTurn
    rw [hadd]
    simp only
    rw [if_neg (by omega)]
  unfold zeros
  simp only [hnone, harray, ok_bind]
  rw [if_neg (not_not.2 ⟨hpos, by omega, by omega⟩), hmade, ok_bind, hadd, ok_bind]
  rfl

/-- Half of the range of `Int`, in bytes. -/
def half (dtype : DType) : Key := ⟨[1073741824, 1073741824], dtype⟩

/-- Two arrays of 2^62 bytes each: what is retained and what is needed add up to 2^63. -/
theorem half_range_not_sound : ¬ Sound 4611686018427387904 32 [half .int32, half .float32] := by
  intro hsound
  have hints : (half .int32).bytes = 4611686018427387904 := by decide +kernel
  have hfloats : (half .float32).bytes = 4611686018427387904 := by decide +kernel
  obtain ⟨hdims, hfits⟩ := Key.isArray_iff.1 (by decide +kernel : (half .int32).isArray = true)
  obtain ⟨array, harray⟩ := exists_zeros hdims hfits
  have hneeded := toInt_nbytes_of_zeros harray
  rw [hints] at hneeded
  have hroom : HasRoom (nbytes array) (new 4611686018427387904 32) := by
    refine ⟨?_, by decide⟩
    rw [hneeded]
    decide
  have hzeros := zeros_of_room rfl harray (by decide) (by omega) hroom
  -- The first array is cached; the second one is another key.
  have hrun := (run_singleton 4611686018427387904 32 (half .int32)).trans (ask_of_zeros [] hzeros)
  have haddable := addable_of_sound hsound [half .int32] (half .float32) (List.prefix_refl _) _ _ hrun
  obtain ⟨-, -, hfits⟩ := haddable (by rw [Table.get?_set, if_neg (by decide)]; rfl)
  rw [hfloats] at hfits
  have hlimit : (4611686018427387904 : Int) ≤ (new 4611686018427387904 32).byteLimit.toInt := by decide
  have hentries : 0 < (new 4611686018427387904 32).entryLimit.toInt := by decide
  have hover := hfits (by decide) hlimit hentries
  have hretained : ((0 : Int64) + nbytes array).toInt = 4611686018427387904 := by rw [Int64.zero_add, hneeded]; rfl
  exact absurd (hretained ▸ hover) (by decide)

end

end DistributedZeroBuffers

end Tanpopo
