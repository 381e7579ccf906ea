import Tanpopo.GGUF.Agreement
import Tanpopo.GGUF.Storage
/-!
# Where the GGUF readers trap

The readers trap where a count for which they reserve capacity is too large,
where arrays are nested deeper than the stack, and where the estimate of the
converted bytes does not fit once the allowance is added.
-/

namespace Tanpopo.GGUF

open Swift Outcome ByteReader

/-! ## Readers that never trap -/

variable {m m' : Machine} {data : Data} {offset : Nat}

theorem calm_readUInt8 : Calm readUInt8 := calm_byte _

theorem calm_readUInt16 : Calm readUInt16 := calm_readUInt8.bind fun _ => calm_readUInt8.bind fun _ => calm_pure _

theorem calm_readUInt32 : Calm readUInt32 := calm_foldlM (fun _ _ => calm_readUInt8.bind fun _ => calm_pure _) _ _

theorem calm_readUInt64 : Calm readUInt64 := calm_foldlM (fun _ _ => calm_readUInt8.bind fun _ => calm_pure _) _ _

theorem calm_readCount : Calm readCount := calm_readUInt64.bind fun _ => (calm_guard _ _).bind fun _ => calm_pure _

theorem calm_readString : Calm (readString m) := by
  apply calm_readCount.bind
  intro length
  apply (calm_bytes _ length).bind
  intro text
  apply calm_lift
  cases m.decode text <;> exact nofun

theorem calm_skipBytes (count : Nat) : Calm (skipBytes count) := (calm_bytes _ count).bind fun _ => calm_pure _

theorem calm_skipString : Calm skipString := calm_readCount.bind calm_skipBytes

theorem calm_readScalar {type : UInt32} {read : Reader MetadataValue} (h : readScalar type = some read) : Calm read := by
  unfold readScalar at h
  split at h
  all_goals cases h
  all_goals
    first
    | exact calm_readUInt8.bind fun _ => calm_pure _
    | exact calm_readUInt16.bind fun _ => calm_pure _
    | exact calm_readUInt32.bind fun _ => calm_pure _
    | exact calm_readUInt64.bind fun _ => calm_pure _

theorem calm_readPreamble : Calm readPreamble := by
  apply calm_readUInt32.bind
  intro magic
  apply (calm_guard _ _).bind
  intro _
  apply calm_readUInt32.bind
  intro version
  apply (calm_guard _ _).bind
  intro _
  exact calm_readCount.bind fun _ => calm_readCount.bind fun _ => calm_pure _

theorem calm_alignOffset (alignment : Int) : Calm (alignOffset alignment) := by
  apply Calm.bind (r := position)
  · exact nofun
  · intro offset
    apply Calm.bind
    · unfold skipPadding
      split_ifs
      · exact calm_skipBytes _
      · exact calm_pure _
    · exact fun _ => nofun

theorem reserveCapacity_ne_trap_iff {storage : Storage} {count : Nat} :
    reserveCapacity m storage count data offset ≠ trap ↔ m.reserves storage count = true := by
  unfold reserveCapacity lift
  split_ifs with h
  · exact ⟨fun _ => h, fun _ => nofun⟩
  · exact ⟨fun hne => absurd rfl hne, fun hreserves => absurd hreserves h⟩

/-- A reservation reads nothing. -/
theorem reserveCapacity_bind_ne_trap_iff {α : Type} {f : Unit → Reader α} {storage : Storage} {count : Nat} :
    (reserveCapacity m storage count >>= f) data offset ≠ trap ↔
      m.reserves storage count = true ∧ f () data offset ≠ trap := by
  rw [ByteReader.bind_ne_trap_iff, reserveCapacity_ne_trap_iff]
  refine and_congr_right fun hreserves => ⟨fun h => h () offset ?_, fun h u next heq => ?_⟩
  · rw [reserveCapacity, hreserves]
    rfl
  · rw [still_lift _ data offset u next heq]
    exact h

/-! ## More room -/

/-- A process that reserves more and has a deeper stack. -/
structure Looser (m m' : Machine) : Prop where
  decode : m.decode = m'.decode
  reserves : ∀ storage count, m.reserves storage count = true → m'.reserves storage count = true
  stack : m.stack ≤ m'.stack

/-- The process with every reservation and a stack of the given depth. -/
def Machine.free (m : Machine) (depth : Nat) : Machine := { m with reserves := fun _ _ => true, stack := depth }

theorem looser_free {depth : Nat} (h : m.stack ≤ depth) : Looser m (m.free depth) := ⟨rfl, fun _ _ _ => rfl, h⟩

theorem looser_free_free {depth depth' : Nat} (h : depth ≤ depth') : Looser (m.free depth) (m.free depth') :=
  ⟨rfl, fun _ _ _ => rfl, h⟩

theorem readString_congr (h : m.decode = m'.decode) : readString m = readString m' := by
  unfold readString
  rw [h]

theorem upToTraps_reserveCapacity (h : Looser m m') (storage : Storage) (count : Nat) :
    UpToTraps (reserveCapacity m storage count) (reserveCapacity m' storage count) := by
  intro data offset
  unfold reserveCapacity
  split_ifs with hsmall hlarge
  · exact .inr rfl
  · exact absurd (h.reserves storage count hsmall) hlarge
  · exact .inl rfl
  · exact .inl rfl

theorem upToTraps_collect {α : Type} {r s : Reader α} (h : UpToTraps r s) (count : Nat) :
    UpToTraps (collect r count) (collect s count) :=
  upToTraps_loop (fun _ => h.bind fun _ => upToTraps_refl _) count []

theorem upToTraps_readMetadataValue (h : Looser m m') {stack stack' : Nat} (hstack : stack ≤ stack') (type : UInt32) :
    UpToTraps (readMetadataValue m stack type) (readMetadataValue m' stack' type) := by
  induction stack generalizing stack' type with
  | zero => exact upToTraps_trap
  | succ stack ih =>
    obtain ⟨stack', rfl⟩ : ∃ k, stack' = k + 1 := ⟨stack' - 1, by omega⟩
    unfold readMetadataValue
    cases readScalar type with
    | some read => exact upToTraps_refl read
    | none =>
      dsimp only
      split_ifs
      · rw [readString_congr h.decode]
        exact upToTraps_refl _
      · apply (upToTraps_refl readUInt32).bind
        intro elementType
        apply (upToTraps_refl readCount).bind
        intro count
        apply (upToTraps_reserveCapacity h .values count).bind
        intro _
        exact (upToTraps_collect (ih (by omega) elementType) count).bind fun _ => upToTraps_refl _
      · exact upToTraps_refl _

theorem upToTraps_skipValue {stack stack' : Nat} (hstack : stack ≤ stack') (type : UInt32) :
    UpToTraps (skipValue stack type) (skipValue stack' type) := by
  induction stack generalizing stack' type with
  | zero => exact upToTraps_trap
  | succ stack ih =>
    obtain ⟨stack', rfl⟩ : ∃ k, stack' = k + 1 := ⟨stack' - 1, by omega⟩
    unfold skipValue
    cases scalarWidth type with
    | some width => exact upToTraps_refl _
    | none =>
      dsimp only
      split_ifs
      · exact upToTraps_refl _
      · apply (upToTraps_refl readUInt32).bind
        intro elementType
        apply (upToTraps_refl readCount).bind
        intro count
        exact upToTraps_loop (fun _ => ih (by omega) elementType) count ()
      · exact upToTraps_refl _

theorem upToTraps_readTensor (h : Looser m m') : UpToTraps (readTensor m) (readTensor m') := by
  unfold readTensor
  rw [readString_congr h.decode]
  apply (upToTraps_refl (readString m')).bind
  intro name
  apply (upToTraps_refl readUInt32).bind
  intro dimensionCount
  apply (upToTraps_refl (ByteReader.guard _ _)).bind
  intro _
  exact (upToTraps_reserveCapacity h .dimensions _).bind fun _ => upToTraps_refl _

theorem upToTraps_readEntry (h : Looser m m') (metadata : Metadata) : UpToTraps (readEntry m metadata) (readEntry m' metadata) := by
  unfold readEntry
  rw [readString_congr h.decode]
  apply (upToTraps_refl (readString m')).bind
  intro key
  apply (upToTraps_refl readUInt32).bind
  intro valueType
  exact (upToTraps_readMetadataValue h h.stack valueType).bind fun _ => upToTraps_refl _

theorem upToTraps_readMetadata (h : Looser m m') (metadataCount : Nat) :
    UpToTraps (readMetadata m metadataCount) (readMetadata m' metadataCount) := by
  apply (upToTraps_reserveCapacity h .metadata metadataCount).bind
  intro _
  exact (upToTraps_loop (upToTraps_readEntry h) metadataCount _).bind fun _ => upToTraps_refl _

theorem upToTraps_skipEntry (h : Looser m m') (u : Unit) : UpToTraps (skipEntry m u) (skipEntry m' u) := by
  unfold skipEntry
  rw [readString_congr h.decode]
  apply (upToTraps_refl (readString m')).bind
  intro key
  exact (upToTraps_refl readUInt32).bind fun type => upToTraps_skipValue h.stack type

/-! ## Counts that fit -/

/-- Every array that stands in a value, after elements that are complete, has a count that can be reserved and is not
nested deeper than the stack. -/
def ValueFits (m : Machine) (data : Data) : Nat → UInt32 → Nat → Prop
  | 0, _, _ => False
  | stack + 1, type, offset => type = 9 → ∀ elementType afterType, readUInt32 data offset = ok (elementType, afterType) →
      ∀ count start, readCount data afterType = ok (count, start) →
      m.reserves .values count = true ∧ ∀ k < count, ∀ depth values next,
        collect (readMetadataValue (m.free depth) depth elementType) k data start = ok (values, next) →
        ValueFits m data stack elementType next

/-- No array that stands in a value is nested deeper than the stack. -/
def SkipFits (data : Data) : Nat → UInt32 → Nat → Prop
  | 0, _, _ => False
  | stack + 1, type, offset => type = 9 → ∀ elementType afterType, readUInt32 data offset = ok (elementType, afterType) →
      ∀ count start, readCount data afterType = ok (count, start) →
      ∀ k < count, ∀ depth next, loop (fun _ => skipValue depth elementType) k () data start = ok ((), next) →
        SkipFits data stack elementType next

theorem collect_ne_trap_iff {α : Type} {read : Reader α} (free : Nat → Reader α) (bound : Nat) {count : Nat}
    (hread : ∀ depth ≥ bound, UpToTraps read (free depth))
    (hfree : ∀ depth depth', depth ≤ depth' → UpToTraps (free depth) (free depth')) (hlength : data.length < 2 ^ 63) :
    collect read count data offset ≠ trap ↔
      ∀ k < count, ∀ depth items next, collect (free depth) k data offset = ok (items, next) → read data next ≠ trap := by
  unfold collect
  rw [loop_ne_trap_iff_free (fun depth items => do
    let item ← free depth
    return items ++ [item]) bound]
  · refine forall₂_congr fun k _ => forall_congr' fun depth => forall_congr' fun items => forall₂_congr fun next _ => ?_
    exact bind_calm_ne_trap_iff (fun _ => calm_pure _) hlength
  · exact fun depth hdepth items => (hread depth hdepth).bind fun _ => upToTraps_refl _
  · exact fun depth depth' hdepth items => (hfree depth depth' hdepth).bind fun _ => upToTraps_refl _

theorem readScalar_array : readScalar 9 = none := rfl

theorem scalarWidth_array : scalarWidth 9 = none := rfl

/-- The type and the count of an array are read before its elements. -/
theorem arrayHead_ne_trap_iff {α : Type} (hlength : data.length < 2 ^ 63) {elements : UInt32 → Nat → Reader α} :
    (readUInt32 >>= fun elementType => readCount >>= elements elementType) data offset ≠ trap ↔
      ∀ elementType afterType, readUInt32 data offset = ok (elementType, afterType) →
        ∀ count start, readCount data afterType = ok (count, start) → elements elementType count data start ≠ trap := by
  rw [calm_readUInt32.bind_ne_trap_iff hlength]
  refine forall₃_congr fun elementType afterType _ => ?_
  exact calm_readCount.bind_ne_trap_iff hlength

theorem readMetadataValue_ne_trap_iff (hlength : data.length < 2 ^ 63) {stack : Nat} {type : UInt32} :
    readMetadataValue m stack type data offset ≠ trap ↔ ValueFits m data stack type offset := by
  induction stack generalizing type offset with
  | zero => exact ⟨fun h => absurd rfl h, False.elim⟩
  | succ stack ih =>
    unfold readMetadataValue ValueFits
    by_cases harray : type = 9
    · subst harray
      rw [readScalar_array]
      dsimp only
      rw [if_neg (by decide), if_pos rfl, arrayHead_ne_trap_iff hlength]
      refine Iff.trans ?_ (forall_prop_of_true rfl).symm
      refine forall₃_congr fun elementType afterType _ => forall₃_congr fun count start _ => ?_
      rw [reserveCapacity_bind_ne_trap_iff, bind_calm_ne_trap_iff (fun _ => calm_pure _) hlength,
        collect_ne_trap_iff (fun depth => readMetadataValue (m.free depth) depth elementType) (max stack m.stack)
          ?_ ?_ hlength]
      · refine and_congr_right fun _ => forall₂_congr fun k _ => forall_congr' fun depth => forall₃_congr fun values next _ => ?_
        exact ih
      · exact fun depth hdepth => upToTraps_readMetadataValue (looser_free (by omega)) (by omega) elementType
      · exact fun depth depth' hdepth => upToTraps_readMetadataValue (looser_free_free hdepth) hdepth elementType
    · refine iff_of_true ?_ fun h => absurd h harray
      cases hread : readScalar type with
      | some read => exact calm_readScalar hread data offset hlength
      | none =>
        dsimp only
        rw [if_neg harray]
        split_ifs
        · exact calm_readString.bind (fun _ => calm_pure _) data offset hlength
        · rintro ⟨⟩

theorem skipValue_ne_trap_iff (hlength : data.length < 2 ^ 63) {stack : Nat} {type : UInt32} :
    skipValue stack type data offset ≠ trap ↔ SkipFits data stack type offset := by
  induction stack generalizing type offset with
  | zero => exact ⟨fun h => absurd rfl h, False.elim⟩
  | succ stack ih =>
    unfold skipValue SkipFits
    by_cases harray : type = 9
    · subst harray
      rw [scalarWidth_array]
      dsimp only
      rw [if_neg (by decide), if_pos rfl, arrayHead_ne_trap_iff hlength]
      refine Iff.trans ?_ (forall_prop_of_true rfl).symm
      refine forall₃_congr fun elementType afterType _ => forall₃_congr fun count start _ => ?_
      rw [loop_ne_trap_iff_free (fun depth _ => skipValue depth elementType) stack]
      · refine forall₂_congr fun k _ => forall_congr' fun depth => ?_
        exact ⟨fun h next heq => ih.1 (h () next heq), fun h _ next heq => ih.2 (h next heq)⟩
      · exact fun depth hdepth _ => upToTraps_skipValue hdepth elementType
      · exact fun depth depth' hdepth _ => upToTraps_skipValue hdepth elementType
    · refine iff_of_true ?_ fun h => absurd h harray
      cases scalarWidth type with
      | some width => exact calm_skipBytes width data offset hlength
      | none =>
        dsimp only
        rw [if_neg harray]
        split_ifs
        · exact calm_skipString data offset hlength
        · rintro ⟨⟩

/-! ## Files that fit -/

def EntryFits (m : Machine) (data : Data) (offset : Nat) : Prop :=
  ∀ key afterKey, readString m data offset = ok (key, afterKey) →
    ∀ type start, readUInt32 data afterKey = ok (type, start) → ValueFits m data m.stack type start

def SkippedEntryFits (m : Machine) (data : Data) (offset : Nat) : Prop :=
  ∀ key afterKey, readString m data offset = ok (key, afterKey) →
    ∀ type start, readUInt32 data afterKey = ok (type, start) → SkipFits data m.stack type start

/-- The capacity of the metadata can be reserved, and the values in it fit. -/
def MetadataFits (m : Machine) (data : Data) (metadataCount offset : Nat) : Prop :=
  m.reserves .metadata metadataCount = true ∧ ∀ k < metadataCount, ∀ depth metadata next,
    loop (readEntry (m.free depth)) k ⟨32, []⟩ data offset = ok (metadata, next) → EntryFits m data next

def TensorFits (m : Machine) (data : Data) (offset : Nat) : Prop :=
  ∀ name afterName, readString m data offset = ok (name, afterName) →
    ∀ count start, readUInt32 data afterName = ok (count, start) → m.reserves .dimensions count.toNat = true

def TensorsFit (m : Machine) (data : Data) (tensorCount offset : Nat) : Prop :=
  m.reserves .tensors tensorCount = true ∧ ∀ k < tensorCount, ∀ depth tensors next,
    collect (readTensor (m.free depth)) k data offset = ok (tensors, next) → TensorFits m data next

/-- The counts of a file that the full parse comes to fit. -/
def FileFits (m : Machine) (data : Data) : Prop :=
  ∀ preamble start, readPreamble data 0 = ok (preamble, start) →
    MetadataFits m data preamble.metadataCount start ∧ ∀ depth metadata next,
      readMetadata (m.free depth) preamble.metadataCount data start = ok (metadata, next) →
      TensorsFit m data preamble.tensorCount next

/-- The counts of a file that the parse of the tensor table comes to fit. -/
def TableFits (m : Machine) (data : Data) : Prop :=
  ∀ preamble start, readPreamble data 0 = ok (preamble, start) →
    (∀ k < preamble.metadataCount, ∀ depth next,
      loop (skipEntry (m.free depth)) k () data start = ok ((), next) → SkippedEntryFits m data next) ∧
    ∀ depth next, loop (skipEntry (m.free depth)) preamble.metadataCount () data start = ok ((), next) →
      TensorsFit m data preamble.tensorCount next

theorem readEntry_ne_trap_iff (hlength : data.length < 2 ^ 63) {metadata : Metadata} :
    readEntry m metadata data offset ≠ trap ↔ EntryFits m data offset := by
  unfold readEntry
  rw [calm_readString.bind_ne_trap_iff hlength]
  refine forall₃_congr fun key afterKey _ => ?_
  rw [calm_readUInt32.bind_ne_trap_iff hlength]
  refine forall₃_congr fun type start _ => ?_
  rw [bind_calm_ne_trap_iff (fun _ => calm_pure _) hlength]
  exact readMetadataValue_ne_trap_iff hlength

theorem skipEntry_ne_trap_iff (hlength : data.length < 2 ^ 63) {u : Unit} :
    skipEntry m u data offset ≠ trap ↔ SkippedEntryFits m data offset := by
  unfold skipEntry
  rw [calm_readString.bind_ne_trap_iff hlength]
  refine forall₃_congr fun key afterKey _ => ?_
  rw [calm_readUInt32.bind_ne_trap_iff hlength]
  exact forall₃_congr fun type start _ => skipValue_ne_trap_iff hlength

theorem readMetadata_ne_trap_iff (hlength : data.length < 2 ^ 63) {metadataCount : Nat} :
    readMetadata m metadataCount data offset ≠ trap ↔ MetadataFits m data metadataCount offset := by
  unfold readMetadata
  rw [reserveCapacity_bind_ne_trap_iff, bind_calm_ne_trap_iff (fun _ => (calm_guard _ _).bind fun _ => calm_pure _) hlength,
    loop_ne_trap_iff_free (fun depth => readEntry (m.free depth)) m.stack]
  · refine and_congr_right fun _ => forall₂_congr fun k _ => forall_congr' fun depth => forall₃_congr fun metadata next _ => ?_
    exact readEntry_ne_trap_iff hlength
  · exact fun depth hdepth => upToTraps_readEntry (looser_free hdepth)
  · exact fun depth depth' hdepth => upToTraps_readEntry (looser_free_free hdepth)

theorem readTensor_ne_trap_iff (hlength : data.length < 2 ^ 63) :
    readTensor m data offset ≠ trap ↔ TensorFits m data offset := by
  unfold readTensor
  rw [calm_readString.bind_ne_trap_iff hlength]
  refine forall₃_congr fun name afterName _ => ?_
  rw [calm_readUInt32.bind_ne_trap_iff hlength]
  refine forall₃_congr fun count start _ => ?_
  have hcount : count.toNat < 2 ^ 63 := by
    have := count.toNat_lt
    omega
  rw [guard_bind hcount, reserveCapacity_bind_ne_trap_iff]
  refine and_iff_left ?_
  apply Calm.bind
  · exact calm_loop (fun _ => calm_readCount.bind fun _ => calm_pure _) _ _
  · exact fun _ => calm_readUInt32.bind fun _ => calm_readUInt64.bind fun _ => calm_pure _
  · exact hlength

theorem readTensors_ne_trap_iff (hlength : data.length < 2 ^ 63) {tensorCount : Nat} :
    readTensors m tensorCount data offset ≠ trap ↔ TensorsFit m data tensorCount offset := by
  unfold readTensors
  rw [reserveCapacity_bind_ne_trap_iff, collect_ne_trap_iff (fun depth => readTensor (m.free depth)) m.stack
    ?_ ?_ hlength]
  · refine and_congr_right fun _ => forall₂_congr fun k _ => forall_congr' fun depth => forall₃_congr fun tensors next _ => ?_
    exact readTensor_ne_trap_iff hlength
  · exact fun depth hdepth => upToTraps_readTensor (looser_free hdepth)
  · exact fun depth depth' hdepth => upToTraps_readTensor (looser_free_free hdepth)

theorem fromStart_ne_trap_iff {α : Type} {r : Reader α} : fromStart r data ≠ trap ↔ r data 0 ≠ trap := by
  unfold fromStart
  cases r data 0 with
  | ok x => exact iff_of_true nofun nofun
  | threw e => exact iff_of_true nofun nofun
  | trap => exact iff_of_false (fun h => h rfl) fun h => h rfl

theorem parse_ne_trap_iff (hlength : data.length < 2 ^ 63) : parse m data ≠ trap ↔ FileFits m data := by
  unfold parse
  rw [fromStart_ne_trap_iff, parseFrom, calm_readPreamble.bind_ne_trap_iff hlength]
  refine forall₃_congr fun preamble start _ => ?_
  rw [bind_ne_trap_iff_free (fun depth => readMetadata (m.free depth) preamble.metadataCount) m.stack,
    readMetadata_ne_trap_iff hlength]
  · refine and_congr_right fun _ => forall_congr' fun depth => forall₃_congr fun metadata next _ => ?_
    rw [bind_calm_ne_trap_iff (fun _ => (calm_alignOffset _).bind fun _ => calm_pure _) hlength]
    exact readTensors_ne_trap_iff hlength
  · exact fun depth hdepth => upToTraps_readMetadata (looser_free hdepth) _
  · exact fun depth depth' hdepth => upToTraps_readMetadata (looser_free_free hdepth) _

theorem parseTensorInfos_ne_trap_iff (hlength : data.length < 2 ^ 63) : parseTensorInfos m data ≠ trap ↔ TableFits m data := by
  unfold parseTensorInfos
  rw [fromStart_ne_trap_iff, parseTensorInfosFrom, calm_readPreamble.bind_ne_trap_iff hlength]
  refine forall₃_congr fun preamble start _ => ?_
  have hskip : ∀ depth ≥ m.stack, ∀ u, UpToTraps (skipEntry m u) (skipEntry (m.free depth) u) :=
    fun depth hdepth => upToTraps_skipEntry (looser_free hdepth)
  have hfree : ∀ depth depth', depth ≤ depth' → ∀ u, UpToTraps (skipEntry (m.free depth) u) (skipEntry (m.free depth') u) :=
    fun depth depth' hdepth => upToTraps_skipEntry (looser_free_free hdepth)
  rw [bind_ne_trap_iff_free (fun depth => loop (skipEntry (m.free depth)) preamble.metadataCount ()) m.stack,
    loop_ne_trap_iff_free (fun depth => skipEntry (m.free depth)) m.stack hskip hfree]
  · refine and_congr ?_ ?_
    · refine forall₂_congr fun k _ => forall_congr' fun depth => ?_
      exact ⟨fun h next heq => (skipEntry_ne_trap_iff hlength).1 (h () next heq),
        fun h _ next heq => (skipEntry_ne_trap_iff hlength).2 (h next heq)⟩
    · refine forall_congr' fun depth => ?_
      exact ⟨fun h next heq => (readTensors_ne_trap_iff hlength).1 (h () next heq),
        fun h _ next heq => (readTensors_ne_trap_iff hlength).2 (h next heq)⟩
  · exact fun depth hdepth => upToTraps_loop (hskip depth hdepth) _ _
  · exact fun depth depth' hdepth => upToTraps_loop (hfree depth depth' hdepth) _ _

/-! ## Sizes -/

theorem divided_ne_trap {value divisor : Int64} (hzero : divisor ≠ 0) (hminus : divisor ≠ -1) : divided value divisor ≠ trap := by
  unfold divided
  rw [if_neg]
  · exact nofun
  · rintro (h | ⟨-, h⟩)
    · exact hzero h
    · exact hminus h

theorem checkedByteCount_ne_trap (count elementSize : Int64) : checkedByteCount count elementSize ≠ trap := by
  unfold checkedByteCount
  dsimp only
  split_ifs <;> exact nofun

theorem blockBytes_ne_trap {elementCount block bytes : Int64} (hzero : block ≠ 0) (hminus : block ≠ -1) :
    blockBytes elementCount block bytes ≠ trap := by
  have hdivided : divided elementCount block ≠ trap := divided_ne_trap hzero hminus
  unfold blockBytes divisible Outcome.guard
  split_ifs
  · cases hresult : divided elementCount block with
    | ok result =>
      simp only [ok_bind]
      split_ifs
      · exact checkedByteCount_ne_trap _ _
      · exact nofun
    | threw e => exact nofun
    | trap => exact absurd hresult hdivided
  · exact nofun

/-- The size of a tensor never traps. -/
theorem tensorByteCount_ne_trap (type : UInt32) (elementCount : Int64) : tensorByteCount type elementCount ≠ trap := by
  unfold tensorByteCount
  split
  all_goals first
    | exact checkedByteCount_ne_trap _ _
    | exact blockBytes_ne_trap (by decide) (by decide)
    | exact nofun

theorem quantizationStrategy_ne_trap (tensors : List TensorInfo) (requestedGroupSize : Option Nat)
    (profile : QuantizationProfile) : quantizationStrategy tensors requestedGroupSize profile ≠ trap := by
  unfold quantizationStrategy
  split
  · exact nofun
  · dsimp only
    split <;> exact nofun

theorem checkedProduct_ne_trap (values : List Nat) : checkedProduct values ≠ trap := by
  unfold checkedProduct
  rw [foldlM_ne_trap_iff]
  intro before value after _ product _
  split_ifs <;> exact nofun

theorem convertedBytes_ne_trap (strategy : QuantizationStrategy) (policy : RecurrentPromotionPolicy) (tensor : TensorInfo) :
    convertedBytes m strategy policy tensor ≠ trap := by
  unfold convertedBytes
  rw [Outcome.bind_ne_trap_iff]
  refine ⟨checkedProduct_ne_trap _, fun product _ => ?_⟩
  dsimp only
  split
  · exact nofun
  · split
    · exact nofun
    · split <;> exact nofun

theorem totalBytes_ne_trap (strategy : QuantizationStrategy) (policy : RecurrentPromotionPolicy) (tensors : List TensorInfo) :
    totalBytes m strategy policy tensors ≠ trap := by
  unfold totalBytes
  rw [foldlM_ne_trap_iff]
  intro before tensor after _ byteCount _
  rw [Outcome.bind_ne_trap_iff]
  exact ⟨convertedBytes_ne_trap strategy policy tensor, nofun⟩

theorem tensorInfos_ne_trap_iff {contents : List Data} (hlength : ∀ content ∈ contents, content.length < 2 ^ 63) :
    tensorInfos m contents ≠ trap ↔ ∀ before content after, contents = before ++ content :: after →
      ∀ tensors, tensorInfos m before = ok tensors → TableFits m content := by
  unfold tensorInfos
  rw [foldlM_ne_trap_iff]
  refine forall₂_congr fun before content => forall₂_congr fun after heq => forall₂_congr fun tensors _ => ?_
  have hcontent := hlength content (by rw [heq]; exact List.mem_append_right _ List.mem_cons_self)
  rw [Outcome.bind_ne_trap_iff, readTensorInspectionData_eq, ← parseTensorInfos_ne_trap_iff hcontent]
  exact and_iff_left nofun

/-- The files that come to be read fit, and the estimate is refused or has room for its allowance. -/
def AnalysisFits (m : Machine) (contents : List Data) (requestedGroupSize : Option Nat) (profile : QuantizationProfile)
    (policy : RecurrentPromotionPolicy) : Prop :=
  (∀ before content after, contents = before ++ content :: after →
    ∀ tensors, tensorInfos m before = ok tensors → TableFits m content) ∧
  ∀ tensors strategy byteCount, tensorInfos m contents = ok tensors →
    quantizationStrategy tensors requestedGroupSize profile = ok strategy →
    totalBytes m strategy policy tensors = ok byteCount → 2 ^ 63 < byteCount ∨ withAllowance byteCount < 2 ^ 63

theorem conversionStorageAnalysis_ne_trap_iff {contents : List Data} (hlength : ∀ content ∈ contents, content.length < 2 ^ 63)
    (requestedGroupSize : Option Nat) (profile : QuantizationProfile) (policy : RecurrentPromotionPolicy) :
    conversionStorageAnalysis m contents requestedGroupSize profile policy ≠ trap ↔
      AnalysisFits m contents requestedGroupSize profile policy := by
  unfold conversionStorageAnalysis AnalysisFits
  rw [Outcome.bind_ne_trap_iff, tensorInfos_ne_trap_iff hlength]
  refine and_congr_right fun _ => ?_
  simp only [Outcome.bind_ne_trap_iff, quantizationStrategy_ne_trap, totalBytes_ne_trap, ne_eq, not_false_eq_true, true_and]
  refine forall_congr' fun tensors => ⟨fun h strategy byteCount htensors hstrategy hbytes => ?_,
    fun h htensors strategy hstrategy byteCount hbytes => ?_⟩
  · have hend := (h htensors strategy hstrategy byteCount hbytes).2
    by_cases hsmall : byteCount ≤ 2 ^ 63
    · have hfit := hend () (guard_of hsmall)
      split_ifs at hfit with hroom
      · exact .inr hroom
      · exact absurd rfl hfit
    · exact .inl (not_le.1 hsmall)
  · refine ⟨?_, fun u hguard => ?_⟩
    · unfold Outcome.guard
      split_ifs <;> exact nofun
    · rw [guard_eq_ok] at hguard
      rcases h strategy byteCount htensors hstrategy hbytes with hlarge | hroom
      · exact absurd hguard (not_le.2 hlarge)
      · rw [if_pos hroom]
        exact nofun

/-! ## When parsing does not trap -/

/-- A process that reserves capacity as long as the count times the size of an element is an `Int`. -/
def process (decode : Data → Option String) (components : String → List String) (stride : Storage → Nat) (stack : Nat) :
    Machine :=
  ⟨decode, components, fun storage count => decide (stride storage * count < 2 ^ 63), stack⟩

/-- A process with the sizes that the compiler gives the elements. -/
def sampleProcess : Machine :=
  process (fun bytes => if bytes.all (· < 128) then some (String.ofList (bytes.map fun b => Char.ofNat b.toNat)) else none)
    (fun name => (name.toList.splitOn '.').map String.ofList)
    (fun | .values => 24 | .metadata => 40 | .tensors => 40 | .dimensions => 8) 4096

/-- A version 3 header without tensors that announces `2 ^ 63 - 1` pairs of metadata. -/
def hugeMetadata : Data := [71, 71, 85, 70, 3, 0, 0, 0, 0, 0, 0, 0, 0, 0, 0, 0, 255, 255, 255, 255, 255, 255, 255, 127]

theorem parse_hugeMetadata : parse sampleProcess hugeMetadata = trap := eq_trap_of_isTrap (by decide +kernel)

end Tanpopo.GGUF
