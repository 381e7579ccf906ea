import Tanpopo.GGUF.Reader
/-!
# The readers of a GGUF header agree

`stable_parseFrom`: on the start of a file the parse is short of bytes or ends
as on the whole file, so the growing start finds what the whole file holds.
`mirrors_skipValue`: skipping a value ends where reading it ends, so the parse
of the tensor table sees the tensors of the full parse.
-/

namespace Tanpopo.GGUF

open Swift Outcome ByteReader

variable {m : Machine}

/-! ## Starts of a file -/

theorem stable_readUInt8 : Stable .truncated readUInt8 := stable_byte

theorem stable_readUInt16 : Stable .truncated readUInt16 :=
  stable_readUInt8.bind fun _ => stable_readUInt8.bind fun _ => stable_pure _

theorem stable_readUInt32 : Stable .truncated readUInt32 :=
  stable_foldlM (fun _ _ => stable_readUInt8.bind fun _ => stable_pure _) _ _

theorem stable_readUInt64 : Stable .truncated readUInt64 :=
  stable_foldlM (fun _ _ => stable_readUInt8.bind fun _ => stable_pure _) _ _

theorem stable_readCount : Stable .truncated readCount :=
  stable_readUInt64.bind fun _ => (stable_guard _ _).bind fun _ => stable_pure _

theorem stable_readString : Stable .truncated (readString m) :=
  stable_readCount.bind fun _ => (stable_bytes _).bind fun _ => stable_lift _

theorem stable_skipBytes (count : Nat) : Stable .truncated (skipBytes count) :=
  (stable_bytes count).bind fun _ => stable_pure _

theorem stable_skipString : Stable .truncated skipString := stable_readCount.bind stable_skipBytes

theorem stable_reserveCapacity (storage : Storage) (count : Nat) : Stable .truncated (reserveCapacity m storage count) :=
  stable_lift _

theorem stable_collect {α : Type} {read : Reader α} (h : Stable .truncated read) (count : Nat) :
    Stable .truncated (collect read count) :=
  stable_loop (fun _ => h.bind fun _ => stable_pure _) count []

theorem stable_skipValue (stack : Nat) (type : UInt32) : Stable .truncated (skipValue stack type) := by
  induction stack generalizing type with
  | zero => exact stable_lift _
  | succ stack ih =>
    unfold skipValue
    split
    · exact stable_skipBytes _
    · split_ifs
      · exact stable_skipString
      · apply stable_readUInt32.bind
        intro elementType
        exact stable_readCount.bind fun count => stable_loop (fun _ => ih elementType) count ()
      · exact stable_fail _

theorem stable_readScalar {type : UInt32} {read : Reader MetadataValue} (h : readScalar type = some read) :
    Stable .truncated read := by
  unfold readScalar at h
  split at h
  all_goals cases h
  all_goals
    first
    | exact stable_readUInt8.bind fun _ => stable_pure _
    | exact stable_readUInt16.bind fun _ => stable_pure _
    | exact stable_readUInt32.bind fun _ => stable_pure _
    | exact stable_readUInt64.bind fun _ => stable_pure _

theorem stable_readMetadataValue (stack : Nat) (type : UInt32) : Stable .truncated (readMetadataValue m stack type) := by
  induction stack generalizing type with
  | zero => exact stable_lift _
  | succ stack ih =>
    unfold readMetadataValue
    split
    · rename_i read hread
      exact stable_readScalar hread
    · split_ifs
      · exact stable_readString.bind fun _ => stable_pure _
      · apply stable_readUInt32.bind
        intro elementType
        apply stable_readCount.bind
        intro count
        apply (stable_reserveCapacity .values count).bind
        intro _
        exact (stable_collect (ih elementType) count).bind fun _ => stable_pure _
      · exact stable_fail _

theorem stable_readPreamble : Stable .truncated readPreamble := by
  apply stable_readUInt32.bind
  intro magic
  apply (stable_guard _ _).bind
  intro _
  apply stable_readUInt32.bind
  intro version
  apply (stable_guard _ _).bind
  intro _
  exact stable_readCount.bind fun _ => stable_readCount.bind fun _ => stable_pure _

theorem stable_readTensor : Stable .truncated (readTensor m) := by
  apply stable_readString.bind
  intro name
  apply stable_readUInt32.bind
  intro dimensionCount
  apply (stable_guard _ _).bind
  intro _
  apply (stable_reserveCapacity .dimensions _).bind
  intro _
  apply (stable_collect stable_readCount _).bind
  intro dimensions
  exact stable_readUInt32.bind fun _ => stable_readUInt64.bind fun _ => stable_pure _

theorem stable_readTensors (tensorCount : Nat) : Stable .truncated (readTensors m tensorCount) := by
  apply (stable_reserveCapacity .tensors tensorCount).bind
  intro _
  exact stable_collect stable_readTensor tensorCount

theorem stable_readEntry (metadata : Metadata) : Stable .truncated (readEntry m metadata) := by
  apply stable_readString.bind
  intro key
  apply stable_readUInt32.bind
  intro valueType
  exact (stable_readMetadataValue m.stack valueType).bind fun _ => stable_pure _

theorem stable_readMetadata (metadataCount : Nat) : Stable .truncated (readMetadata m metadataCount) := by
  apply (stable_reserveCapacity .metadata metadataCount).bind
  intro _
  apply (stable_loop stable_readEntry metadataCount _).bind
  intro metadata
  exact (stable_guard _ _).bind fun _ => stable_pure _

theorem stable_position : Stable .truncated position := fun _ _ _ => .inr rfl

theorem stable_alignOffset (alignment : Int) : Stable .truncated (alignOffset alignment) := by
  apply stable_position.bind
  intro offset
  apply Stable.bind
  · unfold skipPadding
    split_ifs
    · exact stable_skipBytes _
    · exact stable_pure _
  · exact fun _ => stable_position

theorem stable_parseFrom : Stable .truncated (parseFrom m) := by
  apply stable_readPreamble.bind
  intro preamble
  apply (stable_readMetadata _).bind
  intro metadata
  apply (stable_readTensors _).bind
  intro tensors
  exact (stable_alignOffset _).bind fun _ => stable_pure _

theorem stable_skipEntry (u : Unit) : Stable .truncated (skipEntry m u) :=
  stable_readString.bind fun _ => stable_readUInt32.bind fun _ => stable_skipValue _ _

theorem stable_parseTensorInfosFrom : Stable .truncated (parseTensorInfosFrom m) := by
  apply stable_readPreamble.bind
  intro preamble
  apply (stable_loop stable_skipEntry _ _).bind
  exact fun _ => stable_readTensors _

/-- What holds of a reader holds of it from the start of the data on. -/
theorem fromStart_take {α : Type} {r : Reader α} (h : Stable .truncated r) (content : Data) (readSize : Nat) :
    fromStart r (content.take readSize) = threw .truncated ∨ fromStart r (content.take readSize) = fromStart r content := by
  have hsplit := h (content.take readSize) (content.drop readSize) 0
  rw [List.take_append_drop] at hsplit
  unfold fromStart
  rcases hsplit with hshort | hsame
  · rw [hshort]
    exact .inl rfl
  · rw [hsame]
    exact .inr rfl

/-- The growing start ends, and with what the whole content gives. -/
theorem inspect_eq {α : Type} {parse : Data → Outcome LoaderError α} {content : Data}
    (hstart : ∀ n, parse (content.take n) = threw .truncated ∨ parse (content.take n) = parse content)
    {readSize : Nat} (hsize : readSize ≤ content.length) (hzero : readSize = 0 → parse content = threw .truncated) :
    (inspect parse content readSize).bind (fun x => ok x.2) = parse content := by
  induction hn : content.length - readSize using Nat.strong_induction_on generalizing readSize with
  | _ n ih =>
    subst hn
    unfold inspect
    split_ifs with hempty
    · exact (hzero hempty).symm
    cases hparse : parse (content.take readSize) with
    | ok a =>
      rcases hstart readSize with hshort | hsame
      · rw [hparse] at hshort
        cases hshort
      · rw [← hsame, hparse]
        rfl
    | trap =>
      rcases hstart readSize with hshort | hsame
      · rw [hparse] at hshort
        cases hshort
      · rw [← hsame, hparse]
        rfl
    | threw e =>
      simp only
      split_ifs with hgrow
      · exact ih _ (by omega) (by omega) (by omega) rfl
      · change threw e = parse content
        rcases hstart readSize with hshort | hsame
        · rw [hparse] at hshort
          cases hshort
          have hall : content.length ≤ readSize := by
            by_contra hless
            exact hgrow ⟨rfl, by omega⟩
          rw [← hparse, List.take_of_length_le hall]
        · rw [← hsame, hparse]

/-! ## Skipping and reading -/

/-- Every value takes `width` bytes of the data. -/
def Takes {α : Type} (width : Nat) (r : Reader α) : Prop :=
  ∀ data offset a next, r data offset = ok (a, next) →
    next = offset + width ∧ (0 < width → next ≤ data.length ∧ next < 2 ^ 63)

theorem takes_pure {α : Type} (a : α) : Takes 0 (pure a : Reader α) := by
  intro data offset a' next h
  cases h
  exact ⟨rfl, nofun⟩

theorem Takes.bind {α β : Type} {first second : Nat} {r : Reader α} {f : α → Reader β} (hr : Takes first r)
    (hf : ∀ a, Takes second (f a)) : Takes (first + second) (r >>= f) := by
  intro data offset b next h
  obtain ⟨a, middle, ha, hb⟩ := bind_ok h
  obtain ⟨hmiddle, hfirst⟩ := hr data offset a middle ha
  obtain ⟨hnext, hsecond⟩ := hf a data middle b next hb
  refine ⟨by omega, fun hpos => ?_⟩
  rcases Nat.eq_zero_or_pos second with hzero | hsome
  · obtain ⟨hlength, hbound⟩ := hfirst (by omega)
    exact ⟨by omega, by omega⟩
  · exact hsecond hsome

theorem takes_readUInt8 : Takes 1 readUInt8 := by
  intro data offset b next h
  unfold readUInt8 byte at h
  split at h
  · cases h
  rename_i found hfound
  obtain ⟨hlength, -⟩ := List.getElem?_eq_some_iff.1 hfound
  unfold advance at h
  split_ifs at h with hbound
  · cases h
    exact ⟨rfl, fun _ => ⟨hlength, hbound⟩⟩
  · cases h

theorem takes_readUInt16 : Takes 2 readUInt16 :=
  takes_readUInt8.bind fun _ => takes_readUInt8.bind fun _ => takes_pure _

theorem takes_foldlM {σ α : Type} {step : σ → α → Reader σ} (hstep : ∀ s a, Takes 1 (step s a)) (l : List α) (s : σ) :
    Takes l.length (l.foldlM step s) := by
  induction l generalizing s with
  | nil => exact takes_pure s
  | cons a rest ih =>
    rw [List.foldlM_cons, List.length_cons, Nat.add_comm]
    exact (hstep s a).bind fun s => ih s

theorem takes_readUInt32 : Takes 4 readUInt32 :=
  takes_foldlM (fun _ _ => takes_readUInt8.bind fun _ => takes_pure _) (List.range 4) _

theorem takes_readUInt64 : Takes 8 readUInt64 :=
  takes_foldlM (fun _ _ => takes_readUInt8.bind fun _ => takes_pure _) (List.range 8) _

/-- A scalar takes the width with which it is skipped. -/
theorem takes_readScalar {type : UInt32} {read : Reader MetadataValue} (h : readScalar type = some read) :
    ∃ width, scalarWidth type = some width ∧ 0 < width ∧ Takes width read := by
  unfold readScalar at h
  unfold scalarWidth
  split at h
  all_goals cases h
  all_goals
    rename_i htype
    rw [htype]
  · exact ⟨1, rfl, by decide, takes_readUInt8.bind fun _ => takes_pure _⟩
  · exact ⟨1, rfl, by decide, takes_readUInt8.bind fun _ => takes_pure _⟩
  · exact ⟨2, rfl, by decide, takes_readUInt16.bind fun _ => takes_pure _⟩
  · exact ⟨2, rfl, by decide, takes_readUInt16.bind fun _ => takes_pure _⟩
  · exact ⟨4, rfl, by decide, takes_readUInt32.bind fun _ => takes_pure _⟩
  · exact ⟨4, rfl, by decide, takes_readUInt32.bind fun _ => takes_pure _⟩
  · exact ⟨4, rfl, by decide, takes_readUInt32.bind fun _ => takes_pure _⟩
  · exact ⟨1, rfl, by decide, takes_readUInt8.bind fun _ => takes_pure _⟩
  · exact ⟨8, rfl, by decide, takes_readUInt64.bind fun _ => takes_pure _⟩
  · exact ⟨8, rfl, by decide, takes_readUInt64.bind fun _ => takes_pure _⟩
  · exact ⟨8, rfl, by decide, takes_readUInt64.bind fun _ => takes_pure _⟩

theorem scalarWidth_of_readScalar {type : UInt32} (h : readScalar type = none) : scalarWidth type = none := by
  unfold readScalar at h
  unfold scalarWidth
  split at h
  all_goals cases h
  split <;> simp_all

theorem skipBytes_ok {data : Data} {offset width : Nat} (hlength : offset + width ≤ data.length) (hbound : offset + width < 2 ^ 63) :
    skipBytes width data offset = ok ((), offset + width) := by
  unfold skipBytes
  rw [bind_apply, bytes, if_pos (by omega), advance, if_pos hbound]
  rfl

/-- Nothing relates what is read to what is skipped but where they end. -/
abbrev Alike {α β : Type} (_ : α) (_ : β) : Prop := True

theorem mirrors_skipString : Mirrors Alike (readString m) skipString := by
  apply (mirrors_refl readCount).bind
  rintro length _ rfl
  unfold skipBytes
  apply (mirrors_refl (bytes LoaderError.truncated length)).bind
  rintro text _ rfl
  intro data offset value next h
  rw [still_lift _ data offset value next h]
  exact ⟨(), rfl, trivial⟩

/-- Skipping a value ends where reading it ends. -/
theorem mirrors_skipValue (stack : Nat) (type : UInt32) :
    Mirrors Alike (readMetadataValue m stack type) (skipValue stack type) := by
  induction stack generalizing type with
  | zero => nofun
  | succ stack ih =>
    unfold readMetadataValue skipValue
    cases hread : readScalar type with
    | some read =>
      obtain ⟨width, hwidth, hpos, htakes⟩ := takes_readScalar hread
      rw [hwidth]
      intro data offset value next h
      obtain ⟨rfl, hbounds⟩ := htakes data offset value next h
      obtain ⟨hlength, hbound⟩ := hbounds hpos
      exact ⟨(), skipBytes_ok hlength hbound, trivial⟩
    | none =>
      rw [scalarWidth_of_readScalar hread]
      dsimp only
      split_ifs
      · exact mirrors_skipString.bind_still fun _ => still_pure _
      · apply (mirrors_refl readUInt32).bind
        rintro elementType _ rfl
        apply (mirrors_refl readCount).bind
        rintro count _ rfl
        apply Mirrors.still_bind (still_lift _)
        intro _
        apply Mirrors.bind_still (R := Alike) ?_ fun _ => still_pure _
        apply mirrors_loop ?_ count trivial
        intro values _ _
        exact (ih elementType).bind_still fun _ => still_pure _
      · exact mirrors_fail

theorem mirrors_skipEntry (metadata : Metadata) (u : Unit) : Mirrors Alike (readEntry m metadata) (skipEntry m u) := by
  apply (mirrors_refl (readString m)).bind
  rintro key _ rfl
  apply (mirrors_refl readUInt32).bind
  rintro valueType _ rfl
  exact (mirrors_skipValue m.stack valueType).bind_still fun _ => still_pure _

/-- The metadata is skipped up to where it is read. -/
theorem mirrors_skipEntries (metadataCount : Nat) :
    Mirrors Alike (readMetadata m metadataCount) (loop (skipEntry m) metadataCount ()) := by
  apply Mirrors.still_bind (still_lift _)
  intro _
  apply Mirrors.bind_still (R := Alike)
  · exact mirrors_loop (fun metadata u _ => mirrors_skipEntry metadata u) metadataCount trivial
  · intro metadata data offset result next h
    obtain ⟨u, middle, hguard, hpure⟩ := bind_ok h
    rw [still_pure metadata data middle result next hpure]
    exact still_guard _ _ data offset u middle hguard

theorem parseTensorInfos_of_parse {data : Data} {layout : FileLayout} (h : parse m data = ok layout) :
    parseTensorInfos m data = ok layout.tensors := by
  obtain ⟨finish, hresult⟩ : ∃ finish, parseFrom m data 0 = ok (layout, finish) := by
    unfold parse fromStart at h
    cases hparse : parseFrom m data 0 with
    | ok result =>
      rw [hparse] at h
      cases h
      exact ⟨result.2, rfl⟩
    | threw e => rw [hparse] at h; cases h
    | trap => rw [hparse] at h; cases h
  unfold parseFrom at hresult
  obtain ⟨preamble, afterPreamble, hpreamble, hresult⟩ := bind_ok hresult
  obtain ⟨metadata, afterMetadata, hmetadata, hresult⟩ := bind_ok hresult
  obtain ⟨tensors, afterTensors, htensors, hresult⟩ := bind_ok hresult
  obtain ⟨tensorDataOffset, afterPadding, -, hlayout⟩ := bind_ok hresult
  cases hlayout
  obtain ⟨u, hskip, -⟩ := mirrors_skipEntries preamble.metadataCount data afterPreamble metadata afterMetadata hmetadata
  unfold parseTensorInfos fromStart parseTensorInfosFrom
  rw [bind_apply, hpreamble]
  change ((loop (skipEntry m) preamble.metadataCount () >>= fun _ => readTensors m preamble.tensorCount) data afterPreamble).bind _ = _
  rw [bind_apply, hskip]
  change (readTensors m preamble.tensorCount data afterMetadata).bind _ = _
  rw [htensors]
  rfl

theorem parse_nil : parse m [] = threw .truncated := rfl

theorem parseTensorInfos_nil : parseTensorInfos m [] = threw .truncated := rfl

theorem parse_take (content : Data) (readSize : Nat) :
    parse m (content.take readSize) = threw .truncated ∨ parse m (content.take readSize) = parse m content :=
  fromStart_take stable_parseFrom content readSize

theorem parseTensorInfos_take (content : Data) (readSize : Nat) :
    parseTensorInfos m (content.take readSize) = threw .truncated ∨
      parseTensorInfos m (content.take readSize) = parseTensorInfos m content :=
  fromStart_take stable_parseTensorInfosFrom content readSize

theorem eq_nil_of_readSize {content : Data} (h : min content.length 1048576 = 0) : content = [] :=
  List.eq_nil_of_length_eq_zero (by omega)

theorem readInspectionData_eq (content : Data) : (readInspectionData m content).bind (fun x => ok x.2) = parse m content := by
  apply inspect_eq (parse_take content) (Nat.min_le_left _ _)
  intro hzero
  rw [eq_nil_of_readSize hzero]
  exact parse_nil

theorem readTensorInspectionData_eq (content : Data) : readTensorInspectionData m content = parseTensorInfos m content := by
  apply inspect_eq (parseTensorInfos_take content) (Nat.min_le_left _ _)
  intro hzero
  rw [eq_nil_of_readSize hzero]
  exact parseTensorInfos_nil

/-- The three readers of a header agree, whatever is reserved and however deep the stack is. -/
theorem readers_agree (m : Machine) :
    (∀ content readSize, parse m (content.take readSize) = threw .truncated ∨
      parse m (content.take readSize) = parse m content) ∧
    (∀ content, (readInspectionData m content).bind (fun x => ok x.2) = parse m content) ∧
    (∀ content, readTensorInspectionData m content = parseTensorInfos m content) ∧
    (∀ content layout, parse m content = ok layout → parseTensorInfos m content = ok layout.tensors) ∧
    ∀ stack type data offset value next, readMetadataValue m stack type data offset = ok (value, next) →
      skipValue stack type data offset = ok ((), next) := by
  refine ⟨parse_take, readInspectionData_eq, readTensorInspectionData_eq, fun _ _ h => parseTensorInfos_of_parse h, ?_⟩
  intro stack type data offset value next h
  obtain ⟨u, hskip, -⟩ := mirrors_skipValue stack type data offset value next h
  exact hskip

end Tanpopo.GGUF
