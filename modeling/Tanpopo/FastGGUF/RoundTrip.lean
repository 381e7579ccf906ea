import Tanpopo.FastGGUF.Safety
import Mathlib.Data.List.Sort
/-!
# What is stored is loaded

The writer places the tensors one after the other, each at the next multiple
of 16 behind the header region. The reader gives the same arrays back unless
it refuses something the writer let through: an empty name, a shape whose
product overflows before a zero dimension, or a mapping of 2 GiB and more.
-/

namespace Tanpopo.FastGGUF
open Swift Outcome MLXArray

/-! ## The layout of the payload -/

/-- The bytes stored for an array. -/
def storedBytes (p : Platform) (a : MLXArray) : Data := (encodeIfWorthwhile p a.data).getD a.data

def alignUp (position : Nat) : Nat := (position + 15) / 16 * 16

/-- A named array and the payload position of its bytes. -/
structure Placed where
  name : String
  array : MLXArray
  offset : Nat

def layout (p : Platform) : Nat → List (String × MLXArray) → List Placed
  | _, [] => []
  | position, e :: rest =>
    ⟨e.1, e.2, alignUp position⟩ :: layout p (alignUp position + (storedBytes p e.2).length) rest

def payload (p : Platform) : Nat → List (String × MLXArray) → Data
  | _, [] => []
  | position, e :: rest =>
    List.replicate (alignUp position - position) 0 ++
      (storedBytes p e.2 ++ payload p (alignUp position + (storedBytes p e.2).length) rest)

def Placed.describe (p : Platform) (q : Placed) : TensorDescriptor where
  name := q.name
  dtype := dtypeName q.array.dtype
  shape := q.array.shape.map Int64.ofNat
  encoding := if (encodeIfWorthwhile p q.array.data).isSome then "lzfse" else "raw"
  offset := Int64.ofNat q.offset
  storedBytes := Int64.ofNat (storedBytes p q.array).length
  rawBytes := Int64.ofNat q.array.data.length

theorem le_alignUp (n : Nat) : n ≤ alignUp n := by
  unfold alignUp
  omega

theorem alignUp_mod (n : Nat) : alignUp n % 16 = 0 := by
  unfold alignUp
  omega

section Layout
variable {p : Platform}

theorem layout_entries (position : Nat) (entries : List (String × MLXArray)) :
    (layout p position entries).map (fun q => (q.name, q.array)) = entries := by
  induction entries generalizing position with
  | nil => rfl
  | cons e rest ih => simp [layout, ih]

theorem position_le_offset {position : Nat} {entries : List (String × MLXArray)} {q : Placed}
    (h : q ∈ layout p position entries) : position ≤ q.offset := by
  induction entries generalizing position with
  | nil => cases h
  | cons e rest ih =>
    have := le_alignUp position
    rcases List.mem_cons.1 h with rfl | h
    · exact this
    · have := ih h
      omega

theorem offset_mod {position : Nat} {entries : List (String × MLXArray)} {q : Placed}
    (h : q ∈ layout p position entries) : q.offset % 16 = 0 := by
  induction entries generalizing position with
  | nil => cases h
  | cons e rest ih =>
    rcases List.mem_cons.1 h with rfl | h
    · exact alignUp_mod position
    · exact ih h

/-- Each array ends before the next begins. -/
theorem layout_ordered (position : Nat) (entries : List (String × MLXArray)) :
    (layout p position entries).Pairwise fun a b => a.offset + (storedBytes p a.array).length ≤ b.offset := by
  induction entries generalizing position with
  | nil => exact .nil
  | cons e rest ih => exact List.pairwise_cons.2 ⟨fun q hq => position_le_offset hq, ih _⟩

/-- The payload holds the stored bytes of an array at its offset. -/
theorem payload_slice {position : Nat} {entries : List (String × MLXArray)} {q : Placed}
    (h : q ∈ layout p position entries) :
    ∃ before after, payload p position entries = before ++ (storedBytes p q.array ++ after) ∧
      before.length = q.offset - position := by
  induction entries generalizing position with
  | nil => cases h
  | cons e rest ih =>
    have hle := le_alignUp position
    rcases List.mem_cons.1 h with rfl | h
    · exact ⟨_, _, rfl, List.length_replicate⟩
    · obtain ⟨before, after, heq, hlen⟩ := ih h
      have hpos := position_le_offset h
      refine ⟨List.replicate (alignUp position - position) 0 ++ (storedBytes p e.2 ++ before), after, ?_, ?_⟩
      · rw [payload, heq]
        simp only [List.append_assoc]
      · simp only [List.length_append, List.length_replicate, hlen]
        omega

end Layout

/-! ## What the writer leaves -/

namespace Arrays
variable {p : Platform} (arrays : Arrays p)

/-- The entries in the order in which they are written. -/
def sorted : List (String × MLXArray) :=
  arrays.sortedKeys.filterMap fun name => (arrays.lookup name).map (name, ·)

theorem lookup_of_mem {name : String} {a : MLXArray} (h : (name, a) ∈ arrays.entries) :
    arrays.lookup name = some a := by
  have hdistinct := arrays.distinct
  unfold lookup
  generalize arrays.entries = entries at h hdistinct
  induction entries with
  | nil => cases h
  | cons e rest ih =>
    obtain ⟨hhead, hrest⟩ := List.pairwise_cons.1 hdistinct
    rcases List.mem_cons.1 h with rfl | h
    · simp
    · rw [List.find?_cons_of_neg (by simpa using hhead _ h)]
      exact ih h hrest

theorem sorted_perm : arrays.sorted.Perm arrays.entries := by
  have hkeys : arrays.sortedKeys.Perm (arrays.entries.map (·.1)) := List.mergeSort_perm _ _
  refine (hkeys.filterMap _).trans (List.Perm.of_eq ?_)
  rw [List.filterMap_map, List.filterMap_eq_map_iff_forall_eq_some.2, List.map_id]
  rintro ⟨name, a⟩ ha
  simp [arrays.lookup_of_mem ha]

end Arrays

theorem FileHandle.write_end {p : Platform} {handle after : FileHandle} {data : Data}
    (hend : handle.position = handle.contents.length) (h : handle.write p data = ok after) :
    after.contents = handle.contents ++ data ∧ after.position = after.contents.length ∧
      p.accepts after.contents.length = true := by
  have hover : handle.overwritten data = handle.contents ++ data := by
    unfold overwritten
    rw [hend, List.take_length, Nat.sub_self, List.drop_eq_nil_of_le (by omega)]
    simp
  unfold FileHandle.write at h
  split at h
  · cases h
    exact ⟨hover, by simp [hover, hend], by assumption⟩
  · cases h

/-- The writer stands at payload position `position`. -/
structure Writer.At (w : Writer) (position : Nat) : Prop where
  length : w.handle.contents.length = headerReserveBytes + position
  handle_end : w.handle.position = w.handle.contents.length
  payloadPosition : w.payloadPosition.toInt = position

/-- What one array adds to the file. -/
structure Wrote (p : Platform) (w : Writer) (position : Nat) (entries : List (String × MLXArray)) (w' : Writer) :
    Prop where
  at_end : w'.At (position + (payload p position entries).length)
  contents : w'.handle.contents = w.handle.contents ++ payload p position entries
  descriptors : w'.descriptors = w.descriptors ++ (layout p position entries).map (Placed.describe p)
  completed : w'.completedRawBytes.toInt = w.completedRawBytes.toInt + (entries.map fun e => (e.2.data.length : Int)).sum

section Writing
variable {p : Platform} {w w' : Writer} {position : Nat}

theorem payload_cons_length (p : Platform) (position : Nat) (e : String × MLXArray) (rest : List (String × MLXArray)) :
    position + (payload p position (e :: rest)).length =
      alignUp position + (storedBytes p e.2).length +
        (payload p (alignUp position + (storedBytes p e.2).length) rest).length := by
  have := le_alignUp position
  simp only [payload, List.length_append, List.length_replicate]
  omega

theorem Wrote.cons {w'' : Writer} {e : String × MLXArray} {rest : List (String × MLXArray)}
    (h : Wrote p w position [e] w')
    (hrest : Wrote p w' (alignUp position + (storedBytes p e.2).length) rest w'') : Wrote p w position (e :: rest) w'' := by
  have hat := hrest.at_end
  rw [← payload_cons_length] at hat
  refine ⟨hat, ?_, ?_, ?_⟩
  · rw [hrest.contents, h.contents]
    simp [payload]
  · rw [hrest.descriptors, h.descriptors]
    simp [layout]
  · rw [hrest.completed, h.completed]
    simp [add_assoc]

theorem toInt_alignment : (tensorAlignment).toInt = 16 := rfl

theorem aligned_spec {value v : Int64} {n : Nat} (hvalue : value.toInt = n) (h : aligned value tensorAlignment = ok v) :
    v.toInt = alignUp n := by
  simp only [aligned, bind_eq_ok, add_eq_ok, sub_eq_ok, mul_eq_ok, toInt_alignment] at h
  obtain ⟨raised, hraised, lowered, hlowered, hmul⟩ := h
  have hone : (1 : Int64).toInt = 1 := rfl
  rw [hmul, toInt_div_of_nonneg (by omega) (by decide), toInt_alignment, hlowered, hraised, hvalue, hone, alignUp]
  omega

theorem padTo_spec {v : Int64} (hw : w.At position) (hv : v.toInt = alignUp position) (h : padTo p w v = ok w') :
    w'.At (alignUp position) ∧
      w'.handle.contents = w.handle.contents ++ List.replicate (alignUp position - position) 0 ∧
      w'.descriptors = w.descriptors ∧ w'.completedRawBytes = w.completedRawBytes := by
  have hle := le_alignUp position
  have hpos := hw.payloadPosition
  unfold padTo at h
  split at h
  · simp only [bind_eq_ok, sub_eq_ok] at h
    obtain ⟨gap, hgap, handle, hwrite, heq⟩ := h
    cases heq
    obtain ⟨hcontents, hend, -⟩ := FileHandle.write_end hw.handle_end hwrite
    rw [show gap.toInt.toNat = alignUp position - position by omega] at hcontents
    refine ⟨⟨?_, hend, hv⟩, hcontents, rfl, rfl⟩
    rw [hcontents, List.length_append, hw.length, List.length_replicate]
    omega
  · rename_i hgt
    have heq : alignUp position = position := by
      have : ¬ w.payloadPosition.toInt < v.toInt := fun hlt => hgt (Int64.lt_iff_toInt_lt.2 hlt)
      omega
    cases h
    rw [heq]
    exact ⟨hw, by simp, rfl, rfl⟩

theorem encodeLZFSE_length {source encoded : Data} (h : encodeLZFSE p source = some encoded) :
    encoded.length ≤ source.length + 65536 := by
  unfold encodeLZFSE at h
  split at h
  · cases h
    simp
  · dsimp only at h
    split at h
    · cases h
      omega
    · cases h

/-- A compressed array was at least a page long, below the limit, and encoded whole. -/
theorem encodeIfWorthwhile_some {data encoded : Data} (h : encodeIfWorthwhile p data = some encoded) :
    minimumCompressionBytes ≤ data.length ∧ data.length ≤ maximumCompressionBytes ∧
      encodeLZFSE p data = some encoded := by
  unfold encodeIfWorthwhile at h
  split at h
  · rename_i hbounds
    simp only [Option.bind_eq_bind, Option.bind_eq_some_iff] at h
    obtain ⟨sample, -, h⟩ := h
    split at h
    · simp only [Option.bind_eq_some_iff] at h
      obtain ⟨whole, hwhole, h⟩ := h
      split at h
      · cases h
        exact ⟨hbounds.1, hbounds.2, hwhole⟩
      · cases h
    · cases h
  · cases h

theorem storedBytes_lt (p : Platform) (a : MLXArray) : (storedBytes p a).length < 2 ^ 63 := by
  unfold storedBytes
  cases h : encodeIfWorthwhile p a.data with
  | none => exact a.data_lt
  | some encoded =>
    obtain ⟨-, hle, hencoded⟩ := encodeIfWorthwhile_some h
    have := encodeLZFSE_length hencoded
    simp only [maximumCompressionBytes] at hle
    simp only [Option.getD_some]
    omega

/-- One turn of the writing loop. -/
theorem storeTensor_spec {name : String} {value : MLXArray} (hw : w.At position)
    (h : storeTensor p w name value = ok w') : Wrote p w position [(name, value)] w' := by
  simp only [storeTensor, bind_eq_ok, guard_eq_ok, exists_const] at h
  obtain ⟨-, v, hv, padded, hpadded, handle, hwrite, next, hnext, completed, hcompleted, heq⟩ := h
  cases heq
  obtain ⟨hat, hcontents, hdescriptors, hsame⟩ := padTo_spec hw (aligned_spec hw.payloadPosition hv) hpadded
  obtain ⟨hwritten, hend, -⟩ := FileHandle.write_end hat.handle_end hwrite
  change add padded.payloadPosition (Int64.ofNat (storedBytes p value).length) = ok next at hnext
  rw [add_eq_ok, toInt_ofNat_of_lt (storedBytes_lt p value), hat.payloadPosition] at hnext
  rw [add_eq_ok, toInt_ofNat_of_lt value.data_lt, hsame] at hcompleted
  have hposition : padded.payloadPosition = Int64.ofNat (alignUp position) := by
    apply Int64.eq_of_toInt
    have hlt := (Int64.bounds padded.payloadPosition).2
    have hpos := hat.payloadPosition
    rw [hpos, toInt_ofNat_of_lt (by omega)]
  refine ⟨?_, ?_, ?_, ?_⟩
  · rw [payload_cons_length]
    refine ⟨?_, hend, ?_⟩
    · rw [hwritten, List.length_append, hat.length, payload, List.length_nil]
      exact add_assoc _ _ _
    · rw [hnext, payload]
      simp
  · rw [hwritten, hcontents]
    simp [payload, storedBytes]
  · rw [hdescriptors, hposition]
    rfl
  · rw [hcompleted]
    simp

theorem storeTensors_spec {arrays : Arrays p} {names : List String} (hw : w.At position)
    (h : storeTensors p arrays w names = ok w') :
    Wrote p w position (names.filterMap fun name => (arrays.lookup name).map (name, ·)) w' := by
  induction names generalizing w position with
  | nil =>
    cases h
    exact ⟨by simpa [payload] using hw, by simp [payload], by simp [layout], by simp⟩
  | cons name rest ih =>
    simp only [storeTensors] at h
    cases hlookup : arrays.lookup name with
    | none =>
      rw [hlookup] at h
      rw [List.filterMap_cons_none (by simp [hlookup])]
      exact ih hw h
    | some value =>
      simp only [hlookup, bind_eq_ok] at h
      obtain ⟨next, hstep, hrest⟩ := h
      have hone := storeTensor_spec hw hstep
      have hat := hone.at_end
      rw [payload_cons_length] at hat
      rw [List.filterMap_cons_some (by rw [hlookup]; rfl)]
      exact hone.cons (ih (by simpa [payload] using hat) hrest)

end Writing

/-! ## The file -/

/-- The header region: magic, length, header, zeros. -/
def image (headerData : Data) : Data :=
  magic ++ (littleEndianData (UInt64.ofNat headerData.length) ++ (headerData ++
    List.replicate (headerReserveBytes - (16 + headerData.length)) 0))

def writtenHeader (p : Platform) (arrays : Arrays p) (metadata : List (String × String)) (cacheKey : String) : Header where
  formatVersion := formatVersion
  cacheKey := cacheKey
  payloadOffset := Int64.ofNat headerReserveBytes
  metadata := metadata
  tensors := (layout p 0 arrays.sorted).map (Placed.describe p)

theorem FileHandle.write_at {p : Platform} {handle after : FileHandle} {data : Data}
    (hle : handle.position ≤ handle.contents.length) (h : handle.write p data = ok after) :
    after.contents = handle.contents.take handle.position ++ (data ++
      handle.contents.drop (handle.position + data.length)) ∧
      after.position = handle.position + data.length ∧ p.accepts after.contents.length = true := by
  unfold FileHandle.write at h
  split at h
  · cases h
    refine ⟨?_, rfl, by assumption⟩
    unfold overwritten
    rw [Nat.sub_eq_zero_of_le hle]
    simp
  · cases h

theorem magic_length : magic.length = 8 := by decide

/-- What a successful `store` leaves behind. -/
structure Written (p : Platform) (arrays : Arrays p) (metadata : List (String × String)) (cacheKey : String)
    (headerData contents : Data) : Prop where
  encoded : p.encodeHeader (writtenHeader p arrays metadata cacheKey) = some headerData
  header_le : 16 + headerData.length ≤ headerReserveBytes
  contents_eq : contents = image headerData ++ payload p 0 arrays.sorted
  accepted : p.accepts contents.length = true
  total_lt : (arrays.sorted.map fun e => (e.2.data.length : Int)).sum < 2 ^ 63

theorem store_spec {p : Platform} {arrays : Arrays p} {metadata : List (String × String)} {cacheKey name : String}
    {contents : Data} {stats : Statistics} (h : store p arrays metadata cacheKey name = ok (contents, stats)) :
    ∃ headerData, Written p arrays metadata cacheKey headerData contents := by
  simp only [store, bind_eq_ok, guard_eq_ok, exists_const, ofOption_eq_ok, magic_length] at h
  obtain ⟨-, reserved, hreserved, w, hw, headerData, hheader, hle, first, hfirst, second, hsecond, third, hthird, heq⟩ := h
  cases heq
  obtain ⟨hzeros, hend, -⟩ := FileHandle.write_end rfl hreserved
  have hat : (Writer.mk reserved [] 0 0 0 0).At 0 := ⟨by simp [hzeros], hend, rfl⟩
  have hwrote := storeTensors_spec hat hw
  have hcontents : w.handle.contents = List.replicate headerReserveBytes 0 ++ payload p 0 arrays.sorted := by
    rw [hwrote.contents, hzeros]
    rfl
  have hlength : headerReserveBytes ≤ w.handle.contents.length := by simp [hcontents]
  obtain ⟨hone, hone', -⟩ := FileHandle.write_at (Nat.zero_le _) hfirst
  simp only [FileHandle.seek, List.take_zero, List.nil_append, Nat.zero_add, magic_length] at hone hone'
  obtain ⟨htwo, htwo', -⟩ := FileHandle.write_at (by simp [hone, hone', magic_length]) hsecond
  rw [hone', hone, List.take_left' magic_length, littleEndianData_length,
    show 8 + 8 = magic.length + 8 from rfl, List.drop_length_add_append, List.drop_drop] at htwo
  rw [hone', littleEndianData_length] at htwo'
  obtain ⟨hthree, -, haccepted⟩ := FileHandle.write_at (by simp [htwo, htwo', magic_length]; omega) hthird
  rw [htwo'] at hthree
  have htotal := (Int64.bounds w.completedRawBytes).2
  rw [hwrote.completed, Int64.toInt_zero, zero_add] at htotal
  refine ⟨headerData, ?_, hle, ?_, haccepted, htotal⟩
  · rw [← hheader, writtenHeader, hwrote.descriptors]
    rfl
  · have hfront : (magic ++ littleEndianData (UInt64.ofNat headerData.length)).length = 8 + 8 := by
      rw [List.length_append, magic_length, littleEndianData_length]
    rw [← List.append_assoc] at htwo
    have hrest : (magic ++ littleEndianData (UInt64.ofNat headerData.length) ++ w.handle.contents.drop (8 + 8)).drop
        (8 + 8 + headerData.length) = w.handle.contents.drop (16 + headerData.length) := by
      rw [← hfront, List.drop_length_add_append, hfront, List.drop_drop]
    have hzero : w.handle.contents.drop (16 + headerData.length) =
        List.replicate (headerReserveBytes - (16 + headerData.length)) 0 ++ payload p 0 arrays.sorted := by
      rw [hcontents, List.drop_append_of_le_length (by rw [List.length_replicate]; omega), List.drop_replicate]
    rw [hthree, htwo, List.take_left' hfront, hrest, hzero, image]
    simp only [List.append_assoc]

/-! ## Reading it back -/

theorem image_length {headerData : Data} (h : 16 + headerData.length ≤ headerReserveBytes) :
    (image headerData).length = headerReserveBytes := by
  simp only [image, List.length_append, magic_length, littleEndianData_length, List.length_replicate]
  omega

theorem readExact_front {front rest : Data} {contents : Data} {position : Nat} (count : Int64)
    (hcontents : contents.drop position = front ++ rest) (hcount : count.toInt = front.length) :
    (FileHandle.mk contents position).readExact count = ok (front, ⟨contents, position + front.length⟩) := by
  have hlen : ((contents.drop position).take count.toInt.toNat) = front := by
    rw [hcontents, hcount, Int.toNat_natCast, List.take_left]
  unfold FileHandle.readExact
  dsimp only [FileHandle.seek]
  rw [guard_of (nonneg_iff.2 (by omega)), ok_bind, hlen, hcount, Int.toNat_natCast, guard_of rfl, ok_bind]

theorem reserve_toInt : (Int64.ofNat headerReserveBytes).toInt = headerReserveBytes := toInt_ofNat_of_lt (by decide)

section Reading
variable {p : Platform} {arrays : Arrays p} {metadata : List (String × String)} {cacheKey : String}
  {headerData : Data} {file : File} (hp : p.Lawful)
  (hw : Written p arrays metadata cacheKey headerData file.contents)
include hw

theorem Written.length : file.contents.length = headerReserveBytes + (payload p 0 arrays.sorted).length := by
  rw [hw.contents_eq, List.length_append, image_length hw.header_le]

include hp in
theorem Written.readHeader : readHeader p file cacheKey = ok (writtenHeader p arrays metadata cacheKey) := by
  have hle := hw.header_le
  have hpos : 0 < headerData.length := List.length_pos_iff.2 (hp.encodeHeader_ne_nil _ _ hw.encoded)
  have hreserve : headerReserveBytes = 1048576 := rfl
  have hword : (UInt64.ofNat headerData.length).toNat = headerData.length := UInt64.toNat_ofNat_of_lt' (by
    change _ < 2 ^ 64
    omega)
  have hcount : (UInt64.ofNat headerData.length).toInt64.toInt = headerData.length := by
    rw [toInt64_toInt (by omega), hword]
  have hlength := hw.length
  -- the three parts of the header region in front of the zeros
  have hstart : file.contents.drop 0 = (magic ++ littleEndianData (UInt64.ofNat headerData.length)) ++
      (headerData ++ (List.replicate (headerReserveBytes - (16 + headerData.length)) 0 ++ payload p 0 arrays.sorted)) := by
    rw [hw.contents_eq, image]
    simp
  have hfront : (magic ++ littleEndianData (UInt64.ofNat headerData.length)).length = 16 := by
    rw [List.length_append, magic_length, littleEndianData_length]
  have hheader : file.contents.drop (0 + 16) =
      headerData ++ (List.replicate (headerReserveBytes - (16 + headerData.length)) 0 ++ payload p 0 arrays.sorted) := by
    rw [List.drop_zero] at hstart
    rw [Nat.zero_add, hstart]
    exact List.drop_left' hfront
  have hbounds : 0 < UInt64.ofNat headerData.length ∧ UInt64.ofNat headerData.length ≤
      UInt64.ofNat (headerReserveBytes - magic.length - 8) ∧ UInt64.ofNat headerData.length ≤ UInt64.ofNat (2 ^ 63 - 1) := by
    rw [UInt64.lt_iff_toNat_lt, UInt64.le_iff_toNat_le, UInt64.le_iff_toNat_le, hword, magic_length,
      UInt64.toNat_ofNat_of_lt' (by decide), UInt64.toNat_ofNat_of_lt' (by decide)]
    exact ⟨hpos, by omega, by omega⟩
  have hsize : Int64.ofNat headerReserveBytes ≤ file.size := by
    rw [Int64.le_iff_toInt_le, reserve_toInt, File.size_toInt]
    omega
  have hfields : (writtenHeader p arrays metadata cacheKey).formatVersion = formatVersion ∧
      (writtenHeader p arrays metadata cacheKey).cacheKey = cacheKey ∧
      (writtenHeader p arrays metadata cacheKey).payloadOffset = Int64.ofNat headerReserveBytes ∧
      (writtenHeader p arrays metadata cacheKey).payloadOffset ≤ file.size := ⟨rfl, rfl, rfl, hsize⟩
  unfold FastGGUF.readHeader
  dsimp only
  rw [readExact_front (Int64.ofNat (magic.length + 8)) hstart (by rw [hfront, magic_length]; rfl), ok_bind]
  dsimp only
  rw [guard_of List.take_left, ok_bind, List.drop_left, decodeLittleEndianUInt64_littleEndianData, guard_of hbounds,
    ok_bind, toInt64_eq_ok (by omega), ok_bind, hfront, readExact_front _ hheader hcount, ok_bind]
  dsimp only
  rw [hp.decodeHeader_encodeHeader _ _ hw.encoded, ofOption, ok_bind, guard_of hfields, ok_bind]

end Reading

/-! ## Which arrays come back -/

/-- No product of leading dimensions overflows. -/
def CountFits (shape : List Nat) : Prop := ∀ k, (shape.take k).prod < 2 ^ 63

theorem checkedCount_eq (count : Nat) {shape : List Nat} (hcount : count < 2 ^ 63) (hdims : ∀ d ∈ shape, d ≤ 2147483647) :
    checkedCount (Int64.ofNat count) (shape.map Int64.ofNat) = some (Int64.ofNat (count * shape.prod)) ∧
        (∀ k, count * (shape.take k).prod < 2 ^ 63) ∨
      checkedCount (Int64.ofNat count) (shape.map Int64.ofNat) = none ∧ ¬ ∀ k, count * (shape.take k).prod < 2 ^ 63 := by
  induction shape generalizing count with
  | nil => exact .inl ⟨by simp [checkedCount], fun k => by simpa using hcount⟩
  | cons d ds ih =>
    have hd := hdims d (by simp)
    have hdInt : (Int64.ofNat d).toInt = d := toInt_ofNat_of_lt (by omega)
    have hcInt : (Int64.ofNat count).toInt = count := toInt_ofNat_of_lt hcount
    have hrange : 0 ≤ Int64.ofNat d ∧ Int64.ofNat d ≤ 2147483647 := by
      rw [nonneg_iff, Int64.le_iff_toInt_le, hdInt, show (2147483647 : Int64).toInt = 2147483647 from rfl]
      omega
    -- The products that are checked are those of the prefixes of the shape.
    have hstep : (∀ k, count * ((d :: ds).take k).prod < 2 ^ 63) ↔ ∀ k, count * d * (ds.take k).prod < 2 ^ 63 := by
      constructor
      · intro h k
        have := h (k + 1)
        rwa [List.take_succ_cons, List.prod_cons, ← mul_assoc] at this
      · intro h k
        cases k with
        | zero => simpa using hcount
        | succ k =>
          rw [List.take_succ_cons, List.prod_cons, ← mul_assoc]
          exact h k
    rw [hstep, List.map_cons, List.prod_cons, ← mul_assoc]
    simp only [checkedCount, hrange, and_self, if_true]
    by_cases hover : count * d < 2 ^ 63
    · have hflag := multipliedReportingOverflow_eq_false (a := Int64.ofNat count) (b := Int64.ofNat d).2 (by
        rw [hcInt, hdInt]
        constructor <;> norm_cast
        omega)
      have hvalue : (multipliedReportingOverflow (Int64.ofNat count) (Int64.ofNat d)).1 = Int64.ofNat (count * d) := by
        apply Int64.eq_of_toInt
        rw [multipliedReportingOverflow_toInt hflag, hcInt, hdInt, toInt_ofNat_of_lt hover]
        norm_cast
      rw [if_neg (by rw [hflag]; exact Bool.false_ne_true), hvalue]
      exact ih (count * d) hover fun x hx => hdims x (List.mem_cons_of_mem _ hx)
    · have hflag : (multipliedReportingOverflow (Int64.ofNat count) (Int64.ofNat d)).2 = true := by
        rw [← Bool.not_eq_false, multipliedReportingOverflow_eq_false, hcInt, hdInt]
        intro h
        exact hover (by exact_mod_cast h.2)
      rw [if_pos hflag]
      exact .inr ⟨rfl, fun h => hover (by simpa using h 0)⟩

/-- The reader recomputes the byte count of an array exactly when its products fit. -/
theorem expectedByteCount_iff (a : MLXArray) :
    expectedByteCount (a.shape.map Int64.ofNat) a.dtype = some (Int64.ofNat a.data.length) ↔ CountFits a.shape := by
  have hone : Int64.ofNat 1 = 1 := rfl
  have hlen := a.data_length
  have hlt := a.data_lt
  rw [nbytes, elements] at hlen
  rcases checkedCount_eq 1 (by decide) a.dims_le with ⟨hcount, hfits⟩ | ⟨hcount, hfits⟩
  · simp only [one_mul] at hfits hcount
    have hprod : a.shape.prod < 2 ^ 63 := by simpa using hfits a.shape.length
    have hflag := multipliedReportingOverflow_eq_false (a := Int64.ofNat a.shape.prod) (b := Int64.ofNat a.dtype.size).2 (by
      rw [toInt_ofNat_of_lt hprod, toInt_size]
      constructor <;> norm_cast
      · omega
      · exact hlen ▸ hlt)
    refine ⟨fun _ => hfits, fun _ => ?_⟩
    rw [expectedByteCount, ← hone, hcount, Option.bind_some]
    dsimp only
    rw [if_neg (by rw [hflag]; exact Bool.false_ne_true)]
    refine congrArg some (Int64.eq_of_toInt ?_)
    rw [multipliedReportingOverflow_toInt hflag, toInt_ofNat_of_lt hprod, toInt_size, toInt_ofNat_of_lt hlt, hlen]
    norm_cast
  · simp only [one_mul] at hfits
    rw [expectedByteCount, ← hone, hcount]
    exact ⟨by simp, fun h => absurd h hfits⟩

theorem mlxDType_dtypeName (d : DType) : mlxDType (dtypeName d) = ok d := by cases d <;> rfl

theorem dims_ofNat {shape : List Nat} (h : ∀ d ∈ shape, d ≤ 2147483647) : dims (shape.map Int64.ofNat) = shape := by
  rw [dims, List.map_map]
  conv_rhs => rw [← List.map_id shape]
  refine List.map_congr_left fun d hd => ?_
  have hle := h d hd
  simp only [Function.comp_apply, toInt_ofNat_of_lt (show d < 2 ^ 63 by omega), Int.toNat_natCast, id]

/-- The stored bytes of a compressed array decode to it. -/
theorem decodeLZFSE_storedBytes {p : Platform} (hp : p.Lawful) {a : MLXArray} {encoded : Data}
    (h : encodeIfWorthwhile p a.data = some encoded) (name : String) :
    decodeLZFSE p (storedBytes p a) (Int64.ofNat a.data.length) name = ok a.data := by
  obtain ⟨hmin, -, hencoded⟩ := encodeIfWorthwhile_some h
  have hlen := toInt_ofNat_of_lt a.data_lt
  have hne : a.data ≠ [] := by
    intro hnil
    simp [hnil, minimumCompressionBytes] at hmin
  simp only [encodeLZFSE, if_neg hne] at hencoded
  split at hencoded
  · rename_i hbounds
    obtain rfl : _ = encoded := by simpa using hencoded
    have hdecode := hp.decodeBuffer_encodeBuffer a.data (a.data.length + 65536) (List.length_pos_iff.1 hbounds.1)
    have hpos : 0 < Int64.ofNat a.data.length := by
      rw [pos_iff, hlen]
      exact_mod_cast List.length_pos_iff.2 hne
    have hsize : (p.decodeBuffer (p.encodeBuffer a.data (a.data.length + 65536)) a.data.length).length =
        a.data.length := by rw [hdecode]
    unfold decodeLZFSE
    rw [storedBytes, h, Option.getD_some, if_pos hpos, hlen, Int.toNat_natCast]
    dsimp only
    rw [guard_of hsize, ok_bind, hdecode]
  · cases hencoded

section Reading
variable {p : Platform} {arrays : Arrays p} {metadata : List (String × String)} {cacheKey : String}
  {headerData : Data} {file : File} (hp : p.Lawful)
  (hw : Written p arrays metadata cacheKey headerData file.contents)

/-- The index entry of a placed array. -/
theorem start_describe {q : Placed} (hlt : q.offset < 2 ^ 63) :
    (writtenHeader p arrays metadata cacheKey).start (q.describe p) = headerReserveBytes + q.offset := by
  rw [Header.start, writtenHeader, reserve_toInt, Placed.describe, toInt_ofNat_of_lt hlt]

theorem stop_describe {q : Placed} (hlt : q.offset < 2 ^ 63) :
    (writtenHeader p arrays metadata cacheKey).stop (q.describe p) =
      headerReserveBytes + q.offset + (storedBytes p q.array).length := by
  rw [Header.stop, start_describe hlt, Placed.describe, toInt_ofNat_of_lt (storedBytes_lt p q.array)]

include hw

/-- A placed array lies in the file. -/
theorem Written.range {q : Placed} (h : q ∈ layout p 0 arrays.sorted) :
    headerReserveBytes + q.offset + (storedBytes p q.array).length ≤ file.contents.length ∧ q.offset < 2 ^ 63 := by
  obtain ⟨before, after, heq, hlen⟩ := payload_slice h
  have hlength := hw.length
  have hlt := file.contents_lt
  rw [heq] at hlength
  simp only [List.length_append] at hlength
  omega

theorem Written.stored {q : Placed} (h : q ∈ layout p 0 arrays.sorted) :
    (writtenHeader p arrays metadata cacheKey).stored file.contents (q.describe p) = storedBytes p q.array := by
  obtain ⟨before, after, heq, hlen⟩ := payload_slice h
  have hoffset : (image headerData ++ before).length = headerReserveBytes + q.offset := by
    rw [List.length_append, image_length hw.header_le, hlen]
    omega
  have hstart : ((headerReserveBytes : Int) + q.offset).toNat = headerReserveBytes + q.offset := by omega
  rw [Header.stored, start_describe (hw.range h).2, hstart, hw.contents_eq, heq, ← List.append_assoc,
    List.drop_left' hoffset]
  exact List.take_left' (by rw [Placed.describe, toInt_ofNat_of_lt (storedBytes_lt p q.array)]; rfl)

/-- The check accepts the entry of a placed array unless its name is empty or its products overflow. -/
theorem Written.entry_iff {q : Placed} (h : q ∈ layout p 0 arrays.sorted) :
    (∃ d, Entry (writtenHeader p arrays metadata cacheKey) file.size (q.describe p) d) ↔
      q.name ≠ "" ∧ CountFits q.array.shape := by
  obtain ⟨hrange, hlt⟩ := hw.range h
  have hmod := offset_mod h
  constructor
  · rintro ⟨d, hd⟩
    obtain rfl : q.array.dtype = d := by
      have := hd.dtype
      rw [Placed.describe, mlxDType_dtypeName] at this
      exact ok.inj this
    exact ⟨hd.name_ne, (expectedByteCount_iff q.array).1 hd.bytes⟩
  · rintro ⟨hname, hfits⟩
    refine ⟨q.array.dtype, hname, ?_, ?_, ?_, mlxDType_dtypeName _, (expectedByteCount_iff q.array).2 hfits, ?_, ?_, ?_,
      ?_, ?_⟩
    · rw [Placed.describe, toInt_ofNat_of_lt hlt]
      omega
    · rw [Placed.describe, toInt_ofNat_of_lt (storedBytes_lt p q.array)]
      omega
    · rw [Placed.describe, toInt_ofNat_of_lt q.array.data_lt]
      omega
    · rw [Placed.describe]
      split
      · exact .inr rfl
      · exact .inl rfl
    · rw [Placed.describe, storedBytes]
      cases encodeIfWorthwhile p q.array.data with
      | none => exact fun _ => rfl
      | some encoded => simp
    · rw [Placed.describe]
      cases hencode : encodeIfWorthwhile p q.array.data with
      | none => simp
      | some encoded =>
        rw [toInt_ofNat_of_lt q.array.data_lt]
        intro
        exact_mod_cast (encodeIfWorthwhile_some hencode).2.1
    · rw [stop_describe hlt, File.size_toInt]
      exact_mod_cast hrange
    · rw [start_describe hlt]
      intro
      simp only [headerReserveBytes]
      omega

omit hw in
theorem layout_names (arrays : Arrays p) :
    (layout p 0 arrays.sorted).Pairwise fun a b => p.canonical a.name ≠ p.canonical b.name := by
  have hsorted : arrays.sorted.Pairwise fun a b => p.canonical a.1 ≠ p.canonical b.1 :=
    (arrays.sorted_perm.pairwise_iff fun hab => hab.symm).2 arrays.distinct
  rw [← layout_entries (p := p) 0 arrays.sorted] at hsorted
  exact (List.pairwise_map (f := fun q : Placed => (q.name, q.array))).1 hsorted

/-- The writer's entries are in the order of their offsets already. -/
theorem Written.sortedByOffset :
    sortedByOffset (writtenHeader p arrays metadata cacheKey).tensors =
      (writtenHeader p arrays metadata cacheKey).tensors := by
  apply List.mergeSort_of_pairwise
  refine List.pairwise_map.2 ((layout_ordered (p := p) 0 arrays.sorted).imp_of_mem ?_)
  intro a b ha hb hab
  rw [decide_eq_true_iff, Int64.le_iff_toInt_le, Placed.describe, Placed.describe, toInt_ofNat_of_lt (hw.range ha).2,
    toInt_ofNat_of_lt (hw.range hb).2]
  omega

theorem Written.scanned_iff :
    Scanned p (writtenHeader p arrays metadata cacheKey) file.size ⟨Int64.ofNat headerReserveBytes, 0, []⟩
        (writtenHeader p arrays metadata cacheKey).tensors ↔
      ∀ q ∈ layout p 0 arrays.sorted, q.name ≠ "" ∧ CountFits q.array.shape := by
  have hforall : (∀ t ∈ (writtenHeader p arrays metadata cacheKey).tensors,
      ∃ d, Entry (writtenHeader p arrays metadata cacheKey) file.size t d) ↔
        ∀ q ∈ layout p 0 arrays.sorted, q.name ≠ "" ∧ CountFits q.array.shape := by
    rw [writtenHeader, List.forall_mem_map]
    exact forall₂_congr fun q hq => hw.entry_iff hq
  rw [← hforall]
  refine ⟨fun h => h.entries, fun h => ⟨h, ?_, ?_, ?_, by simp, ?_⟩⟩
  · refine List.pairwise_map.2 ((layout_ordered (p := p) 0 arrays.sorted).imp_of_mem ?_)
    intro a b ha hb hab
    rw [stop_describe (hw.range ha).2, start_describe (hw.range hb).2]
    omega
  · intro t ht
    obtain ⟨q, hq, rfl⟩ := List.mem_map.1 ht
    rw [start_describe (hw.range hq).2, reserve_toInt]
    omega
  · exact List.pairwise_map.2 (layout_names arrays)
  · have htotal := hw.total_lt
    rw [← layout_entries (p := p) 0 arrays.sorted, List.map_map] at htotal
    rw [writtenHeader, List.map_map, Int64.toInt_zero, zero_add]
    refine lt_of_eq_of_lt (congrArg List.sum (List.map_congr_left fun q hq => ?_)) htotal
    exact toInt_ofNat_of_lt q.array.data_lt

/-- A mapped array stays below the length of one mapping. -/
def MappingFits (p : Platform) (mode : Mode) (q : Placed) : Prop :=
  mode.distributed = false → mode.memoryMapped = true → encodeIfWorthwhile p q.array.data = none → q.array.data ≠ [] →
    mappedLength p.pageSize.toInt (headerReserveBytes + q.offset) q.array.data.length ≤ 2147483647

omit hw in
/-- What every turn ends with: the loop state after an array was rebuilt. -/
theorem Loads.finish {q : Placed} {s : Loading} {scratch : Data} {r : MLXArray × Loading}
    (hr : Loads s (q.describe p) q.array.dtype q.array.data scratch r)
    (hraw : -2 ^ 63 ≤ s.rawBytes.toInt + q.array.data.length ∧ s.rawBytes.toInt + q.array.data.length < 2 ^ 63) :
    ∃ s', (add r.2.rawBytes (q.describe p).rawBytes >>= fun rawBytes =>
        (ok { r.2 with arrays := r.2.arrays ++ [((q.describe p).name, r.1)], rawBytes } : Outcome Failure Loading)) =
          ok s' ∧ s'.arrays = s.arrays ++ [(q.name, q.array)] := by
  have harray : r.1 = q.array := MLXArray.ext (hr.shape.trans (dims_ofNat q.array.dims_le)) hr.dtype hr.data
  have hlen : (q.describe p).rawBytes.toInt = q.array.data.length := toInt_ofNat_of_lt q.array.data_lt
  rw [hr.rawBytes, add_ok (by rw [hlen]; exact hraw.1) (by rw [hlen]; exact hraw.2), ok_bind]
  exact ⟨_, rfl, by rw [hr.arrays, harray]; rfl⟩

/-- One turn of the loop of `load` on a placed array. -/
theorem Written.loadTensor_eq {q : Placed} (hp : p.Lawful) (hq : q ∈ layout p 0 arrays.sorted) (mode : Mode)
    {s : Loading} {rest : List TensorDescriptor}
    (hinv : LoadInv (writtenHeader p arrays metadata cacheKey) file s (q.describe p :: rest))
    (hfresh : ∀ e ∈ s.arrays, p.canonical e.1 ≠ p.canonical q.name) :
    (MappingFits p mode q →
      ∃ s', loadTensor p mode file (writtenHeader p arrays metadata cacheKey) s (q.describe p) = ok s' ∧
        s'.arrays = s.arrays ++ [(q.name, q.array)]) ∧
    (¬ MappingFits p mode q →
      ∃ e, loadTensor p mode file (writtenHeader p arrays metadata cacheKey) s (q.describe p) = threw e) := by
  obtain ⟨d, hd⟩ := hinv.entries _ (List.mem_cons_self)
  obtain rfl : q.array.dtype = d := by
    have := hd.dtype
    rw [Placed.describe, mlxDType_dtypeName] at this
    exact ok.inj this
  have hpayload : 0 ≤ (writtenHeader p arrays metadata cacheKey).payloadOffset.toInt := by
    rw [writtenHeader, reserve_toInt]
    omega
  obtain ⟨hadd, hstart⟩ := hinv.start_ok hpayload
  obtain ⟨-, hraw⟩ := hinv.raw_ok
  have hlen : (q.describe p).rawBytes.toInt = q.array.data.length := toInt_ofNat_of_lt q.array.data_lt
  have hrawNonneg := hinv.raw_nonneg
  have hscratch := hinv.scratch_le
  have hguard : guard (∀ e ∈ s.arrays, p.canonical e.1 ≠ p.canonical (q.describe p).name)
      (Failure.container (.invalidTensor (q.describe p).name)) = ok () := Outcome.guard_eq_ok.2 hfresh
  have hstored := hw.stored hq
  unfold loadTensor
  rw [hguard, ok_bind, hd.dtype, ok_bind, hadd, ok_bind]
  cases hencode : encodeIfWorthwhile p q.array.data with
  | none =>
    have henc : (q.describe p).encoding = "raw" := by simp [Placed.describe, hencode]
    -- Only a raw array can be mapped, and only the mapping can refuse it.
    have hfits : MapFits p mode (writtenHeader p arrays metadata cacheKey) (q.describe p) ↔ MappingFits p mode q := by
      have hzero : (q.describe p).rawBytes ≠ 0 ↔ q.array.data ≠ [] := by
        rw [not_iff_not, ← Int64.toInt_inj, hlen, ← List.length_eq_zero_iff, Int64.toInt_zero]
        omega
      simp only [MapFits, MappingFits, hencode, hzero, hlen, start_describe (hw.range hq).2, hp.pageSize_pos, true_and,
        true_implies]
    rw [if_pos henc, ← hfits]
    constructor
    · intro h
      obtain ⟨r, hr, hloads⟩ := loadRaw_ok hd hpayload hstart s henc h
      have hdata : storedBytes p q.array = q.array.data := by simp [storedBytes, hencode]
      rw [hr, ok_bind]
      rw [hstored, hdata] at hloads
      exact hloads.finish ⟨by omega, by omega⟩
    · intro h
      obtain ⟨e, he⟩ := loadRaw_threw hd hpayload hstart s henc h
      exact ⟨e, by rw [he, threw_bind]⟩
  | some encoded =>
    have henc : (q.describe p).encoding = "lzfse" := by simp [Placed.describe, hencode]
    have hfits : MappingFits p mode q := fun _ _ h => by simp [hencode] at h
    have hdecode : decodeLZFSE p ((writtenHeader p arrays metadata cacheKey).stored file.contents (q.describe p))
        (q.describe p).rawBytes (q.describe p).name = ok q.array.data := by
      rw [hstored]
      exact decodeLZFSE_storedBytes hp hencode q.name
    obtain ⟨r, scratch, hr, hloads, -⟩ := loadCompressed_ok hd hpayload hstart s mode hdecode (by omega)
    rw [if_neg (by rw [henc]; decide), if_pos henc, hr, ok_bind]
    exact ⟨fun _ => hloads.finish ⟨by omega, by omega⟩, fun h => absurd hfits h⟩

/-- The loop of `load` over placed arrays. -/
theorem Written.loadTensors_eq (hp : p.Lawful) (mode : Mode) {qs : List Placed}
    (hsub : ∀ q ∈ qs, q ∈ layout p 0 arrays.sorted)
    (hnames : qs.Pairwise fun a b => p.canonical a.name ≠ p.canonical b.name) {s : Loading}
    (hinv : LoadInv (writtenHeader p arrays metadata cacheKey) file s (qs.map (Placed.describe p)))
    (hfresh : ∀ e ∈ s.arrays, ∀ q ∈ qs, p.canonical e.1 ≠ p.canonical q.name) :
    ((∀ q ∈ qs, MappingFits p mode q) →
      ∃ s', (qs.map (Placed.describe p)).foldlM (loadTensor p mode file (writtenHeader p arrays metadata cacheKey)) s =
        ok s' ∧ s'.arrays = s.arrays ++ qs.map fun q => (q.name, q.array)) ∧
    ((¬ ∀ q ∈ qs, MappingFits p mode q) →
      ∃ e, (qs.map (Placed.describe p)).foldlM (loadTensor p mode file (writtenHeader p arrays metadata cacheKey)) s =
        threw e) := by
  induction qs generalizing s with
  | nil => exact ⟨fun _ => ⟨s, rfl, by simp⟩, fun h => absurd (by simp) h⟩
  | cons q qs ih =>
    obtain ⟨hname, hrest⟩ := List.pairwise_cons.1 hnames
    have hpayload : 0 ≤ (writtenHeader p arrays metadata cacheKey).payloadOffset.toInt := by
      rw [writtenHeader, reserve_toInt]
      omega
    have hstep := hw.loadTensor_eq hp (hsub q (by simp)) mode hinv fun e he => hfresh e he q (by simp)
    by_cases hq : MappingFits p mode q
    · obtain ⟨next, hnext, harrays⟩ := hstep.1 hq
      have hinv' := (loadTensor_safe hpayload s _ hinv).of_eq_ok hnext
      have hfresh' : ∀ e ∈ next.arrays, ∀ q' ∈ qs, p.canonical e.1 ≠ p.canonical q'.name := by
        intro e he q' hq'
        rw [harrays] at he
        rcases List.mem_append.1 he with he | he
        · exact hfresh e he q' (List.mem_cons_of_mem _ hq')
        · obtain rfl := List.mem_singleton.1 he
          exact hname q' hq'
      obtain ⟨hall, hnot⟩ := ih (fun q' hq' => hsub q' (List.mem_cons_of_mem _ hq')) hrest hinv' hfresh'
      rw [List.map_cons, List.foldlM_cons, hnext, ok_bind, List.forall_mem_cons]
      refine ⟨fun h => ?_, fun h => hnot fun hqs => h ⟨hq, hqs⟩⟩
      obtain ⟨s', hs', heq⟩ := hall h.2
      exact ⟨s', hs', by rw [heq, harrays]; simp⟩
    · obtain ⟨e, he⟩ := hstep.2 hq
      rw [List.map_cons, List.foldlM_cons, he, threw_bind]
      exact ⟨fun h => absurd (h q (by simp)) hq, fun _ => ⟨e, rfl⟩⟩

end Reading

/-! ## The round trip -/

/-- What the reader refuses although the writer accepts it. -/
structure Loadable (p : Platform) (mode : Mode) (arrays : Arrays p) : Prop where
  names : ∀ e ∈ arrays.entries, e.1 ≠ ""
  counts : ∀ e ∈ arrays.entries, CountFits e.2.shape
  mappings : ∀ q ∈ layout p 0 arrays.sorted, MappingFits p mode q

section Reading
variable {p : Platform} {arrays : Arrays p} {metadata : List (String × String)} {cacheKey : String}
  {headerData : Data} {file : File} (hp : p.Lawful)
  (hw : Written p arrays metadata cacheKey headerData file.contents) {mode : Mode}
include hw

/-- The check accepts what was written unless a name is empty or a product overflows. -/
theorem Written.validate_iff :
    validate p (writtenHeader p arrays metadata cacheKey) file.size = ok () ↔
      ∀ e ∈ arrays.entries, e.1 ≠ "" ∧ CountFits e.2.shape := by
  have hpayload : 0 ≤ (writtenHeader p arrays metadata cacheKey).payloadOffset.toInt := by
    rw [writtenHeader, reserve_toInt]
    omega
  have hentries := layout_entries (p := p) 0 arrays.sorted
  have hquantify : (∀ q ∈ layout p 0 arrays.sorted, q.name ≠ "" ∧ CountFits q.array.shape) ↔
      ∀ e ∈ arrays.entries, e.1 ≠ "" ∧ CountFits e.2.shape := by
    rw [← List.forall_mem_map (f := fun q : Placed => (q.name, q.array))
      (P := fun e => e.1 ≠ "" ∧ CountFits e.2.shape), hentries]
    exact forall_congr' fun e => imp_congr_left arrays.sorted_perm.mem_iff
  rw [validate_ok_iff hpayload, hw.sortedByOffset, ← hquantify]
  exact hw.scanned_iff

/-- The loop over the whole layout, once the check passed. -/
theorem Written.loop_eq (hp : p.Lawful) (hok : validate p (writtenHeader p arrays metadata cacheKey) file.size = ok ()) :
    ((∀ q ∈ layout p 0 arrays.sorted, MappingFits p mode q) →
      ∃ s', (writtenHeader p arrays metadata cacheKey).tensors.foldlM
          (loadTensor p mode file (writtenHeader p arrays metadata cacheKey)) ⟨[], 0, 0, 0, 0, []⟩ = ok s' ∧
        s'.arrays = arrays.sorted) ∧
    ((¬ ∀ q ∈ layout p 0 arrays.sorted, MappingFits p mode q) →
      ∃ e, (writtenHeader p arrays metadata cacheKey).tensors.foldlM
          (loadTensor p mode file (writtenHeader p arrays metadata cacheKey)) ⟨[], 0, 0, 0, 0, []⟩ = threw e) := by
  have hpayload : 0 ≤ (writtenHeader p arrays metadata cacheKey).payloadOffset.toInt := by
    rw [writtenHeader, reserve_toInt]
    omega
  have hloop := hw.loadTensors_eq hp mode (s := ⟨[], 0, 0, 0, 0, []⟩) (fun _ h => h)
    (layout_names arrays) ((validate_ok_iff hpayload).1 hok).loadInv (by simp)
  rw [List.nil_append, layout_entries] at hloop
  exact hloop

include hp

theorem Written.load_of_loadable (h : Loadable p mode arrays) :
    ∃ loaded, load p file cacheKey mode = ok loaded ∧ loaded.1.Perm arrays.entries := by
  have hok := hw.validate_iff.2 fun e he => ⟨h.names e he, h.counts e he⟩
  obtain ⟨s, hs, harrays⟩ := (hw.loop_eq hp hok).1 h.mappings
  rw [load, hw.readHeader hp, ok_bind, hok, ok_bind, hs, ok_bind]
  exact ⟨_, rfl, harrays ▸ arrays.sorted_perm⟩

theorem Written.loadable_of_load {loaded : List (String × MLXArray) × Statistics}
    (hload : load p file cacheKey mode = ok loaded) : Loadable p mode arrays := by
  rw [load, hw.readHeader hp, ok_bind] at hload
  obtain ⟨⟨⟩, hok, hload⟩ := bind_eq_ok.1 hload
  have hchecked := hw.validate_iff.1 hok
  refine ⟨fun e he => (hchecked e he).1, fun e he => (hchecked e he).2, ?_⟩
  by_contra hnot
  obtain ⟨e, he⟩ := (hw.loop_eq hp hok).2 hnot
  rw [he, threw_bind] at hload
  cases hload

end Reading

/-- A stored container is loaded with the same arrays and metadata exactly when it is loadable. -/
theorem load_store_iff {p : Platform} (hp : p.Lawful) {arrays : Arrays p} {metadata : List (String × String)}
    {cacheKey name : String} {stats : Statistics} {file : File}
    (hstore : store p arrays metadata cacheKey name = ok (file.contents, stats)) (mode : Mode) :
    (∃ header loaded, readHeader p file cacheKey = ok header ∧ header.metadata = metadata ∧
      load p file cacheKey mode = ok loaded ∧ loaded.1.Perm arrays.entries) ↔ Loadable p mode arrays := by
  obtain ⟨headerData, hw⟩ := store_spec hstore
  constructor
  · rintro ⟨header, loaded, -, -, hload, -⟩
    exact hw.loadable_of_load hp hload
  · intro h
    obtain ⟨loaded, hload, hperm⟩ := hw.load_of_loadable hp h
    exact ⟨_, loaded, hw.readHeader hp, rfl, hload, hperm⟩

/-! ## One array -/

/-- A host with an unbounded volume whose codec knows one header and its text. -/
def oneHeaderHost (header : Header) (text : Data) : Platform where
  canonical := id
  encodeBuffer := fun _ _ => []
  decodeBuffer := fun _ _ => []
  encodeHeader := fun h => if h = header then some text else none
  decodeHeader := fun d => if d = text then some header else none
  createFile := fun _ => true
  accepts := fun n => decide (n < 2 ^ 63)
  pageSize := 16384

section OneArray
variable (header : Header) (text : Data)

theorem oneHeaderHost_lawful (h : text ≠ []) : (oneHeaderHost header text).Lawful where
  decodeBuffer_encodeBuffer := fun _ _ hne => absurd rfl hne
  decodeHeader_encodeHeader := by
    intro other data heq
    simp only [oneHeaderHost] at heq ⊢
    split at heq
    · obtain rfl : text = data := by simpa using heq
      rw [if_pos rfl, ← ‹other = header›]
    · cases heq
  encodeHeader_ne_nil := by
    intro other data heq
    simp only [oneHeaderHost] at heq
    split at heq
    · obtain rfl : text = data := by simpa using heq
      exact h
    · cases heq
  accepts_lt := by
    intro n hn
    simpa [oneHeaderHost] using hn
  pageSize_pos := show 0 < (16384 : Int64).toInt by decide

/-- The dictionary with one entry. -/
def Arrays.single (p : Platform) (name : String) (a : MLXArray) : Arrays p := ⟨[(name, a)], by simp⟩

@[simp] theorem sorted_single (p : Platform) (name : String) (a : MLXArray) :
    (Arrays.single p name a).sorted = [(name, a)] := by
  have hperm := (Arrays.single p name a).sorted_perm
  exact List.perm_singleton.1 hperm

theorem write_ok (handle : FileHandle) (data : Data) (hend : handle.position ≤ handle.contents.length)
    (h : handle.contents.length + data.length < 2 ^ 63) :
    ∃ after, handle.write (oneHeaderHost header text) data = ok after := by
  have hlen : (handle.overwritten data).length < 2 ^ 63 := by
    simp only [FileHandle.overwritten, List.length_append, List.length_take, List.length_replicate, List.length_drop]
    omega
  exact ⟨_, by rw [FileHandle.write, if_pos (by simpa [oneHeaderHost] using hlen)]⟩

theorem write_within (handle : FileHandle) (data : Data)
    (hwithin : handle.position + data.length ≤ handle.contents.length) (h : handle.contents.length < 2 ^ 63) :
    ∃ after, handle.write (oneHeaderHost header text) data = ok after ∧
      after.position = handle.position + data.length ∧ after.contents.length = handle.contents.length := by
  have hlen : (handle.overwritten data).length = handle.contents.length := by
    simp only [FileHandle.overwritten, List.length_append, List.length_take, List.length_replicate, List.length_drop]
    omega
  exact ⟨_, by rw [FileHandle.write, if_pos (by simpa [oneHeaderHost, hlen] using h)], rfl, hlen⟩

/-- Storing one uncompressed array succeeds when the header fits its region and the file an offset. -/
theorem store_single {name : String} {a : MLXArray} {metadata : List (String × String)} {cacheKey lastPathComponent : String}
    (hraw : encodeIfWorthwhile (oneHeaderHost header text) a.data = none)
    (hlen : headerReserveBytes + a.data.length < 2 ^ 63) (htext : 16 + text.length ≤ headerReserveBytes)
    (hheader : writtenHeader _ (Arrays.single (oneHeaderHost header text) name a) metadata cacheKey = header) :
    ∃ contents stats, store (oneHeaderHost header text) (Arrays.single _ name a) metadata cacheKey lastPathComponent =
      ok (contents, stats) := by
  have hkeys : (Arrays.single (oneHeaderHost header text) name a).sortedKeys = [name] := by
    simp [Arrays.sortedKeys, Arrays.single]
  have hlookup : (Arrays.single (oneHeaderHost header text) name a).lookup name = some a := by simp [Arrays.lookup, Arrays.single]
  have hregion : (List.replicate headerReserveBytes (0 : UInt8)).length = headerReserveBytes := List.length_replicate
  have hempty : (FileHandle.mk [] 0).contents.length = 0 := rfl
  -- The region of the header is written as zeros, and the array behind it.
  obtain ⟨reserved, hreserved⟩ := write_ok header text ⟨[], 0⟩ (List.replicate headerReserveBytes 0)
    (Nat.le_refl 0) (by omega)
  obtain ⟨hzeros, hend, -⟩ := FileHandle.write_end rfl hreserved
  have hsize : reserved.contents.length = headerReserveBytes := by
    rw [hzeros, List.nil_append, List.length_replicate]
  obtain ⟨handle, hwrite⟩ := write_ok header text reserved a.data (by omega) (by omega)
  have hcount := toInt_ofNat_of_lt a.data_lt
  have hturn : ∃ w, storeTensor (oneHeaderHost header text) ⟨reserved, [], 0, 0, 0, 0⟩ name a = ok w ∧ w.handle = handle := by
    have haligned : aligned 0 tensorAlignment = ok 0 := rfl
    have hzero : (0 : Int64).toInt = 0 := rfl
    have hnotlt : ¬ (0 : Int64) > (Writer.mk reserved [] 0 0 0 0).payloadPosition := Int64.lt_irrefl
    unfold storeTensor
    rw [guard_of a.data_length, ok_bind, haligned, ok_bind, padTo, if_neg hnotlt, ok_bind]
    dsimp only
    rw [hraw, Option.getD_none, hwrite, ok_bind, add_ok (by omega) (by omega), ok_bind]
    exact ⟨_, rfl, rfl⟩
  obtain ⟨w, hw, hhandle⟩ := hturn
  have hloop : storeTensors _ (Arrays.single (oneHeaderHost header text) name a) ⟨reserved, [], 0, 0, 0, 0⟩ [name] = ok w := by
    unfold storeTensors
    rw [hlookup]
    dsimp only
    rw [hw, ok_bind]
    rfl
  have hwrote := storeTensor_spec (show Writer.At _ 0 from ⟨by rw [hsize, Nat.add_zero], hend, rfl⟩) hw
  have hindex : (⟨formatVersion, cacheKey, Int64.ofNat headerReserveBytes, metadata, w.descriptors⟩ : Header) = header := by
    rw [← hheader, writtenHeader, hwrote.descriptors, sorted_single]
    rfl
  have hcontents := (FileHandle.write_end hend hwrite).1
  have hlength : handle.contents.length = headerReserveBytes + a.data.length := by
    rw [hcontents, List.length_append, hsize]
  -- The header goes over the zeros in three writes, of which none makes the file longer.
  obtain ⟨first, hfirst, hfirst', hone⟩ := write_within header text (handle.seek 0) magic
    (by simp only [FileHandle.seek, magic_length]; omega) (by simp only [FileHandle.seek]; omega)
  simp only [FileHandle.seek, magic_length] at hfirst' hone
  obtain ⟨second, hsecond, hsecond', htwo⟩ := write_within header text first
    (littleEndianData (UInt64.ofNat text.length)) (by rw [littleEndianData_length]; omega) (by omega)
  rw [littleEndianData_length] at hsecond'
  obtain ⟨third, hthird, -, -⟩ := write_within header text second text (by omega) (by omega)
  have hencode : (oneHeaderHost header text).encodeHeader header = some text := if_pos rfl
  refine ⟨third.contents, ⟨w.completedRawBytes, Int64.ofNat third.contents.length, w.compressedTensorCount,
    w.rawTensorCount⟩, ?_⟩
  have hcreate : (oneHeaderHost header text).createFile lastPathComponent = true := rfl
  unfold store
  rw [guard_of hcreate, ok_bind, hreserved, ok_bind, hkeys, hloop, ok_bind]
  dsimp only
  rw [hindex, hencode, ofOption, ok_bind, guard_of (by rw [magic_length]; exact htext), ok_bind, hhandle, hfirst, ok_bind,
    hsecond, ok_bind, hthird, ok_bind]

end OneArray

/-- The index of a single raw tensor, and its JSON text. -/
def rawHeader (name dtype : String) (shape : List Int64) (bytes : Int64) : Header :=
  ⟨formatVersion, "k", Int64.ofNat headerReserveBytes, [], [⟨name, dtype, shape, "raw", 0, bytes, bytes⟩]⟩

def rawHeaderText (name dtype shape bytes : String) : Data :=
  ascii ("\x7b\"cacheKey\":\"k\",\"formatVersion\":1,\"metadata\":\x7b\x7d,\"payloadOffset\":1048576,\"tensors\":[" ++
    "\x7b\"dtype\":\"" ++ dtype ++ "\",\"encoding\":\"raw\",\"name\":\"" ++ name ++ "\",\"offset\":0,\"rawBytes\":" ++
    bytes ++ ",\"shape\":[" ++ shape ++ "],\"storedBytes\":" ++ bytes ++ "\x7d]\x7d")

theorem writtenHeader_single {p : Platform} {a : MLXArray} (hraw : encodeIfWorthwhile p a.data = none) (name : String) :
    writtenHeader p (Arrays.single p name a) [] "k" =
      rawHeader name (dtypeName a.dtype) (a.shape.map Int64.ofNat) (Int64.ofNat a.data.length) := by
  simp only [writtenHeader, sorted_single, layout, List.map_cons, List.map_nil, Placed.describe, hraw, storedBytes,
    Option.getD_none]
  rfl

def smallArray : MLXArray := ⟨[3], .uint8, [1, 2, 3], by decide, by decide, by decide⟩

/-- An embedding table of 2 GiB: 262144 rows of 4096 half-precision numbers. -/
def embedding : MLXArray where
  shape := [262144, 4096]
  dtype := .float16
  data := List.replicate (nbytes [262144, 4096] .float16) 0
  dims_le := by decide
  data_length := List.length_replicate
  data_lt := by
    rw [List.length_replicate]
    decide

theorem embedding_length : embedding.data.length = 2147483648 := embedding.data_length

def smallHost : Platform :=
  oneHeaderHost (rawHeader "w" "U8" [3] 3) (rawHeaderText "w" "U8" "3" "3")

def embeddingHost : Platform :=
  oneHeaderHost (rawHeader "embed" "F16" [262144, 4096] 2147483648) (rawHeaderText "embed" "F16" "262144,4096" "2147483648")

theorem rawHeaderText_length (name dtype shape bytes : String) :
    (rawHeaderText name dtype shape bytes).length =
      173 + name.length + dtype.length + shape.length + 2 * bytes.length := by
  simp only [rawHeaderText, ascii, List.length_map, String.toList_append, List.length_append]
  simp
  simp only [String.length_toList]
  omega

theorem rawHeaderText_ne_nil (name dtype shape bytes : String) : rawHeaderText name dtype shape bytes ≠ [] := by
  rw [← List.length_pos_iff, rawHeaderText_length]
  omega

theorem small_loadable (mode : Mode) : Loadable smallHost mode (Arrays.single smallHost "w" smallArray) where
  names := by simp [Arrays.single]
  counts := by
    intro e he k
    obtain rfl := List.mem_singleton.1 he
    rcases k with _ | k <;> simp [smallArray]
  mappings := by
    intro q hq
    rw [sorted_single] at hq
    obtain rfl := List.mem_singleton.1 hq
    intro _ _ _ _
    decide

/-- A small array comes back in every mode. -/
theorem small_roundTrip : ∃ (file : File) (stats : Statistics),
    store smallHost (Arrays.single smallHost "w" smallArray) [] "k" "m.fgguf" = ok (file.contents, stats) ∧
      ∀ mode, ∃ header loaded, readHeader smallHost file "k" = ok header ∧ header.metadata = [] ∧
        load smallHost file "k" mode = ok loaded ∧ loaded.1.Perm [("w", smallArray)] := by
  have hlawful : smallHost.Lawful := oneHeaderHost_lawful _ _ (rawHeaderText_ne_nil _ _ _ _)
  have hraw : encodeIfWorthwhile smallHost smallArray.data = none := rfl
  obtain ⟨contents, stats, hstore⟩ : ∃ contents stats,
      store smallHost (Arrays.single smallHost "w" smallArray) [] "k" "m.fgguf" = ok (contents, stats) :=
    store_single _ _ hraw (by decide) (by rw [rawHeaderText_length]; decide) (writtenHeader_single hraw _)
  obtain ⟨headerData, hw⟩ := store_spec hstore
  have hlt := hlawful.accepts_lt _ hw.accepted
  obtain ⟨file, rfl⟩ : ∃ file : File, file.contents = contents := ⟨⟨"m.fgguf", contents, hlt⟩, rfl⟩
  exact ⟨file, stats, hstore, fun mode => (load_store_iff hlawful hstore mode).2 (small_loadable mode)⟩

/-- A stored 2 GiB array cannot be loaded mapped. -/
theorem embedding_not_mapped : embeddingHost.Lawful ∧ ∃ (file : File) (stats : Statistics),
    store embeddingHost (Arrays.single embeddingHost "embed" embedding) [] "k" "m.fgguf" = ok (file.contents, stats) ∧
      ∀ loaded, load embeddingHost file "k" ⟨false, true⟩ ≠ ok loaded := by
  have hlawful : embeddingHost.Lawful := oneHeaderHost_lawful _ _ (rawHeaderText_ne_nil _ _ _ _)
  have hraw : encodeIfWorthwhile embeddingHost embedding.data = none := by
    rw [encodeIfWorthwhile, if_neg]
    rw [embedding_length]
    decide
  have hheader := writtenHeader_single hraw "embed"
  rw [embedding_length] at hheader
  obtain ⟨contents, stats, hstore⟩ : ∃ contents stats,
      store embeddingHost (Arrays.single embeddingHost "embed" embedding) [] "k" "m.fgguf" = ok (contents, stats) :=
    store_single _ _ hraw (by rw [embedding_length]; decide) (by rw [rawHeaderText_length]; decide) hheader
  obtain ⟨headerData, hw⟩ := store_spec hstore
  have hlt := hlawful.accepts_lt _ hw.accepted
  obtain ⟨file, rfl⟩ : ∃ file : File, file.contents = contents := ⟨⟨"m.fgguf", contents, hlt⟩, rfl⟩
  refine ⟨hlawful, file, stats, hstore, fun loaded hload => ?_⟩
  have hloadable := hw.loadable_of_load hlawful hload
  have hfits := hloadable.mappings ⟨"embed", embedding, 0⟩ (by rw [sorted_single]; exact List.mem_singleton.2 rfl)
    rfl rfl hraw (by rw [← List.length_pos_iff, embedding_length]; decide)
  dsimp only at hfits
  rw [embedding_length] at hfits
  exact absurd hfits (by decide)

end Tanpopo.FastGGUF
