import Mathlib.Data.List.Induction
import Tanpopo.Lib.Stream
/-!
# GGUF metadata in Go

The metadata readers of `llamacpp`, which pass over what they do not look for.
`Value` and `MetadataSection` say what a file stores, `encode` how. The readers
keep in step with the encoding, so they find what is stored.
-/

namespace Tanpopo.Llamacpp

open ByteStream

/-! ## Constants -/

def ggufTypeUint8 : UInt32 := 0
def ggufTypeInt8 : UInt32 := 1
def ggufTypeUint16 : UInt32 := 2
def ggufTypeInt16 : UInt32 := 3
def ggufTypeUint32 : UInt32 := 4
def ggufTypeInt32 : UInt32 := 5
def ggufTypeFloat32 : UInt32 := 6
def ggufTypeBool : UInt32 := 7
def ggufTypeString : UInt32 := 8
def ggufTypeArray : UInt32 := 9
def ggufTypeUint64 : UInt32 := 10
def ggufTypeInt64 : UInt32 := 11
def ggufTypeFloat64 : UInt32 := 12

def maxGGUFMetadataEntries : Nat := 1000000
def maxGGUFStringBytes : Nat := 16 * 1024 * 1024
def maxGGUFArrayElements : Nat := 100000000

def maxInt64 : Nat := 2 ^ 63 - 1

/-- The bytes of a Go string. -/
def utf8 (text : String) : Bytes := text.toUTF8.toList

inductive ReadError where
  | eof
  | unexpectedEOF
  | message (text : Bytes)
  deriving DecidableEq

abbrev GGUFReader := Reader ReadError

/-! ## The readers -/

def readGGUFUint32 : GGUFReader UInt32 := do
  let data ← readFull .eof .unexpectedEOF 4
  return UInt32.ofNat (littleEndian data)

def readGGUFUint64 : GGUFReader Nat := do
  let data ← readFull .eof .unexpectedEOF 8
  return littleEndian data

/-- The loop over `Discard`, whose argument is an `int`. -/
def discardAll : Nat → Nat → GGUFReader Unit
  | 0, _ => pure ()
  | fuel + 1, count =>
    if count > 0 then do
      let chunk ← within (2 ^ 63) (min count maxInt64)
      discard .eof chunk
      discardAll fuel (count - chunk)
    else pure ()

def skipGGUFBytes (count : Nat) : GGUFReader Unit :=
  if count > maxInt64 then fail (.message (utf8 "GGUF metadata 大小異常")) else discardAll (count + 1) count

def readGGUFString (maximum : Nat) : GGUFReader Bytes := do
  let length ← readGGUFUint64
  if length > maximum then fail (.message (utf8 "GGUF metadata 字串長度異常"))
  else do
    let length ← within (2 ^ 63) length
    readFull .eof .unexpectedEOF length

def ggufScalarSize (valueType : UInt32) : Option Nat :=
  if valueType = ggufTypeUint8 ∨ valueType = ggufTypeInt8 ∨ valueType = ggufTypeBool then some 1
  else if valueType = ggufTypeUint16 ∨ valueType = ggufTypeInt16 then some 2
  else if valueType = ggufTypeUint32 ∨ valueType = ggufTypeInt32 ∨ valueType = ggufTypeFloat32 then some 4
  else if valueType = ggufTypeUint64 ∨ valueType = ggufTypeInt64 ∨ valueType = ggufTypeFloat64 then some 8
  else none

/-- `skipGGUFValue` where `levels` more levels are allowed, itself included. -/
def skipLevels : Nat → UInt32 → GGUFReader Unit
  | 0, _ => fail (.message (utf8 "GGUF metadata array 巢狀層級過深"))
  | levels + 1, valueType =>
    match ggufScalarSize valueType with
    | some size => skipGGUFBytes size
    | none =>
      if valueType = ggufTypeString then do
        let length ← readGGUFUint64
        skipGGUFBytes length
      else if valueType = ggufTypeArray then do
        let elementType ← readGGUFUint32
        let count ← readGGUFUint64
        if count > maxGGUFArrayElements then fail (.message (utf8 "GGUF metadata array 長度異常"))
        else
          match ggufScalarSize elementType with
          | some size =>
            if count > (2 ^ 64 - 1) / size then fail (.message (utf8 "GGUF metadata array 大小溢位"))
            else do
              let bytes ← within (2 ^ 64) (count * size)
              skipGGUFBytes bytes
          | none => times (skipLevels levels elementType) count
      else fail (.message (utf8 "不支援的 GGUF metadata 型別：" ++ utf8 (toString valueType)))

/-- The depth is checked against 2 before anything is read. -/
def skipGGUFValue (valueType : UInt32) (depth : Nat) : GGUFReader Unit := skipLevels (3 - depth) valueType

/-- What both readers read first; the result is the number of entries. -/
def readHeader : GGUFReader Nat := do
  let magic ← readFull .eof .unexpectedEOF 4
  if magic ≠ utf8 "GGUF" then fail (.message (utf8 "不是 GGUF 檔案"))
  else do
    let version ← readGGUFUint32
    if version < 2 ∨ version > 3 then fail (.message (utf8 "不支援的 GGUF 版本：" ++ utf8 (toString version)))
    else do
      let _ ← readGGUFUint64
      let metadataCount ← readGGUFUint64
      if metadataCount > maxGGUFMetadataEntries then fail (.message (utf8 "GGUF metadata 數量異常"))
      else return metadataCount

def readStringEntries (expectedKey : Bytes) : Nat → GGUFReader Bytes
  | 0 => fail (.message (utf8 "GGUF 缺少 metadata：" ++ expectedKey))
  | count + 1 => do
    let key ← readGGUFString maxGGUFStringBytes
    let valueType ← readGGUFUint32
    if key = expectedKey then
      if valueType ≠ ggufTypeString then
        fail (.message (utf8 "GGUF metadata " ++ expectedKey ++ utf8 " 不是字串"))
      else readGGUFString maxGGUFStringBytes
    else do
      skipGGUFValue valueType 0
      readStringEntries expectedKey count

/-- The contents are those of the file that was opened. -/
def readGGUFStringMetadata (contents expectedKey : Bytes) : Except (Fault ReadError) Bytes :=
  StateT.run' (do
    let metadataCount ← readHeader
    readStringEntries expectedKey metadataCount) contents

structure GGUFModelProfile where
  architecture : Bytes := []
  hasBlockCount : Bool := false
  hasTokenizer : Bool := false
  hasPoolingType : Bool := false
  nextNPredictLayers : Int := 0
  deriving DecidableEq

def readUnsigned (size : Nat) : GGUFReader (Int × Bool) := do
  let data ← readFull .eof .unexpectedEOF size
  let value ← within (2 ^ 63) (littleEndian data)
  return (value, true)

def readSigned (size : Nat) : GGUFReader (Int × Bool) := do
  let data ← readFull .eof .unexpectedEOF size
  return ((BitVec.ofNat (8 * size) (littleEndian data)).toInt, true)

def readGGUFIntegerMetadata (valueType : UInt32) : GGUFReader (Int × Bool) :=
  if valueType = ggufTypeUint8 then readUnsigned 1
  else if valueType = ggufTypeInt8 then readSigned 1
  else if valueType = ggufTypeUint16 then readUnsigned 2
  else if valueType = ggufTypeInt16 then readSigned 2
  else if valueType = ggufTypeUint32 then readUnsigned 4
  else if valueType = ggufTypeInt32 then readSigned 4
  else if valueType = ggufTypeUint64 then do
    let data ← readFull .eof .unexpectedEOF 8
    if littleEndian data > maxInt64 then return (0, true)
    else do
      let value ← within (2 ^ 63) (littleEndian data)
      return (value, true)
  else if valueType = ggufTypeInt64 then readSigned 8
  else return (0, false)

/-- One turn of the loop over the entries, after the key and the type. -/
def readProfileValue (profile : GGUFModelProfile) (key : Bytes) (valueType : UInt32) : GGUFReader GGUFModelProfile :=
  if key = utf8 "general.architecture" ∧ valueType = ggufTypeString then do
    let value ← readGGUFString maxGGUFStringBytes
    return { profile with architecture := value }
  else if (utf8 ".block_count").isSuffixOf key then do
    skipGGUFValue valueType 0
    return { profile with hasBlockCount := true }
  else if key = utf8 "tokenizer.ggml.tokens" then do
    skipGGUFValue valueType 0
    return { profile with hasTokenizer := true }
  else if (utf8 ".pooling_type").isSuffixOf key then do
    skipGGUFValue valueType 0
    return { profile with hasPoolingType := true }
  else if (utf8 ".nextn_predict_layers").isSuffixOf key then do
    let (value, supported) ← readGGUFIntegerMetadata valueType
    if supported then
      return if value > 0 ∧ value ≤ maxInt64 then { profile with nextNPredictLayers := value } else profile
    else do
      skipGGUFValue valueType 0
      return profile
  else do
    skipGGUFValue valueType 0
    return profile

def readProfileEntries : GGUFModelProfile → Nat → GGUFReader GGUFModelProfile
  | profile, 0 => return profile
  | profile, count + 1 => do
    let key ← readGGUFString maxGGUFStringBytes
    let valueType ← readGGUFUint32
    let profile ← readProfileValue profile key valueType
    readProfileEntries profile count

def readGGUFModelProfile (contents : Bytes) : Except (Fault ReadError) GGUFModelProfile :=
  StateT.run' (do
    let metadataCount ← readHeader
    readProfileEntries {} metadataCount) contents

/-! ## What a file stores -/

/-- A scalar is kept as its word, which fits its size. -/
inductive Value where
  | scalar (type : UInt32) (size : Nat) (isScalar : ggufScalarSize type = some size) (word : Fin (256 ^ size))
  | string (content : Bytes)
  | array (elementType : UInt32) (elements : List Value)

def Value.type : Value → UInt32
  | .scalar type .. => type
  | .string _ => ggufTypeString
  | .array .. => ggufTypeArray

mutual
def Value.encode : Value → Bytes
  | .scalar _ size _ word => wordBytes size word
  | .string content => wordBytes 8 content.length ++ content
  | .array elementType elements => wordBytes 4 elementType.toNat ++ (wordBytes 8 elements.length ++ encodeAll elements)

def encodeAll : List Value → Bytes
  | [] => []
  | value :: values => value.encode ++ encodeAll values
end

/-- The value is nested at most so many levels deep, and as long as the reader allows. -/
def Value.Fits : Nat → Value → Prop
  | 0, _ => False
  | _ + 1, .scalar .. => True
  | _ + 1, .string content => content.length ≤ maxInt64
  | levels + 1, .array elementType elements =>
    elements.length ≤ maxGGUFArrayElements ∧ (∀ element ∈ elements, element.type = elementType) ∧
      (ggufScalarSize elementType = none → ∀ element ∈ elements, element.Fits levels)

/-- The start of a well-formed file, up to the end of its metadata. -/
structure MetadataSection where
  version : UInt32
  version_supported : version = 2 ∨ version = 3
  tensorCount : Fin (256 ^ 8)
  entries : List (Bytes × Value)
  entries_length : entries.length ≤ maxGGUFMetadataEntries
  entries_fit : ∀ entry ∈ entries, entry.1.length ≤ maxGGUFStringBytes ∧ entry.2.Fits 3

def encodeEntry (entry : Bytes × Value) : Bytes :=
  wordBytes 8 entry.1.length ++ (entry.1 ++ (wordBytes 4 entry.2.type.toNat ++ entry.2.encode))

def MetadataSection.encode (s : MetadataSection) : Bytes :=
  utf8 "GGUF" ++ (wordBytes 4 s.version.toNat ++ (wordBytes 8 s.tensorCount ++
    (wordBytes 8 s.entries.length ++ s.entries.flatMap encodeEntry)))

/-! ## Exact arithmetic -/

theorem exact_readGGUFUint32 : Exact readGGUFUint32 := (exact_readFull _ _ _).bind fun _ => exact_pure _

theorem exact_readGGUFUint64 : Exact readGGUFUint64 := (exact_readFull _ _ _).bind fun _ => exact_pure _

theorem exact_discardAll (fuel count : Nat) : Exact (discardAll fuel count) := by
  induction fuel generalizing count with
  | zero => exact exact_pure ()
  | succ fuel ih =>
    rw [discardAll]
    split
    · refine (exact_within ?_).bind fun chunk => (exact_discard _ _).bind fun _ => ih _
      rw [maxInt64]
      omega
    · exact exact_pure ()

theorem exact_skipGGUFBytes (count : Nat) : Exact (skipGGUFBytes count) := by
  unfold skipGGUFBytes
  split
  · exact exact_fail _
  · exact exact_discardAll _ _

theorem exact_readGGUFString {maximum : Nat} (h : maximum ≤ maxInt64) : Exact (readGGUFString maximum) := by
  refine exact_readGGUFUint64.bind fun length => ?_
  split
  · exact exact_fail _
  · refine (exact_within ?_).bind fun _ => exact_readFull _ _ _
    rw [maxInt64] at h
    omega

theorem scalarSize_le {valueType : UInt32} {size : Nat} (h : ggufScalarSize valueType = some size) : 0 < size ∧ size ≤ 8 := by
  unfold ggufScalarSize at h
  split_ifs at h <;> cases h <;> decide

theorem exact_skipLevels (levels : Nat) (valueType : UInt32) : Exact (skipLevels levels valueType) := by
  induction levels generalizing valueType with
  | zero => exact exact_fail _
  | succ levels ih =>
    rw [skipLevels]
    split
    · exact exact_skipGGUFBytes _
    split
    · exact exact_readGGUFUint64.bind fun length => exact_skipGGUFBytes length
    split
    · refine exact_readGGUFUint32.bind fun elementType => exact_readGGUFUint64.bind fun count => ?_
      split
      · exact exact_fail _
      rename_i hcount
      split
      · rename_i size hsize
        split
        · exact exact_fail _
        · refine (exact_within ?_).bind fun bytes => exact_skipGGUFBytes bytes
          have hproduct : count * size ≤ maxGGUFArrayElements * 8 :=
            Nat.mul_le_mul (Nat.le_of_not_lt hcount) (scalarSize_le hsize).2
          rw [maxGGUFArrayElements] at hproduct
          omega
      · exact exact_times (ih elementType) count
    · exact exact_fail _

theorem exact_readHeader : Exact readHeader := by
  refine (exact_readFull _ _ _).bind fun magic => ?_
  split
  · exact exact_fail _
  refine exact_readGGUFUint32.bind fun version => ?_
  split
  · exact exact_fail _
  refine exact_readGGUFUint64.bind fun _ => exact_readGGUFUint64.bind fun metadataCount => ?_
  split
  · exact exact_fail _
  · exact exact_pure _

theorem exact_readKey : Exact (readGGUFString maxGGUFStringBytes) := exact_readGGUFString (by decide)

theorem exact_readStringEntries (expectedKey : Bytes) (count : Nat) : Exact (readStringEntries expectedKey count) := by
  induction count with
  | zero => exact exact_fail _
  | succ count ih =>
    refine exact_readKey.bind fun key => exact_readGGUFUint32.bind fun valueType => ?_
    split
    · split
      · exact exact_fail _
      · exact exact_readKey
    · exact (exact_skipLevels _ _).bind fun _ => ih

theorem exact_readUnsigned {size : Nat} (h : size < 8) : Exact (readUnsigned size) := by
  refine (exact_readFull _ _ _).bind_of fun stream data rest hdata => (exact_within ?_).bind fun _ => exact_pure _
  have hlt := littleEndian_lt data
  have hpow : 256 ^ data.length ≤ 256 ^ 7 := Nat.pow_le_pow_right (by decide) (by rw [length_of_readFull hdata]; omega)
  omega

theorem exact_readSigned (size : Nat) : Exact (readSigned size) := (exact_readFull _ _ _).bind fun _ => exact_pure _

theorem exact_readGGUFIntegerMetadata (valueType : UInt32) : Exact (readGGUFIntegerMetadata valueType) := by
  unfold readGGUFIntegerMetadata
  split_ifs
  · exact exact_readUnsigned (by decide)
  · exact exact_readSigned 1
  · exact exact_readUnsigned (by decide)
  · exact exact_readSigned 2
  · exact exact_readUnsigned (by decide)
  · exact exact_readSigned 4
  · refine (exact_readFull _ _ _).bind fun data => ?_
    split
    · exact exact_pure _
    · refine (exact_within ?_).bind fun _ => exact_pure _
      rename_i hdata
      rw [maxInt64] at hdata
      omega
  · exact exact_readSigned 8
  · exact exact_pure _

theorem exact_readProfileValue (profile : GGUFModelProfile) (key : Bytes) (valueType : UInt32) :
    Exact (readProfileValue profile key valueType) := by
  have hskip : ∀ next : GGUFModelProfile, Exact (do skipGGUFValue valueType 0; return next : GGUFReader GGUFModelProfile) :=
    fun next => (exact_skipLevels _ _).bind fun _ => exact_pure next
  unfold readProfileValue
  split_ifs
  · exact exact_readKey.bind fun _ => exact_pure _
  · exact hskip _
  · exact hskip _
  · exact hskip _
  · refine (exact_readGGUFIntegerMetadata valueType).bind fun ⟨value, supported⟩ => ?_
    cases supported with
    | true => exact exact_pure _
    | false => exact hskip _
  · exact hskip _

theorem exact_readProfileEntries (profile : GGUFModelProfile) (count : Nat) : Exact (readProfileEntries profile count) := by
  induction count generalizing profile with
  | zero => exact exact_pure _
  | succ count ih =>
    exact exact_readKey.bind fun key => exact_readGGUFUint32.bind fun valueType =>
      (exact_readProfileValue profile key valueType).bind fun profile => ih profile

/-! ## In step with the encoding -/

theorem reads_readGGUFUint32 (word : UInt32) : Reads readGGUFUint32 (wordBytes 4 word.toNat) word := by
  refine (reads_readFull (wordBytes_length _ _)).bind_pure ?_
  rw [littleEndian_wordBytes word.toNat_lt, UInt32.ofNat_toNat]
  exact reads_pure word

theorem reads_readGGUFUint64 {n : Nat} (h : n < 256 ^ 8) : Reads readGGUFUint64 (wordBytes 8 n) n := by
  refine (reads_readFull (wordBytes_length _ _)).bind_pure ?_
  rw [littleEndian_wordBytes h]
  exact reads_pure n

/-- One turn of the loop discards everything. -/
theorem reads_skipGGUFBytes {bytes : Bytes} {count : Nat} (h : bytes.length = count) (hmax : count ≤ maxInt64) :
    Reads (skipGGUFBytes count) bytes () := by
  rw [skipGGUFBytes, if_neg (Nat.not_lt.2 hmax), discardAll]
  split
  · rw [Nat.min_eq_left hmax]
    have hrest : Reads (discardAll count (count - count)) [] () := by
      rw [Nat.sub_self]
      cases count with
      | zero => exact reads_pure ()
      | succ count => exact reads_pure ()
    rw [maxInt64] at hmax
    exact (reads_within (by omega)).bind ((reads_discard h).bind_pure hrest)
  · rw [List.length_eq_zero_iff.1 (by omega : bytes.length = 0)]
    exact reads_pure ()

theorem reads_readGGUFString {content : Bytes} {maximum : Nat} (hmax : maximum ≤ maxInt64) (h : content.length ≤ maximum) :
    Reads (readGGUFString maximum) (wordBytes 8 content.length ++ content) content := by
  rw [maxInt64] at hmax
  refine (reads_readGGUFUint64 (by omega)).bind ?_
  rw [if_neg (Nat.not_lt.2 h)]
  exact (reads_within (by omega)).bind (reads_readFull rfl)

theorem encodeAll_eq (values : List Value) : encodeAll values = values.flatMap Value.encode := by
  induction values with
  | nil => rfl
  | cons value values ih => rw [encodeAll, ih, List.flatMap_cons]

/-- The elements of an array of scalars take as many bytes as the reader computes. -/
theorem encodeAll_length {elementType : UInt32} {size : Nat} (hsize : ggufScalarSize elementType = some size)
    {elements : List Value} (h : ∀ element ∈ elements, element.type = elementType) :
    (encodeAll elements).length = elements.length * size := by
  induction elements with
  | nil => rw [List.length_nil, Nat.zero_mul]; rfl
  | cons element elements ih =>
    have hlength : element.encode.length = size := by
      have htype := h element List.mem_cons_self
      cases element with
      | scalar type elementSize isScalar word =>
        rw [Value.type] at htype
        rw [htype, hsize] at isScalar
        rw [Value.encode, wordBytes_length, Option.some.inj isScalar]
      | string content =>
        rw [← htype] at hsize
        cases hsize
      | array type elements =>
        rw [← htype] at hsize
        cases hsize
    rw [encodeAll, List.length_append, hlength, ih fun element hmem => h element (List.mem_cons_of_mem _ hmem),
      List.length_cons]
    ring

/-- Skipping consumes exactly the encoding. -/
theorem reads_skipLevels {levels : Nat} {value : Value} (h : value.Fits levels) :
    Reads (skipLevels levels value.type) value.encode () := by
  induction levels generalizing value with
  | zero => exact absurd h (by simp [Value.Fits])
  | succ levels ih =>
    rw [skipLevels]
    cases value with
    | scalar type size isScalar word =>
      rw [Value.type, isScalar]
      refine reads_skipGGUFBytes (wordBytes_length _ _) ?_
      have := (scalarSize_le isScalar).2
      rw [maxInt64]
      omega
    | string content =>
      have hlength : content.length ≤ maxInt64 := h
      have hword : content.length < 256 ^ 8 := by
        rw [maxInt64] at hlength
        omega
      exact (reads_readGGUFUint64 hword).bind (reads_skipGGUFBytes rfl hlength)
    | array elementType elements =>
      obtain ⟨hcount, htype, hfits⟩ := h
      have hword : elements.length < 256 ^ 8 := by
        rw [maxGGUFArrayElements] at hcount
        omega
      refine (reads_readGGUFUint32 elementType).bind ((reads_readGGUFUint64 hword).bind ?_)
      rw [if_neg (Nat.not_lt.2 hcount)]
      cases hsize : ggufScalarSize elementType with
      | some size =>
        -- Scalars are skipped at once, and the check of their product passes.
        have hbytes := encodeAll_length hsize htype
        obtain ⟨hpos, hle⟩ := scalarSize_le hsize
        have hproduct : elements.length * size ≤ maxGGUFArrayElements * 8 := Nat.mul_le_mul hcount hle
        have hquotient : ¬ elements.length > (2 ^ 64 - 1) / size := by
          rw [gt_iff_lt, Nat.div_lt_iff_lt_mul hpos]
          rw [maxGGUFArrayElements] at hproduct
          omega
        dsimp only
        rw [if_neg hquotient]
        rw [maxGGUFArrayElements] at hproduct
        exact (reads_within (by omega)).bind (reads_skipGGUFBytes hbytes (by rw [maxInt64]; omega))
      | none =>
        dsimp only
        -- Strings and arrays are skipped one by one, a level further down.
        rw [encodeAll_eq]
        refine reads_times fun element hmem => ?_
        rw [← htype element hmem]
        exact ih (hfits hsize element hmem)

theorem reads_readHeader (s : MetadataSection) : Reads readHeader
    (utf8 "GGUF" ++ (wordBytes 4 s.version.toNat ++ (wordBytes 8 s.tensorCount ++ wordBytes 8 s.entries.length)))
    s.entries.length := by
  have hcount := s.entries_length
  have hword : s.entries.length < 256 ^ 8 := by
    rw [maxGGUFMetadataEntries] at hcount
    omega
  refine (reads_readFull (by decide +kernel)).bind ?_
  rw [if_neg (not_not.2 rfl)]
  refine (reads_readGGUFUint32 s.version).bind ?_
  rw [if_neg]
  · refine (reads_readGGUFUint64 s.tensorCount.isLt).bind ((reads_readGGUFUint64 hword).bind_pure ?_)
    rw [if_neg (Nat.not_lt.2 hcount)]
    exact reads_pure _
  · rcases s.version_supported with h | h <;> rw [h] <;> decide

/-! ## The string reader -/

/-- What the reader finds under a key: the first entry counts, and has to be a string of a length it accepts. -/
def storedString (key : Bytes) (entries : List (Bytes × Value)) : Except (Fault ReadError) Bytes :=
  match entries.find? fun entry => entry.1 = key with
  | none => .error (.error (.message (utf8 "GGUF 缺少 metadata：" ++ key)))
  | some (_, .string content) =>
    if content.length ≤ maxGGUFStringBytes then .ok content
    else .error (.error (.message (utf8 "GGUF metadata 字串長度異常")))
  | some _ => .error (.error (.message (utf8 "GGUF metadata " ++ key ++ utf8 " 不是字串")))

theorem Value.type_eq_string {value : Value} (h : value.type = ggufTypeString) : ∃ content, value = .string content := by
  cases value with
  | scalar type size isScalar word =>
    rw [Value.type] at h
    rw [h] at isScalar
    cases isScalar
  | string content => exact ⟨content, rfl⟩
  | array elementType elements => cases h

/-- The key and the type are read, and the value is what comes next. -/
theorem readEntry_apply {α : Type} {entry : Bytes × Value} {rest : Bytes} (h : entry.1.length ≤ maxGGUFStringBytes)
    (next : Bytes → UInt32 → GGUFReader α) :
    (readGGUFString maxGGUFStringBytes >>= fun key => readGGUFUint32 >>= fun valueType => next key valueType)
        (encodeEntry entry ++ rest) = next entry.1 entry.2.type (entry.2.encode ++ rest) := by
  have hsplit : encodeEntry entry ++ rest =
      (wordBytes 8 entry.1.length ++ entry.1) ++ (wordBytes 4 entry.2.type.toNat ++ (entry.2.encode ++ rest)) := by
    simp [encodeEntry]
  rw [hsplit, (reads_readGGUFString (by decide) h).bind_apply, (reads_readGGUFUint32 _).bind_apply]

theorem readGGUFString_apply {content : Bytes} (rest : Bytes) (h : content.length ≤ maxInt64) :
    (readGGUFString maxGGUFStringBytes (wordBytes 8 content.length ++ content ++ rest)).map Prod.fst =
      if content.length ≤ maxGGUFStringBytes then .ok content
      else .error (.error (.message (utf8 "GGUF metadata 字串長度異常"))) := by
  split_ifs with hlength
  · rw [reads_readGGUFString (by decide) hlength rest]
    rfl
  · rw [maxInt64] at h
    rw [readGGUFString, List.append_assoc, (reads_readGGUFUint64 (by omega)).bind_apply,
      if_pos (Nat.lt_of_not_le hlength)]
    rfl

theorem readStringEntries_encode {key : Bytes} {entries : List (Bytes × Value)} (rest : Bytes)
    (h : ∀ entry ∈ entries, entry.1.length ≤ maxGGUFStringBytes ∧ entry.2.Fits 3) :
    (readStringEntries key entries.length (entries.flatMap encodeEntry ++ rest)).map Prod.fst = storedString key entries := by
  induction entries with
  | nil => rfl
  | cons entry entries ih =>
    obtain ⟨name, value⟩ := entry
    obtain ⟨hkey, hfits⟩ := h (name, value) List.mem_cons_self
    rw [List.flatMap_cons, List.length_cons, readStringEntries, List.append_assoc (encodeEntry _), readEntry_apply hkey]
    dsimp only
    by_cases heq : name = key
    · subst heq
      rw [if_pos rfl, storedString, List.find?_cons_of_pos (by simp)]
      by_cases htype : value.type = ggufTypeString
      · obtain ⟨content, rfl⟩ := Value.type_eq_string htype
        rw [if_neg (not_not.2 htype)]
        exact readGGUFString_apply _ hfits
      · rw [if_pos htype]
        cases value with
        | scalar => rfl
        | string => exact absurd rfl htype
        | array => rfl
    · rw [if_neg heq, skipGGUFValue, (reads_skipLevels hfits).bind_apply, storedString,
        List.find?_cons_of_neg (by simpa using heq)]
      exact ih fun entry hmem => h entry (List.mem_cons_of_mem _ hmem)

theorem MetadataSection.encode_eq (s : MetadataSection) (rest : Bytes) : s.encode ++ rest =
    (utf8 "GGUF" ++ (wordBytes 4 s.version.toNat ++ (wordBytes 8 s.tensorCount ++ wordBytes 8 s.entries.length))) ++
      (s.entries.flatMap encodeEntry ++ rest) := by
  simp only [MetadataSection.encode, List.append_assoc]

theorem readGGUFStringMetadata_encode (s : MetadataSection) (rest key : Bytes) :
    readGGUFStringMetadata (s.encode ++ rest) key = storedString key s.entries := by
  rw [← readStringEntries_encode rest s.entries_fit, readGGUFStringMetadata, s.encode_eq]
  exact congrArg _ (reads_readHeader s).bind_apply

/-! ## The profile reader -/

def Value.string? : Value → Option Bytes
  | .string content => some content
  | _ => none

/-- The value of an integer type. -/
def Value.integer? : Value → Option Int
  | .scalar type size _ word =>
    if type ∈ [ggufTypeUint8, ggufTypeUint16, ggufTypeUint32, ggufTypeUint64] then some word
    else if type ∈ [ggufTypeInt8, ggufTypeInt16, ggufTypeInt32, ggufTypeInt64] then
      some (BitVec.ofNat (8 * size) word).toInt
    else none
  | _ => none

/-- A number of layers, which is positive and an `int`. -/
def kept (n : Int) : Option Int := if 0 < n ∧ n ≤ maxInt64 then some n else none

def architecture? (entry : Bytes × Value) : Option Bytes :=
  if entry.1 = utf8 "general.architecture" then entry.2.string? else none

def nextNPredictLayers? (entry : Bytes × Value) : Option Int :=
  if (utf8 ".nextn_predict_layers").isSuffixOf entry.1 then entry.2.integer?.bind kept else none

/-- The values stored under the keys of the profile; of several the last one. -/
def storedProfile (entries : List (Bytes × Value)) : GGUFModelProfile where
  architecture := (entries.filterMap architecture?).getLast?.getD []
  hasBlockCount := entries.any fun entry => (utf8 ".block_count").isSuffixOf entry.1
  hasTokenizer := entries.any fun entry => entry.1 = utf8 "tokenizer.ggml.tokens"
  hasPoolingType := entries.any fun entry => (utf8 ".pooling_type").isSuffixOf entry.1
  nextNPredictLayers := (entries.filterMap nextNPredictLayers?).getLast?.getD 0

/-- What an entry says, over what was said before. -/
def GGUFModelProfile.record (profile : GGUFModelProfile) (entry : Bytes × Value) : GGUFModelProfile where
  architecture := (architecture? entry).getD profile.architecture
  hasBlockCount := profile.hasBlockCount || (utf8 ".block_count").isSuffixOf entry.1
  hasTokenizer := profile.hasTokenizer || entry.1 = utf8 "tokenizer.ggml.tokens"
  hasPoolingType := profile.hasPoolingType || (utf8 ".pooling_type").isSuffixOf entry.1
  nextNPredictLayers := (nextNPredictLayers? entry).getD profile.nextNPredictLayers

theorem getD_getLast?_concat {α β : Type} (f : α → Option β) (l : List α) (a : α) (b : β) :
    ((l ++ [a]).filterMap f).getLast?.getD b = (f a).getD ((l.filterMap f).getLast?.getD b) := by
  rw [List.filterMap_append, List.getLast?_append]
  cases h : f a with
  | none => simp [h]
  | some c => simp [h]

/-- Recording the entries one by one keeps what is stored. -/
theorem foldl_record (entries : List (Bytes × Value)) : entries.foldl GGUFModelProfile.record {} = storedProfile entries := by
  induction entries using List.reverseRecOn with
  | nil => rfl
  | append_singleton entries entry ih =>
    rw [List.foldl_append, List.foldl_cons, List.foldl_nil, ih]
    simp only [GGUFModelProfile.record, storedProfile, getD_getLast?_concat, List.any_append, List.any_cons, List.any_nil,
      Bool.or_false]

theorem reads_readUnsigned {size : Nat} (hsize : size < 8) (word : Fin (256 ^ size)) :
    Reads (readUnsigned size) (wordBytes size word) ((word : Int), true) := by
  refine (reads_readFull (wordBytes_length _ _)).bind_pure ?_
  rw [littleEndian_wordBytes word.isLt]
  have hpow : 256 ^ size ≤ 256 ^ 7 := Nat.pow_le_pow_right (by decide) (by omega)
  have hword := word.isLt
  exact (reads_within (by omega)).bind (reads_pure _)

theorem reads_readSigned {size : Nat} (word : Fin (256 ^ size)) :
    Reads (readSigned size) (wordBytes size word) ((BitVec.ofNat (8 * size) word).toInt, true) := by
  refine (reads_readFull (wordBytes_length _ _)).bind_pure ?_
  rw [littleEndian_wordBytes word.isLt]
  exact reads_pure _

/-- A word that is no `int64` is read as 0, and neither is kept. -/
theorem reads_uint64 (word : Fin (256 ^ 8)) : ∃ n read, (Value.scalar ggufTypeUint64 8 rfl word).integer? = some n ∧
    kept read = kept n ∧ Reads (readGGUFIntegerMetadata ggufTypeUint64) (wordBytes 8 word) (read, true) := by
  by_cases hmax : (word : Nat) > maxInt64
  · refine ⟨word, 0, rfl, ?_, (reads_readFull (wordBytes_length _ _)).bind_pure ?_⟩
    · have hword : ¬ ((0 : Int) < (word : Nat) ∧ ((word : Nat) : Int) ≤ maxInt64) := by omega
      rw [kept, kept, if_neg (by decide), if_neg hword]
    · rw [littleEndian_wordBytes word.isLt, if_pos hmax]
      exact reads_pure _
  · refine ⟨word, word, rfl, rfl, (reads_readFull (wordBytes_length _ _)).bind_pure ?_⟩
    rw [littleEndian_wordBytes word.isLt, if_neg hmax]
    rw [maxInt64] at hmax
    exact (reads_within (by omega)).bind (reads_pure _)

/-- An integer type is read whole, any other not at all. -/
theorem reads_readGGUFIntegerMetadata (value : Value) :
    (value.integer? = none ∧ Reads (readGGUFIntegerMetadata value.type) [] (0, false)) ∨
      ∃ n read, value.integer? = some n ∧ kept read = kept n ∧
        Reads (readGGUFIntegerMetadata value.type) value.encode (read, true) := by
  cases value with
  | string content => exact .inl ⟨rfl, reads_pure _⟩
  | array elementType elements => exact .inl ⟨rfl, reads_pure _⟩
  | scalar type size isScalar word =>
    have hscalar := isScalar
    unfold ggufScalarSize at hscalar
    split_ifs at hscalar with h1 h2 h4 h8
    · obtain rfl := Option.some.inj hscalar
      rcases h1 with rfl | rfl | rfl
      · exact .inr ⟨word, word, rfl, rfl, reads_readUnsigned (by decide) word⟩
      · exact .inr ⟨_, _, rfl, rfl, reads_readSigned word⟩
      · exact .inl ⟨rfl, reads_pure _⟩
    · obtain rfl := Option.some.inj hscalar
      rcases h2 with rfl | rfl
      · exact .inr ⟨word, word, rfl, rfl, reads_readUnsigned (by decide) word⟩
      · exact .inr ⟨_, _, rfl, rfl, reads_readSigned word⟩
    · obtain rfl := Option.some.inj hscalar
      rcases h4 with rfl | rfl | rfl
      · exact .inr ⟨word, word, rfl, rfl, reads_readUnsigned (by decide) word⟩
      · exact .inr ⟨_, _, rfl, rfl, reads_readSigned word⟩
      · exact .inl ⟨rfl, reads_pure _⟩
    · obtain rfl := Option.some.inj hscalar
      rcases h8 with rfl | rfl | rfl
      · exact .inr (reads_uint64 word)
      · exact .inr ⟨_, _, rfl, rfl, reads_readSigned word⟩
      · exact .inl ⟨rfl, reads_pure _⟩

theorem isSuffixOf_of_isSuffixOf {s t key : Bytes} (hs : s.isSuffixOf key = true) (ht : t.isSuffixOf key = true)
    (hlength : s.length ≤ t.length) : s.isSuffixOf t = true := by
  rw [List.isSuffixOf_iff_suffix] at hs ht ⊢
  exact List.suffix_of_suffix_length_le hs ht hlength

/-- The endings that are looked for exclude each other. -/
theorem blockCount_apart {key : Bytes} (h : (utf8 ".block_count").isSuffixOf key = true) :
    (utf8 ".pooling_type").isSuffixOf key = false ∧ (utf8 ".nextn_predict_layers").isSuffixOf key = false := by
  constructor <;> rw [← Bool.not_eq_true] <;> intro h' <;>
    exact absurd (isSuffixOf_of_isSuffixOf h h' (by decide +kernel)) (by decide +kernel)

theorem poolingType_apart {key : Bytes} (h : (utf8 ".pooling_type").isSuffixOf key = true) :
    (utf8 ".nextn_predict_layers").isSuffixOf key = false := by
  rw [← Bool.not_eq_true]
  exact fun h' => absurd (isSuffixOf_of_isSuffixOf h h' (by decide +kernel)) (by decide +kernel)

/-- A whole key that is looked for has none of the endings. -/
theorem key_apart {key : Bytes} (h : key = utf8 "general.architecture" ∨ key = utf8 "tokenizer.ggml.tokens") :
    (utf8 ".block_count").isSuffixOf key = false ∧ (utf8 ".pooling_type").isSuffixOf key = false ∧
      (utf8 ".nextn_predict_layers").isSuffixOf key = false := by
  rcases h with rfl | rfl <;> decide +kernel

/-- A turn of the loop takes the value and records what the entry says. -/
theorem reads_readProfileValue (profile : GGUFModelProfile) {key : Bytes} {value : Value} (hfits : value.Fits 3)
    (hlength : ∀ content, key = utf8 "general.architecture" → value = .string content → content.length ≤ maxGGUFStringBytes) :
    Reads (readProfileValue profile key value.type) value.encode (profile.record (key, value)) := by
  -- Every branch but two skips the value, whatever it is.
  have hskip : ∀ next : GGUFModelProfile, profile.record (key, value) = next →
      Reads (do skipGGUFValue value.type 0; return next : GGUFReader GGUFModelProfile) value.encode
        (profile.record (key, value)) :=
    fun next heq => heq ▸ (reads_skipLevels hfits).bind_pure (reads_pure _)
  unfold readProfileValue
  split
  case isTrue h =>
    obtain ⟨hkey, htype⟩ := h
    obtain ⟨content, rfl⟩ := Value.type_eq_string htype
    obtain ⟨hblock, hpooling, hnextn⟩ := key_apart (.inl hkey)
    have htokens : key ≠ utf8 "tokenizer.ggml.tokens" := by
      rw [hkey]
      decide +kernel
    refine (reads_readGGUFString (by decide) (hlength content hkey rfl)).bind_pure ?_
    have hrecord : profile.record (key, .string content) = { profile with architecture := content } := by
      simp [GGUFModelProfile.record, architecture?, nextNPredictLayers?, hkey ▸ hblock, hkey ▸ hpooling, hkey ▸ hnextn,
        hkey ▸ htokens, hkey, Value.string?]
    rw [hrecord]
    exact reads_pure _
  case isFalse harch =>
    have harchitecture : architecture? (key, value) = none := by
      unfold architecture?
      split_ifs with hkey
      · cases value with
        | string content => exact absurd ⟨hkey, rfl⟩ harch
        | scalar => rfl
        | array => rfl
      · rfl
    split
    case isTrue hblock =>
      obtain ⟨hpooling, hnextn⟩ := blockCount_apart hblock
      have htokens : key ≠ utf8 "tokenizer.ggml.tokens" := fun hkey => by
        rw [(key_apart (.inr hkey)).1] at hblock
        cases hblock
      exact hskip _ (by simp [GGUFModelProfile.record, nextNPredictLayers?, harchitecture, hblock, hpooling, hnextn, htokens])
    case isFalse hblock =>
      split
      case isTrue htokens =>
        obtain ⟨hblock, hpooling, hnextn⟩ := key_apart (.inr htokens)
        refine hskip _ ?_
        simp only [GGUFModelProfile.record, nextNPredictLayers?, harchitecture, hblock, hpooling, hnextn, decide_eq_true htokens, Bool.or_false,
          Bool.or_true, Option.getD_none, Bool.false_eq_true, if_false]
      case isFalse htokens =>
        split
        case isTrue hpooling =>
          have hnextn := poolingType_apart hpooling
          exact hskip _ (by simp [GGUFModelProfile.record, nextNPredictLayers?, harchitecture, hblock, hpooling, hnextn, htokens])
        case isFalse hpooling =>
          split
          case isTrue hnextn =>
            -- An integer is read where the value is one; anything else is skipped after its type.
            have hrecord : profile.record (key, value) =
                { profile with nextNPredictLayers := (value.integer?.bind kept).getD profile.nextNPredictLayers } := by
              simp [GGUFModelProfile.record, nextNPredictLayers?, harchitecture, hblock, hpooling, hnextn, htokens]
            rcases reads_readGGUFIntegerMetadata value with ⟨hnone, hread⟩ | ⟨n, read, hsome, hkept, hread⟩
            · exact hread.bind (hskip profile (by rw [hrecord, hnone]; rfl))
            · refine hread.bind_pure ?_
              rw [hrecord, hsome, Option.bind_some, ← hkept, kept]
              dsimp only
              rw [if_pos rfl]
              split_ifs
              · exact reads_pure _
              · exact reads_pure _
          case isFalse hnextn =>
            exact hskip _ (by simp [GGUFModelProfile.record, nextNPredictLayers?, harchitecture, hblock, hpooling, hnextn, htokens])

/-- No architecture is longer than the reader accepts. -/
def ArchitecturesFit (entries : List (Bytes × Value)) : Prop :=
  ∀ content, (utf8 "general.architecture", .string content) ∈ entries → content.length ≤ maxGGUFStringBytes

theorem readProfileEntries_encode (profile : GGUFModelProfile) {entries : List (Bytes × Value)} (rest : Bytes)
    (h : ∀ entry ∈ entries, entry.1.length ≤ maxGGUFStringBytes ∧ entry.2.Fits 3) (harch : ArchitecturesFit entries) :
    readProfileEntries profile entries.length (entries.flatMap encodeEntry ++ rest) =
      .ok (entries.foldl GGUFModelProfile.record profile, rest) := by
  induction entries generalizing profile with
  | nil => rfl
  | cons entry entries ih =>
    obtain ⟨key, value⟩ := entry
    obtain ⟨hkey, hfits⟩ := h (key, value) List.mem_cons_self
    have hlength : ∀ content, key = utf8 "general.architecture" → value = .string content →
        content.length ≤ maxGGUFStringBytes := by
      rintro content rfl rfl
      exact harch content List.mem_cons_self
    rw [List.flatMap_cons, List.length_cons, readProfileEntries, List.append_assoc, readEntry_apply hkey,
      (reads_readProfileValue profile hfits hlength).bind_apply, List.foldl_cons]
    exact ih _ (fun entry hmem => h entry (List.mem_cons_of_mem _ hmem)) fun content hmem =>
      harch content (List.mem_cons_of_mem _ hmem)

theorem readGGUFModelProfile_encode (s : MetadataSection) (rest : Bytes) (harch : ArchitecturesFit s.entries) :
    readGGUFModelProfile (s.encode ++ rest) = .ok (storedProfile s.entries) := by
  rw [readGGUFModelProfile, s.encode_eq, StateT.run']
  have hrun : (readHeader >>= fun count => readProfileEntries {} count)
      ((utf8 "GGUF" ++ (wordBytes 4 s.version.toNat ++ (wordBytes 8 s.tensorCount ++ wordBytes 8 s.entries.length))) ++
        (s.entries.flatMap encodeEntry ++ rest)) = .ok (storedProfile s.entries, rest) := by
    rw [(reads_readHeader s).bind_apply, readProfileEntries_encode {} rest s.entries_fit harch, foldl_record]
  exact congrArg _ hrun

/-! ## Both readers -/

/-- The entry under a key that occurs once is the one that counts for both readers. -/
theorem storedProfile_architecture {entries : List (Bytes × Value)}
    (h : entries.countP (fun entry => entry.1 = utf8 "general.architecture") ≤ 1) :
    (storedProfile entries).architecture =
      ((entries.find? fun entry => entry.1 = utf8 "general.architecture").bind fun entry => entry.2.string?).getD [] := by
  have hnone : ∀ entries : List (Bytes × Value), entries.countP (fun entry => entry.1 = utf8 "general.architecture") = 0 →
      entries.filterMap architecture? = [] := by
    intro entries hcount
    refine List.filterMap_eq_nil_iff.2 fun entry hmem => ?_
    exact if_neg (by simpa using List.countP_eq_zero.1 hcount entry hmem)
  rw [storedProfile]
  dsimp only
  cases hfind : entries.find? fun entry => entry.1 = utf8 "general.architecture" with
  | none =>
    rw [hnone entries (List.countP_eq_zero.2 (List.find?_eq_none.1 hfind))]
    rfl
  | some entry =>
    obtain ⟨hkey, before, after, rfl, hbefore⟩ := List.find?_eq_some_iff_append.1 hfind
    have hfirst : before.countP (fun entry => entry.1 = utf8 "general.architecture") = 0 :=
      List.countP_eq_zero.2 fun entry hmem => by simpa using hbefore entry hmem
    rw [List.countP_append, List.countP_cons, if_pos hkey] at h
    rw [List.filterMap_append, hnone before hfirst, List.nil_append, List.filterMap_cons, hnone after (by omega), architecture?,
      if_pos (by simpa using hkey), Option.bind_some]
    cases entry.2.string? with
    | none => rfl
    | some content => rfl

theorem storedString_eq_ok_iff {key content : Bytes} {entries : List (Bytes × Value)} : storedString key entries = .ok content ↔
    entries.find? (fun entry => entry.1 = key) = some (key, .string content) ∧ content.length ≤ maxGGUFStringBytes := by
  unfold storedString
  cases hfind : entries.find? fun entry => entry.1 = key with
  | none => simp
  | some entry =>
    obtain ⟨name, value⟩ := entry
    have hname : name = key := by simpa using List.find?_some hfind
    subst hname
    cases value with
    | scalar => simp
    | array => simp
    | string stored =>
      simp only [Option.some.injEq, Prod.mk.injEq, Value.string.injEq, true_and]
      split_ifs with hlength
      · rw [Except.ok.injEq]
        exact ⟨fun h => ⟨h, h ▸ hlength⟩, fun h => h.1⟩
      · refine iff_of_false nofun ?_
        rintro ⟨rfl, h⟩
        exact hlength h

theorem architectures_agree {entries : List (Bytes × Value)} (harch : ArchitecturesFit entries)
    (h : entries.countP (fun entry => entry.1 = utf8 "general.architecture") ≤ 1) :
    (∀ content, storedString (utf8 "general.architecture") entries = .ok content → (storedProfile entries).architecture = content) ∧
      ((storedProfile entries).architecture ≠ [] →
        storedString (utf8 "general.architecture") entries = .ok (storedProfile entries).architecture) := by
  rw [storedProfile_architecture h]
  constructor
  · intro content hstored
    rw [(storedString_eq_ok_iff.1 hstored).1]
    rfl
  · intro hne
    rw [storedString_eq_ok_iff]
    cases hfind : entries.find? fun entry => entry.1 = utf8 "general.architecture" with
    | none =>
      rw [hfind] at hne
      exact absurd rfl hne
    | some entry =>
      obtain ⟨key, value⟩ := entry
      have hkey : key = utf8 "general.architecture" := by simpa using List.find?_some hfind
      subst hkey
      cases value with
      | string content => exact ⟨rfl, harch content (List.mem_of_find?_eq_some hfind)⟩
      | scalar =>
        rw [hfind] at hne
        exact absurd rfl hne
      | array =>
        rw [hfind] at hne
        exact absurd rfl hne

theorem run'_ne_overflow {α : Type} {reader : GGUFReader α} (h : Exact reader) (contents : Bytes) :
    StateT.run' reader contents ≠ .error .overflow := by
  intro heq
  have : (reader contents).map Prod.fst = .error .overflow := heq
  cases hr : reader contents with
  | ok x =>
    rw [hr] at this
    cases this
  | error fault =>
    rw [hr] at this
    cases this
    exact h contents hr

/-- Skipping takes exactly the encoding, the readers find what is stored and agree on it, and on no file does their
arithmetic leave the integers. -/
theorem ggufReaders_exact :
    (∀ (value : Value) depth rest, value.Fits (3 - depth) →
      skipGGUFValue value.type depth (value.encode ++ rest) = .ok ((), rest)) ∧
    (∀ (s : MetadataSection) rest,
      (∀ key content, s.entries.find? (fun entry => entry.1 = key) = some (key, .string content) →
        content.length ≤ maxGGUFStringBytes → readGGUFStringMetadata (s.encode ++ rest) key = .ok content) ∧
      (ArchitecturesFit s.entries → readGGUFModelProfile (s.encode ++ rest) = .ok (storedProfile s.entries) ∧
        (s.entries.countP (fun entry => entry.1 = utf8 "general.architecture") ≤ 1 →
          (∀ content, readGGUFStringMetadata (s.encode ++ rest) (utf8 "general.architecture") = .ok content →
            (storedProfile s.entries).architecture = content) ∧
          ((storedProfile s.entries).architecture ≠ [] →
            readGGUFStringMetadata (s.encode ++ rest) (utf8 "general.architecture") =
              .ok (storedProfile s.entries).architecture)))) ∧
    ∀ contents key,
      readGGUFStringMetadata contents key ≠ .error .overflow ∧ readGGUFModelProfile contents ≠ .error .overflow := by
  refine ⟨fun value depth rest h => reads_skipLevels h rest, fun s rest => ⟨fun key content hfind hlength => ?_, fun harch => ?_⟩,
    fun contents key => ⟨?_, ?_⟩⟩
  · rw [readGGUFStringMetadata_encode, storedString_eq_ok_iff]
    exact ⟨hfind, hlength⟩
  · refine ⟨readGGUFModelProfile_encode s rest harch, fun honce => ?_⟩
    rw [readGGUFStringMetadata_encode]
    exact architectures_agree harch honce
  · exact run'_ne_overflow (exact_readHeader.bind fun count => exact_readStringEntries key count) contents
  · exact run'_ne_overflow (exact_readHeader.bind fun count => exact_readProfileEntries {} count) contents

/-- A model with an architecture, a vocabulary of two words and a number of blocks. -/
def smallModel : MetadataSection where
  version := 3
  version_supported := .inr rfl
  tensorCount := 0
  entries := [(utf8 "general.architecture", .string (utf8 "llama")),
    (utf8 "tokenizer.ggml.tokens", .array ggufTypeString [.string (utf8 "a"), .string (utf8 "b")]),
    (utf8 "llama.block_count", .scalar ggufTypeUint32 4 rfl 32)]
  entries_length := by decide
  entries_fit := by
    have hstring : ∀ levels, ∀ content : Bytes, content.length ≤ maxInt64 → (Value.string content).Fits (levels + 1) :=
      fun _ _ h => h
    rw [List.forall_mem_cons, List.forall_mem_cons, List.forall_mem_singleton]
    refine ⟨⟨by decide +kernel, hstring 2 _ (by decide +kernel)⟩, ⟨by decide +kernel, by decide, ?_, fun _ => ?_⟩,
      by decide +kernel, trivial⟩
    · simp [Value.type]
    · rw [List.forall_mem_cons, List.forall_mem_singleton]
      exact ⟨hstring 1 _ (by decide +kernel), hstring 1 _ (by decide +kernel)⟩

theorem smallModel_read :
    (skipGGUFValue ggufTypeBool 2 ([1] ++ [2]) = .ok ((), [2])) ∧
      readGGUFStringMetadata (smallModel.encode ++ []) (utf8 "general.architecture") = .ok (utf8 "llama") ∧
      readGGUFModelProfile (smallModel.encode ++ []) = .ok (storedProfile smallModel.entries) ∧
      (storedProfile smallModel.entries).architecture = utf8 "llama" := by
  have harch : ArchitecturesFit smallModel.entries := by
    intro content hmem
    simp only [smallModel, List.mem_cons, Prod.mk.injEq, Value.string.injEq, true_and, reduceCtorEq, and_false,
      List.not_mem_nil, or_false] at hmem
    rw [hmem]
    decide +kernel
  have hstring := (ggufReaders_exact.2.1 smallModel []).1 (utf8 "general.architecture") (utf8 "llama")
    (List.find?_cons_of_pos (by simp)) (by decide +kernel)
  have hprofile := (ggufReaders_exact.2.1 smallModel []).2 harch
  exact ⟨ggufReaders_exact.1 (.scalar ggufTypeBool 1 rfl 1) 2 [2] trivial, hstring, hprofile.1,
    (hprofile.2 (by decide +kernel)).1 _ hstring⟩

end Tanpopo.Llamacpp
