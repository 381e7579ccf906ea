import Tanpopo.Mlx
import Mathlib.Data.String.Basic
/-!
# The Fast GGUF container

`store` streams every tensor behind a reserved header region and then writes
the index into it; `load` reads the index back, checks it and rebuilds the
arrays from the mapped, read or decompressed payload.
-/

namespace Tanpopo.FastGGUF
open Swift

/-- The bytes of a text without characters outside ASCII. -/
def ascii (text : String) : Data := text.toList.map fun c => UInt8.ofNat c.toNat

def magic : Data := ascii "FGGUF001"
def formatVersion : Int64 := 1
def headerReserveBytes : Nat := 1048576
def tensorAlignment : Int64 := 16
def minimumCompressionBytes : Nat := 4096
def maximumCompressionBytes : Nat := 256 * 1024 * 1024
def sampleSegmentBytes : Nat := 128 * 1024
def sampleCompressionRatio : Float := 0.94
def finalCompressionRatio : Float := 0.92

structure Statistics where
  rawBytes : Int64
  storedBytes : Int64
  compressedTensorCount : Nat
  rawTensorCount : Nat
  deriving DecidableEq, Repr

structure TensorDescriptor where
  name : String
  dtype : String
  shape : List Int64
  encoding : String
  offset : Int64
  storedBytes : Int64
  rawBytes : Int64
  deriving DecidableEq, Repr

structure Header where
  formatVersion : Int64
  cacheKey : String
  payloadOffset : Int64
  metadata : List (String × String)
  tensors : List TensorDescriptor
  deriving DecidableEq, Repr

inductive ContainerError where
  | createFailed (name : String)
  | invalidHeader (name : String)
  | headerTooLarge
  | invalidTensor (name : String)
  | compressionFailed (name : String)
  deriving DecidableEq, Repr

inductive MemoryMappedTensorError where
  | invalidRange
  | unsupportedPlatform
  | rangeTooLarge
  deriving DecidableEq, Repr

/-- Everything the container functions throw. -/
inductive Failure where
  | container (error : ContainerError)
  | mapping (error : MemoryMappedTensorError)
  /-- An error of `FileHandle`, `JSONEncoder` or `JSONDecoder`. -/
  | foundation
  deriving DecidableEq, Repr

def invalidTensor {α : Type} (name : String) : Outcome Failure α := .threw (.container (.invalidTensor name))

/-! ## What the host provides -/

/-- The parts of the system the container calls. -/
structure Platform where
  /-- The normal form under which Swift compares strings. -/
  canonical : String → String
  /-- `compression_encode_buffer`: the bytes written, none on failure. -/
  encodeBuffer : Data → (capacity : Nat) → Data
  /-- `compression_decode_buffer`. -/
  decodeBuffer : Data → (capacity : Nat) → Data
  encodeHeader : Header → Option Data
  decodeHeader : Data → Option Header
  createFile : (name : String) → Bool
  /-- The volume takes a file of this length. -/
  accepts : Nat → Bool
  pageSize : Int64

/-- LZFSE and JSON decoding invert encoding; files stay below `off_t`. -/
structure Platform.Lawful (p : Platform) : Prop where
  decodeBuffer_encodeBuffer : ∀ data capacity, p.encodeBuffer data capacity ≠ [] →
    p.decodeBuffer (p.encodeBuffer data capacity) data.length = data
  decodeHeader_encodeHeader : ∀ header data, p.encodeHeader header = some data → p.decodeHeader data = some header
  encodeHeader_ne_nil : ∀ header data, p.encodeHeader header = some data → data ≠ []
  accepts_lt : ∀ n, p.accepts n = true → n < 2 ^ 63
  pageSize_pos : 0 < p.pageSize.toInt

structure File where
  lastPathComponent : String
  contents : Data
  contents_lt : contents.length < 2 ^ 63

def File.size (file : File) : Int64 := Int64.ofNat file.contents.length

structure FileHandle where
  contents : Data
  position : Nat

namespace FileHandle

def seek (handle : FileHandle) (offset : Nat) : FileHandle := { handle with position := offset }

/-- Contents after `data` is put at the current position. -/
def overwritten (handle : FileHandle) (data : Data) : Data :=
  handle.contents.take handle.position ++ List.replicate (handle.position - handle.contents.length) 0 ++
    data ++ handle.contents.drop (handle.position + data.length)

def write (p : Platform) (handle : FileHandle) (data : Data) : Outcome Failure FileHandle :=
  if p.accepts (handle.overwritten data).length then
    .ok ⟨handle.overwritten data, handle.position + data.length⟩
  else .threw .foundation

/-- Short reads are repeated until `count` bytes arrived or the file ended. -/
def readExact (handle : FileHandle) (count : Int64) : Outcome Failure (Data × FileHandle) := do
  Outcome.guard (0 ≤ count) (.container (.invalidHeader "read"))
  let result := (handle.contents.drop handle.position).take count.toInt.toNat
  Outcome.guard (result.length = count.toInt.toNat) (.container (.invalidHeader "truncated"))
  .ok (result, handle.seek (handle.position + count.toInt.toNat))

end FileHandle

/-! ## Element types -/

def dtypeName : DType → String
  | .bool => "BOOL"
  | .uint8 => "U8"
  | .uint16 => "U16"
  | .uint32 => "U32"
  | .uint64 => "U64"
  | .int8 => "I8"
  | .int16 => "I16"
  | .int32 => "I32"
  | .int64 => "I64"
  | .float16 => "F16"
  | .bfloat16 => "BF16"
  | .float32 => "F32"
  | .float64 => "F64"
  | .complex64 => "C64"

/-- `uppercased()`, for the characters whose uppercase reaches an element type's name. -/
def uppercased (value : String) : String :=
  String.ofList (value.toList.map fun c => if c = 'ı' then 'I' else c.toUpper)

def mlxDType (value : String) : Outcome Failure DType :=
  match uppercased value with
  | "BOOL" => .ok .bool
  | "U8" => .ok .uint8
  | "U16" => .ok .uint16
  | "U32" => .ok .uint32
  | "U64" => .ok .uint64
  | "I8" => .ok .int8
  | "I16" => .ok .int16
  | "I32" => .ok .int32
  | "I64" => .ok .int64
  | "F16" => .ok .float16
  | "BF16" => .ok .bfloat16
  | "F32" => .ok .float32
  | "F64" => .ok .float64
  | "C64" => .ok .complex64
  | _ => invalidTensor value

/-! ## Arithmetic -/

def aligned (value alignment : Int64) : Outcome Failure Int64 := do
  let raised ← add value alignment
  let raised ← sub raised 1
  mul (raised / alignment) alignment

/-- The running product of the dimensions. -/
def checkedCount (count : Int64) : List Int64 → Option Int64
  | [] => some count
  | dimension :: rest =>
    if 0 ≤ dimension ∧ dimension ≤ 2147483647 then
      let (next, overflow) := multipliedReportingOverflow count dimension
      if overflow then none else checkedCount next rest
    else none

def expectedByteCount (shape : List Int64) (dtype : DType) : Option Int64 :=
  (checkedCount 1 shape).bind fun count =>
    let (bytes, overflow) := multipliedReportingOverflow count (Int64.ofNat dtype.size)
    if overflow then none else some bytes

/-! ## Compression -/

def compressionSample (data : Data) : Data :=
  if data.length > sampleSegmentBytes * 3 then
    let middleStart := max 0 ((data.length - sampleSegmentBytes) / 2)
    data.take sampleSegmentBytes ++ (data.drop middleStart).take sampleSegmentBytes ++
      data.drop (data.length - sampleSegmentBytes)
  else data

def encodeLZFSE (p : Platform) (source : Data) : Option Data :=
  if source = [] then some []
  else
    let destinationCapacity := source.length + 65536
    let destination := p.encodeBuffer source destinationCapacity
    if 0 < destination.length ∧ destination.length ≤ destinationCapacity then some destination else none

def encodeIfWorthwhile (p : Platform) (data : Data) : Option Data :=
  if minimumCompressionBytes ≤ data.length ∧ data.length ≤ maximumCompressionBytes then do
    let sample := compressionSample data
    let encodedSample ← encodeLZFSE p sample
    if Float.ofNat encodedSample.length / Float.ofNat sample.length ≤ sampleCompressionRatio then
      let encoded ← encodeLZFSE p data
      if Float.ofNat encoded.length / Float.ofNat data.length ≤ finalCompressionRatio then some encoded else none
    else none
  else none

def decodeLZFSE (p : Platform) (source : Data) (expectedBytes : Int64) (name : String) : Outcome Failure Data :=
  if 0 < expectedBytes then do
    let destination := p.decodeBuffer source expectedBytes.toInt.toNat
    Outcome.guard (destination.length = expectedBytes.toInt.toNat) (.container (.compressionFailed name))
    .ok destination
  else .ok []

/-! ## Writing -/

/-- A Swift dictionary of arrays: no two keys compare equal. -/
structure Arrays (p : Platform) where
  entries : List (String × MLXArray)
  distinct : entries.Pairwise fun a b => p.canonical a.1 ≠ p.canonical b.1

namespace Arrays
variable {p : Platform}

/-- `keys.sorted()`. -/
def sortedKeys (arrays : Arrays p) : List String :=
  (arrays.entries.map (·.1)).mergeSort fun a b => decide (p.canonical a ≤ p.canonical b)

/-- `arrays[name]`. -/
def lookup (arrays : Arrays p) (name : String) : Option MLXArray :=
  (arrays.entries.find? fun e => decide (p.canonical e.1 = p.canonical name)).map (·.2)

end Arrays

structure Writer where
  handle : FileHandle
  descriptors : List TensorDescriptor
  payloadPosition : Int64
  completedRawBytes : Int64
  compressedTensorCount : Nat
  rawTensorCount : Nat

def padTo (p : Platform) (w : Writer) (alignedPosition : Int64) : Outcome Failure Writer :=
  if alignedPosition > w.payloadPosition then do
    let gap ← sub alignedPosition w.payloadPosition
    let handle ← w.handle.write p (List.replicate gap.toInt.toNat 0)
    .ok { w with handle, payloadPosition := alignedPosition }
  else .ok w

/-- One turn of the loop of `store`. -/
def storeTensor (p : Platform) (w : Writer) (name : String) (value : MLXArray) : Outcome Failure Writer := do
  Outcome.guard (value.data.length = nbytes value.shape value.dtype) (.container (.invalidTensor name))
  let alignedPosition ← aligned w.payloadPosition tensorAlignment
  let w ← padTo p w alignedPosition
  let encoded := encodeIfWorthwhile p value.data
  let encoding := if encoded.isSome then "lzfse" else "raw"
  let payload := encoded.getD value.data
  let handle ← w.handle.write p payload
  let payloadPosition ← add w.payloadPosition (Int64.ofNat payload.length)
  let completedRawBytes ← add w.completedRawBytes (Int64.ofNat value.data.length)
  .ok {
    handle, payloadPosition, completedRawBytes
    descriptors := w.descriptors ++ [{
      name, encoding
      dtype := dtypeName value.dtype
      shape := value.shape.map Int64.ofNat
      offset := w.payloadPosition
      storedBytes := Int64.ofNat payload.length
      rawBytes := Int64.ofNat value.data.length }]
    compressedTensorCount := w.compressedTensorCount + (if encoded.isSome then 1 else 0)
    rawTensorCount := w.rawTensorCount + (if encoded.isSome then 0 else 1) }

def storeTensors (p : Platform) (arrays : Arrays p) (w : Writer) : List String → Outcome Failure Writer
  | [] => .ok w
  | name :: rest =>
    match arrays.lookup name with
    | none => storeTensors p arrays w rest
    | some value => do
      let w ← storeTensor p w name value
      storeTensors p arrays w rest

def store (p : Platform) (arrays : Arrays p) (metadata : List (String × String)) (cacheKey lastPathComponent : String) :
    Outcome Failure (Data × Statistics) := do
  Outcome.guard (p.createFile lastPathComponent = true) (.container (.createFailed lastPathComponent))
  let handle ← (FileHandle.mk [] 0).write p (List.replicate headerReserveBytes 0)
  let w ← storeTensors p arrays ⟨handle, [], 0, 0, 0, 0⟩ arrays.sortedKeys
  let header : Header := {
    formatVersion, cacheKey, metadata
    payloadOffset := Int64.ofNat headerReserveBytes
    tensors := w.descriptors }
  let headerData ← Outcome.ofOption .foundation (p.encodeHeader header)
  Outcome.guard (magic.length + 8 + headerData.length ≤ headerReserveBytes) (.container .headerTooLarge)
  let handle ← (w.handle.seek 0).write p magic
  let handle ← handle.write p (littleEndianData (UInt64.ofNat headerData.length))
  let handle ← handle.write p headerData
  .ok (handle.contents, {
    rawBytes := w.completedRawBytes
    storedBytes := Int64.ofNat handle.contents.length
    compressedTensorCount := w.compressedTensorCount
    rawTensorCount := w.rawTensorCount })

/-! ## Memory mapping -/

def requiredAlignment : Nat := 16

def canMap (fileOffset : Int64) (dtype : DType) : Bool :=
  if 0 ≤ fileOffset then decide (fileOffset % Int64.ofNat (max requiredAlignment dtype.size) = 0) else false

/-- The whole pages that cover a range; each mapping is one array of 32-bit length. -/
def roundedToPages (requiredLength pageSize : Int64) : Outcome Failure Int64 := do
  let slack ← sub pageSize 1
  let (roundedInput, roundedOverflow) := addingReportingOverflow requiredLength slack
  Outcome.guard (roundedOverflow = false) (.mapping .rangeTooLarge)
  let mappedLength ← mul (roundedInput / pageSize) pageSize
  Outcome.guard (0 < mappedLength ∧ mappedLength ≤ 2147483647) (.mapping .rangeTooLarge)
  .ok mappedLength

/-- `MemoryMappedTensorArray.load`. A position that fails `canMap` is copied
instead, which reads the same bytes. -/
def mapTensor (p : Platform) (contents : Data) (fileOffset byteCount : Int64) (shape : List Int64) (dtype : DType) :
    Outcome Failure MLXArray := do
  Outcome.guard (0 ≤ fileOffset ∧ 0 ≤ byteCount) (.mapping .invalidRange)
  Outcome.guard (expectedByteCount shape dtype = some byteCount) (.mapping .invalidRange)
  if byteCount = 0 then MLXArray.zeros shape dtype
  else
    let fileSize := Int64.ofNat contents.length
    let stop ← add fileOffset byteCount
    Outcome.guard (0 ≤ stop ∧ stop ≤ fileSize) (.mapping .invalidRange)
    Outcome.guard (0 < p.pageSize) (.mapping .unsupportedPlatform)
    if canMap fileOffset dtype then
      let alignedOffset ← sub fileOffset (fileOffset % p.pageSize)
      let lead ← sub fileOffset alignedOffset
      let requiredLength ← add lead byteCount
      let _mappedLength ← roundedToPages requiredLength p.pageSize
      let mappedBytes := contents.drop alignedOffset.toInt.toNat
      MLXArray.ofData ((mappedBytes.drop lead.toInt.toNat).take byteCount.toInt.toNat) shape dtype
    else
      MLXArray.ofData ((contents.drop fileOffset.toInt.toNat).take byteCount.toInt.toNat) shape dtype

/-! ## Reading -/

/-- How the weights are materialised. -/
structure Mode where
  /-- `DistributedWeightLoading.enabled`. -/
  distributed : Bool
  memoryMapped : Bool

/-- The header of a file, decoded and recognised. -/
def readHeader (p : Platform) (file : File) (expectedCacheKey : String) : Outcome Failure Header := do
  let invalidHeader := Failure.container (.invalidHeader file.lastPathComponent)
  let handle : FileHandle := ⟨file.contents, 0⟩
  let (start, handle) ← handle.readExact (Int64.ofNat (magic.length + 8))
  Outcome.guard (start.take magic.length = magic) invalidHeader
  let headerLength := decodeLittleEndianUInt64 (start.drop magic.length)
  Outcome.guard (0 < headerLength ∧ headerLength ≤ UInt64.ofNat (headerReserveBytes - magic.length - 8) ∧
    headerLength ≤ UInt64.ofNat (2 ^ 63 - 1)) invalidHeader
  let count ← toInt64 headerLength
  let (headerData, _) ← handle.readExact count
  let header ← Outcome.ofOption .foundation (p.decodeHeader headerData)
  Outcome.guard (header.formatVersion = formatVersion ∧ header.cacheKey = expectedCacheKey ∧
    header.payloadOffset = Int64.ofNat headerReserveBytes ∧ header.payloadOffset ≤ file.size) invalidHeader
  .ok header

structure Scan where
  previousEnd : Int64
  totalRawBytes : Int64
  names : List String

/-- One turn of the loop of `validate`. -/
def validateTensor (p : Platform) (header : Header) (fileSize : Int64) (scan : Scan) (tensor : TensorDescriptor) :
    Outcome Failure Scan := do
  let invalid := Failure.container (.invalidTensor tensor.name)
  Outcome.guard (tensor.name ≠ "" ∧ p.canonical tensor.name ∉ scan.names) invalid
  Outcome.guard (0 ≤ tensor.offset ∧ 0 ≤ tensor.storedBytes ∧ 0 ≤ tensor.rawBytes) invalid
  match mlxDType tensor.dtype with
  | .ok dtype =>
    Outcome.guard (expectedByteCount tensor.shape dtype = some tensor.rawBytes) invalid
    Outcome.guard (tensor.encoding = "raw" ∨ tensor.encoding = "lzfse") invalid
    Outcome.guard (tensor.encoding ≠ "raw" ∨ tensor.storedBytes = tensor.rawBytes) invalid
    Outcome.guard (tensor.encoding ≠ "lzfse" ∨ tensor.rawBytes ≤ Int64.ofNat maximumCompressionBytes) invalid
    let (start, startOverflow) := addingReportingOverflow header.payloadOffset tensor.offset
    let (stop, endOverflow) := addingReportingOverflow start tensor.storedBytes
    let (nextRawBytes, totalOverflow) := addingReportingOverflow scan.totalRawBytes tensor.rawBytes
    Outcome.guard (startOverflow = false ∧ endOverflow = false ∧ totalOverflow = false ∧
      scan.previousEnd ≤ start ∧ start ≤ stop ∧ stop ≤ fileSize) invalid
    Outcome.guard (tensor.encoding ≠ "raw" ∨ canMap start dtype = true) invalid
    .ok ⟨stop, nextRawBytes, p.canonical tensor.name :: scan.names⟩
  | _ => .threw invalid

def sortedByOffset (tensors : List TensorDescriptor) : List TensorDescriptor :=
  tensors.mergeSort fun a b => decide (a.offset ≤ b.offset)

def validate (p : Platform) (header : Header) (fileSize : Int64) : Outcome Failure Unit := do
  let _ ← (sortedByOffset header.tensors).foldlM (validateTensor p header fileSize) ⟨header.payloadOffset, 0, []⟩
  .ok ()

structure Loading where
  arrays : List (String × MLXArray)
  rawBytes : Int64
  compressedTensorCount : Nat
  rawTensorCount : Nat
  mappedTensorCount : Nat
  /-- Decoded tensors of a distributed load, on disk. -/
  scratch : Data

/-- `DistributedWeightFile.array`: the bytes the lazy array reads when evaluated. -/
def fileArray (contents : Data) (offset : Int64) (shape : List Int64) (dtype : DType) : Outcome Failure MLXArray := do
  let descriptor ← MLXArray.zeros shape dtype
  MLXArray.ofData ((contents.drop offset.toInt.toNat).take (nbytes descriptor.shape dtype)) shape dtype

def loadRaw (p : Platform) (mode : Mode) (file : File) (tensor : TensorDescriptor) (dtype : DType)
    (absoluteOffset : Int64) (s : Loading) : Outcome Failure (MLXArray × Loading) :=
  if tensor.rawBytes = 0 then do
    let value ← MLXArray.zeros tensor.shape dtype
    .ok (value, { s with rawTensorCount := s.rawTensorCount + 1 })
  else if mode.distributed then do
    let value ← fileArray file.contents absoluteOffset tensor.shape dtype
    .ok (value, { s with rawTensorCount := s.rawTensorCount + 1 })
  else if mode.memoryMapped then do
    let value ← mapTensor p file.contents absoluteOffset tensor.rawBytes tensor.shape dtype
    .ok (value, { s with
      rawTensorCount := s.rawTensorCount + 1
      mappedTensorCount := s.mappedTensorCount + 1 })
  else do
    let offset ← toUInt64 absoluteOffset
    let (data, _) ← (FileHandle.mk file.contents offset.toNat).readExact tensor.rawBytes
    let value ← MLXArray.ofData data tensor.shape dtype
    .ok (value, { s with rawTensorCount := s.rawTensorCount + 1 })

def loadCompressed (p : Platform) (mode : Mode) (file : File) (tensor : TensorDescriptor) (dtype : DType)
    (absoluteOffset : Int64) (s : Loading) : Outcome Failure (MLXArray × Loading) := do
  let offset ← toUInt64 absoluteOffset
  let (encoded, _) ← (FileHandle.mk file.contents offset.toNat).readExact tensor.storedBytes
  let decoded ← decodeLZFSE p encoded tensor.rawBytes tensor.name
  if mode.distributed then do
    let offset ← toInt64 (UInt64.ofNat s.scratch.length)
    let value ← fileArray (s.scratch ++ decoded) offset tensor.shape dtype
    .ok (value, { s with
      compressedTensorCount := s.compressedTensorCount + 1
      scratch := s.scratch ++ decoded })
  else do
    let value ← MLXArray.ofData decoded tensor.shape dtype
    .ok (value, { s with compressedTensorCount := s.compressedTensorCount + 1 })

/-- One turn of the loop of `load`. -/
def loadTensor (p : Platform) (mode : Mode) (file : File) (header : Header) (s : Loading)
    (tensor : TensorDescriptor) : Outcome Failure Loading := do
  Outcome.guard (∀ e ∈ s.arrays, p.canonical e.1 ≠ p.canonical tensor.name) (.container (.invalidTensor tensor.name))
  let dtype ← mlxDType tensor.dtype
  let absoluteOffset ← add header.payloadOffset tensor.offset
  let (value, s) ←
    if tensor.encoding = "raw" then loadRaw p mode file tensor dtype absoluteOffset s
    else if tensor.encoding = "lzfse" then loadCompressed p mode file tensor dtype absoluteOffset s
    else invalidTensor tensor.name
  let rawBytes ← add s.rawBytes tensor.rawBytes
  .ok { s with arrays := s.arrays ++ [(tensor.name, value)], rawBytes }

def load (p : Platform) (file : File) (expectedCacheKey : String) (mode : Mode) :
    Outcome Failure (List (String × MLXArray) × Statistics) := do
  let header ← readHeader p file expectedCacheKey
  validate p header file.size
  let s ← header.tensors.foldlM (loadTensor p mode file header) ⟨[], 0, 0, 0, 0, []⟩
  .ok (s.arrays, {
    rawBytes := s.rawBytes
    storedBytes := file.size
    compressedTensorCount := s.compressedTensorCount
    rawTensorCount := s.rawTensorCount })

end Tanpopo.FastGGUF
