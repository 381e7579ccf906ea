import Tanpopo.Lib.ByteReader
import Mathlib.Algebra.Order.Ring.Int
/-!
# Reading GGUF files

The reader of the Swift runtime, the full parse, the parse of the tensor table
that skips the metadata, and the inspection that parses a growing start of a
file.
-/

namespace Tanpopo.GGUF

open Swift Outcome

inductive LoaderError where
  | invalidMagic
  | unsupportedVersion (version : UInt32)
  | truncated
  | invalidSize
  | invalidText
  | invalidAlignment
  | unsupportedTensorType (type : UInt32) (name : String)
  | invalidTensor (name : String)
  | unsupportedMetadataType (type : UInt32)
  | unsupportedArchitectureVariant (architecture reason : String)
  | unmappedWeights (architecture : String) (names : List String)
  deriving DecidableEq

/-- The value of a floating-point word, where it is an `Int`. -/
def exactInteger (exponentBits mantissaBits bits : Nat) : Option Int :=
  let mantissa := bits % 2 ^ mantissaBits
  let exponent := bits / 2 ^ mantissaBits % 2 ^ exponentBits
  let negative := bits / 2 ^ (mantissaBits + exponentBits) % 2 = 1
  let bias := 2 ^ (exponentBits - 1) - 1 + mantissaBits
  let significand := if exponent = 0 then mantissa else 2 ^ mantissaBits + mantissa
  let power := max exponent 1
  if exponent = 2 ^ exponentBits - 1 then none
  else if power < bias ∧ significand % 2 ^ (bias - power) ≠ 0 then none
  else
    let magnitude : Int := if power < bias then significand / 2 ^ (bias - power) else significand * 2 ^ (power - bias)
    let value := if negative then -magnitude else magnitude
    if -2 ^ 63 ≤ value ∧ value < 2 ^ 63 then some value else none

/-- Floating-point values are kept as their words. -/
inductive MetadataValue where
  | uint8 (value : UInt8)
  | int8 (value : Int8)
  | uint16 (value : UInt16)
  | int16 (value : Int16)
  | uint32 (value : UInt32)
  | int32 (value : Int32)
  | float32 (bits : UInt32)
  | boolean (value : Bool)
  | string (value : String)
  | array (values : List MetadataValue)
  | uint64 (value : UInt64)
  | int64 (value : Int64)
  | float64 (bits : UInt64)

def MetadataValue.integerValue : MetadataValue → Option Int
  | .uint8 value => some value.toNat
  | .int8 value => some value.toInt
  | .uint16 value => some value.toNat
  | .int16 value => some value.toInt
  | .uint32 value => some value.toNat
  | .int32 value => some value.toInt
  | .uint64 value => if value.toNat < 2 ^ 63 then some value.toNat else none
  | .int64 value => some value.toInt
  | .float32 bits => exactInteger 8 23 bits.toNat
  | .float64 bits => exactInteger 11 52 bits.toNat
  | _ => none

structure TensorInfo where
  name : String
  dimensions : List Nat
  type : UInt32
  offset : UInt64
  deriving DecidableEq

/-- The pairs of the metadata are in the order of the file; of two with one key the later counts. -/
structure FileLayout where
  version : UInt32
  alignment : Int
  tensorDataOffset : Nat
  metadataCount : Nat
  metadata : List (String × MetadataValue)
  tensors : List TensorInfo

/-! ## What the process provides -/

/-- The collections for which capacity is reserved. -/
inductive Storage where
  | values
  | metadata
  | tensors
  | dimensions
  deriving DecidableEq

/-- How text is decoded and split at its dots, which reservations succeed and how many nested calls the stack holds. -/
structure Machine where
  decode : Data → Option String
  components : String → List String
  reserves : Storage → Nat → Bool
  stack : Nat

abbrev Reader := ByteReader LoaderError

open ByteReader

variable (m : Machine)

/-- `reserveCapacity`. -/
def reserveCapacity (storage : Storage) (count : Nat) : Reader Unit :=
  lift (if m.reserves storage count then ok () else trap)

/-- `count` elements, appended one by one. -/
def collect {α : Type} (read : Reader α) (count : Nat) : Reader (List α) :=
  loop (fun items => do
    let item ← read
    return items ++ [item]) count []

/-! ## The reader -/

def readUInt8 : Reader UInt8 := byte .truncated

def readUInt16 : Reader UInt16 := do
  let first ← readUInt8
  let second ← readUInt8
  return first.toUInt16 ||| (second.toUInt16 <<< 8)

def readUInt32 : Reader UInt32 :=
  (List.range 4).foldlM (fun value byteIndex => do
    let byte ← readUInt8
    return value ||| (byte.toUInt32 <<< UInt32.ofNat (byteIndex * 8))) 0

def readUInt64 : Reader UInt64 :=
  (List.range 8).foldlM (fun value byteIndex => do
    let byte ← readUInt8
    return value ||| (byte.toUInt64 <<< UInt64.ofNat (byteIndex * 8))) 0

def readCount : Reader Nat := do
  let value ← readUInt64
  ByteReader.guard (value.toNat < 2 ^ 63) LoaderError.invalidSize
  return value.toNat

def readString : Reader String := do
  let length ← readCount
  let text ← bytes .truncated length
  lift (ofOption .invalidText (m.decode text))

def skipBytes (count : Nat) : Reader Unit := do
  let _ ← bytes .truncated count
  return ()

def skipString : Reader Unit := do
  let length ← readCount
  skipBytes length

/-- The width of a value of a type with a fixed one. -/
def scalarWidth (type : UInt32) : Option Nat :=
  match type.toNat with
  | 0 | 1 | 7 => some 1
  | 2 | 3 => some 2
  | 4 | 5 | 6 => some 4
  | 10 | 11 | 12 => some 8
  | _ => none

/-- `skip(valueType:)`, with the nested calls that the stack still holds. -/
def skipValue : Nat → UInt32 → Reader Unit
  | 0, _ => lift trap
  | stack + 1, type =>
    match scalarWidth type with
    | some width => skipBytes width
    | none =>
      if type = 8 then skipString
      else if type = 9 then do
        let elementType ← readUInt32
        let count ← readCount
        loop (fun _ => skipValue stack elementType) count ()
      else fail (.unsupportedMetadataType type)

def readScalar (type : UInt32) : Option (Reader MetadataValue) :=
  match type.toNat with
  | 0 => some do return .uint8 (← readUInt8)
  | 1 => some do return .int8 (← readUInt8).toInt8
  | 2 => some do return .uint16 (← readUInt16)
  | 3 => some do return .int16 (← readUInt16).toInt16
  | 4 => some do return .uint32 (← readUInt32)
  | 5 => some do return .int32 (← readUInt32).toInt32
  | 6 => some do return .float32 (← readUInt32)
  | 7 => some do return .boolean ((← readUInt8) ≠ 0)
  | 10 => some do return .uint64 (← readUInt64)
  | 11 => some do return .int64 (← readUInt64).toInt64
  | 12 => some do return .float64 (← readUInt64)
  | _ => none

def readMetadataValue : Nat → UInt32 → Reader MetadataValue
  | 0, _ => lift trap
  | stack + 1, type =>
    match readScalar type with
    | some read => read
    | none =>
      if type = 8 then do
        let value ← readString m
        return .string value
      else if type = 9 then do
        let elementType ← readUInt32
        let count ← readCount
        reserveCapacity m .values count
        let values ← collect (readMetadataValue stack elementType) count
        return .array values
      else fail (.unsupportedMetadataType type)

/-! ## Parsing -/

structure Preamble where
  version : UInt32
  tensorCount : Nat
  metadataCount : Nat

/-- How both parsers begin. -/
def readPreamble : Reader Preamble := do
  let magic ← readUInt32
  ByteReader.guard (magic = 0x46554747) LoaderError.invalidMagic
  let version ← readUInt32
  ByteReader.guard (version = 2 ∨ version = 3) (LoaderError.unsupportedVersion version)
  let tensorCount ← readCount
  let metadataCount ← readCount
  return ⟨version, tensorCount, metadataCount⟩

/-- One entry of the tensor table, which both parsers read alike. -/
def readTensor : Reader TensorInfo := do
  let name ← readString m
  let dimensionCount ← readUInt32
  ByteReader.guard (dimensionCount.toNat < 2 ^ 63) LoaderError.invalidSize
  reserveCapacity m .dimensions dimensionCount.toNat
  let dimensions ← collect readCount dimensionCount.toNat
  let type ← readUInt32
  let offset ← readUInt64
  return ⟨name, dimensions, type, offset⟩

def readTensors (tensorCount : Nat) : Reader (List TensorInfo) := do
  reserveCapacity m .tensors tensorCount
  collect (readTensor m) tensorCount

def skipEntry (_ : Unit) : Reader Unit := do
  let _ ← readString m
  let type ← readUInt32
  skipValue m.stack type

def parseTensorInfosFrom : Reader (List TensorInfo) := do
  let preamble ← readPreamble
  loop (skipEntry m) preamble.metadataCount ()
  readTensors m preamble.tensorCount

structure Metadata where
  alignment : Int
  pairs : List (String × MetadataValue)

def readEntry (metadata : Metadata) : Reader Metadata := do
  let key ← readString m
  let valueType ← readUInt32
  let value ← readMetadataValue m m.stack valueType
  let alignment :=
    if key = "general.alignment" ∧ (valueType = 4 ∨ valueType = 10) then value.integerValue.getD 0 else metadata.alignment
  return ⟨alignment, metadata.pairs ++ [(key, value)]⟩

def readMetadata (metadataCount : Nat) : Reader Metadata := do
  reserveCapacity m .metadata metadataCount
  let metadata ← loop (readEntry m) metadataCount ⟨32, []⟩
  ByteReader.guard (0 < metadata.alignment) LoaderError.invalidAlignment
  return metadata

def position : Reader Nat := fun _ offset => ok (offset, offset)

def skipPadding (alignment : Int) (offset : Nat) : Reader Unit :=
  if (offset : Int) % alignment ≠ 0 then skipBytes (alignment - (offset : Int) % alignment).toNat else pure ()

/-- The offset of the tensor data, aligned. -/
def alignOffset (alignment : Int) : Reader Nat := do
  let offset ← position
  skipPadding alignment offset
  position

def parseFrom : Reader FileLayout := do
  let preamble ← readPreamble
  let metadata ← readMetadata m preamble.metadataCount
  let tensors ← readTensors m preamble.tensorCount
  let tensorDataOffset ← alignOffset metadata.alignment
  return ⟨preamble.version, metadata.alignment, tensorDataOffset, preamble.metadataCount, metadata.pairs, tensors⟩

/-- A reader that starts with the data. -/
def fromStart {α : Type} (r : Reader α) (data : Data) : Outcome LoaderError α := (r data 0).bind fun x => ok x.1

def parse (data : Data) : Outcome LoaderError FileLayout := fromStart (parseFrom m) data

def parseTensorInfos (data : Data) : Outcome LoaderError (List TensorInfo) := fromStart (parseTensorInfosFrom m) data

/-! ## Inspection -/

/-- Parse the first `readSize` bytes, and twice as many as long as they are too few. -/
def inspect {α : Type} (parse : Data → Outcome LoaderError α) (content : Data) (readSize : Nat) :
    Outcome LoaderError (Data × α) :=
  if readSize = 0 then threw .truncated
  else
    match parse (content.take readSize) with
    | ok a => ok (content.take readSize, a)
    | trap => trap
    | threw e =>
      if e = .truncated ∧ readSize < content.length then inspect parse content (min content.length (readSize * 2))
      else threw e
termination_by content.length - readSize
decreasing_by omega

def readInspectionData (content : Data) : Outcome LoaderError (Data × FileLayout) :=
  inspect (parse m) content (min content.length 1048576)

def readTensorInspectionData (content : Data) : Outcome LoaderError (List TensorInfo) :=
  (inspect (parseTensorInfos m) content (min content.length 1048576)).bind fun x => ok x.2

end Tanpopo.GGUF
