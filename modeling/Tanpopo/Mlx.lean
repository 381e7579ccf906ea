import Tanpopo.Lib.Swift
/-!
# Array types of the MLX runtime

Element types, and the part of an array that its shape alone decides.
-/

namespace Tanpopo
open Swift

/-- MLX element types. -/
inductive DType where
  | bool | uint8 | uint16 | uint32 | uint64 | int8 | int16 | int32 | int64
  | float16 | bfloat16 | float32 | float64 | complex64
  deriving DecidableEq, Repr

/-- Bytes per element. -/
def DType.size : DType → Nat
  | .bool | .uint8 | .int8 => 1
  | .uint16 | .int16 | .float16 | .bfloat16 => 2
  | .uint32 | .int32 | .float32 => 4
  | .uint64 | .int64 | .float64 | .complex64 => 8

theorem DType.size_pos (d : DType) : 0 < d.size := by cases d <;> decide

theorem DType.size_le (d : DType) : d.size ≤ 8 := by cases d <;> decide

/-- Number of elements of an array of this shape. -/
def elements (shape : List Nat) : Nat := shape.prod

/-- `MLXArray.nbytes`. -/
def nbytes (shape : List Nat) (dtype : DType) : Nat := elements shape * dtype.size

/-- An evaluated array and its bytes. Dimensions are 32-bit words; the byte count is an `Int`. -/
@[ext] structure MLXArray where
  shape : List Nat
  dtype : DType
  data : Data
  dims_le : ∀ d ∈ shape, d ≤ 2147483647
  data_length : data.length = nbytes shape dtype
  data_lt : data.length < 2 ^ 63
  deriving DecidableEq

namespace MLXArray

/-- `Int32(dimension)` succeeds on each dimension and none is negative. -/
def Dims (shape : List Int64) : Prop := ∀ d ∈ shape, 0 ≤ d.toInt ∧ d.toInt ≤ 2147483647

-- Over the list: the words are finitely many, but too many to be searched.
instance (shape : List Int64) : Decidable (Dims shape) :=
  List.decidableBAll (fun d : Int64 => 0 ≤ d.toInt ∧ d.toInt ≤ 2147483647) shape

def dims (shape : List Int64) : List Nat := shape.map (·.toInt.toNat)

theorem dims_le_of {shape : List Int64} (h : Dims shape) : ∀ d ∈ dims shape, d ≤ 2147483647 := by
  intro d hd
  obtain ⟨i, hi, rfl⟩ := List.mem_map.1 hd
  have := h i hi
  omega

/-- The preconditions of `MLXArray(data, shape, dtype:)`; a `Data`'s count is an `Int`. -/
def Fits (data : Data) (shape : List Int64) (dtype : DType) : Prop :=
  Dims shape ∧ data.length = nbytes (dims shape) dtype ∧ data.length < 2 ^ 63

def fits (data : Data) (shape : List Int64) (dtype : DType) : Bool :=
  decide (Dims shape) && decide (data.length = nbytes (dims shape) dtype) && decide (data.length < 2 ^ 63)

theorem fits_iff {data : Data} {shape : List Int64} {dtype : DType} :
    fits data shape dtype = true ↔ Fits data shape dtype := by
  rw [fits, Bool.and_eq_true, Bool.and_eq_true, decide_eq_true_iff, decide_eq_true_iff, decide_eq_true_iff, and_assoc]
  exact Iff.rfl

/-- `MLXArray(data, shape, dtype:)`, whose preconditions trap. -/
def ofData {ε : Type} (data : Data) (shape : List Int64) (dtype : DType) : Outcome ε MLXArray :=
  if h : fits data shape dtype = true then
    .ok ⟨dims shape, dtype, data, dims_le_of (fits_iff.1 h).1, (fits_iff.1 h).2.1, (fits_iff.1 h).2.2⟩
  else .trap

theorem ofData_of_fits {ε : Type} {data : Data} {shape : List Int64} {dtype : DType} (h : Fits data shape dtype) :
    ofData data shape dtype = (.ok ⟨dims shape, dtype, data, dims_le_of h.1, h.2.1, h.2.2⟩ : Outcome ε MLXArray) :=
  dif_pos (fits_iff.2 h)

/-- `MLXArray.zeros(shape, dtype:)`. -/
def zeros {ε : Type} (shape : List Int64) (dtype : DType) : Outcome ε MLXArray :=
  ofData (List.replicate (nbytes (dims shape) dtype) 0) shape dtype

end MLXArray

end Tanpopo
