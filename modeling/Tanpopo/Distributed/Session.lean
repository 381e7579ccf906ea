import Tanpopo.Lib.Partition
import Tanpopo.Lib.Tensor
import Tanpopo.Mlx
/-!
# The distributed tensor session

Rank 0 posts a 16-word control header to the group before each operation;
every other rank runs `workerLoop` and decides from the summed header what to
do next. This file follows what each side posts to the group: the shape and
element type of every collective, and how the rank is left afterwards.
-/

namespace Tanpopo.Distributed

/-- A collective as the group sees it. -/
inductive Collective where
  | sum (shape : List Nat) (dtype : DType)
  | gather (shape : List Nat) (dtype : DType)
  deriving DecidableEq, Repr

/-- How a rank is left after its part of one command. -/
inductive Ending where
  | running
  | returned
  | threw (message : String)
  /-- The process dies: a Swift trap, or an MLX error outside `withError`. -/
  | trapped
  deriving DecidableEq, Repr

def Ending.isThrow : Ending → Bool
  | .threw _ => true
  | _ => false

/-- What one rank does for one command. -/
structure Part where
  collectives : List Collective
  ending : Ending
  deriving DecidableEq, Repr

/-! ## Installed layers -/

structure RowRange where
  lower : Nat
  upper : Nat
  le : lower ≤ upper

def RowRange.count (r : RowRange) : Nat := r.upper - r.lower

def rowRange (output rank size : Nat) : RowRange :=
  let base := output / size
  let remainder := output % size
  let start := rank * base + min rank remainder
  ⟨start, start + base + (if rank < remainder then 1 else 0), by rw [Nat.add_assoc]; exact Nat.le_add_right _ _⟩

/-- A layer as `install` registers it. The digest check makes every rank
register the same list. -/
structure Layer where
  output : Nat
  input : Nat
  /-- Element type of the product, given the input's. -/
  outputDType : DType → DType

def dtypes : List DType := [.float32, .float16, .bfloat16]

def headerSize : Nat := 16

/-- The header words `execute` builds. -/
def executeHeader (layer : Nat) (shape : List Nat) (dtype : Nat) : List Int32 :=
  let values := ((((List.replicate headerSize 0).set 0 1).set 1 (Int32.ofNat layer)).set 2
    (Int32.ofNat shape.length)).set 3 (Int32.ofNat dtype)
  shape.zipIdx.foldl (fun values d => values.set (4 + d.2) (Int32.ofNat d.1)) values

/-- A cached header is the header of its own shape and type, and its layer
fitted a word. -/
structure ControlHeader (layer : Nat) where
  shape : List Nat
  dtype : Nat
  array : List Int32
  array_eq : array = executeHeader layer shape dtype
  layer_le : layer ≤ 2147483647

/-- The session of one group. `DistributedConfiguration.validate` bounds its
size; `install` refuses layers with fewer rows than ranks. -/
structure Session where
  size : Nat
  layers : List Layer
  controlHeaders : (layer : Nat) → Option (ControlHeader layer)
  two_le : 2 ≤ size
  le_eight : size ≤ 8
  admitted : ∀ l ∈ layers, size ≤ l.output

/-! ## Shapes of an operation -/

/-- Shape of the local product on `rank`; `none` is MLX's shape error. -/
def productShape (layer : Layer) (size rank : Nat) (shape : List Nat) : Option (List Nat) :=
  if shape.getLast? = some layer.input then
    some (shape.dropLast ++ [(rowRange layer.output rank size).count])
  else none

/-- The array `gatherOutput` hands to the group. -/
def gatherShape (layer : Layer) (size : Nat) (output : List Nat) : List Nat :=
  let stride := (layer.output + size - 1) / size
  let transposed := Tensor.swapEnds output
  if transposed.headD 0 < stride then stride :: transposed.tail else transposed

/-- `gatherOutput(layers[layer](x))`. -/
def product (layer : Layer) (size rank : Nat) (shape : List Nat) (dtype : DType) : Part :=
  match productShape layer size rank shape with
  | none => ⟨[], .trapped⟩
  | some output => ⟨[.gather (gatherShape layer size output) (layer.outputDType dtype)], .running⟩

/-! ## Rank 0 -/

inductive Call where
  | execute (layer : Nat) (shape : List Nat) (dtype : DType)
  | health
  | shutdown
  deriving DecidableEq, Repr

/-- What a call on rank 0 comes to. -/
inductive Outcome where
  /-- The guard before the lock refused the input. -/
  | refused
  /-- A Swift trap before anything reached the group. -/
  | trapped
  | posted (header : List Int32) (part : Part)

/-- The guard of `execute`; gives the position of the input's type in `dtypes`. -/
def accepts (shape : List Nat) (dtype : DType) : Option Nat :=
  if 1 ≤ shape.length ∧ shape.length ≤ 8 then
    match dtypes.findIdx? (· == dtype) with
    | some index =>
      if (∀ d ∈ shape, 0 < d ∧ d ≤ 2147483647) ∧ nbytes shape dtype ≤ 256 * 1024 * 1024 then some index else none
    | none => none
  else none

/-- `group.sum` of one row of words per rank. -/
def groupSum (words : List (List Int32)) : List Int32 :=
  words.foldl (fun total row => List.zipWith (· + ·) total row) (List.replicate (words.headD []).length 0)

def Session.cache (s : Session) (layer : Nat) (h : ControlHeader layer) : Session :=
  { s with controlHeaders := Function.update s.controlHeaders layer (some h) }

/-- The control header of an accepted input, from the cache where it matches.
`none` is the trap of `Int32(layer)`. -/
def Session.header (s : Session) (layer : Nat) (shape : List Nat) (dtype : Nat) :
    Option (Session × ControlHeader layer) :=
  let build := if fits : layer ≤ 2147483647 then
      let h : ControlHeader layer := ⟨shape, dtype, executeHeader layer shape dtype, rfl, fits⟩
      some (s.cache layer h, h)
    else none
  match s.controlHeaders layer with
  | some cached => if cached.shape = shape ∧ cached.dtype = dtype then some (s, cached) else build
  | none => build

def Session.execute (s : Session) (layer : Nat) (shape : List Nat) (dtype : DType) : Session × Outcome :=
  match accepts shape dtype with
  | none => (s, .refused)
  | some index =>
    -- `controlHeaders[layer]` and `layers[layer]` trap outside the installed list.
    match s.layers[layer]?, s.header layer shape index with
    | some l, some (s', header) =>
      let output := product l s.size 0 shape dtype
      (s', .posted header.array ⟨.sum [headerSize] .int32 :: .sum shape dtype :: output.collectives, output.ending⟩)
    | _, _ => (s, .trapped)

def Session.health (s : Session) : Outcome :=
  let command := (List.replicate headerSize 0).set 0 2
  let answer := groupSum (List.replicate s.size [1])
  .posted command ⟨[.sum [headerSize] .int32, .sum [] .int32],
    if answer.map Int32.toInt = [(s.size : Int)] then .running else .threw "Worker 健康檢查失敗。"⟩

def Session.shutdown : Outcome :=
  .posted (List.replicate headerSize 0) ⟨[.sum [headerSize] .int32], .returned⟩

def Session.call (s : Session) : Call → Session × Outcome
  | .execute layer shape dtype => s.execute layer shape dtype
  | .health => (s, s.health)
  | .shutdown => (s, Session.shutdown)

/-! ## The other ranks -/

/-- The element-count loop of `workerLoop`. -/
def withinLimit (elements : Int) : List Int → Bool
  | [] => true
  | d :: ds => decide (0 < d) && decide (elements ≤ (64 * 1024 * 1024) / d) && withinLimit (elements * d) ds

/-- One iteration of `workerLoop` on `rank`, given the summed header. -/
def Session.workerLoop (s : Session) (rank : Nat) (header : List Int32) : Part :=
  let word := fun i => (header.getD i 0).toInt
  let received := Collective.sum [headerSize] .int32
  if word 0 = 0 then ⟨[received], .returned⟩
  else if word 0 = 2 then ⟨[received, .sum [] .int32], .running⟩
  else if word 0 = 1 then
    let identifier := word 1
    let dimensions := word 2
    let index := word 3
    if 0 ≤ identifier ∧ 1 ≤ dimensions ∧ dimensions ≤ 8 ∧ 0 ≤ index then
      match s.layers[identifier.toNat]?, dtypes[index.toNat]? with
      | some l, some dtype =>
        let shape := ((header.drop 4).take dimensions.toNat).map Int32.toInt
        if withinLimit 1 shape then
          let shape := shape.map Int.toNat
          let output := product l s.size rank shape dtype
          ⟨received :: .sum shape dtype :: output.collectives, output.ending⟩
        else ⟨[received], .threw "Worker 張量大小超限。"⟩
      | _, _ => ⟨[received], .threw "Worker 收到無效的運算描述。"⟩
    else ⟨[received], .threw "Worker 收到無效的運算描述。"⟩
  else ⟨[received], .threw "Worker 收到未知指令。"⟩

/-! ## The group -/

structure Round where
  coordinator : Part
  workers : List Part
  deriving DecidableEq, Repr

/-- Every worker posts what rank 0 posts and is left as rank 0 is, and no
worker throws out of its loop. -/
def Round.LockStep (r : Round) : Prop := ∀ w ∈ r.workers, w = r.coordinator ∧ w.ending.isThrow = false

instance (r : Round) : Decidable r.LockStep :=
  inferInstanceAs (Decidable (∀ w ∈ r.workers, w = r.coordinator ∧ w.ending.isThrow = false))

/-- One command: the header summed over rank 0 and the idle workers, and every
rank's part. -/
def Session.round (s : Session) (header : List Int32) (part : Part) : Round :=
  let summed := groupSum (header :: List.replicate (s.size - 1) (List.replicate headerSize 0))
  ⟨part, (List.range (s.size - 1)).map fun r => s.workerLoop (r + 1) summed⟩

/-- The commands of a sequence of calls, up to the one that ends the group. -/
def Session.rounds (s : Session) : List Call → List Round
  | [] => []
  | c :: cs => match s.call c with
    | (s', .refused) => s'.rounds cs
    | (_, .trapped) => []
    | (s', .posted header part) =>
      s'.round header part :: if part.ending = .running then s'.rounds cs else []

/-- The calls that reach the group, in order. -/
def Session.performed (s : Session) : List Call → List Call
  | [] => []
  | c :: cs => match s.call c with
    | (s', .refused) => s'.performed cs
    | (_, .trapped) => []
    | (s', .posted _ part) => c :: if part.ending = .running then s'.performed cs else []

end Tanpopo.Distributed
