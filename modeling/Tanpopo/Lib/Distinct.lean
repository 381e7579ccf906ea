import Mathlib.Data.List.Basic
/-!
# Normal entries with different keys

A list is read from the front: each entry is put in normal form or dropped, the
first entry of each key is kept, and reading stops when enough are kept. What
is read in this way is read as it is the next time.
-/

namespace Tanpopo

section
variable {α κ : Type} [DecidableEq κ] (normal : α → Option α) (key : α → κ)

/-- At most `room + 1` entries, none with a key in `seen`. -/
def distinct (room : Nat) (seen : List κ) : List α → List α
  | [] => []
  | x :: rest =>
    match normal x with
    | none => distinct room seen rest
    | some y =>
      if key y ∈ seen then distinct room seen rest
      else y :: match room with
        | 0 => []
        | room + 1 => distinct room (key y :: seen) rest

variable {normal key} {room : Nat} {seen : List κ} {entries : List α}

/-- Reading again what was read changes nothing. -/
theorem distinct_distinct (hnormal : ∀ x y, normal x = some y → normal y = some y) :
    distinct normal key room seen (distinct normal key room seen entries) = distinct normal key room seen entries := by
  induction entries generalizing room seen with
  | nil => rfl
  | cons x rest ih =>
    rw [distinct]
    split
    · exact ih
    · rename_i y hy
      split
      · exact ih
      · rename_i hnew
        rw [distinct, hnormal x y hy]
        simp only [hnew, if_false]
        cases room with
        | zero => rfl
        | succ room => exact congrArg (y :: ·) ih

end
end Tanpopo
