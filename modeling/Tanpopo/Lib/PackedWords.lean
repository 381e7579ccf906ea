import Mathlib.Data.Nat.Bits
import Mathlib.Tactic.Ring
/-!
# Fields packed into a word

A loop that puts fields of one width into a number, the first one lowest. When
each field fits its width every field can be read back.
-/

namespace Tanpopo.PackedWords

/-- `result |= field << (index * width)` for one index after the other. -/
def packLoop (width : Nat) (field : Nat → Option Nat) (count : Nat) : Option Nat :=
  (List.range count).foldlM (fun result index => do
    let value ← field index
    return result ||| (value <<< (index * width))) 0

def packFields (width : Nat) (value : Nat → Nat) : Nat → Nat
  | 0 => 0
  | count + 1 => packFields width value count ||| (value count <<< (count * width))

theorem packLoop_eq {width count : Nat} {field : Nat → Option Nat} (value : Nat → Nat)
    (h : ∀ index < count, field index = some (value index)) : packLoop width field count = some (packFields width value count) := by
  induction count with
  | zero => rfl
  | succ count ih =>
    have hrest := ih fun index hindex => h index (by omega)
    rw [packLoop] at hrest
    rw [packLoop, List.range_succ, List.foldlM_append, hrest, Option.bind_eq_bind, Option.bind_some, List.foldlM_cons,
      h count (by omega)]
    rfl

section
variable {width : Nat} {value : Nat → Nat}

theorem packFields_lt {count : Nat} (h : ∀ index < count, value index < 2 ^ width) :
    packFields width value count < 2 ^ (count * width) := by
  induction count with
  | zero => simp [packFields]
  | succ count ih =>
    have hrest := ih fun index hindex => h index (by omega)
    have hgrow : 2 ^ (count * width) ≤ 2 ^ ((count + 1) * width) :=
      Nat.pow_le_pow_right (by decide) (Nat.mul_le_mul_right _ (Nat.le_succ _))
    refine Nat.or_lt_two_pow (by omega) ?_
    rw [Nat.shiftLeft_eq, Nat.succ_mul, Nat.pow_add, Nat.mul_comm]
    exact Nat.mul_lt_mul_of_pos_left (h count (by omega)) (Nat.two_pow_pos _)

/-- A new field stands above the others. -/
theorem packFields_succ {count : Nat} (h : ∀ index < count, value index < 2 ^ width) :
    packFields width value (count + 1) = 2 ^ (count * width) * value count + packFields width value count := by
  rw [packFields, Nat.two_pow_add_eq_or_of_lt (packFields_lt h), Nat.shiftLeft_eq, Nat.mul_comm, Nat.or_comm]

/-- Every field is where it was put. -/
theorem field_packFields {count index : Nat} (h : ∀ index < count, value index < 2 ^ width) (hindex : index < count) :
    packFields width value count / 2 ^ (index * width) % 2 ^ width = value index := by
  induction count with
  | zero => exact absurd hindex (Nat.not_lt_zero _)
  | succ count ih =>
    have hrest : ∀ index < count, value index < 2 ^ width := fun index hindex => h index (by omega)
    rw [packFields_succ hrest]
    rcases Nat.lt_succ_iff_lt_or_eq.1 hindex with hlt | rfl
    -- A lower field does not see what is added above it.
    · obtain ⟨gap, rfl⟩ := Nat.exists_eq_add_of_lt hlt
      have hpower : 2 ^ ((index + gap + 1) * width) = 2 ^ (index * width) * (2 ^ width * 2 ^ (gap * width)) := by
        rw [← Nat.pow_add, ← Nat.pow_add]
        congr 1
        ring
      rw [hpower, Nat.mul_assoc, Nat.mul_add_div (Nat.two_pow_pos _), Nat.mul_assoc, Nat.mul_add_mod]
      exact ih hrest hlt
    · rw [Nat.mul_add_div (Nat.two_pow_pos _), Nat.div_eq_of_lt (packFields_lt hrest), Nat.add_zero]
      exact Nat.mod_eq_of_lt (h _ (by omega))

end

/-- The two halves of a byte of a number. -/
theorem half_of_byte (n byte half : Nat) (hhalf : half < 2) :
    n / 2 ^ (4 * (2 * byte + half)) % 2 ^ 4 = n / 2 ^ (byte * 8) % 2 ^ 8 / 2 ^ (4 * half) % 2 ^ 4 := by
  have hpower : 2 ^ (4 * (2 * byte + half)) = 2 ^ (byte * 8) * 2 ^ (4 * half) := by
    rw [← Nat.pow_add]
    congr 1
    ring
  rw [hpower, ← Nat.div_div_eq_div_mul]
  generalize n / 2 ^ (byte * 8) = m
  rcases Nat.lt_succ_iff_lt_or_eq.1 hhalf with hzero | rfl
  · rw [Nat.lt_one_iff.1 hzero]
    omega
  · omega

end Tanpopo.PackedWords
