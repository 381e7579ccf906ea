import Mathlib
/-!
# Indices in 32-bit arithmetic

An index that a thread computes from its number. `value` is what it stands for
over the naturals and `wrapped` what 32-bit arithmetic makes of it. Where no
step leaves its range (`Exact`), the two agree.
-/

namespace Tanpopo.Wrapping

/-- `ite a b t e` is `t` where `a` is below `b`, and `e` elsewhere. -/
inductive Index where
  | thread
  | const (n : Nat)
  | add (a b : Index)
  | sub (a b : Index)
  | mul (a b : Index)
  | div (a b : Index)
  | mod (a b : Index)
  | ite (a b t e : Index)

namespace Index

instance : Add Index := ⟨add⟩
instance : Sub Index := ⟨sub⟩
instance : Mul Index := ⟨mul⟩
instance : Div Index := ⟨div⟩
instance : Mod Index := ⟨mod⟩
instance (n : Nat) : OfNat Index n := ⟨const n⟩
instance : Coe Nat Index := ⟨const⟩

def value (number : Nat) : Index → Nat
  | thread => number
  | const n => n
  | add a b => a.value number + b.value number
  | sub a b => a.value number - b.value number
  | mul a b => a.value number * b.value number
  | div a b => a.value number / b.value number
  | mod a b => a.value number % b.value number
  | ite a b t e => if a.value number < b.value number then t.value number else e.value number

def wrapped (number : UInt32) : Index → UInt32
  | thread => number
  | const n => UInt32.ofNat n
  | add a b => a.wrapped number + b.wrapped number
  | sub a b => a.wrapped number - b.wrapped number
  | mul a b => a.wrapped number * b.wrapped number
  | div a b => a.wrapped number / b.wrapped number
  | mod a b => a.wrapped number % b.wrapped number
  | ite a b t e => if a.wrapped number < b.wrapped number then t.wrapped number else e.wrapped number

/-- What the thread of this number computes is what the index stands for. -/
def Agrees (number : Nat) (e : Index) : Prop := (e.wrapped (UInt32.ofNat number)).toNat = e.value number

instance (number : Nat) (e : Index) : Decidable (e.Agrees number) := Nat.decEq _ _

/-- No step of the computation leaves the range. -/
def Exact (number : Nat) : Index → Prop
  | thread => number < 2 ^ 32
  | const n => n < 2 ^ 32
  | add a b => a.Exact number ∧ b.Exact number ∧ a.value number + b.value number < 2 ^ 32
  | sub a b => a.Exact number ∧ b.Exact number ∧ b.value number ≤ a.value number
  | mul a b => a.Exact number ∧ b.Exact number ∧ a.value number * b.value number < 2 ^ 32
  | div a b => a.Exact number ∧ b.Exact number
  | mod a b => a.Exact number ∧ b.Exact number
  | ite a b t e => a.Exact number ∧ b.Exact number ∧ if a.value number < b.value number then t.Exact number else e.Exact number

variable {number : Nat}

theorem Exact.agrees {e : Index} (h : e.Exact number) : e.Agrees number := by
  unfold Agrees
  induction e with
  | thread => exact Nat.mod_eq_of_lt h
  | const n => exact Nat.mod_eq_of_lt h
  | add a b iha ihb =>
    obtain ⟨ha, hb, hlt⟩ := h
    rw [wrapped, value, UInt32.toNat_add, iha ha, ihb hb, Nat.mod_eq_of_lt hlt]
  | sub a b iha ihb =>
    obtain ⟨ha, hb, hle⟩ := h
    rw [wrapped, value, UInt32.toNat_sub_of_le, iha ha, ihb hb]
    rw [UInt32.le_iff_toNat_le, iha ha, ihb hb]
    exact hle
  | mul a b iha ihb =>
    obtain ⟨ha, hb, hlt⟩ := h
    rw [wrapped, value, UInt32.toNat_mul, iha ha, ihb hb, Nat.mod_eq_of_lt hlt]
  | div a b iha ihb => rw [wrapped, value, UInt32.toNat_div, iha h.1, ihb h.2]
  | mod a b iha ihb => rw [wrapped, value, UInt32.toNat_mod, iha h.1, ihb h.2]
  | ite a b t e iha ihb iht ihe =>
    obtain ⟨ha, hb, hbranch⟩ := h
    have hcond : a.wrapped (UInt32.ofNat number) < b.wrapped (UInt32.ofNat number) ↔ a.value number < b.value number := by
      rw [UInt32.lt_iff_toNat_lt, iha ha, ihb hb]
    by_cases hlt : a.value number < b.value number
    · rw [if_pos hlt] at hbranch
      rw [wrapped, value, if_pos hlt, if_pos (hcond.2 hlt), iht hbranch]
    · rw [if_neg hlt] at hbranch
      rw [wrapped, value, if_neg hlt, if_neg (hcond.not.2 hlt), ihe hbranch]

/-- An index that agrees is in range. -/
theorem Agrees.lt {e : Index} (h : e.Agrees number) : e.value number < 2 ^ 32 := h ▸ UInt32.toNat_lt _

section
variable {a b t e : Index} {n : Nat}

@[simp] theorem exact_thread : thread.Exact number ↔ number < 2 ^ 32 := Iff.rfl
@[simp] theorem exact_const : (const n).Exact number ↔ n < 2 ^ 32 := Iff.rfl
@[simp] theorem exact_ofNat : (ofNat(n) : Index).Exact number ↔ n < 2 ^ 32 := Iff.rfl
@[simp] theorem exact_add : (a + b).Exact number ↔ a.Exact number ∧ b.Exact number ∧ a.value number + b.value number < 2 ^ 32 := Iff.rfl
@[simp] theorem exact_sub : (a - b).Exact number ↔ a.Exact number ∧ b.Exact number ∧ b.value number ≤ a.value number := Iff.rfl
@[simp] theorem exact_mul : (a * b).Exact number ↔ a.Exact number ∧ b.Exact number ∧ a.value number * b.value number < 2 ^ 32 := Iff.rfl
@[simp] theorem exact_div : (a / b).Exact number ↔ a.Exact number ∧ b.Exact number := Iff.rfl
@[simp] theorem exact_mod : (a % b).Exact number ↔ a.Exact number ∧ b.Exact number := Iff.rfl

@[simp] theorem exact_ite : (ite a b t e).Exact number ↔
    a.Exact number ∧ b.Exact number ∧ if a.value number < b.value number then t.Exact number else e.Exact number := Iff.rfl

@[simp] theorem value_thread : thread.value number = number := rfl
@[simp] theorem value_const : (const n).value number = n := rfl
@[simp] theorem value_ofNat : (ofNat(n) : Index).value number = n := rfl
@[simp] theorem value_add : (a + b).value number = a.value number + b.value number := rfl
@[simp] theorem value_sub : (a - b).value number = a.value number - b.value number := rfl
@[simp] theorem value_mul : (a * b).value number = a.value number * b.value number := rfl
@[simp] theorem value_div : (a / b).value number = a.value number / b.value number := rfl
@[simp] theorem value_mod : (a % b).value number = a.value number % b.value number := rfl
@[simp] theorem value_ite : (ite a b t e).value number = if a.value number < b.value number then t.value number else e.value number := rfl

end

end Index
end Tanpopo.Wrapping
