import Mathlib
/-!
# Swift's fixed-width arithmetic and how Swift code ends

Swift's `+` and its integer conversions stop the process when the result does
not fit; the `ReportingOverflow` forms hand the overflow to the caller.
-/

namespace Tanpopo.Swift

/-- How a throwing function ends. A trap ends the process. -/
inductive Outcome (ε α : Type) where
  | ok (value : α)
  | threw (error : ε)
  | trap
  deriving DecidableEq, Repr

namespace Outcome
variable {ε α β : Type}

def bind (x : Outcome ε α) (f : α → Outcome ε β) : Outcome ε β :=
  match x with
  | ok a => f a
  | threw e => threw e
  | trap => trap

instance : Monad (Outcome ε) where
  pure := ok
  bind := bind

def isTrap : Outcome ε α → Bool
  | trap => true
  | _ => false

theorem eq_trap_of_isTrap {x : Outcome ε α} (h : x.isTrap = true) : x = trap := by
  cases x <;> first | rfl | cases h

/-- `guard condition else { throw error }`. -/
def guard (condition : Prop) [Decidable condition] (error : ε) : Outcome ε Unit :=
  if condition then ok () else threw error

def ofOption (error : ε) : Option α → Outcome ε α
  | some a => ok a
  | none => threw error

@[simp] theorem pure_eq (a : α) : (pure a : Outcome ε α) = ok a := rfl
@[simp] theorem ok_bind (a : α) (f : α → Outcome ε β) : (ok a >>= f) = f a := rfl
@[simp] theorem threw_bind (e : ε) (f : α → Outcome ε β) : (threw e >>= f) = threw e := rfl
@[simp] theorem trap_bind (f : α → Outcome ε β) : ((trap : Outcome ε α) >>= f) = trap := rfl

theorem bind_eq_ok {x : Outcome ε α} {f : α → Outcome ε β} {b : β} :
    (x >>= f) = ok b ↔ ∃ a, x = ok a ∧ f a = ok b := by
  cases x <;> simp

@[simp] theorem guard_eq_ok {condition : Prop} [Decidable condition] {error : ε} {u : Unit} :
    guard condition error = ok u ↔ condition := by
  unfold guard
  split <;> simp [*]

theorem guard_of {condition : Prop} [Decidable condition] {error : ε} (h : condition) :
    guard condition error = ok () := if_pos h

theorem guard_of_not {condition : Prop} [Decidable condition] {error : ε} (h : ¬ condition) :
    guard condition error = threw error := if_neg h

@[simp] theorem ofOption_eq_ok {error : ε} {o : Option α} {a : α} : ofOption error o = ok a ↔ o = some a := by
  cases o <;> simp [ofOption]

instance : LawfulMonad (Outcome ε) :=
  LawfulMonad.mk' (Outcome ε) (fun x => by cases x <;> rfl) (fun _ _ => rfl) (fun x _ _ => by cases x <;> rfl)

/-- A `map` whose elements each have a value or end in one same error. -/
theorem mapM_of_ite {l : List α} {f : α → Outcome ε β} {p : α → Prop} [DecidablePred p] {g : α → β} {e : ε}
    (h : ∀ a ∈ l, f a = if p a then ok (g a) else threw e) :
    l.mapM f = if ∀ a ∈ l, p a then ok (l.map g) else threw e := by
  induction l with
  | nil => rfl
  | cons a l ih =>
    rw [List.mapM_cons, h a List.mem_cons_self, ih fun b hb => h b (List.mem_cons_of_mem _ hb)]
    by_cases ha : p a
    · by_cases hl : ∀ b ∈ l, p b
      · rw [if_pos ha, if_pos hl, if_pos (List.forall_mem_cons.mpr ⟨ha, hl⟩)]
        rfl
      · rw [if_pos ha, if_neg hl, if_neg fun hall => hl (List.forall_mem_cons.mp hall).2]
        rfl
    · rw [if_neg ha, if_neg fun hall => ha (List.forall_mem_cons.mp hall).1]
      rfl

/-! ### Code that does not trap -/

/-- `x` ends in a thrown error or in a value that satisfies `P`. -/
def Safe (x : Outcome ε α) (P : α → Prop) : Prop :=
  match x with
  | ok a => P a
  | threw _ => True
  | trap => False

variable {x : Outcome ε α} {P Q : α → Prop}

@[simp] theorem safe_ok {a : α} : (ok a : Outcome ε α).Safe P ↔ P a := Iff.rfl
@[simp] theorem safe_threw {e : ε} : (threw e : Outcome ε α).Safe P := trivial

theorem Safe.bind {f : α → Outcome ε β} {R : β → Prop} (hx : x.Safe P) (hf : ∀ a, P a → (f a).Safe R) :
    (x >>= f).Safe R := by
  cases x with
  | ok a => exact hf a hx
  | threw e => trivial
  | trap => exact hx

theorem Safe.mono (hx : x.Safe P) (h : ∀ a, P a → Q a) : x.Safe Q := by
  cases x with
  | ok a => exact h a hx
  | threw e => trivial
  | trap => exact hx

theorem Safe.of_eq_ok {a : α} (hx : x.Safe P) (h : x = ok a) : P a := by
  subst h
  exact hx

theorem Safe.ne_trap (hx : x.Safe P) : x ≠ trap := by
  rintro rfl
  exact hx

theorem safe_of_eq_ok {a : α} (h : x = ok a) (ha : P a) : x.Safe P := by
  subst h
  exact ha

theorem safe_guard (condition : Prop) [Decidable condition] (error : ε) :
    (guard condition error).Safe fun _ => condition := by
  unfold guard
  split <;> simp [*]

theorem safe_ofOption (error : ε) (o : Option α) : (ofOption error o).Safe fun a => o = some a := by
  cases o <;> simp [ofOption]

theorem guard_ne_trap {condition : Prop} [Decidable condition] {error : ε} : guard condition error ≠ trap :=
  (safe_guard condition error).ne_trap

theorem ofOption_ne_trap {error : ε} {o : Option α} : ofOption error o ≠ trap := (safe_ofOption error o).ne_trap

theorem guard_congr {p q : Prop} [Decidable p] [Decidable q] (h : p ↔ q) {error : ε} : guard p error = guard q error :=
  if_congr h rfl rfl

/-- What follows a computation may use that it succeeded. -/
theorem bind_congr_ok {f g : α → Outcome ε β} (h : ∀ a, x = ok a → f a = g a) : (x >>= f) = x >>= g := by
  cases x with
  | ok a => exact h a rfl
  | threw e => rfl
  | trap => rfl

theorem bind_ne_trap_iff {f : α → Outcome ε β} : (x >>= f) ≠ trap ↔ x ≠ trap ∧ ∀ a, x = ok a → f a ≠ trap := by
  cases x <;> simp

theorem forM_ne_trap {f : α → Outcome ε PUnit} {l : List α} (h : ∀ a ∈ l, f a ≠ trap) : l.forM f ≠ trap := by
  induction l with
  | nil => exact nofun
  | cons a rest ih =>
    change (f a >>= fun _ => rest.forM f) ≠ trap
    rw [bind_ne_trap_iff]
    exact ⟨h a List.mem_cons_self, fun _ _ => ih fun b hb => h b (List.mem_cons_of_mem _ hb)⟩

/-- A loop over a list does not trap when no turn does that it comes to. -/
theorem foldlM_ne_trap_iff {σ : Type} {f : σ → α → Outcome ε σ} {s : σ} {l : List α} : l.foldlM f s ≠ trap ↔
    ∀ before a after, l = before ++ a :: after → ∀ s', before.foldlM f s = ok s' → f s' a ≠ trap := by
  induction l generalizing s with
  | nil => exact iff_of_true nofun fun before a after heq => absurd heq (by simp)
  | cons first rest ih =>
    rw [List.foldlM_cons, bind_ne_trap_iff]
    constructor
    · rintro ⟨hfirst, hrest⟩ before a after heq s' hbefore
      cases before with
      | nil =>
        cases hbefore
        cases heq
        exact hfirst
      | cons b before =>
        cases heq
        rw [List.foldlM_cons, bind_eq_ok] at hbefore
        obtain ⟨middle, hmiddle, hbefore⟩ := hbefore
        exact ih.1 (hrest middle hmiddle) before a after rfl s' hbefore
    · intro h
      refine ⟨h [] first rest rfl s rfl, fun middle hmiddle => ih.2 ?_⟩
      intro before a after heq s' hbefore
      refine h (first :: before) a after (by rw [heq]; rfl) s' ?_
      rw [List.foldlM_cons, bind_eq_ok]
      exact ⟨middle, hmiddle, hbefore⟩

/-- A loop whose turns keep an invariant is safe. -/
theorem safe_foldlM {σ : Type} {f : σ → α → Outcome ε σ} (Inv : σ → List α → Prop)
    (hstep : ∀ s a rest, Inv s (a :: rest) → (f s a).Safe fun s' => Inv s' rest) {s : σ} {l : List α}
    (h : Inv s l) : (l.foldlM f s).Safe fun s' => Inv s' [] := by
  induction l generalizing s with
  | nil => exact h
  | cons a rest ih =>
    rw [List.foldlM_cons]
    exact (hstep s a rest h).bind fun s' hs' => ih hs'

end Outcome

/-! ## `Int` and `Int64` -/

section Arithmetic
variable {ε : Type}
open Outcome

def addingReportingOverflow (a b : Int64) : Int64 × Bool :=
  (a + b, decide ((a + b).toInt ≠ a.toInt + b.toInt))

def multipliedReportingOverflow (a b : Int64) : Int64 × Bool :=
  (a * b, decide ((a * b).toInt ≠ a.toInt * b.toInt))

/-- `a + b`. -/
def add (a b : Int64) : Outcome ε Int64 :=
  if (addingReportingOverflow a b).2 then trap else ok (a + b)

/-- `a - b`. -/
def sub (a b : Int64) : Outcome ε Int64 :=
  if (a - b).toInt = a.toInt - b.toInt then ok (a - b) else trap

/-- `a * b`. -/
def mul (a b : Int64) : Outcome ε Int64 :=
  if (multipliedReportingOverflow a b).2 then trap else ok (a * b)

/-- `UInt64(a)`. -/
def toUInt64 (a : Int64) : Outcome ε UInt64 :=
  if 0 ≤ a.toInt then ok a.toUInt64 else trap

/-- `Int(a)` of an unsigned word. -/
def toInt64 (a : UInt64) : Outcome ε Int64 :=
  if a.toNat < 2 ^ 63 then ok a.toInt64 else trap

/-- `Int32(a)`. -/
def toInt32 (a : Int64) : Outcome ε Int32 :=
  if -2 ^ 31 ≤ a.toInt ∧ a.toInt < 2 ^ 31 then ok a.toInt32 else trap

theorem Int64.bounds (a : Int64) : -2 ^ 63 ≤ a.toInt ∧ a.toInt < 2 ^ 63 :=
  ⟨Int64.le_toInt a, Int64.toInt_lt a⟩

theorem Int64.eq_of_toInt {a b : Int64} (h : a.toInt = b.toInt) : a = b := Int64.toInt_inj.1 h

theorem toInt_add_of_bounds {a b : Int64} (hlo : -2 ^ 63 ≤ a.toInt + b.toInt) (hhi : a.toInt + b.toInt < 2 ^ 63) :
    (a + b).toInt = a.toInt + b.toInt := by
  rw [Int64.toInt_add, Int.bmod_eq_of_le] <;> omega

theorem addingReportingOverflow_eq_false {a b : Int64} :
    (addingReportingOverflow a b).2 = false ↔ -2 ^ 63 ≤ a.toInt + b.toInt ∧ a.toInt + b.toInt < 2 ^ 63 := by
  have hbounds := Int64.bounds (a + b)
  constructor
  · intro h
    have heq : (a + b).toInt = a.toInt + b.toInt := by simpa [addingReportingOverflow] using h
    omega
  · rintro ⟨hlo, hhi⟩
    simpa [addingReportingOverflow] using toInt_add_of_bounds hlo hhi

theorem addingReportingOverflow_toInt {a b : Int64} (h : (addingReportingOverflow a b).2 = false) :
    (addingReportingOverflow a b).1.toInt = a.toInt + b.toInt := by
  simpa [addingReportingOverflow] using h

theorem multipliedReportingOverflow_toInt {a b : Int64} (h : (multipliedReportingOverflow a b).2 = false) :
    (multipliedReportingOverflow a b).1.toInt = a.toInt * b.toInt := by
  simpa [multipliedReportingOverflow] using h

theorem multipliedReportingOverflow_eq_false {a b : Int64} :
    (multipliedReportingOverflow a b).2 = false ↔ -2 ^ 63 ≤ a.toInt * b.toInt ∧ a.toInt * b.toInt < 2 ^ 63 := by
  have hbounds := Int64.bounds (a * b)
  constructor
  · intro h
    have heq : (a * b).toInt = a.toInt * b.toInt := by simpa [multipliedReportingOverflow] using h
    omega
  · rintro ⟨hlo, hhi⟩
    have heq : (a * b).toInt = a.toInt * b.toInt := by
      rw [Int64.toInt_mul, Int.bmod_eq_of_le] <;> omega
    simpa [multipliedReportingOverflow] using heq

theorem add_eq_ok {a b c : Int64} : (add a b : Outcome ε Int64) = ok c ↔ c.toInt = a.toInt + b.toInt := by
  unfold add
  by_cases h : (addingReportingOverflow a b).2 = true
  · have hne : (a + b).toInt ≠ a.toInt + b.toInt := by simpa [addingReportingOverflow] using h
    simp only [h, if_true, reduceCtorEq, false_iff]
    intro hc
    have hc' := Int64.bounds c
    exact hne (toInt_add_of_bounds (by omega) (by omega))
  · have heq : (a + b).toInt = a.toInt + b.toInt := by simpa [addingReportingOverflow] using h
    rw [if_neg h]
    constructor
    · intro hc
      cases hc
      exact heq
    · intro hc
      exact congrArg ok (Int64.eq_of_toInt (heq.trans hc.symm))

theorem sub_eq_ok {a b c : Int64} : (sub a b : Outcome ε Int64) = ok c ↔ c.toInt = a.toInt - b.toInt := by
  unfold sub
  constructor
  · intro h
    split at h
    · cases h
      assumption
    · cases h
  · intro h
    have hc := Int64.bounds c
    have heq : (a - b).toInt = a.toInt - b.toInt := by
      rw [Int64.toInt_sub, Int.bmod_eq_of_le] <;> omega
    rw [if_pos heq]
    exact congrArg ok (Int64.eq_of_toInt (heq.trans h.symm))

theorem mul_eq_ok {a b c : Int64} : (mul a b : Outcome ε Int64) = ok c ↔ c.toInt = a.toInt * b.toInt := by
  unfold mul
  by_cases h : (multipliedReportingOverflow a b).2 = true
  · simp only [h, if_true, reduceCtorEq, false_iff]
    intro hc
    have hc' := Int64.bounds c
    have hfits := multipliedReportingOverflow_eq_false.2 (show -2 ^ 63 ≤ a.toInt * b.toInt ∧ _ by omega)
    simp [hfits] at h
  · have heq : (a * b).toInt = a.toInt * b.toInt := by simpa [multipliedReportingOverflow] using h
    rw [if_neg h]
    constructor
    · intro hc
      cases hc
      exact heq
    · intro hc
      exact congrArg ok (Int64.eq_of_toInt (heq.trans hc.symm))

/-- A sum in range is computed. -/
theorem add_ok {a b : Int64} (hlo : -2 ^ 63 ≤ a.toInt + b.toInt) (hhi : a.toInt + b.toInt < 2 ^ 63) :
    (add a b : Outcome ε Int64) = ok (a + b) :=
  add_eq_ok.2 (toInt_add_of_bounds hlo hhi)

theorem toInt_sub_of_bounds {a b : Int64} (hlo : -2 ^ 63 ≤ a.toInt - b.toInt) (hhi : a.toInt - b.toInt < 2 ^ 63) :
    (a - b).toInt = a.toInt - b.toInt := by
  rw [Int64.toInt_sub, Int.bmod_eq_of_le] <;> omega

theorem sub_ok {a b : Int64} (hlo : -2 ^ 63 ≤ a.toInt - b.toInt) (hhi : a.toInt - b.toInt < 2 ^ 63) :
    (sub a b : Outcome ε Int64) = ok (a - b) :=
  sub_eq_ok.2 (toInt_sub_of_bounds hlo hhi)

theorem toInt_mul_of_bounds {a b : Int64} (hlo : -2 ^ 63 ≤ a.toInt * b.toInt) (hhi : a.toInt * b.toInt < 2 ^ 63) :
    (a * b).toInt = a.toInt * b.toInt := by
  rw [Int64.toInt_mul, Int.bmod_eq_of_le] <;> omega

theorem mul_ok {a b : Int64} (hlo : -2 ^ 63 ≤ a.toInt * b.toInt) (hhi : a.toInt * b.toInt < 2 ^ 63) :
    (mul a b : Outcome ε Int64) = ok (a * b) :=
  mul_eq_ok.2 (toInt_mul_of_bounds hlo hhi)

theorem toInt_div_of_nonneg {a b : Int64} (ha : 0 ≤ a.toInt) (hb : 0 < b.toInt) :
    (a / b).toInt = a.toInt / b.toInt := by
  have hlt := (Int64.bounds a).2
  rw [Int64.toInt_div, Int.tdiv_eq_ediv_of_nonneg ha, Int.bmod_eq_of_le]
  · have := Int.ediv_nonneg ha hb.le
    omega
  · have := Int.ediv_le_self b.toInt ha
    omega

theorem toInt_mod_of_nonneg {a b : Int64} (ha : 0 ≤ a.toInt) : (a % b).toInt = a.toInt % b.toInt := by
  rw [Int64.toInt_mod, Int.tmod_eq_emod_of_nonneg ha]

theorem nonneg_iff {a : Int64} : 0 ≤ a ↔ 0 ≤ a.toInt := Int64.le_iff_toInt_le

theorem pos_iff {a : Int64} : 0 < a ↔ 0 < a.toInt := Int64.lt_iff_toInt_lt

theorem toUInt64_eq_ok {a : Int64} (h : 0 ≤ a.toInt) : (toUInt64 a : Outcome ε UInt64) = ok a.toUInt64 := if_pos h

theorem toUInt64_toNat {a : Int64} (h : 0 ≤ a.toInt) : a.toUInt64.toNat = a.toInt.toNat :=
  Int64.toNat_toUInt64_of_le (Int64.le_iff_toInt_le.2 h)

theorem toInt64_eq_ok {a : UInt64} (h : a.toNat < 2 ^ 63) : (toInt64 a : Outcome ε Int64) = ok a.toInt64 := if_pos h

theorem toInt64_toInt {a : UInt64} (h : a.toNat < 2 ^ 63) : a.toInt64.toInt = a.toNat := by
  rw [Int64.toInt, UInt64.toBitVec_toInt64, BitVec.toInt_eq_toNat_of_lt]
  · rfl
  · have hnat : a.toBitVec.toNat = a.toNat := rfl
    omega

theorem toInt_ofNat_of_lt {n : Nat} (h : n < 2 ^ 63) : (Int64.ofNat n).toInt = n := Int64.toInt_ofNat_of_lt h

end Arithmetic

/-! ## Bytes -/

abbrev Data := List UInt8

def littleEndianData (value : UInt64) : Data :=
  (List.range 8).map fun i => (value >>> UInt64.ofNat (i * 8)).toUInt8

def decodeLittleEndianUInt64 (bytes : Data) : UInt64 :=
  bytes.zipIdx.foldl (fun value item => value ||| (item.1.toUInt64 <<< UInt64.ofNat (item.2 * 8))) 0

@[simp] theorem littleEndianData_length (value : UInt64) : (littleEndianData value).length = 8 := rfl

theorem getLsbD_toUInt8 (x : UInt64) (i : Nat) :
    x.toUInt8.toUInt64.toBitVec.getLsbD i = (decide (i < 8) && x.toBitVec.getLsbD i) := by
  rw [UInt8.toBitVec_toUInt64, BitVec.getLsbD_setWidth, UInt64.toBitVec_toUInt8, BitVec.getLsbD_setWidth]
  by_cases h : i < 8
  · simp [h, show i < 64 by omega]
  · simp [h]

/-- Byte `k`, put back at its place, holds bits `8k` to `8k + 7` of the word. -/
theorem getLsbD_byte (value : UInt64) (k : Nat) (hk : k < 8) (i : Nat) :
    (((value >>> UInt64.ofNat (k * 8)).toUInt8).toUInt64 <<< UInt64.ofNat (k * 8)).toBitVec.getLsbD i =
      (decide (k * 8 ≤ i ∧ i < k * 8 + 8) && value.toBitVec.getLsbD i) := by
  have hshift : (UInt64.ofNat (k * 8)).toBitVec % 64 = BitVec.ofNat 64 (k * 8) := by
    apply BitVec.eq_of_toNat_eq
    simp
    omega
  have hnat : (BitVec.ofNat 64 (k * 8)).toNat = k * 8 := by simp; omega
  rw [UInt64.toBitVec_shiftLeft, hshift, BitVec.shiftLeft_eq', hnat, BitVec.getLsbD_shiftLeft, getLsbD_toUInt8,
    UInt64.toBitVec_shiftRight, hshift, BitVec.ushiftRight_eq', hnat, BitVec.getLsbD_ushiftRight]
  by_cases hlo : k * 8 ≤ i
  · rw [show k * 8 + (i - k * 8) = i by omega]
    by_cases hhi : i < k * 8 + 8
    · simp [hlo, hhi, show i < 64 by omega, show ¬ i < k * 8 by omega, show i - k * 8 < 8 by omega]
    · simp [hlo, hhi, show ¬ i - k * 8 < 8 by omega]
  · simp [hlo, show i < k * 8 by omega]

theorem decodeLittleEndianUInt64_littleEndianData (value : UInt64) :
    decodeLittleEndianUInt64 (littleEndianData value) = value := by
  apply UInt64.toBitVec_inj.1
  apply BitVec.eq_of_getLsbD_eq
  intro i hi
  have hrange : List.range 8 = [0, 1, 2, 3, 4, 5, 6, 7] := rfl
  simp only [littleEndianData, hrange, List.map_cons, List.map_nil, decodeLittleEndianUInt64, List.zipIdx_cons,
    List.zipIdx_nil, List.foldl_cons, List.foldl_nil, UInt64.toBitVec_or, BitVec.getLsbD_or, Nat.zero_add,
    Nat.reduceAdd]
  rw [getLsbD_byte value 0 (by decide), getLsbD_byte value 1 (by decide), getLsbD_byte value 2 (by decide),
    getLsbD_byte value 3 (by decide), getLsbD_byte value 4 (by decide), getLsbD_byte value 5 (by decide),
    getLsbD_byte value 6 (by decide), getLsbD_byte value 7 (by decide)]
  cases value.toBitVec.getLsbD i
  · simp
  · simp
    omega

end Tanpopo.Swift
