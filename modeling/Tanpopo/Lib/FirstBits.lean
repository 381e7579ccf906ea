import Mathlib.Data.List.Basic
import Mathlib.Data.Nat.Notation
/-!
# The first bits of bytes

Two texts of bytes begin with the same bits where their whole bytes agree and
the byte after them agrees under a mask.
-/

namespace Tanpopo.FirstBits

/-- The bits of a byte, the highest first. -/
def byteBits (b : UInt8) : List Bool := (List.range 8).map fun i => b.toNat.testBit (7 - i)

def bits (bytes : List UInt8) : List Bool := bytes.flatMap byteBits

/-- The first bits of a byte are set. -/
def firstBits (count : ℕ) : UInt8 := 0xff <<< UInt8.ofNat (8 - count)

/-- The byte that begins with some bits. -/
def ofFirstBits (bits : List Bool) : UInt8 :=
  UInt8.ofNat (bits.foldl (fun n bit => 2 * n + bit.toNat) 0) <<< UInt8.ofNat (8 - bits.length)

theorem length_byteBits (b : UInt8) : (byteBits b).length = 8 := by simp [byteBits]

theorem byteBits_injective {a b : UInt8} (h : byteBits a = byteBits b) : a = b := by
  have hback : ∀ i : Fin 256,
      UInt8.ofNat ((byteBits (UInt8.ofNat i)).foldl (fun n bit => 2 * n + bit.toNat) 0) = UInt8.ofNat i := by
    decide +kernel
  have ha := hback ⟨a.toNat, a.toNat_lt⟩
  have hb := hback ⟨b.toNat, b.toNat_lt⟩
  simp only [UInt8.ofNat_toNat] at ha hb
  rw [← ha, ← hb, h]

theorem take_byteBits_iff {a b : UInt8} {count : ℕ} (hpos : 0 < count) (hlt : count < 8) :
    (byteBits a).take count = (byteBits b).take count ↔ a &&& firstBits count = b &&& firstBits count := by
  have hmask : ∀ (k : Fin 8) (i : Fin 256),
      (byteBits (UInt8.ofNat i &&& firstBits k)).take k = (byteBits (UInt8.ofNat i)).take k := by
    decide +kernel
  have hback : ∀ (k : Fin 8) (i : Fin 256), 0 < k.val →
      ofFirstBits ((byteBits (UInt8.ofNat i)).take k) = UInt8.ofNat i &&& firstBits k := by
    decide +kernel
  have hmask' : ∀ c : UInt8, (byteBits (c &&& firstBits count)).take count = (byteBits c).take count := by
    intro c
    have h := hmask ⟨count, hlt⟩ ⟨c.toNat, c.toNat_lt⟩
    simpa only [UInt8.ofNat_toNat] using h
  have hback' : ∀ c : UInt8, ofFirstBits ((byteBits c).take count) = c &&& firstBits count := by
    intro c
    have h := hback ⟨count, hlt⟩ ⟨c.toNat, c.toNat_lt⟩ hpos
    simpa only [UInt8.ofNat_toNat] using h
  constructor
  · intro h
    rw [← hback', ← hback', h]
  · intro h
    rw [← hmask' a, ← hmask' b, h]

theorem bits_cons (b : UInt8) (bytes : List UInt8) : bits (b :: bytes) = byteBits b ++ bits bytes := rfl

/-- The first bits agree where whole bytes agree, and what is left of one more. -/
theorem take_bits_iff {a b : List UInt8} {count : ℕ} (h : a.length = b.length) (hle : count ≤ 8 * a.length) :
    (bits a).take count = (bits b).take count ↔ a.take (count / 8) = b.take (count / 8) ∧
      (count % 8 = 0 ∨ a[count / 8]?.map (· &&& firstBits (count % 8)) = b[count / 8]?.map (· &&& firstBits (count % 8))) := by
  induction a generalizing b count with
  | nil =>
    obtain rfl := List.length_eq_zero_iff.1 h.symm
    simp
  | cons x a ih =>
    obtain ⟨y, b, rfl⟩ := List.exists_cons_of_length_pos (by rw [← h]; simp : 0 < b.length)
    rw [bits_cons, bits_cons]
    by_cases hless : count < 8
    · -- the bits are those of the first byte
      rw [Nat.div_eq_of_lt hless, Nat.mod_eq_of_lt hless,
        List.take_append_of_le_length (by rw [length_byteBits]; omega),
        List.take_append_of_le_length (by rw [length_byteBits]; omega)]
      obtain rfl | hpos := Nat.eq_zero_or_pos count
      · simp
      · rw [take_byteBits_iff hpos hless]
        simp [Nat.pos_iff_ne_zero.1 hpos]
    · obtain ⟨rest, rfl⟩ := Nat.exists_eq_add_of_le (Nat.le_of_not_lt hless)
      have hdiv : (8 + rest) / 8 = rest / 8 + 1 := by omega
      have hmod : (8 + rest) % 8 = rest % 8 := by omega
      have hless : rest ≤ 8 * a.length := by
        rw [List.length_cons] at hle
        omega
      have hrest := ih (by simpa using h : a.length = b.length) hless
      rw [hdiv, hmod, List.take_succ_cons, List.take_succ_cons, List.getElem?_cons_succ, List.getElem?_cons_succ,
        List.cons.injEq, and_assoc, ← hrest]
      have htake : ∀ (c : UInt8) (l : List Bool), (byteBits c ++ l).take (8 + rest) = byteBits c ++ l.take rest := by
        intro c l
        rw [List.take_append, length_byteBits, List.take_of_length_le (by rw [length_byteBits]; omega), Nat.add_sub_cancel_left]
      rw [htake, htake]
      constructor
      · intro heq
        obtain ⟨hbyte, hbits⟩ := List.append_inj heq (by rw [length_byteBits, length_byteBits])
        exact ⟨byteBits_injective hbyte, hbits⟩
      · rintro ⟨rfl, hbits⟩
        rw [hbits]

end Tanpopo.FirstBits
