import Mathlib.Data.Nat.ModEq
import Mathlib.Tactic.Ring
/-!
# Readers of a stream

A reader consumes bytes from the front of a stream. `Reads`: it takes exactly
these bytes, whatever follows, and returns this value. `Exact`: on no stream
does its arithmetic leave the machine's integers.
-/

namespace Tanpopo.ByteStream

abbrev Bytes := List UInt8

/-- Why a reader stops: an error of the program, or an integer that does not fit. -/
inductive Fault (ε : Type) where
  | error (e : ε)
  | overflow
  deriving DecidableEq

abbrev Reader (ε : Type) := StateT Bytes (Except (Fault ε))

variable {ε α β ι : Type}

def fail (e : ε) : Reader ε α := throw (.error e)

/-- An integer result that has to be below a bound. -/
def within (bound n : Nat) : Reader ε Nat := if n < bound then pure n else throw .overflow

/-- `io.ReadFull`, which tells a stream that has ended from one that ends too early. -/
def readFull (eof short : ε) (count : Nat) : Reader ε Bytes := fun stream =>
  if count ≤ stream.length then .ok (stream.take count, stream.drop count)
  else .error (.error (if stream = [] then eof else short))

def discard (eof : ε) (count : Nat) : Reader ε Unit := fun stream =>
  if count ≤ stream.length then .ok ((), stream.drop count) else .error (.error eof)

/-- A loop that runs a reader `count` times. -/
def times (reader : Reader ε Unit) : Nat → Reader ε Unit
  | 0 => pure ()
  | count + 1 => do
    reader
    times reader count

/-! ## What is consumed -/

/-- The reader takes exactly these bytes. -/
def Reads (reader : Reader ε α) (bytes : Bytes) (value : α) : Prop :=
  ∀ rest, reader (bytes ++ rest) = .ok (value, rest)

theorem bind_apply (reader : Reader ε α) (next : α → Reader ε β) (stream : Bytes) :
    (reader >>= next) stream = (reader stream).bind fun x => next x.1 x.2 := rfl

theorem reads_pure (value : α) : Reads (pure value : Reader ε α) [] value := fun _ => rfl

theorem Reads.bind {reader : Reader ε α} {next : α → Reader ε β} {first second : Bytes} {a : α} {b : β}
    (h : Reads reader first a) (hnext : Reads (next a) second b) : Reads (reader >>= next) (first ++ second) b := by
  intro rest
  rw [bind_apply, List.append_assoc, h (second ++ rest)]
  exact hnext rest

theorem Reads.bind_apply {reader : Reader ε α} {next : α → Reader ε β} {bytes rest : Bytes} {a : α}
    (h : Reads reader bytes a) : (reader >>= next) (bytes ++ rest) = next a rest := by
  rw [ByteStream.bind_apply, h rest]
  rfl

/-- After the last bytes only the result is made. -/
theorem Reads.bind_pure {reader : Reader ε α} {next : α → Reader ε β} {bytes : Bytes} {a : α} {b : β}
    (h : Reads reader bytes a) (hnext : Reads (next a) [] b) : Reads (reader >>= next) bytes b := by
  rw [← List.append_nil bytes]
  exact h.bind hnext

theorem reads_within {bound n : Nat} (h : n < bound) : Reads (within bound n : Reader ε Nat) [] n := by
  rw [within, if_pos h]
  exact reads_pure n

theorem reads_readFull {eof short : ε} {bytes : Bytes} {count : Nat} (h : bytes.length = count) :
    Reads (readFull eof short count) bytes bytes := by
  subst h
  intro rest
  rw [readFull, if_pos (by simp), List.take_left, List.drop_left]

theorem reads_discard {eof : ε} {bytes : Bytes} {count : Nat} (h : bytes.length = count) :
    Reads (discard eof count) bytes () := by
  subst h
  intro rest
  rw [discard, if_pos (by simp), List.drop_left]

theorem reads_times {reader : Reader ε Unit} {encode : ι → Bytes} {items : List ι}
    (h : ∀ item ∈ items, Reads reader (encode item) ()) : Reads (times reader items.length) (items.flatMap encode) () := by
  induction items with
  | nil => exact reads_pure ()
  | cons item items ih =>
    rw [List.flatMap_cons]
    exact (h item List.mem_cons_self).bind (ih fun item hitem => h item (List.mem_cons_of_mem _ hitem))

/-! ## Exact arithmetic -/

def Exact (reader : Reader ε α) : Prop := ∀ stream, reader stream ≠ .error .overflow

theorem exact_pure (value : α) : Exact (pure value : Reader ε α) := nofun

theorem exact_fail (e : ε) : Exact (fail e : Reader ε α) := nofun

/-- What follows has to be exact for the values that are read. -/
theorem Exact.bind_of {reader : Reader ε α} {next : α → Reader ε β} (h : Exact reader)
    (hnext : ∀ stream a rest, reader stream = .ok (a, rest) → Exact (next a)) : Exact (reader >>= next) := by
  intro stream
  rw [bind_apply]
  cases hr : reader stream with
  | ok x => exact hnext stream x.1 x.2 hr x.2
  | error fault =>
    rintro ⟨rfl⟩
    exact h stream hr

theorem Exact.bind {reader : Reader ε α} {next : α → Reader ε β} (h : Exact reader) (hnext : ∀ a, Exact (next a)) :
    Exact (reader >>= next) := h.bind_of fun _ a _ _ => hnext a

theorem exact_within {bound n : Nat} (h : n < bound) : Exact (within bound n : Reader ε Nat) := by
  rw [within, if_pos h]
  exact exact_pure n

theorem exact_readFull (eof short : ε) (count : Nat) : Exact (readFull eof short count) := by
  intro stream
  unfold readFull
  split <;> exact nofun

theorem length_of_readFull {eof short : ε} {count : Nat} {stream bytes rest : Bytes}
    (h : readFull eof short count stream = .ok (bytes, rest)) : bytes.length = count := by
  unfold readFull at h
  split at h
  · cases h
    rw [List.length_take]
    omega
  · cases h

theorem exact_discard (eof : ε) (count : Nat) : Exact (discard eof count) := by
  intro stream
  unfold discard
  split <;> exact nofun

theorem exact_times {reader : Reader ε Unit} (h : Exact reader) (count : Nat) : Exact (times reader count) := by
  induction count with
  | zero => exact exact_pure ()
  | succ count ih => exact h.bind fun _ => ih

/-! ## Little-endian words -/

def littleEndian : Bytes → Nat
  | [] => 0
  | b :: bytes => b.toNat + 256 * littleEndian bytes

/-- The lowest `size` bytes of a number. -/
def wordBytes : Nat → Nat → Bytes
  | 0, _ => []
  | size + 1, n => UInt8.ofNat n :: wordBytes size (n / 256)

@[simp] theorem wordBytes_length (size n : Nat) : (wordBytes size n).length = size := by
  induction size generalizing n with
  | zero => rfl
  | succ size ih => rw [wordBytes, List.length_cons, ih]

theorem littleEndian_wordBytes {size n : Nat} (h : n < 256 ^ size) : littleEndian (wordBytes size n) = n := by
  induction size generalizing n with
  | zero =>
    rw [Nat.pow_zero, Nat.lt_one_iff] at h
    rw [h]
    rfl
  | succ size ih =>
    rw [wordBytes, littleEndian, ih (Nat.div_lt_of_lt_mul (by rwa [← Nat.pow_succ'])), UInt8.toNat_ofNat']
    exact Nat.mod_add_div n 256

theorem littleEndian_lt (bytes : Bytes) : littleEndian bytes < 256 ^ bytes.length := by
  induction bytes with
  | nil => exact Nat.one_pos
  | cons b bytes ih =>
    have hb := b.toNat_lt
    rw [littleEndian, List.length_cons, Nat.pow_succ']
    omega

end Tanpopo.ByteStream
