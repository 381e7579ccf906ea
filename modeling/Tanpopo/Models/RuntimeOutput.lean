import Tanpopo.Lib.Lines
import Mathlib.Data.List.Infix
/-!
# The output of a runtime

`runtimeOutputWriter` passes the output of a runtime on to the log and hands
its lines to a handler. `lines_independent_of_writes` says that the handler
sees the lines of the stream, however it is cut into writes, and that the log
is the end of what it was given.
-/

namespace Tanpopo.Models.RuntimeOutput

open Lines

/-- The bytes of a Go string or slice. -/
abbrev Bytes := List UInt8

/-! ## The log -/

def newline : UInt8 := 10

/-- `bytes.IndexByte` and `strings.IndexByte`. -/
def indexByte (value : Bytes) (b : UInt8) : Option Nat := value.idxOf? b

/-- `logBuffer`; no bound is negative. -/
structure LogBuffer where
  max : Nat
  bytes : Bytes

/-- `newLogBuffer`. -/
def LogBuffer.new (max : Nat) : LogBuffer := ⟨max, []⟩

/-- What does not fit is dropped from the front, and with it the line that is cut. -/
def LogBuffer.trimLocked (b : LogBuffer) : LogBuffer :=
  if b.bytes.length ≤ b.max then b
  else
    let start := b.bytes.length - b.max
    let start := match indexByte (b.bytes.drop start) newline with
      | some nextLine => start + (nextLine + 1)
      | none => start
    { b with bytes := b.bytes.drop start }

/-- `Write` returns how many bytes it took, which are all. -/
def LogBuffer.write (b : LogBuffer) (value : Bytes) : LogBuffer × Nat := ({ b with bytes := b.bytes ++ value }.trimLocked, value.length)

def LogBuffer.append (b : LogBuffer) (value : Bytes) : LogBuffer := (b.write value).1

def LogBuffer.reset (b : LogBuffer) : LogBuffer := { b with bytes := [] }

/-! ## The writer -/

/-- `runtimeOutputWriter`, whose destination is the log. `onLine` says whether there is a handler. -/
structure RuntimeOutputWriter where
  destination : LogBuffer
  onLine : Bool
  pending : Bytes

/-- `newRuntimeOutputWriter`. -/
def newRuntimeOutputWriter (destination : LogBuffer) (onLine : Bool) : RuntimeOutputWriter := ⟨destination, onLine, []⟩

/-- `strings.TrimSuffix(line, "\r")`. -/
def trimReturn (line : Bytes) : Bytes := if line.getLast? = some 13 then line.dropLast else line

theorem length_drop_lt {pending : Bytes} {index : Nat} (h : indexByte pending newline = some index) :
    (pending.drop (index + 1)).length < pending.length := by
  obtain ⟨hlt, -⟩ := List.idxOf?_eq_some_iff.1 h
  rw [List.length_drop]
  omega

/-- The loop of `Write`: the lines that end in `pending`, and what follows them. -/
def takeLines (lines : List Bytes) (pending : Bytes) : List Bytes × Bytes :=
  match h : indexByte pending newline with
  | none => (lines, pending)
  | some index => takeLines (lines ++ [trimReturn (pending.take index)]) (pending.drop (index + 1))
termination_by pending.length
decreasing_by exact length_drop_lt h

def lineLimit : Nat := 64 * 1024

/-- `Write`, and the lines that the handler is called with. -/
def RuntimeOutputWriter.write (w : RuntimeOutputWriter) (value : Bytes) : RuntimeOutputWriter × List Bytes :=
  let (destination, count) := w.destination.write value
  let w := { w with destination }
  if count = 0 ∨ w.onLine = false then (w, [])
  else
    let (lines, pending) := takeLines [] (w.pending ++ value.take count)
    let pending := if pending.length > lineLimit then pending.drop (pending.length - lineLimit) else pending
    ({ w with pending }, lines)

/-! ## Calls -/

/-- What the manager does with the writer and its log. -/
inductive Call where
  | write (value : Bytes)
  | append (value : Bytes)
  | reset

/-- The writer, and what its handler has been called with. -/
structure Output where
  writer : RuntimeOutputWriter
  delivered : List Bytes

def Output.call (s : Output) : Call → Output
  | .write value => ⟨(s.writer.write value).1, s.delivered ++ (s.writer.write value).2⟩
  | .append value => { s with writer := { s.writer with destination := s.writer.destination.append value } }
  | .reset => { s with writer := { s.writer with destination := s.writer.destination.reset } }

/-- The output after these calls, with a handler and an empty log of this bound. -/
def run (max : Nat) (calls : List Call) : Output := calls.foldl Output.call ⟨newRuntimeOutputWriter (.new max) true, []⟩

/-- The bytes of the runtime. -/
def Call.output : Call → Bytes
  | .write value => value
  | .append _ => []
  | .reset => []

def stream (calls : List Call) : Bytes := calls.flatMap Call.output

/-- The bytes that the log was given since it was reset. -/
def logged (calls : List Call) : Bytes :=
  calls.foldl (fun given call =>
    match call with
    | .write value => given ++ value
    | .append value => given ++ value
    | .reset => []) []

theorem run_concat (max : Nat) (calls : List Call) (call : Call) : run max (calls ++ [call]) = (run max calls).call call := by
  rw [run, List.foldl_append]
  rfl

/-! ## The log is an end -/

theorem trimLocked_spec (b : LogBuffer) :
    b.trimLocked.bytes <:+ b.bytes ∧ b.trimLocked.bytes.length ≤ b.max ∧ b.trimLocked.max = b.max := by
  have hkeep : ∀ length more : Nat, length - (length - b.max + more) ≤ b.max := by
    intro length more
    omega
  unfold LogBuffer.trimLocked
  split_ifs with hfits
  · exact ⟨List.suffix_rfl, hfits, rfl⟩
  · refine ⟨List.drop_suffix _ _, ?_, rfl⟩
    rw [List.length_drop]
    split
    · exact hkeep _ _
    · exact hkeep _ 0

/-- A write adds to the end, and what is dropped is dropped from the front. -/
theorem write_spec (b : LogBuffer) (value : Bytes) : (b.write value).1.bytes <:+ b.bytes ++ value ∧
    (b.write value).1.bytes.length ≤ b.max ∧ (b.write value).1.max = b.max :=
  trimLocked_spec { b with bytes := b.bytes ++ value }

theorem suffix_append {l l' : Bytes} (h : l <:+ l') (more : Bytes) : l ++ more <:+ l' ++ more := by
  obtain ⟨front, rfl⟩ := h
  exact ⟨front, by rw [List.append_assoc]⟩

theorem logged_concat (calls : List Call) (call : Call) : logged (calls ++ [call]) =
    match call with
    | .write value => logged calls ++ value
    | .append value => logged calls ++ value
    | .reset => [] := by
  rw [logged, List.foldl_append]
  rfl

/-- A writer's write gives its log what it was given. -/
@[simp] theorem write_destination (w : RuntimeOutputWriter) (value : Bytes) :
    (w.write value).1.destination = (w.destination.write value).1 := by
  unfold RuntimeOutputWriter.write
  simp only
  split_ifs <;> rfl

/-- After any calls the log is the end of what it was given, within its bound. -/
theorem log_spec (max : Nat) (calls : List Call) : (run max calls).writer.destination.bytes <:+ logged calls ∧
    (run max calls).writer.destination.bytes.length ≤ max ∧ (run max calls).writer.destination.max = max := by
  induction calls using List.reverseRecOn with
  | nil => exact ⟨List.suffix_rfl, Nat.zero_le _, rfl⟩
  | append_singleton calls call ih =>
    obtain ⟨hsuffix, -, hmax⟩ := ih
    have hwrite : ∀ value, ((run max calls).writer.destination.write value).1.bytes <:+ logged calls ++ value ∧
        ((run max calls).writer.destination.write value).1.bytes.length ≤ max ∧
        ((run max calls).writer.destination.write value).1.max = max := by
      intro value
      obtain ⟨hend, hlength, hsame⟩ := write_spec (run max calls).writer.destination value
      exact ⟨hend.trans (suffix_append hsuffix value), hlength.trans hmax.le, hsame.trans hmax⟩
    rw [run_concat, logged_concat]
    cases call with
    | write value =>
      simp only [Output.call, write_destination]
      exact hwrite value
    | append value => exact hwrite value
    | reset => exact ⟨List.suffix_rfl, Nat.zero_le _, hmax⟩

/-! ## The lines of the stream -/

theorem indexByte_eq_none {value : Bytes} {b : UInt8} : indexByte value b = none ↔ b ∉ value := List.idxOf?_eq_none_iff

theorem indexByte_eq_some {value : Bytes} {b : UInt8} {index : Nat} (h : indexByte value b = some index) :
    value = value.take index ++ b :: value.drop (index + 1) ∧ b ∉ value.take index := by
  obtain ⟨hlt, hbyte, hbefore⟩ := List.idxOf?_eq_some_iff.1 h
  constructor
  · rw [← hbyte, ← List.drop_eq_getElem_cons hlt, List.take_append_drop]
  · intro hmem
    obtain ⟨j, hj, heq⟩ := List.getElem_of_mem hmem
    rw [List.getElem_take] at heq
    exact hbefore j (List.length_take_le _ _ |>.trans_lt' hj) heq

/-- The loop takes the lines that are ended, and leaves the rest. -/
theorem takeLines_eq (lines : List Bytes) (pending : Bytes) : takeLines lines pending =
    (lines ++ (terminated newline pending).map trimReturn, unterminated newline pending) := by
  fun_induction takeLines lines pending with
  | case1 lines pending hnone =>
    have hnot := indexByte_eq_none.1 hnone
    rw [terminated_of_not_mem hnot, unterminated_of_not_mem hnot, List.map_nil, List.append_nil]
  | case2 lines pending index hindex ih =>
    obtain ⟨hsplit, hnot⟩ := indexByte_eq_some hindex
    rw [ih]
    conv_rhs => rw [hsplit, terminated_append_cons, unterminated_append_cons, terminated_of_not_mem hnot, unterminated_of_not_mem hnot]
    simp

/-- Of what is left after the lines, the writer keeps the end. -/
theorem write_eq (w : RuntimeOutputWriter) (hhandler : w.onLine = true) {value : Bytes} (hvalue : value ≠ []) :
    (w.write value).2 = (terminated newline (w.pending ++ value)).map trimReturn ∧
      (w.write value).1.pending = (unterminated newline (w.pending ++ value)).rtake lineLimit := by
  have hcount : ¬ ((w.destination.write value).2 = 0 ∨ w.onLine = false) := by
    rw [hhandler, or_iff_left (by decide)]
    exact List.length_eq_zero_iff.not.2 hvalue
  have htake : value.take (w.destination.write value).2 = value := List.take_length
  unfold RuntimeOutputWriter.write
  simp only [if_neg hcount, htake, takeLines_eq, List.nil_append, true_and, List.rtake]
  split
  · rfl
  · rw [Nat.sub_eq_zero_of_le (by omega), List.drop_zero]

theorem write_onLine (w : RuntimeOutputWriter) (value : Bytes) : (w.write value).1.onLine = w.onLine := by
  unfold RuntimeOutputWriter.write
  simp only
  split_ifs <;> rfl

/-- Between two calls: the lines so far are delivered, and the end of what is left is pending. -/
structure Output.Holds (s : Output) (before : Bytes) : Prop where
  handler : s.writer.onLine = true
  delivered : s.delivered = (terminated newline before).map trimReturn
  pending : s.writer.pending = (unterminated newline before).rtake lineLimit

/-- One write, where no line is longer than the limit. -/
theorem Output.Holds.write {s : Output} {before : Bytes} (h : s.Holds before) (value : Bytes)
    (hlines : ∀ line ∈ terminated newline (before ++ value), line.length ≤ lineLimit) :
    (s.call (.write value)).Holds (before ++ value) := by
  by_cases hvalue : value = []
  · subst hvalue
    rw [List.append_nil]
    -- Nothing was written: the writer returns before it looks at its lines.
    have hnone : s.writer.write [] = ({ s.writer with destination := (s.writer.destination.write []).1 }, []) := by
      unfold RuntimeOutputWriter.write
      exact if_pos (.inl rfl)
    refine ⟨?_, ?_, ?_⟩
    · simp only [Output.call, hnone, h.handler]
    · simp only [Output.call, hnone, List.append_nil, h.delivered]
    · simp only [Output.call, hnone, h.pending]
  · obtain ⟨hdelivered, hpending⟩ := write_eq s.writer h.handler hvalue
    rw [h.pending] at hdelivered hpending
    rw [terminated_append] at hlines
    have hsame : terminated newline ((unterminated newline before).rtake lineLimit ++ value) =
          terminated newline (unterminated newline before ++ value) ∧
        (unterminated newline ((unterminated newline before).rtake lineLimit ++ value)).rtake lineLimit =
          (unterminated newline (unterminated newline before ++ value)).rtake lineLimit := by
      have hnot : newline ∉ unterminated newline before := not_mem_unterminated
      generalize unterminated newline before = left at hlines hnot ⊢
      by_cases hmem : newline ∈ value
      · -- What is left is part of a line, so it is within the limit.
        obtain ⟨more, hline⟩ := exists_line hnot hmem
        have hlength := hlines _ (List.mem_append_right _ hline)
        rw [List.length_append] at hlength
        rw [List.rtake, Nat.sub_eq_zero_of_le (Nat.le_of_add_right_le hlength), List.drop_zero]
        exact ⟨rfl, rfl⟩
      · -- No line is ended, and only the end of what is left counts.
        have hwhole : newline ∉ left ++ value := by
          rw [List.mem_append, not_or]
          exact ⟨hnot, hmem⟩
        have hend : newline ∉ left.rtake lineLimit ++ value := by
          rw [List.mem_append, not_or]
          exact ⟨fun h => hnot (List.mem_of_mem_drop h), hmem⟩
        rw [terminated_of_not_mem hwhole, terminated_of_not_mem hend, unterminated_of_not_mem hwhole, unterminated_of_not_mem hend]
        exact ⟨rfl, rtake_rtake_append _ _ _⟩
    refine ⟨(write_onLine _ _).trans h.handler, ?_, ?_⟩
    · simp only [Output.call, hdelivered, hsame.1, h.delivered, terminated_append before, List.map_append]
    · simp only [Output.call, hpending, hsame.2, unterminated_append before]

/-- All calls, where no line of the stream is longer than the limit. -/
theorem holds_run (max : Nat) (calls : List Call) (hlines : ∀ line ∈ terminated newline (stream calls), line.length ≤ lineLimit) :
    (run max calls).Holds (stream calls) := by
  induction calls using List.reverseRecOn with
  | nil => exact ⟨rfl, rfl, rfl⟩
  | append_singleton calls call ih =>
    have hstream : stream (calls ++ [call]) = stream calls ++ call.output := by
      rw [stream, List.flatMap_append, List.flatMap_singleton]
      rfl
    rw [hstream] at hlines ⊢
    rw [run_concat]
    have hbefore := ih fun line hline => hlines line (by
      rw [terminated_append]
      exact List.mem_append_left _ hline)
    cases call with
    | write value => exact hbefore.write value hlines
    | append value =>
      rw [Call.output, List.append_nil]
      exact ⟨hbefore.handler, hbefore.delivered, hbefore.pending⟩
    | reset =>
      rw [Call.output, List.append_nil]
      exact ⟨hbefore.handler, hbefore.delivered, hbefore.pending⟩

/-- Where nothing else is done with the log, it is given the stream. -/
theorem logged_writes (writes : List Bytes) : logged (writes.map .write) = writes.flatten := by
  induction writes using List.reverseRecOn with
  | nil => rfl
  | append_singleton writes value ih =>
    rw [List.map_append, List.map_singleton, logged_concat, List.flatten_append, List.flatten_singleton]
    simp only [ih]

/-- However a stream is cut into writes, and whatever else is done with the log between them, the handler is called with the lines of
the stream. After every call the log is the end of what it was given, within its bound; where there are only writes, that is the end
of the stream so far. -/
theorem lines_independent_of_writes (max : Nat) (output : Bytes)
    (hlines : ∀ line ∈ terminated newline output, line.length ≤ lineLimit) (calls : List Call) (hcut : stream calls = output) :
    (run max calls).delivered = (terminated newline output).map trimReturn ∧ ∀ before, before <+: calls →
      (run max before).writer.destination.bytes <:+ logged before ∧ (run max before).writer.destination.bytes.length ≤ max ∧
        ∀ writes : List Bytes, before = writes.map .write → logged before = writes.flatten := by
  subst hcut
  refine ⟨(holds_run max calls hlines).delivered, fun before _ => ?_⟩
  obtain ⟨hsuffix, hlength, -⟩ := log_spec max before
  refine ⟨hsuffix, hlength, ?_⟩
  rintro writes rfl
  exact logged_writes writes

/-- Two lines in three writes, of which the first ends between a return and its newline. -/
def threeWrites : List Call := [.write [97, 98, 13], .write [10], .append [36, 10], .write [99, 10, 100]]

theorem threeWrites_delivered : (run 4 threeWrites).delivered = [[97, 98], [99]] :=
  (lines_independent_of_writes 4 [97, 98, 13, 10, 99, 10, 100] (by decide) threeWrites rfl).1

end Tanpopo.Models.RuntimeOutput
