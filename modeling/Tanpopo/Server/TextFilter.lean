import Tanpopo.Lib.Search
/-!
# Stop strings in a streamed text

`StreamingTextFilter` cuts a text at the first stop string while the text
arrives in chunks, and holds back as many characters as could begin one.
`generate` cuts the finished text. They differ when a stop string is complete
before a longer one that started earlier. A text is the list of its characters.
-/

namespace Tanpopo.Server

open Tanpopo.Search

variable {α : Type} [DecidableEq α]

/-- Where the first of the stop strings starts in a finished text. -/
def firstStop (text : List α) (candidates : List (List α)) : Option Nat :=
  (candidates.filterMap fun candidate => if candidate = [] then none else rangeOf text candidate).min?

/-- The text `generate` keeps. -/
def generateText (stops : List (List α)) (output : List α) : List α :=
  match firstStop output stops with
  | some stop => output.take stop
  | none => output

/-- The stop strings are not empty, and all but one character of any fits in `holdCount`. -/
structure StreamingTextFilter (α : Type) where
  stops : List (List α)
  holdCount : Nat
  buffer : List α
  didStop : Bool
  stops_ne : [] ∉ stops
  stops_le : ∀ stop ∈ stops, stop.length ≤ holdCount + 1

namespace StreamingTextFilter

def init (stops : List (List α)) : StreamingTextFilter α where
  stops := stops.filter (· ≠ [])
  holdCount := (((stops.filter (· ≠ [])).map List.length).max?.getD 1) - 1
  buffer := []
  didStop := false
  stops_ne := by simp
  stops_le := by
    intro stop hstop
    have hmem : stop.length ∈ (stops.filter (· ≠ [])).map List.length := List.mem_map_of_mem hstop
    cases hmax : ((stops.filter (· ≠ [])).map List.length).max? with
    | none => rw [List.max?_eq_none_iff.1 hmax] at hmem; cases hmem
    | some n =>
      have := (List.max?_eq_some_iff.1 hmax).2 _ hmem
      rw [Option.getD_some]
      omega

variable (f : StreamingTextFilter α)

def earliestStopRange : Option Nat := (f.stops.filterMap fun stop => rangeOf f.buffer stop).min?

/-- The text to send, whether the stream is over, and the filter afterwards. -/
def append (text : List α) : (List α × Bool) × StreamingTextFilter α :=
  if f.didStop then (([], true), f)
  else
    let f := { f with buffer := f.buffer ++ text }
    match f.earliestStopRange with
    | some lowerBound => ((f.buffer.take lowerBound, true), { f with buffer := [], didStop := true })
    | none =>
      if f.holdCount > 0 ∧ f.buffer.length > f.holdCount then
        let emitCount := f.buffer.length - f.holdCount
        ((f.buffer.take emitCount, false), { f with buffer := f.buffer.drop emitCount })
      else if f.holdCount = 0 then ((f.buffer, false), { f with buffer := [] })
      else (([], false), f)

def flush : List α := if f.didStop then [] else f.buffer

end StreamingTextFilter

/-- The text sent for the chunks of a stream. -/
def streamChunks (f : StreamingTextFilter α) : List (List α) → List α
  | [] => f.flush
  | chunk :: chunks =>
    let ((text, stopped), f) := f.append chunk
    if stopped then text ++ f.flush else text ++ streamChunks f chunks

/-- The text sent for a completion with these stop strings. -/
def streamText (stops : List (List α)) (chunks : List (List α)) : List α := streamChunks (.init stops) chunks

/-! ## The finished text -/

theorem firstStop_eq_some {stops : List (List α)} {text : List α} {i : Nat} :
    firstStop text stops = some i ↔ IsLeast {j | AnyAt stops text j} i :=
  min?_filterMap_eq_some

theorem generateText_of_isLeast {stops : List (List α)} {text : List α} {i : Nat}
    (h : IsLeast {j | AnyAt stops text j} i) : generateText stops text = text.take i := by
  rw [generateText, firstStop_eq_some.2 h]

theorem generateText_of_none {stops : List (List α)} {text : List α} (h : ∀ j, ¬ AnyAt stops text j) :
    generateText stops text = text := by
  rw [generateText]
  cases hfirst : firstStop text stops with
  | none => rfl
  | some i => exact absurd (firstStop_eq_some.1 hfirst).1 (h i)

/-! ## The filter -/

namespace StreamingTextFilter

theorem earliestStopRange_eq_some {f : StreamingTextFilter α} {i : Nat} :
    f.earliestStopRange = some i ↔ IsLeast {j | AnyAt f.stops f.buffer j} i := by
  rw [← min?_filterMap_eq_some, earliestStopRange]
  have hne : ∀ stop ∈ f.stops, (if stop = [] then none else rangeOf f.buffer stop) = rangeOf f.buffer stop :=
    fun stop hstop => if_neg (ne_of_mem_of_not_mem hstop f.stops_ne)
  rw [List.filterMap_congr hne]

/-- After `shown` has arrived and `emitted` was sent: no stop string is complete, and what
could still become the start of one is in the buffer. -/
structure Holding (f : StreamingTextFilter α) (shown emitted : List α) : Prop where
  running : f.didStop = false
  all : emitted ++ f.buffer = shown
  none : ∀ j, ¬ AnyAt f.stops shown j
  held : emitted = [] ∨ emitted.length + f.holdCount ≤ shown.length

variable {f : StreamingTextFilter α} {shown emitted : List α}

omit [DecidableEq α] in
/-- The stop strings of the longer text all start in the buffer. -/
theorem Holding.anyAt_iff (h : f.Holding shown emitted) (text : List α) {i : Nat} :
    AnyAt f.stops (shown ++ text) i ↔ ∃ j, i = emitted.length + j ∧ AnyAt f.stops (f.buffer ++ text) j := by
  have hall : shown ++ text = emitted ++ (f.buffer ++ text) := by rw [← List.append_assoc, h.all]
  constructor
  · intro hi
    have hreach := hi.reaches f.stops_le h.none
    have hle : emitted.length ≤ i := by
      rcases h.held with he | he
      · rw [he]; exact Nat.zero_le _
      · omega
    refine ⟨i - emitted.length, by omega, ?_⟩
    rw [← anyAt_append_right (t := emitted), ← hall, Nat.add_sub_cancel' hle]
    exact hi
  · rintro ⟨j, rfl, hj⟩
    rw [hall]
    exact anyAt_append_right.2 hj

/-- When a stop string is complete, the text is sent up to the first one. -/
theorem Holding.append_of_isLeast (h : f.Holding shown emitted) {text : List α} {i : Nat}
    (hi : IsLeast {j | AnyAt f.stops (shown ++ text) j} i) :
    ∃ f', f'.didStop = true ∧ emitted ++ (f.append text).1.1 = (shown ++ text).take i ∧
      (f.append text).1.2 = true ∧ (f.append text).2 = f' := by
  obtain ⟨j, rfl, hj⟩ := (h.anyAt_iff text).1 hi.1
  have hleast : IsLeast {j | AnyAt f.stops (f.buffer ++ text) j} j := by
    refine ⟨hj, fun k hk => ?_⟩
    have := hi.2 ((h.anyAt_iff text).2 ⟨k, rfl, hk⟩)
    omega
  have hrange : earliestStopRange { f with buffer := f.buffer ++ text } = some j := earliestStopRange_eq_some.2 hleast
  rw [append, if_neg (by rw [h.running]; exact Bool.false_ne_true)]
  dsimp only
  rw [hrange]
  refine ⟨_, rfl, ?_, rfl, rfl⟩
  rw [← h.all, List.append_assoc, List.take_length_add_append]

/-- Until then the filter goes on holding. -/
theorem Holding.append_of_none (h : f.Holding shown emitted) {text : List α}
    (hnone : ∀ j, ¬ AnyAt f.stops (shown ++ text) j) :
    (f.append text).1.2 = false ∧ (f.append text).2.stops = f.stops ∧
      (f.append text).2.Holding (shown ++ text) (emitted ++ (f.append text).1.1) := by
  have hall : emitted ++ (f.buffer ++ text) = shown ++ text := by rw [← List.append_assoc, h.all]
  have hrange : earliestStopRange { f with buffer := f.buffer ++ text } = Option.none := by
    cases hr : earliestStopRange { f with buffer := f.buffer ++ text } with
    | none => rfl
    | some j => exact absurd ((h.anyAt_iff text).2 ⟨j, rfl, (earliestStopRange_eq_some.1 hr).1⟩) (hnone _)
  rw [append, if_neg (by rw [h.running]; exact Bool.false_ne_true)]
  dsimp only
  rw [hrange]
  dsimp only
  have hlength : emitted.length + (f.buffer ++ text).length = shown.length + text.length := by
    rw [← List.length_append, hall, List.length_append]
  split
  · rename_i hlong
    refine ⟨rfl, rfl, h.running, ?_, hnone, .inr ?_⟩
    · rw [List.append_assoc, List.take_append_drop, hall]
    · dsimp only
      rw [List.length_append, List.length_take]
      simp only [List.length_append] at hlength hlong ⊢
      omega
  · split
    · rename_i hzero
      refine ⟨rfl, rfl, h.running, ?_, hnone, .inr ?_⟩
      · rw [List.append_nil, hall]
      · dsimp only
        rw [hall]
        omega
    · refine ⟨rfl, rfl, h.running, ?_, hnone, ?_⟩
      · rw [List.append_nil, hall]
      · rw [List.append_nil, List.length_append]
        exact h.held.imp_right fun he => Nat.le_add_right_of_le he

omit [DecidableEq α] in
theorem init_holding (stops : List (List α)) : (init stops).Holding [] [] where
  running := rfl
  all := rfl
  none := fun _ hj => absurd hj.lt_length (Nat.not_lt_zero _)
  held := .inl rfl

omit [DecidableEq α] in
theorem anyAt_filter {stops : List (List α)} {text : List α} {i : Nat} :
    AnyAt (stops.filter (· ≠ [])) text i ↔ AnyAt stops text i := by
  refine exists_congr fun p => ?_
  rw [List.mem_filter, decide_eq_true_eq]
  tauto

end StreamingTextFilter

/-! ## A whole stream -/

/-- No stop string that a later chunk completes starts before the first of those
complete already. -/
def Settled (stops : List (List α)) (chunks : List (List α)) : Prop :=
  ∀ n i, (∃ j, AnyAt stops (chunks.take n).flatten j) → AnyAt stops chunks.flatten i →
    ∃ j ≤ i, AnyAt stops (chunks.take n).flatten j

/-- The stream ends with the first chunk that completes a stop string, at the
first of the stop strings complete by then. -/
theorem streamChunks_of_holding {f : StreamingTextFilter α} {shown emitted : List α} (h : f.Holding shown emitted)
    (chunks : List (List α)) :
    ((∀ j, ¬ AnyAt f.stops (shown ++ chunks.flatten) j) ∧ emitted ++ streamChunks f chunks = shown ++ chunks.flatten) ∨
    ∃ n i, IsLeast {j | AnyAt f.stops (shown ++ (chunks.take n).flatten) j} i ∧
      (∀ m < n, ∀ j, ¬ AnyAt f.stops (shown ++ (chunks.take m).flatten) j) ∧
      emitted ++ streamChunks f chunks = (shown ++ (chunks.take n).flatten).take i := by
  induction chunks generalizing f shown emitted with
  | nil =>
    refine .inl ⟨by simpa using h.none, ?_⟩
    rw [streamChunks, StreamingTextFilter.flush, if_neg (by rw [h.running]; exact Bool.false_ne_true), h.all]
    simp
  | cons chunk chunks ih =>
    rw [streamChunks, List.flatten_cons, ← List.append_assoc]
    by_cases hstop : ∃ j, AnyAt f.stops (shown ++ chunk) j
    · obtain ⟨j, hj⟩ := hstop
      obtain ⟨i, hi⟩ := hj.exists_isLeast
      obtain ⟨f', hf', htext, hstopped, heq⟩ := h.append_of_isLeast hi
      refine .inr ⟨1, i, by simpa using hi, ?_, ?_⟩
      · intro m hm
        rw [Nat.lt_one_iff.1 hm]
        simpa using h.none
      · simp only [hstopped, heq, if_true, StreamingTextFilter.flush, hf', List.append_nil]
        simpa using htext
    · have hnone := fun j hj => hstop ⟨j, hj⟩
      obtain ⟨hrunning, hstops, hnext⟩ := h.append_of_none hnone
      simp only [hrunning, Bool.false_eq_true, if_false, ← List.append_assoc]
      rcases ih hnext with ⟨hall, heq⟩ | ⟨n, i, hi, hbefore, heq⟩ <;> rw [hstops] at *
      · exact .inl ⟨hall, heq⟩
      · refine .inr ⟨n + 1, i, ?_, ?_, ?_⟩
        · simpa using hi
        · intro m hm
          cases m with
          | zero => simpa using h.none
          | succ m => simpa using hbefore m (Nat.lt_of_succ_lt_succ hm)
        · simpa using heq

omit [DecidableEq α] in
theorem anyAt_take_append {stops chunks : List (List α)} {n m i : Nat} (h : AnyAt stops (chunks.take n).flatten i)
    (hnm : n ≤ m) : AnyAt stops (chunks.take m).flatten i := by
  obtain ⟨rest, hrest⟩ := List.take_prefix_take_left (l := chunks) hnm
  rw [← hrest, List.flatten_append]
  exact h.append _

end Tanpopo.Server
