import Tanpopo.Lib.Scan
/-!
# Events of a chat stream

`consume` cuts the text of an answer into events while it arrives. Of an event
that is not over it keeps three characters to meet the next text, and the rest
aside. `consume_handles_whole_events` says that the outcome is that of the text
as a whole.
-/

namespace Tanpopo.Chat.Framing

open Scan

/-- A decoded text, by its UTF-16 code units. -/
abbrev Text := List UInt16

/-! ## The boundary -/

def lineFeed (s : Text) : Option Text := if s.head? = some 10 then some s.tail else none

/-- `\r?\n`. -/
def newline (s : Text) : Option Text := lineFeed (if s.head? = some 13 then s.tail else s)

/-- `\r?\n\r?\n`. -/
def boundary (s : Text) : Option Text := (newline s).bind newline

/-- Where the next match begins and where it ends. -/
def exec (text : Text) (lastIndex : Nat) : Option (Nat × Nat) :=
  (find boundary (text.drop lastIndex)).map fun (before, rest) => (lastIndex + before.length, text.length - rest.length)

theorem newline_eq_some {s rest : Text} : newline s = some rest ↔ s = 10 :: rest ∨ s = 13 :: 10 :: rest := by
  cases s with
  | nil => simp [newline, lineFeed]
  | cons a s =>
    by_cases ha : a = 13
    · subst ha
      cases s <;> simp [newline, lineFeed]
    · simp [newline, lineFeed, ha]

theorem newline_local : Local newline where
  nil := rfl
  append := by
    intro s rest t h
    rcases newline_eq_some.1 h with rfl | rfl
    · exact newline_eq_some.2 (.inl rfl)
    · exact newline_eq_some.2 (.inr rfl)
  word := by
    intro s rest h
    rcases newline_eq_some.1 h with rfl | rfl
    · exact ⟨[10], rfl, rfl⟩
    · exact ⟨[13, 10], rfl, rfl⟩

theorem boundary_local : Local boundary := newline_local.bind newline_local

/-- The texts that are boundaries. -/
def boundaries : List Text := [[10, 10], [10, 13, 10], [13, 10, 10], [13, 10, 13, 10]]

theorem mem_boundaries {w : Text} (h : boundary w = some []) : w ∈ boundaries := by
  obtain ⟨middle, hm, hr⟩ := Option.bind_eq_some_iff.1 h
  rcases newline_eq_some.1 hm with rfl | rfl <;> rcases newline_eq_some.1 hr with rfl | rfl <;> decide

theorem boundary_length {w : Text} (h : boundary w = some []) : 0 < w.length ∧ w.length ≤ 4 :=
  (by decide : ∀ w ∈ boundaries, 0 < w.length ∧ w.length ≤ 4) w (mem_boundaries h)

/-- No boundary is complete before another one is. -/
theorem find_boundary_of_prefix (w v : Text) (hv : v ≠ []) (h : boundary (w ++ v) = some []) : find boundary w = none := by
  have hproper : ∀ word ∈ boundaries, ∀ w ∈ word.inits, w ≠ word → find boundary w = none := by decide
  refine hproper _ (mem_boundaries h) w ((List.mem_inits _ _).2 (List.prefix_append _ _)) ?_
  simpa using hv.symm

theorem find_boundary_lt {text event rest : Text} (h : find boundary text = some (event, rest)) :
    event.length + rest.length < text.length := by
  obtain ⟨w, rfl, hw, -⟩ := boundary_local.of_find h
  have := (boundary_length hw).1
  rw [List.length_append, List.length_append]
  omega

theorem exec_eq_none {text : Text} {lastIndex : Nat} : exec text lastIndex = none ↔ find boundary (text.drop lastIndex) = none := by
  rw [exec, Option.map_eq_none_iff]

/-- A match has the found text before it and the rest after it. -/
theorem exec_eq_some {text : Text} {lastIndex index next : Nat} (h : exec text lastIndex = some (index, next)) :
    lastIndex < next ∧ next ≤ text.length ∧
      find boundary (text.drop lastIndex) = some ((text.take index).drop lastIndex, text.drop next) := by
  obtain ⟨⟨before, rest⟩, hfind, heq⟩ := Option.map_eq_some_iff.1 h
  obtain ⟨rfl, rfl⟩ := Prod.mk.inj heq
  obtain ⟨w, hdrop, hw, -⟩ := boundary_local.of_find hfind
  have hlength := congrArg List.length hdrop
  rw [List.length_drop, List.length_append, List.length_append] at hlength
  have hpos := (boundary_length hw).1
  refine ⟨by omega, by omega, ?_⟩
  have hbefore : (text.take (lastIndex + before.length)).drop lastIndex = before := by
    rw [List.drop_take, Nat.add_sub_cancel_left, hdrop, List.append_assoc, List.take_left]
  have hrest : text.drop (text.length - rest.length) = rest := by
    have hsuffix : rest <:+ text := (hdrop ▸ List.suffix_append _ _ : rest <:+ text.drop lastIndex).trans (List.drop_suffix _ _)
    exact (List.suffix_iff_eq_drop.1 hsuffix).symm
  rw [hbefore, hrest, hfind]

/-! ## One event -/

/-- `split(/\r?\n/)`. -/
def splitLines : Text → List Text
  | [] => [[]]
  | 13 :: 10 :: rest => [] :: splitLines rest
  | c :: rest => if c = 10 then [] :: splitLines rest else (splitLines rest).modifyHead (c :: ·)

/-- `"data:"`. -/
def dataField : Text := [100, 97, 116, 97, 58]

/-- `"[DONE]"`. -/
def doneMark : Text := [91, 68, 79, 78, 69, 93]

/-- `slice(5).replace(/^ /, "")`. -/
def fieldValue (line : Text) : Text :=
  let value := line.drop 5
  if value.head? = some 32 then value.tail else value

/-- What the stream needs to know of payloads: how they are parsed, which are
errors and with which message, and what the listener throws at the last of them. -/
structure Client (Payload : Type) where
  parse : Text → Option Payload
  error : Payload → Option (Option String)
  onEvent : List Payload → Option String

inductive Flow where
  | more
  | done
  | thrown (message : String)
  deriving DecidableEq

variable {Payload : Type} (client : Client Payload)

def consumeEvent (delivered : List Payload) (eventText : Text) : List Payload × Flow :=
  let data := List.intercalate [10] (((splitLines eventText).filter (dataField.isPrefixOf ·)).map fieldValue)
  if data = [] then (delivered, .more)
  else if data = doneMark then (delivered, .done)
  else
    match client.parse data with
    | none => (delivered, .thrown "模型 Runtime 串流格式錯誤")
    | some payload =>
      match client.error payload with
      | some message => (delivered, .thrown (message.getD "模型 Runtime 串流失敗"))
      | none =>
        let delivered := delivered ++ [payload]
        match client.onEvent delivered with
        | some message => (delivered, .thrown message)
        | none => (delivered, .more)

/-! ## The stream -/

def slice (text : Text) (first last : Nat) : Text := (text.take last).drop first

/-- Where the loop over the boundaries of a text has come to. -/
structure Progress (Payload : Type) where
  start : Nat
  fragments : List Text
  delivered : List Payload
  flow : Flow

def readEvents (text : Text) (start : Nat) (fragments : List Text) (delivered : List Payload) : Progress Payload :=
  match _h : exec text start with
  | none => ⟨start, fragments, delivered, .more⟩
  | some (index, next) =>
    match consumeEvent client delivered (fragments.flatten ++ slice text start index) with
    | (delivered, .more) => readEvents text next [] delivered
    | (delivered, flow) => ⟨next, [], delivered, flow⟩
termination_by text.length - start
decreasing_by
  obtain ⟨hlt, hle, -⟩ := exec_eq_some _h
  omega

/-- What is kept from one read to the next. -/
structure Pending (Payload : Type) where
  tail : Text
  fragments : List Text
  delivered : List Payload

def readText (s : Pending Payload) (decoded : Text) : Pending Payload × Flow :=
  let text := s.tail ++ decoded
  let p := readEvents client text 0 s.fragments s.delivered
  let split := max p.start (text.length - 3)
  let fragments := if split > p.start then p.fragments ++ [slice text p.start split] else p.fragments
  (⟨text.drop split, fragments, p.delivered⟩, p.flow)

/-- What the listener got, and the error `consume` ends with. -/
structure Outcome (Payload : Type) where
  delivered : List Payload
  error : Option String

def interrupted : String := "模型 Runtime 串流中斷，回答未完成"

def readAll (s : Pending Payload) : List Text → Outcome Payload
  | [] => ⟨s.delivered, some interrupted⟩
  | decoded :: reads =>
    match readText client s decoded with
    | (s, .more) => readAll s reads
    | (s, .done) => ⟨s.delivered, none⟩
    | (s, .thrown message) => ⟨s.delivered, some message⟩

/-- The outcome for the texts that the reads decode, the last of them at the end of the stream. -/
def consume (reads : List Text) : Outcome Payload := readAll client ⟨[], [], []⟩ reads

/-! ## The text as a whole -/

/-- The events that a boundary ends, cut at the leftmost boundary, and then the leftmost in the rest. -/
def wholeEvents (text : Text) : List Text :=
  match _h : find boundary text with
  | none => []
  | some (event, rest) => event :: wholeEvents rest
termination_by text.length
decreasing_by
  have := find_boundary_lt _h
  omega

/-- Events in order, up to the first that is done or throws. -/
def handle (delivered : List Payload) : List Text → Outcome Payload
  | [] => ⟨delivered, some interrupted⟩
  | event :: events =>
    match consumeEvent client delivered event with
    | (delivered, .more) => handle delivered events
    | (delivered, .done) => ⟨delivered, none⟩
    | (delivered, .thrown message) => ⟨delivered, some message⟩

theorem wholeEvents_of_none {text : Text} (h : find boundary text = none) : wholeEvents text = [] := by
  rw [wholeEvents]
  split
  · rfl
  · rename_i hsome
    rw [h] at hsome
    cases hsome

theorem wholeEvents_of_some {text event rest : Text} (h : find boundary text = some (event, rest)) :
    wholeEvents text = event :: wholeEvents rest := by
  rw [wholeEvents]
  split
  · rename_i hnone
    rw [h] at hnone
    cases hnone
  · rename_i hsome
    rw [h] at hsome
    obtain ⟨rfl, rfl⟩ := Prod.mk.inj (Option.some.inj hsome)
    rfl

/-! ## What is kept aside -/

/-- No boundary begins in the text kept aside, however the stream goes on. -/
def Aside (kept text : Text) : Prop :=
  ∀ later, find boundary (kept ++ (text ++ later)) = (find boundary (text ++ later)).map fun (event, rest) => (kept ++ event, rest)

theorem aside_nil (text : Text) : Aside [] text := fun _ => Option.map_id'.symm

theorem Aside.append {kept text : Text} (h : Aside kept text) (more : Text) : Aside kept (text ++ more) := by
  intro later
  rw [List.append_assoc]
  exact h (more ++ later)

/-- Three characters are enough, since a boundary has four at most. -/
theorem aside_of_tail {kept tail : Text} (hnone : find boundary (kept ++ tail) = none) (htail : kept = [] ∨ 3 ≤ tail.length) :
    Aside kept tail := by
  rcases htail with rfl | htail
  · exact aside_nil tail
  intro later
  apply find_append_left
  intro u hne hu
  rw [Option.eq_none_iff_forall_ne_some]
  intro rest hrest
  obtain ⟨w, hw, hword⟩ := boundary_local.word hrest
  have hlength : w.length ≤ (u ++ tail).length := by
    have := (boundary_length hword).2
    have := List.length_pos_of_ne_nil hne
    rw [List.length_append]
    omega
  obtain ⟨v, hv⟩ : w <+: u ++ tail := by
    rw [← List.append_assoc] at hw
    exact List.prefix_of_prefix_length_le ⟨rest, hw.symm⟩ (List.prefix_append _ _) hlength
  have hfound := boundary_local.append (t := v) hword
  obtain ⟨before, rfl⟩ := hu
  rw [hv, find_eq_none_iff.1 hnone _ ⟨before, (List.append_assoc ..).symm⟩] at hfound
  cases hfound

/-! ## One text -/

def Flow.orElse (flow : Flow) (delivered : List Payload) (next : Outcome Payload) : Outcome Payload :=
  match flow with
  | .more => next
  | .done => ⟨delivered, none⟩
  | .thrown message => ⟨delivered, some message⟩

theorem handle_cons (delivered : List Payload) (event : Text) (events : List Text) :
    handle client delivered (event :: events) =
      (consumeEvent client delivered event).2.orElse (consumeEvent client delivered event).1
        (handle client (consumeEvent client delivered event).1 events) := by
  rw [handle]
  obtain ⟨delivered', flow⟩ := consumeEvent client delivered event
  cases flow <;> rfl

theorem readAll_cons (s : Pending Payload) (decoded : Text) (reads : List Text) :
    readAll client s (decoded :: reads) =
      (readText client s decoded).2.orElse (readText client s decoded).1.delivered
        (readAll client (readText client s decoded).1 reads) := by
  rw [readAll]
  obtain ⟨s', flow⟩ := readText client s decoded
  cases flow <;> rfl

/-- The events that end in a text are handled, and the rest of it begins with no other. -/
theorem readEvents_spec (text : Text) (start : Nat) (fragments : List Text) (delivered : List Payload)
    (haside : Aside fragments.flatten (text.drop start)) :
    let p := readEvents client text start fragments delivered
    (p.flow = .more → find boundary (text.drop p.start) = none ∧ (p.fragments = [] ∨ p.start = start ∧ p.fragments = fragments)) ∧
      ∀ later, handle client delivered (wholeEvents (fragments.flatten ++ (text.drop start ++ later))) =
        p.flow.orElse p.delivered
          (handle client p.delivered (wholeEvents (p.fragments.flatten ++ (text.drop p.start ++ later)))) := by
  induction hn : text.length - start using Nat.strong_induction_on generalizing start fragments delivered with
  | _ n ih =>
    rw [readEvents]
    split
    · rename_i hnone
      -- No boundary is left, so all that follows is kept.
      exact ⟨fun _ => ⟨exec_eq_none.1 hnone, .inr ⟨rfl, rfl⟩⟩, fun _ => rfl⟩
    · rename_i index next hsome
      obtain ⟨hlt, hle, hfind⟩ := exec_eq_some hsome
      have hwhole : ∀ later, wholeEvents (fragments.flatten ++ (text.drop start ++ later)) =
          (fragments.flatten ++ slice text start index) :: wholeEvents (text.drop next ++ later) := by
        intro later
        apply wholeEvents_of_some
        rw [haside, boundary_local.find_append_right find_boundary_of_prefix hfind]
        rfl
      split
      · -- The client goes on, and so does the search after the boundary.
        rename_i delivered' hconsumed
        obtain ⟨hend, hrest⟩ := ih _ (by omega) next [] delivered' (aside_nil _) rfl
        refine ⟨fun hmore => ?_, fun later => ?_⟩
        · obtain ⟨hnone, hkept⟩ := hend hmore
          exact ⟨hnone, .inl (hkept.elim id And.right)⟩
        · rw [hwhole, handle_cons, hconsumed]
          exact hrest later
      · -- The client stops, and nothing that follows is read.
        rename_i delivered' flow hstop hconsumed
        refine ⟨fun hmore => absurd hmore hstop, fun later => ?_⟩
        rw [hwhole, handle_cons, hconsumed]
        cases flow with
        | more => exact absurd rfl hstop
        | done => rfl
        | thrown message => rfl

/-! ## All reads -/

/-- Between two reads: what is kept holds no boundary, and its last three characters are at hand. -/
structure Pending.Ready (s : Pending Payload) : Prop where
  none : find boundary (s.fragments.flatten ++ s.tail) = none
  tail : s.fragments.flatten = [] ∨ 3 ≤ s.tail.length

/-- What of a text is put aside and what is kept at hand is all that was left of it. -/
theorem kept_flatten (p : Progress Payload) (text : Text) :
    (if max p.start (text.length - 3) > p.start then p.fragments ++ [slice text p.start (max p.start (text.length - 3))]
      else p.fragments).flatten ++ text.drop (max p.start (text.length - 3)) = p.fragments.flatten ++ text.drop p.start := by
  split
  · rename_i hlt
    rw [List.flatten_append, List.flatten_singleton, List.append_assoc, slice]
    congr 1
    have := List.take_append_drop (max p.start (text.length - 3) - p.start) (text.drop p.start)
    rwa [← List.drop_take, List.drop_drop, Nat.add_sub_cancel' (Nat.le_of_lt hlt)] at this
  · rename_i hge
    rw [Nat.le_antisymm (Nat.le_of_not_lt hge) (Nat.le_max_left _ _)]

theorem readText_spec (s : Pending Payload) (decoded : Text) (hs : s.Ready) :
    ((readText client s decoded).2 = .more → (readText client s decoded).1.Ready) ∧
      ∀ later, handle client s.delivered (wholeEvents (s.fragments.flatten ++ s.tail ++ (decoded ++ later))) =
        (readText client s decoded).2.orElse (readText client s decoded).1.delivered
          (handle client (readText client s decoded).1.delivered
            (wholeEvents ((readText client s decoded).1.fragments.flatten ++ (readText client s decoded).1.tail ++ later))) := by
  have haside : Aside s.fragments.flatten ((s.tail ++ decoded).drop 0) := (aside_of_tail hs.none hs.tail).append decoded
  obtain ⟨hend, hevents⟩ := readEvents_spec client (s.tail ++ decoded) 0 s.fragments s.delivered haside
  rw [readText]
  generalize readEvents client (s.tail ++ decoded) 0 s.fragments s.delivered = p at hend hevents ⊢
  have hkept := kept_flatten p (s.tail ++ decoded)
  refine ⟨fun hmore => ?_, fun later => ?_⟩
  · obtain ⟨hnone, hfragments⟩ := hend hmore
    refine ⟨?_, ?_⟩
    · -- What is kept has no boundary where it meets the rest.
      have hp : Aside p.fragments.flatten ((s.tail ++ decoded).drop p.start) := by
        rcases hfragments with hnil | ⟨hstart, hsame⟩
        · rw [hnil]
          exact aside_nil _
        · rw [hstart, hsame]
          exact haside
      have := hp []
      rw [List.append_nil, hnone] at this
      rw [hkept, this]
      rfl
    · show List.flatten (if _ then _ else _) = [] ∨ 3 ≤ ((s.tail ++ decoded).drop _).length
      rw [List.length_drop]
      split
      · right
        omega
      · rcases hfragments with hnil | ⟨hstart, hsame⟩
        · exact .inl (congrArg List.flatten hnil)
        · rw [hsame]
          refine hs.tail.imp_right fun htail => ?_
          have : s.tail.length ≤ (s.tail ++ decoded).length := by
            rw [List.length_append]
            exact Nat.le_add_right _ _
          omega
  · rw [hkept, List.append_assoc, List.append_assoc, ← List.append_assoc s.tail]
    exact hevents later

theorem readAll_eq (s : Pending Payload) (reads : List Text) (hs : s.Ready) :
    readAll client s reads = handle client s.delivered (wholeEvents (s.fragments.flatten ++ s.tail ++ reads.flatten)) := by
  induction reads generalizing s with
  | nil =>
    rw [List.flatten_nil, List.append_nil, wholeEvents_of_none hs.none]
    rfl
  | cons decoded reads ih =>
    obtain ⟨hready, hevents⟩ := readText_spec client s decoded hs
    rw [readAll_cons, List.flatten_cons, hevents]
    generalize readText client s decoded = read at hready ⊢
    obtain ⟨s', flow⟩ := read
    cases flow with
    | more => exact ih s' (hready rfl)
    | done => rfl
    | thrown message => rfl

/-- Whole events, their boundaries and a rest without one make up the text. -/
theorem wholeEvents_cut (text : Text) :
    ∃ (cuts : List (Text × Text)) (rest : Text), text = (cuts.map fun cut => cut.1 ++ cut.2).flatten ++ rest ∧
      wholeEvents text = cuts.map Prod.fst ∧ (∀ cut ∈ cuts, find boundary cut.1 = none ∧ boundary cut.2 = some []) ∧
      find boundary rest = none := by
  induction hn : text.length using Nat.strong_induction_on generalizing text with
  | _ n ih =>
    cases hfind : find boundary text with
    | none => exact ⟨[], text, rfl, wholeEvents_of_none hfind, by simp, hfind⟩
    | some found =>
      obtain ⟨event, after⟩ := found
      have hlt := find_boundary_lt hfind
      obtain ⟨cuts, rest, hafter, hevents, hcuts, hrest⟩ := ih after.length (by omega) after rfl
      obtain ⟨w, htext, hw, hevent⟩ := boundary_local.of_find hfind
      refine ⟨(event, w) :: cuts, rest, ?_, ?_, List.forall_mem_cons.2 ⟨⟨hevent, hw⟩, hcuts⟩, hrest⟩
      · rw [List.map_cons, List.flatten_cons, List.append_assoc _ _ rest, ← hafter]
        exact htext
      · rw [wholeEvents_of_some hfind, hevents]
        rfl

/-- However the reads cut the stream, its whole events are handled in order, and nothing after the last boundary is. -/
theorem consume_handles_whole_events (reads : List Text) :
    consume client reads = handle client [] (wholeEvents reads.flatten) ∧
      ∃ (cuts : List (Text × Text)) (rest : Text), reads.flatten = (cuts.map fun cut => cut.1 ++ cut.2).flatten ++ rest ∧
        wholeEvents reads.flatten = cuts.map Prod.fst ∧
        (∀ cut ∈ cuts, find boundary cut.1 = none ∧ boundary cut.2 = some []) ∧ find boundary rest = none :=
  ⟨readAll_eq client ⟨[], [], []⟩ reads ⟨rfl, .inl rfl⟩, wholeEvents_cut reads.flatten⟩

end Tanpopo.Chat.Framing
