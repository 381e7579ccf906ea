import Tanpopo.Server.TextFilter
/-!
# Chat completions

A model generates text and tool calls and ends with what it used.
`chatCompletion` answers once everything is there. `streamingChatCompletion`
sends a chunk for each event and stops reading at the first stop string, so
that the two may report different tool calls and reasons.
-/

namespace Tanpopo.Server

open Tanpopo.Search

inductive StopReason
  | length
  | stop
  | cancelled
  deriving DecidableEq

structure Info where
  promptTokenCount : Nat
  generationTokenCount : Nat
  stopReason : StopReason
  deriving DecidableEq

/-- `arguments` is the JSON text of the arguments. -/
structure ToolCall where
  id : Option String
  name : String
  arguments : String
  deriving DecidableEq

/-- What a model generates before the final info. -/
inductive Output (α : Type)
  | chunk (text : List α)
  | toolCall (call : ToolCall)

inductive Event (α : Type)
  | output (o : Output α)
  | info (info : Info)

/-- The `finish_reason` of a model that ended on its own. -/
def StopReason.finishReason : StopReason → String
  | .length => "length"
  | .stop | .cancelled => "stop"

structure Usage where
  promptTokens : Nat
  completionTokens : Nat
  totalTokens : Nat
  deriving DecidableEq

def usageObject (info : Info) : Usage where
  promptTokens := info.promptTokenCount
  completionTokens := info.generationTokenCount
  totalTokens := info.promptTokenCount + info.generationTokenCount

/-- A tool call as the client sees it. A call without an id gets a fresh one. -/
structure OpenAIToolCall where
  id : Option String
  name : String
  arguments : String
  deriving DecidableEq

def openAIToolCalls (calls : List ToolCall) : List OpenAIToolCall :=
  calls.map fun call => ⟨call.id, call.name, call.arguments⟩

variable {α : Type} [DecidableEq α]

/-! ## Not streaming -/

structure GenerationResult (α : Type) where
  text : List α
  promptTokens : Nat
  completionTokens : Nat
  finishReason : String
  toolCalls : List ToolCall

/-- What the loop of `generate` collects. -/
def GenerationResult.next (r : GenerationResult α) : Event α → GenerationResult α
  | .output (.chunk text) => { r with text := r.text ++ text }
  | .output (.toolCall call) => { r with toolCalls := r.toolCalls ++ [call], finishReason := "tool_calls" }
  | .info info =>
    { r with
      promptTokens := info.promptTokenCount
      completionTokens := info.generationTokenCount
      finishReason := info.stopReason.finishReason }

def collect (events : List (Event α)) : GenerationResult α := events.foldl GenerationResult.next ⟨[], 0, 0, "stop", []⟩

def generate (stops : List (List α)) (events : List (Event α)) : GenerationResult α :=
  let r := collect events
  let r := if r.toolCalls ≠ [] then { r with finishReason := "tool_calls" } else r
  match firstStop r.text stops with
  | some stop => { r with text := r.text.take stop, finishReason := "stop" }
  | none => r

/-- The message of a whole answer; `content` is null for tool calls without text. -/
structure Completion (α : Type) where
  content : Option (List α)
  toolCalls : List OpenAIToolCall
  finishReason : String
  usage : Usage

def chatCompletion (stops : List (List α)) (events : List (Event α)) : Completion α :=
  let result := generate stops events
  let toolCalls := openAIToolCalls result.toolCalls
  { content := if toolCalls ≠ [] ∧ result.text = [] then none else some result.text
    toolCalls
    finishReason := if toolCalls = [] then result.finishReason else "tool_calls"
    usage := ⟨result.promptTokens, result.completionTokens, result.promptTokens + result.completionTokens⟩ }

/-! ## Streaming -/

inductive Delta (α : Type)
  | role
  | content (text : List α)
  | toolCall (index : Nat) (call : OpenAIToolCall)
  | final (finishReason : String) (usage : Option Usage)
  | done

def contentChunk (text : List α) : List (Delta α) := if text.isEmpty then [] else [.content text]

/-- The filter after `flush`. -/
def StreamingTextFilter.flushed (f : StreamingTextFilter α) : StreamingTextFilter α :=
  if f.didStop then f else { f with buffer := [] }

/-- What is sent once no more events are read. -/
def finishStream (f : StreamingTextFilter α) (finishReason : String) (usage : Option Usage) : List (Delta α) :=
  contentChunk f.flush ++ [.final finishReason usage, .done]

def streamEvents (f : StreamingTextFilter α) (finishReason : String) (usage : Option Usage) (toolCallIndex : Nat) :
    List (Event α) → List (Delta α)
  | [] => finishStream f finishReason usage
  | .output (.chunk text) :: events =>
    let filtered := f.append text
    contentChunk filtered.1.1 ++
      if filtered.1.2 then finishStream filtered.2 "stop" usage
      else streamEvents filtered.2 finishReason usage toolCallIndex events
  | .output (.toolCall call) :: events =>
    contentChunk f.flush ++ (openAIToolCalls [call]).map (.toolCall toolCallIndex) ++
      streamEvents f.flushed "tool_calls" usage (toolCallIndex + 1) events
  | .info info :: events =>
    let finishReason := if finishReason ≠ "tool_calls" then info.stopReason.finishReason else finishReason
    streamEvents f finishReason (some (usageObject info)) toolCallIndex events

def streamingChatCompletion (stops : List (List α)) (events : List (Event α)) : List (Delta α) :=
  .role :: streamEvents (.init stops) "stop" none 0 events

/-! ## What the client sees of a stream -/

def Delta.call : Delta α → Option OpenAIToolCall
  | .toolCall _ call => some call
  | _ => none

def Delta.reason : Delta α → Option String
  | .final finishReason _ => some finishReason
  | _ => none

def sentCalls (deltas : List (Delta α)) : List OpenAIToolCall := deltas.filterMap Delta.call

/-- The `finish_reason`s that were sent. -/
def sentReasons (deltas : List (Delta α)) : List String := deltas.filterMap Delta.reason

/-- A whole generation: text and tool calls, then the info. -/
def generation (body : List (Output α)) (info : Info) : List (Event α) := body.map .output ++ [.info info]

def callsOf (body : List (Output α)) : List ToolCall :=
  body.filterMap fun | .toolCall call => some call | .chunk _ => none

def textOf (body : List (Output α)) : List α :=
  body.flatMap fun | .chunk text => text | .toolCall _ => []

/-- The texts between the tool calls; `shown` is before the rest. -/
def segmentsFrom (shown : List α) : List (Output α) → List (List α)
  | [] => [shown]
  | .chunk text :: body => segmentsFrom (shown ++ text) body
  | .toolCall _ :: body => shown :: segmentsFrom [] body

def segments (body : List (Output α)) : List (List α) := segmentsFrom [] body

/-- A stop string is in one of the texts. -/
def Stops (stops : List (List α)) (texts : List (List α)) : Prop := ∃ text ∈ texts, ∃ i, AnyAt stops text i

/-! ## The finished answer -/

omit [DecidableEq α] in
theorem foldl_next (body : List (Output α)) (r : GenerationResult α) :
    ((body.map Event.output).foldl GenerationResult.next r).toolCalls = r.toolCalls ++ callsOf body ∧
    ((body.map Event.output).foldl GenerationResult.next r).text = r.text ++ textOf body := by
  induction body generalizing r with
  | nil => exact ⟨(List.append_nil _).symm, (List.append_nil _).symm⟩
  | cons o body ih =>
    cases o with
    | chunk text =>
      obtain ⟨hcalls, htext⟩ := ih { r with text := r.text ++ text }
      refine ⟨hcalls, htext.trans ?_⟩
      rw [List.append_assoc]
      rfl
    | toolCall call =>
      obtain ⟨hcalls, htext⟩ := ih { r with toolCalls := r.toolCalls ++ [call], finishReason := "tool_calls" }
      refine ⟨hcalls.trans ?_, htext⟩
      rw [List.append_assoc]
      rfl

omit [DecidableEq α] in
/-- The loop collects every tool call and all of the text, and the reason is that of the info. -/
theorem collect_generation (body : List (Output α)) (info : Info) :
    (collect (generation body info)).toolCalls = callsOf body ∧ (collect (generation body info)).text = textOf body ∧
      (collect (generation body info)).finishReason = info.stopReason.finishReason := by
  obtain ⟨hcalls, htext⟩ := foldl_next body ⟨[], 0, 0, "stop", []⟩
  rw [collect, generation, List.foldl_append]
  exact ⟨hcalls, htext, rfl⟩

theorem chatCompletion_toolCalls (stops : List (List α)) (body : List (Output α)) (info : Info) :
    (chatCompletion stops (generation body info)).toolCalls = openAIToolCalls (callsOf body) := by
  obtain ⟨hcalls, -, -⟩ := collect_generation body info
  simp only [chatCompletion, generate]
  rw [← hcalls]
  split <;> split <;> rfl

theorem openAIToolCalls_eq_nil {calls : List ToolCall} : openAIToolCalls calls = [] ↔ calls = [] := List.map_eq_nil_iff

/-- Tool calls come first, then a stop string, then the reason of the model. -/
theorem chatCompletion_finishReason (stops : List (List α)) (body : List (Output α)) (info : Info) :
    (chatCompletion stops (generation body info)).finishReason =
      if callsOf body ≠ [] then "tool_calls"
      else if (firstStop (textOf body) stops).isSome then "stop" else info.stopReason.finishReason := by
  have htoolCalls := chatCompletion_toolCalls stops body info
  obtain ⟨hcalls, htext, hreason⟩ := collect_generation body info
  have hfinish : (chatCompletion stops (generation body info)).finishReason =
      if (chatCompletion stops (generation body info)).toolCalls = [] then
        (generate stops (generation body info)).finishReason else "tool_calls" := rfl
  rw [hfinish, htoolCalls]
  by_cases hnil : callsOf body = []
  · rw [if_pos (openAIToolCalls_eq_nil.2 hnil), if_neg (not_not.2 hnil)]
    simp only [generate, hcalls, hnil, ne_eq, not_true_eq_false, if_false, htext]
    cases firstStop (textOf body) stops with
    | none => exact hreason
    | some => rfl
  · rw [if_neg (mt openAIToolCalls_eq_nil.1 hnil), if_pos hnil]

/-! ## The stream -/

omit [DecidableEq α] in
theorem StreamingTextFilter.Holding.flushed {f : StreamingTextFilter α} {shown emitted : List α}
    (h : f.Holding shown emitted) : f.flushed.stops = f.stops ∧ f.flushed.Holding [] [] := by
  rw [StreamingTextFilter.flushed, if_neg (by rw [h.running]; exact Bool.false_ne_true)]
  exact ⟨rfl, h.running, rfl, fun _ hj => absurd hj.lt_length (Nat.not_lt_zero _), .inl rfl⟩

omit [DecidableEq α] in
theorem sentCalls_contentChunk (text : List α) : sentCalls (contentChunk text) = [] := by
  unfold contentChunk
  split <;> rfl

omit [DecidableEq α] in
theorem sentReasons_contentChunk (text : List α) : sentReasons (contentChunk text) = [] := by
  unfold contentChunk
  split <;> rfl

omit [DecidableEq α] in
theorem sentCalls_append (a b : List (Delta α)) : sentCalls (a ++ b) = sentCalls a ++ sentCalls b := List.filterMap_append

omit [DecidableEq α] in
theorem sentReasons_append (a b : List (Delta α)) : sentReasons (a ++ b) = sentReasons a ++ sentReasons b :=
  List.filterMap_append

omit [DecidableEq α] in
theorem sent_finishStream (f : StreamingTextFilter α) (finishReason : String) (usage : Option Usage) :
    sentCalls (finishStream f finishReason usage) = [] ∧ sentReasons (finishStream f finishReason usage) = [finishReason] := by
  rw [finishStream, sentCalls_append, sentReasons_append, sentCalls_contentChunk, sentReasons_contentChunk]
  exact ⟨rfl, rfl⟩

/-- The reason that is sent when no stop string ends the stream. -/
def finalReason (finishReason : String) (calls : List ToolCall) (info : Info) : String :=
  if calls ≠ [] ∨ finishReason = "tool_calls" then "tool_calls" else info.stopReason.finishReason

/-- What a stream sends: everything when no stop string is in the texts between
the tool calls, otherwise some of the calls and the reason "stop". -/
structure Sends (stops : List (List α)) (finishReason : String) (shown : List α) (body : List (Output α)) (info : Info)
    (deltas : List (Delta α)) : Prop where
  all : ¬ Stops stops (segmentsFrom shown body) → sentCalls deltas = openAIToolCalls (callsOf body) ∧
    sentReasons deltas = [finalReason finishReason (callsOf body) info]
  stopped : Stops stops (segmentsFrom shown body) → (sentCalls deltas).length ≤ (callsOf body).length ∧
    sentReasons deltas = ["stop"]

omit [DecidableEq α] in
/-- The text shown so far is in the first segment. -/
theorem stops_of_shown {stops : List (List α)} {shown : List α} (body : List (Output α)) {i : Nat}
    (h : AnyAt stops shown i) : Stops stops (segmentsFrom shown body) := by
  induction body generalizing shown with
  | nil => exact ⟨shown, List.mem_singleton_self _, i, h⟩
  | cons o body ih =>
    cases o with
    | chunk text => exact ih (h.append text)
    | toolCall => exact ⟨shown, List.mem_cons_self, i, h⟩

omit [DecidableEq α] in
theorem stops_cons {stops : List (List α)} {shown : List α} {texts : List (List α)} (hnone : ∀ i, ¬ AnyAt stops shown i) :
    Stops stops (shown :: texts) ↔ Stops stops texts := by
  constructor
  · rintro ⟨text, hmem, i, hi⟩
    rcases List.mem_cons.1 hmem with rfl | hmem
    · exact absurd hi (hnone i)
    · exact ⟨text, hmem, i, hi⟩
  · rintro ⟨text, hmem, hi⟩
    exact ⟨text, List.mem_cons_of_mem _ hmem, hi⟩

section
variable {f : StreamingTextFilter α} {shown emitted : List α} {finishReason : String} {usage : Option Usage} {index : Nat}
  {body : List (Output α)} {info : Info}

/-- The info decides the reason unless there were tool calls. -/
theorem sends_info (h : f.Holding shown emitted) :
    Sends f.stops finishReason shown [] info (streamEvents f finishReason usage index (generation [] info)) := by
  obtain ⟨hcalls, hreasons⟩ := sent_finishStream f
    (if finishReason ≠ "tool_calls" then info.stopReason.finishReason else finishReason) (some (usageObject info))
  constructor
  · refine fun _ => ⟨hcalls, hreasons.trans ?_⟩
    by_cases htool : finishReason = "tool_calls"
    · rw [if_neg (not_not.2 htool), finalReason, if_pos (.inr htool), htool]
    · rw [if_pos htool, finalReason, if_neg]
      rintro (hne | heq)
      · exact hne rfl
      · exact htool heq
  · rintro ⟨text, hmem, i, hi⟩
    rw [List.mem_singleton.1 hmem] at hi
    exact absurd hi (h.none i)

/-- A chunk that completes a stop string is the last. -/
theorem sends_stop (h : f.Holding shown emitted) {text : List α} {j : Nat} (hj : AnyAt f.stops (shown ++ text) j) :
    Sends f.stops finishReason shown (.chunk text :: body) info
      (streamEvents f finishReason usage index (generation (.chunk text :: body) info)) := by
  obtain ⟨i, hi⟩ := hj.exists_isLeast
  obtain ⟨f', -, -, hstopped, -⟩ := h.append_of_isLeast hi
  have hstops : Stops f.stops (segmentsFrom shown (.chunk text :: body)) := stops_of_shown body hj
  have hstream : streamEvents f finishReason usage index (generation (.chunk text :: body) info) =
      contentChunk (f.append text).1.1 ++ finishStream (f.append text).2 "stop" usage := by
    show contentChunk _ ++ (if (f.append text).1.2 then _ else _) = _
    rw [if_pos hstopped]
  obtain ⟨hcalls, hreasons⟩ := sent_finishStream (f.append text).2 "stop" usage
  refine ⟨fun hnone => absurd hstops hnone, fun _ => ?_⟩
  rw [hstream, sentCalls_append, sentReasons_append, sentCalls_contentChunk, sentReasons_contentChunk, hcalls, hreasons]
  exact ⟨Nat.zero_le _, rfl⟩

/-- Any other chunk leaves the calls and the reason to the rest. -/
theorem sends_chunk (h : f.Holding shown emitted) {text : List α} (hnone : ∀ j, ¬ AnyAt f.stops (shown ++ text) j)
    (hrest : Sends f.stops finishReason (shown ++ text) body info
      (streamEvents (f.append text).2 finishReason usage index (generation body info))) :
    Sends f.stops finishReason shown (.chunk text :: body) info
      (streamEvents f finishReason usage index (generation (.chunk text :: body) info)) := by
  obtain ⟨hrunning, -, -⟩ := h.append_of_none hnone
  have hstream : streamEvents f finishReason usage index (generation (.chunk text :: body) info) =
      contentChunk (f.append text).1.1 ++ streamEvents (f.append text).2 finishReason usage index (generation body info) := by
    show contentChunk _ ++ (if (f.append text).1.2 = true then _ else _) = _
    rw [if_neg (by rw [hrunning]; exact Bool.false_ne_true)]
    rfl
  constructor
  · intro hall
    rw [hstream, sentCalls_append, sentReasons_append, sentCalls_contentChunk, sentReasons_contentChunk]
    exact hrest.all hall
  · intro hstops
    rw [hstream, sentCalls_append, sentReasons_append, sentCalls_contentChunk, sentReasons_contentChunk]
    exact hrest.stopped hstops

/-- A tool call ends a segment of the text; what is shown starts anew. -/
theorem sends_toolCall (h : f.Holding shown emitted) {call : ToolCall}
    (hrest : Sends f.stops "tool_calls" [] body info
      (streamEvents f.flushed "tool_calls" usage (index + 1) (generation body info))) :
    Sends f.stops finishReason shown (.toolCall call :: body) info
      (streamEvents f finishReason usage index (generation (.toolCall call :: body) info)) := by
  have hstream : streamEvents f finishReason usage index (generation (.toolCall call :: body) info) =
      contentChunk f.flush ++ (openAIToolCalls [call]).map (Delta.toolCall index) ++
        streamEvents f.flushed "tool_calls" usage (index + 1) (generation body info) := rfl
  have hcalls : sentCalls (contentChunk f.flush ++ (openAIToolCalls [call]).map (Delta.toolCall index)) =
      openAIToolCalls [call] := by
    rw [sentCalls_append, sentCalls_contentChunk]
    rfl
  have hreasons : sentReasons (contentChunk f.flush ++ (openAIToolCalls [call]).map (Delta.toolCall index)) = [] := by
    rw [sentReasons_append, sentReasons_contentChunk]
    rfl
  have hsegments : Stops f.stops (segmentsFrom shown (.toolCall call :: body)) ↔ Stops f.stops (segmentsFrom [] body) :=
    stops_cons h.none
  constructor
  · intro hall
    obtain ⟨hrestCalls, hrestReasons⟩ := hrest.all (mt hsegments.2 hall)
    rw [hstream, sentCalls_append, sentReasons_append, hcalls, hreasons, hrestCalls, hrestReasons]
    refine ⟨rfl, ?_⟩
    rw [finalReason, finalReason, if_pos (.inr rfl), if_pos (.inl (List.cons_ne_nil _ _))]
    rfl
  · intro hstops
    obtain ⟨hrestCalls, hrestReasons⟩ := hrest.stopped (hsegments.1 hstops)
    rw [hstream, sentCalls_append, sentReasons_append, hcalls, hreasons, hrestReasons, List.length_append]
    refine ⟨?_, rfl⟩
    show 1 + _ ≤ (callsOf body).length + 1
    omega

theorem streamEvents_sends (h : f.Holding shown emitted) (finishReason : String) (usage : Option Usage) (index : Nat)
    (body : List (Output α)) (info : Info) :
    Sends f.stops finishReason shown body info (streamEvents f finishReason usage index (generation body info)) := by
  induction body generalizing f shown emitted finishReason index with
  | nil => exact sends_info h
  | cons o body ih =>
    cases o with
    | chunk text =>
      by_cases hstop : ∃ j, AnyAt f.stops (shown ++ text) j
      · obtain ⟨j, hj⟩ := hstop
        exact sends_stop h hj
      · have hnone := fun j hj => hstop ⟨j, hj⟩
        obtain ⟨-, hstops, hnext⟩ := h.append_of_none hnone
        exact sends_chunk h hnone (hstops ▸ ih hnext finishReason index)
    | toolCall call =>
      obtain ⟨hstops, hnext⟩ := h.flushed
      exact sends_toolCall h (hstops ▸ ih hnext "tool_calls" (index + 1))

end

/-! ## The two answers -/

omit [DecidableEq α] in
theorem stops_filter {stops : List (List α)} {texts : List (List α)} :
    Stops (stops.filter (· ≠ [])) texts ↔ Stops stops texts :=
  exists_congr fun _ => and_congr_right fun _ => exists_congr fun _ => StreamingTextFilter.anyAt_filter

theorem streaming_sends (stops : List (List α)) (body : List (Output α)) (info : Info) :
    Sends stops "stop" [] body info (streamingChatCompletion stops (generation body info)) := by
  have h := streamEvents_sends (StreamingTextFilter.init_holding stops) "stop" none 0 body info
  exact ⟨fun hall => h.all (mt stops_filter.1 hall), fun hstops => h.stopped (stops_filter.2 hstops)⟩

omit [DecidableEq α] in
/-- Without tool calls the text is one segment. -/
theorem segmentsFrom_of_no_calls {body : List (Output α)} (h : callsOf body = []) (shown : List α) :
    segmentsFrom shown body = [shown ++ textOf body] := by
  induction body generalizing shown with
  | nil => exact congrArg (fun t => [t]) (List.append_nil shown).symm
  | cons o body ih =>
    cases o with
    | chunk text =>
      refine (ih h (shown ++ text)).trans ?_
      rw [List.append_assoc]
      rfl
    | toolCall => nomatch h

theorem firstStop_isSome {stops : List (List α)} {text : List α} :
    (firstStop text stops).isSome = true ↔ ∃ i, AnyAt stops text i := by
  constructor
  · intro hsome
    obtain ⟨i, hi⟩ := Option.isSome_iff_exists.1 hsome
    exact ⟨i, (firstStop_eq_some.1 hi).1⟩
  · rintro ⟨i, hi⟩
    obtain ⟨j, hj⟩ := hi.exists_isLeast
    rw [firstStop_eq_some.2 hj, Option.isSome_some]

/-- The stream reports what the finished answer reports. -/
def SameReport (deltas : List (Delta α)) (completion : Completion α) : Prop :=
  sentCalls deltas = completion.toolCalls ∧ sentReasons deltas = [completion.finishReason]

end Tanpopo.Server
