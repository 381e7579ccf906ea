import Tanpopo.Lib.Runs
import Mathlib
/-!
# The HTTP/1 handler of one connection

Requests of a connection wait in a queue and are answered one at a time. The
event loop, the task of the request, the task that writes a streamed response
and the repeated heartbeat run side by side; each step below is one turn of one
of them. A part counts as written when it is handed to the open channel; what
reaches the client is a prefix of that. Requests are numbered in the order they
start, in place of UUIDs.
-/

namespace Tanpopo.Server.Pipeline

structure RequestHead where
  method : String
  uri : String
  version : String
  headers : List (String × String)
  isKeepAlive : Bool

structure RequestState where
  head : RequestHead
  body : List UInt8
  tooLarge : Bool

inductive ResponseBody where
  | data (bytes : List UInt8)
  | stream

structure HTTPResponse where
  status : Nat
  headers : List (String × String)
  body : ResponseBody

structure ResponseHead where
  version : String
  status : Nat
  headers : List (String × String)

/-- A part of a response, with the number of the request it answers. -/
inductive ResponsePart where
  | head (id : Nat) (head : ResponseHead)
  | body (id : Nat) (bytes : List UInt8)
  | finish (id : Nat)

/-- How far the task that writes a streamed response has come. -/
inductive StreamPhase where
  | idle
  | reading
  /-- A body is on its way to the event loop. -/
  | submitting (bytes : List UInt8) (interrupted : Bool)
  /-- The write of the body is not complete yet. -/
  | writing (interrupted : Bool)
  /-- A write failed; the error message follows. -/
  | interrupted
  /-- The stream is over; the end follows. -/
  | ended
  | writingEnd
  /-- `finishRequest` is on its way to the event loop. -/
  | leaving
  | done
  deriving DecidableEq

def StreamPhase.beforeEnd : StreamPhase → Bool
  | .reading | .submitting _ _ | .writing _ | .interrupted | .ended => true
  | .idle | .writingEnd | .leaving | .done => false

/-- What runs outside the handler for one request. -/
structure Work where
  /-- The task that computes the response. -/
  task : Bool
  stream : StreamPhase
  streamCancelled : Bool
  heartbeat : Bool
  /-- The end of a whole response is written and not yet complete. -/
  dataEnd : Bool

def Work.none : Work := ⟨false, .idle, false, false, false⟩

/-- The fields of the handler, the channel, and what runs for each request.
`started` and `received` list the requests so far. -/
structure Connection where
  maximumRequestBytes : Nat
  state : Option RequestState
  pendingRequests : List RequestState
  pendingBodyBytes : Nat
  isClosing : Bool
  requestTask : Option Nat
  responseStreamTask : Option Nat
  responseHeartbeat : Option Nat
  requestID : Option Nat
  requestCancellation : Option Nat
  isActive : Bool
  work : Nat → Work
  started : List RequestState
  received : List RequestState
  written : List ResponsePart

def maximumPendingRequests : Nat := 4

def keepAliveComment : List UInt8 := ": keep-alive\n\n".toUTF8.toList

def interruptedMessage : List UInt8 :=
  "data: \x7b\"error\":\x7b\"message\":\"stream interrupted\"\x7d\x7d\n\n".toUTF8.toList

namespace Connection

def open_ (maximumRequestBytes : Nat) : Connection where
  maximumRequestBytes := maximumRequestBytes
  state := none
  pendingRequests := []
  pendingBodyBytes := 0
  isClosing := false
  requestTask := none
  responseStreamTask := none
  responseHeartbeat := none
  requestID := none
  requestCancellation := none
  isActive := true
  work _ := .none
  started := []
  received := []
  written := []

def setWork (c : Connection) (id : Nat) (work : Work) : Connection := { c with work := Function.update c.work id work }

def setStream (c : Connection) (id : Nat) (stream : StreamPhase) : Connection :=
  c.setWork id { c.work id with stream }

def close (c : Connection) : Connection := { c with isActive := false }

/-- Hand a part to the channel. A closed channel drops it. -/
def write (c : Connection) (part : ResponsePart) : Connection :=
  if c.isActive then { c with written := c.written ++ [part] } else c

def cancelHeartbeat (c : Connection) : Connection :=
  { c with
    responseHeartbeat := none
    work := fun id => { c.work id with heartbeat := (c.work id).heartbeat && c.responseHeartbeat ≠ some id } }

def cancelStream (c : Connection) : Connection :=
  { c with
    responseStreamTask := none
    work := fun id => { c.work id with
      streamCancelled := (c.work id).streamCancelled || c.responseStreamTask = some id } }

def cancelActiveRequest (c : Connection) : Connection :=
  { c.cancelHeartbeat.cancelStream with
    isClosing := true
    state := none
    pendingRequests := []
    pendingBodyBytes := 0
    requestCancellation := none
    requestID := none
    requestTask := none }

def startNextRequest (c : Connection) : Connection :=
  if !c.isClosing && c.isActive && c.requestID.isNone then
    match c.pendingRequests with
    | [] => c
    | current :: rest =>
      let id := c.started.length
      { c with
        pendingRequests := rest
        pendingBodyBytes := c.pendingBodyBytes - current.body.length
        requestID := some id
        requestCancellation := some id
        requestTask := some id
        started := c.started ++ [current]
        work := Function.update c.work id { Work.none with task := true } }
  else c

def readHead (c : Connection) (head : RequestHead) : Connection :=
  if c.isClosing then c
  else if c.pendingRequests.length < maximumPendingRequests then
    { c with state := some { head, body := [], tooLarge := false } }
  else c.cancelActiveRequest.close

def readBody (c : Connection) (buffer : List UInt8) : Connection :=
  if c.isClosing then c
  else match c.state with
    | none => c
    | some current =>
      if current.tooLarge then c
      else if current.body.length + buffer.length > c.maximumRequestBytes then
        { c with state := some { current with tooLarge := true, body := [] } }
      else if c.pendingBodyBytes + current.body.length + buffer.length > c.maximumRequestBytes then
        c.cancelActiveRequest.close
      else { c with state := some { current with body := current.body ++ buffer } }

def readEnd (c : Connection) : Connection :=
  if c.isClosing then c
  else match c.state with
    | none => c
    | some current =>
      startNextRequest { c with
        state := none
        pendingRequests := c.pendingRequests ++ [current]
        pendingBodyBytes := c.pendingBodyBytes + current.body.length
        received := c.received ++ [current] }

def finishRequest (c : Connection) (id : Nat) (keepAlive : Bool) : Connection :=
  if c.requestID = some id then
    let c := { c.cancelHeartbeat with
      requestID := none, requestCancellation := none, requestTask := none, responseStreamTask := none }
    if keepAlive && c.isActive then c.startNextRequest else c.cancelActiveRequest.close
  else c

def writeHeartbeat (c : Connection) (id : Nat) (isWritable : Bool) : Connection :=
  if c.requestID = some id ∧ c.isActive ∧ isWritable then c.write (.body id keepAliveComment) else c

def replaceOrAdd (headers : List (String × String)) (name value : String) : List (String × String) :=
  headers.filter (fun header => header.1.toLower ≠ name.toLower) ++ [(name, value)]

def responseHead (response : HTTPResponse) (version : String) (keepAlive : Bool) : ResponseHead :=
  let headers := replaceOrAdd response.headers "Connection" (if keepAlive then "keep-alive" else "close")
  let framing := match response.body with
    | .data bytes => ("Content-Length", toString bytes.length)
    | .stream => ("Transfer-Encoding", "chunked")
  { version, status := response.status, headers := headers ++ [framing] }

/-- Write a whole response, or the head of a streamed one with its first heartbeat. -/
def writeResponse (c : Connection) (id : Nat) (current : RequestState) (response : HTTPResponse) (isWritable : Bool) :
    Connection :=
  let c := c.write (.head id (responseHead response current.head.version current.head.isKeepAlive))
  match response.body with
  | .data bytes =>
    let c := if bytes.isEmpty then c else c.write (.body id bytes)
    (c.write (.finish id)).setWork id { c.work id with dataEnd := true }
  | .stream =>
    let c := (c.writeHeartbeat id isWritable).cancelStream
    let c := { c with responseHeartbeat := some id, responseStreamTask := some id }
    c.setWork id { c.work id with heartbeat := true, stream := .reading }

/-- The task of a request hands its response to the event loop. -/
def respond (c : Connection) (id : Nat) (current : RequestState) (response : HTTPResponse) (isWritable : Bool) :
    Connection :=
  let c := c.setWork id { c.work id with task := false }
  if c.requestID = some id ∧ c.isActive then { c with requestTask := none }.writeResponse id current response isWritable
  else c

def dataEndComplete (c : Connection) (id : Nat) (keepAlive success : Bool) : Connection :=
  let c := c.setWork id { c.work id with dataEnd := false }
  if success then c.finishRequest id keepAlive else c.cancelActiveRequest.close

/-- The repeated task fires. -/
def heartbeatTick (c : Connection) (id : Nat) (isWritable : Bool) : Connection :=
  if c.requestID = some id ∧ c.isActive then c.writeHeartbeat id isWritable
  else c.setWork id { c.work id with heartbeat := false }

def heartbeatFailed (c : Connection) (id : Nat) : Connection :=
  if c.requestID = some id then c.cancelActiveRequest.close else c

/-- Stopping the heartbeat and writing the end is one turn of the event loop. -/
def streamEnd (c : Connection) (id : Nat) : Connection :=
  if c.requestID = some id ∧ c.isActive then (c.cancelHeartbeat.write (.finish id)).setStream id .writingEnd
  else c.setStream id .leaving

end Connection

/-- One turn of the event loop or of a task. -/
inductive HTTPEvent where
  | head (head : RequestHead)
  | body (buffer : List UInt8)
  | finish
  | respond (id : Nat) (response : HTTPResponse) (isWritable : Bool)
  | dataEndComplete (id : Nat) (success : Bool)
  | heartbeat (id : Nat) (isWritable : Bool)
  | heartbeatFailed (id : Nat)
  | streamItem (id : Nat) (bytes : List UInt8)
  | streamOver (id : Nat)
  | streamCancelled (id : Nat)
  | streamWrite (id : Nat)
  | streamWritten (id : Nat) (success : Bool)
  | streamInterrupted (id : Nat)
  | streamEnd (id : Nat)
  | streamEndSkipped (id : Nat)
  | streamEndWritten (id : Nat) (success : Bool)
  | streamLeave (id : Nat)
  | disconnect
  | channelInactive
  | handlerRemoved
  | errorCaught

open Connection in
/-- The turns that can happen. -/
inductive HTTPStep : Connection → HTTPEvent → Connection → Prop
  | head {c h} : HTTPStep c (.head h) (c.readHead h)
  | body {c buffer} : HTTPStep c (.body buffer) (c.readBody buffer)
  | finish {c} : HTTPStep c .finish c.readEnd
  | respond {c id current response isWritable} (htask : (c.work id).task = true) (hcurrent : c.started[id]? = some current) :
      HTTPStep c (.respond id response isWritable) (c.respond id current response isWritable)
  | dataEndComplete {c id current success} (hend : (c.work id).dataEnd = true) (hcurrent : c.started[id]? = some current) :
      HTTPStep c (.dataEndComplete id success) (c.dataEndComplete id current.head.isKeepAlive success)
  | heartbeat {c id isWritable} (hscheduled : (c.work id).heartbeat = true) :
      HTTPStep c (.heartbeat id isWritable) (c.heartbeatTick id isWritable)
  | heartbeatFailed {c id} : HTTPStep c (.heartbeatFailed id) (c.heartbeatFailed id)
  | streamItem {c id bytes} (hphase : (c.work id).stream = .reading) (hcancelled : (c.work id).streamCancelled = false)
      (hbytes : bytes ≠ []) : HTTPStep c (.streamItem id bytes) (c.setStream id (.submitting bytes false))
  | streamEmpty {c id} (hphase : (c.work id).stream = .reading) : HTTPStep c (.streamItem id []) c
  | streamOver {c id} (hphase : (c.work id).stream = .reading) : HTTPStep c (.streamOver id) (c.setStream id .ended)
  | streamCancelled {c id} (hphase : (c.work id).stream = .reading) (hcancelled : (c.work id).streamCancelled = true) :
      HTTPStep c (.streamCancelled id) (c.setStream id .leaving)
  | streamWrite {c id bytes interrupted} (hphase : (c.work id).stream = .submitting bytes interrupted) :
      HTTPStep c (.streamWrite id) ((c.write (.body id bytes)).setStream id (.writing interrupted))
  | streamWritten {c id} (hphase : (c.work id).stream = .writing false) :
      HTTPStep c (.streamWritten id true) (c.setStream id .reading)
  | streamWriteFailed {c id} (hphase : (c.work id).stream = .writing false) :
      HTTPStep c (.streamWritten id false) (c.setStream id .interrupted)
  | streamMessageWritten {c id success} (hphase : (c.work id).stream = .writing true) :
      HTTPStep c (.streamWritten id success) (c.setStream id .ended)
  | streamInterrupted {c id} (hphase : (c.work id).stream = .interrupted) :
      HTTPStep c (.streamInterrupted id) (c.setStream id (.submitting interruptedMessage true))
  | streamInterruptedInactive {c id} (hphase : (c.work id).stream = .interrupted) (hactive : c.isActive = false) :
      HTTPStep c (.streamInterrupted id) (c.setStream id .ended)
  | streamEnd {c id} (hphase : (c.work id).stream = .ended) : HTTPStep c (.streamEnd id) (c.streamEnd id)
  | streamEndSkipped {c id} (hphase : (c.work id).stream = .ended) (hactive : c.isActive = false) :
      HTTPStep c (.streamEndSkipped id) (c.setStream id .leaving)
  | streamEndWritten {c id success} (hphase : (c.work id).stream = .writingEnd) :
      HTTPStep c (.streamEndWritten id success) (c.setStream id .leaving)
  | streamLeave {c id current} (hphase : (c.work id).stream = .leaving) (hcurrent : c.started[id]? = some current) :
      HTTPStep c (.streamLeave id) ((c.setStream id .done).finishRequest id current.head.isKeepAlive)
  | disconnect {c} : HTTPStep c .disconnect c.close
  | channelInactive {c} (hactive : c.isActive = false) : HTTPStep c .channelInactive c.cancelActiveRequest
  | handlerRemoved {c} (hactive : c.isActive = false) : HTTPStep c .handlerRemoved c.cancelActiveRequest
  | errorCaught {c} : HTTPStep c .errorCaught c.cancelActiveRequest.close

/-! ## The invariant -/

/-- `Responses parts n inside`: the parts are the responses to the first `n`
requests, each a head, bodies and an end, and `inside` those the head and some
bodies of the next. -/
inductive Responses : List ResponsePart → Nat → Bool → Prop
  | nil : Responses [] 0 false
  | head {parts n} (head : ResponseHead) : Responses parts n false → Responses (parts ++ [.head n head]) n true
  | body {parts n} (bytes : List UInt8) : Responses parts n true → Responses (parts ++ [.body n bytes]) n true
  | finish {parts n} : Responses parts n true → Responses (parts ++ [.finish n]) (n + 1) false

/-- Nothing runs for a request that is not active. -/
structure Work.Idle (work : Work) : Prop where
  task : work.task = false
  stream : work.stream = .idle ∨ work.stream = .done
  heartbeat : work.heartbeat = false
  dataEnd : work.dataEnd = false

/-- What runs for the active request, and the parts written when its response stands there. -/
inductive Stage (work : Work) (id : Nat) : Nat → Bool → Prop
  | processing : work = { Work.none with task := true } → Stage work id id false
  | sent : work = { Work.none with dataEnd := true } → Stage work id (id + 1) false
  | streaming (heartbeat : Bool) (stream : StreamPhase) :
      stream.beforeEnd = true → work = ⟨false, stream, false, heartbeat, false⟩ → Stage work id id true
  | ending (stream : StreamPhase) : stream = .writingEnd ∨ stream = .leaving →
      work = ⟨false, stream, false, false, false⟩ → Stage work id (id + 1) false

/-- What is written and what still runs while the channel is open. -/
structure Live (c : Connection) : Prop where
  parts : ∃ n inside, Responses c.written n inside ∧
    match c.requestID with
    | none => n = c.started.length ∧ inside = false
    | some id => Stage (c.work id) id n inside
  heartbeatField : ∀ id, (c.work id).heartbeat = true → c.responseHeartbeat = some id
  streamField : ∀ id, c.responseStreamTask = some id → c.requestID = some id ∧ (c.work id).stream ≠ .idle

/-- The queue and its accounts. -/
structure Queue (c : Connection) : Prop where
  count : c.pendingRequests.length ≤ maximumPendingRequests
  room : c.state.isSome → c.pendingRequests.length < maximumPendingRequests
  bytes : c.pendingBodyBytes = (c.pendingRequests.map (·.body.length)).sum
  limit : c.pendingBodyBytes + c.state.elim 0 (·.body.length) ≤ c.maximumRequestBytes
  queued : c.isClosing = false → c.received = c.started ++ c.pendingRequests
  started : c.started <+: c.received
  active : ∀ id, c.requestID = some id → id + 1 = c.started.length

/-- A closing handler has nothing left to do. -/
structure Closed (c : Connection) : Prop where
  isActive : c.isActive = false
  state : c.state = none
  pendingRequests : c.pendingRequests = []
  pendingBodyBytes : c.pendingBodyBytes = 0
  requestID : c.requestID = none
  requestCancellation : c.requestCancellation = none
  requestTask : c.requestTask = none
  responseStreamTask : c.responseStreamTask = none
  responseHeartbeat : c.responseHeartbeat = none

/-- The written parts answer requests that started. -/
def Answered (c : Connection) : Prop :=
  ∃ n inside, Responses c.written n inside ∧ n + inside.toNat ≤ c.started.length

/-- Until the handler closes, only the active request is worked on. -/
def OnlyActive (c : Connection) : Prop :=
  c.isClosing = false → ∀ id, c.requestID ≠ some id → (c.work id).Idle

structure Connection.Inv (c : Connection) : Prop where
  queue : Queue c
  closed : c.isClosing → Closed c
  live : c.isActive → Live c
  onlyActive : OnlyActive c
  answered : Answered c

section
variable {c : Connection} {id : Nat}

open Connection

/-! ## Closing -/

theorem Queue.cancelActiveRequest (h : Queue c) : Queue c.cancelActiveRequest where
  count := Nat.zero_le _
  room := nofun
  bytes := rfl
  limit := Nat.zero_le _
  queued := nofun
  started := h.started
  active := nofun

theorem Queue.close (h : Queue c) : Queue c.close :=
  ⟨h.count, h.room, h.bytes, h.limit, h.queued, h.started, h.active⟩

/-- Nothing can be written any more, and no request starts. -/
theorem inv_closed (h : Queue c) (hanswered : Answered c) (hactive : c.isActive = false) : c.cancelActiveRequest.Inv where
  queue := h.cancelActiveRequest
  closed := fun _ => ⟨hactive, rfl, rfl, rfl, rfl, rfl, rfl, rfl, rfl⟩
  live := fun hlive => absurd (hactive.symm.trans hlive) Bool.false_ne_true
  onlyActive := nofun
  answered := hanswered

theorem inv_cancel_close (h : Queue c) (hanswered : Answered c) : c.cancelActiveRequest.close.Inv :=
  inv_closed (c := c.close) h.close hanswered rfl

theorem Connection.Inv.isClosing_of_active (h : c.Inv) (hactive : c.isActive = true) : c.isClosing = false := by
  by_contra hne
  have hclosed := h.closed (by simpa using hne)
  exact Bool.false_ne_true (hclosed.isActive.symm.trans hactive)

theorem inv_disconnect (h : c.Inv) : c.close.Inv where
  queue := h.queue.close
  closed := fun hclosing =>
    have hclosed := h.closed hclosing
    ⟨rfl, hclosed.state, hclosed.pendingRequests, hclosed.pendingBodyBytes, hclosed.requestID,
      hclosed.requestCancellation, hclosed.requestTask, hclosed.responseStreamTask, hclosed.responseHeartbeat⟩
  live := nofun
  onlyActive := h.onlyActive
  answered := h.answered

/-! ## Requests -/

theorem Queue.setState (h : Queue c) (state : Option RequestState)
    (hroom : state.isSome → c.pendingRequests.length < maximumPendingRequests)
    (hlimit : c.pendingBodyBytes + state.elim 0 (·.body.length) ≤ c.maximumRequestBytes) : Queue { c with state } :=
  ⟨h.count, hroom, h.bytes, hlimit, h.queued, h.started, h.active⟩

/-- Storing what was read touches no response. -/
theorem inv_setState (h : c.Inv) (hclosing : c.isClosing = false) (state : Option RequestState)
    (hroom : state.isSome → c.pendingRequests.length < maximumPendingRequests)
    (hlimit : c.pendingBodyBytes + state.elim 0 (·.body.length) ≤ c.maximumRequestBytes) : { c with state }.Inv where
  queue := h.queue.setState state hroom hlimit
  closed := fun hne => absurd (hclosing.symm.trans hne) Bool.false_ne_true
  live := fun hactive => ⟨(h.live hactive).parts, (h.live hactive).heartbeatField, (h.live hactive).streamField⟩
  onlyActive := h.onlyActive
  answered := h.answered

theorem inv_readHead (h : c.Inv) (head : RequestHead) : (c.readHead head).Inv := by
  unfold readHead
  split
  · exact h
  · rename_i hclosing
    split
    · rename_i hroom
      refine inv_setState h (by simpa using hclosing) _ (fun _ => hroom) ?_
      have := h.queue.limit
      simp only [Option.elim_some, List.length_nil]
      omega
    · exact inv_cancel_close h.queue h.answered

theorem inv_readBody (h : c.Inv) (buffer : List UInt8) : (c.readBody buffer).Inv := by
  unfold readBody
  split
  · exact h
  rename_i hclosing
  have hclosing : c.isClosing = false := by simpa using hclosing
  cases hstate : c.state with
  | none => exact h
  | some current =>
    have hroom := h.queue.room (by simp [hstate])
    have hlimit := h.queue.limit
    simp only [hstate, Option.elim_some] at hlimit
    simp only
    split
    · exact h
    · split
      · refine inv_setState h hclosing _ (fun _ => hroom) ?_
        simp only [Option.elim_some, List.length_nil]
        omega
      · split
        · exact inv_cancel_close h.queue h.answered
        · refine inv_setState h hclosing _ (fun _ => hroom) ?_
          simp only [Option.elim_some, List.length_append]
          omega

theorem inv_startNextRequest (h : c.Inv) : c.startNextRequest.Inv := by
  unfold startNextRequest
  split
  · rename_i hguard
    obtain ⟨⟨hclosing, hactive⟩, hnone⟩ : (c.isClosing = false ∧ c.isActive = true) ∧ c.requestID = none := by
      simpa using hguard
    cases hpending : c.pendingRequests with
    | nil => exact h
    | cons current rest =>
      have hqueued := h.queue.queued hclosing
      -- The next request is started: nothing is written for it yet, and every other one is idle.
      have hlive := h.live hactive
      have hbytes := h.queue.bytes
      have hcount := h.queue.count
      have hlimit := h.queue.limit
      simp only [hpending, List.map_cons, List.sum_cons] at hbytes
      simp only [hpending, List.length_cons] at hcount
      have hidle : ∀ other, (c.work other).Idle := fun other => h.onlyActive hclosing other (by simp [hnone])
      obtain ⟨n, inside, hparts, hrequest⟩ := hlive.parts
      rw [hnone] at hrequest
      obtain ⟨rfl, rfl⟩ := hrequest
      refine ⟨⟨?_, ?_, ?_, ?_, ?_, ?_, ?_⟩, ?_, ?_, ?_, ?_⟩
      · simp only; omega
      · exact fun _ => by simp only; omega
      · simp only; omega
      · simp only; omega
      · exact fun _ => by simp [hqueued, hpending]
      · exact ⟨rest, by simp [hqueued, hpending]⟩
      · intro id hid
        cases hid
        simp
      · exact fun hne => absurd (hclosing.symm.trans hne) Bool.false_ne_true
      · intro _
        refine ⟨⟨_, _, hparts, ?_⟩, ?_, ?_⟩
        · exact .processing (by simp)
        · intro other hother
          by_cases heq : other = c.started.length
          · simp [heq, Work.none] at hother
          · simp only [ne_eq, heq, not_false_eq_true, Function.update_of_ne] at hother
            rw [(hidle other).heartbeat] at hother
            cases hother
        · intro other hother
          have := (hlive.streamField other hother).1
          rw [hnone] at this
          cases this
      · intro _ other hother
        have heq : other ≠ c.started.length := fun heq => hother (by rw [heq])
        simpa [heq] using hidle other
      · exact ⟨_, _, hparts, by simp⟩
  · exact h

theorem inv_readEnd (h : c.Inv) : c.readEnd.Inv := by
  unfold readEnd
  split
  · exact h
  rename_i hclosing
  have hclosing : c.isClosing = false := by simpa using hclosing
  cases hstate : c.state with
  | none => exact h
  | some current =>
    have hroom := h.queue.room (by simp [hstate])
    have hlimit := h.queue.limit
    simp only [hstate, Option.elim_some] at hlimit
    refine inv_startNextRequest ⟨⟨?_, nofun, ?_, ?_, ?_, ?_, h.queue.active⟩, ?_, ?_, h.onlyActive, h.answered⟩
    · simp only [List.length_append, List.length_singleton]
      omega
    · simp [h.queue.bytes]
    · simpa using hlimit
    · exact fun _ => by simp [h.queue.queued hclosing]
    · exact h.queue.started.trans (List.prefix_append _ _)
    · exact fun hne => absurd (hclosing.symm.trans hne) Bool.false_ne_true
    · exact fun hactive => ⟨(h.live hactive).parts, (h.live hactive).heartbeatField, (h.live hactive).streamField⟩

/-! ## Responses -/

@[simp] theorem work_setWork (c : Connection) (id : Nat) (work : Work) : (c.setWork id work).work id = work := by
  simp [setWork]

theorem work_setWork_of_ne (c : Connection) (work : Work) {id other : Nat} (hne : other ≠ id) :
    (c.setWork id work).work other = c.work other := by
  simp [setWork, hne]

theorem Queue.setWork (h : Queue c) (id : Nat) (work : Work) : Queue (c.setWork id work) :=
  ⟨h.count, h.room, h.bytes, h.limit, h.queued, h.started, h.active⟩

theorem write_of_active (hactive : c.isActive = true) (part : ResponsePart) :
    c.write part = { c with written := c.written ++ [part] } := if_pos hactive

theorem write_of_inactive (hactive : c.isActive = false) (part : ResponsePart) : c.write part = c :=
  if_neg (by simp [hactive])

@[simp] theorem write_work (c : Connection) (part : ResponsePart) : (c.write part).work = c.work := by
  unfold write
  split <;> rfl

@[simp] theorem write_isActive (c : Connection) (part : ResponsePart) : (c.write part).isActive = c.isActive := by
  unfold write
  split <;> rfl

@[simp] theorem write_isClosing (c : Connection) (part : ResponsePart) : (c.write part).isClosing = c.isClosing := by
  unfold write
  split <;> rfl

@[simp] theorem write_requestID (c : Connection) (part : ResponsePart) : (c.write part).requestID = c.requestID := by
  unfold write
  split <;> rfl

@[simp] theorem write_responseStreamTask (c : Connection) (part : ResponsePart) :
    (c.write part).responseStreamTask = c.responseStreamTask := by
  unfold write
  split <;> rfl

theorem Queue.write (h : Queue c) (part : ResponsePart) : Queue (c.write part) := by
  unfold Connection.write
  split
  · exact ⟨h.count, h.room, h.bytes, h.limit, h.queued, h.started, h.active⟩
  · exact h

/-- Only the active request has something to do. -/
theorem Connection.Inv.requestID_of_busy (h : c.Inv) (hclosing : c.isClosing = false) (hbusy : ¬ (c.work id).Idle) :
    c.requestID = some id := by
  by_contra hne
  exact hbusy (h.onlyActive hclosing id hne)

/-- What a request with something to do does leaves the others idle. -/
theorem Connection.Inv.onlyActive_setWork (h : c.Inv) (hbusy : ¬ (c.work id).Idle) (work : Work) : OnlyActive (c.setWork id work) := by
  intro hclosing other hother
  have hne : other ≠ id := by
    rintro rfl
    exact hother (h.requestID_of_busy hclosing hbusy)
  rw [work_setWork_of_ne c work hne]
  exact h.onlyActive hclosing other hother

/-- Once the channel is closed, what runs for a request changes nothing else. -/
theorem inv_setWork_of_inactive (h : c.Inv) (hactive : c.isActive = false) (hbusy : ¬ (c.work id).Idle) (work : Work) :
    (c.setWork id work).Inv where
  queue := h.queue.setWork id work
  closed := fun hclosing =>
    have hclosed := h.closed hclosing
    ⟨hactive, hclosed.state, hclosed.pendingRequests, hclosed.pendingBodyBytes, hclosed.requestID,
      hclosed.requestCancellation, hclosed.requestTask, hclosed.responseStreamTask, hclosed.responseHeartbeat⟩
  live := fun hlive => absurd (hactive.symm.trans hlive) Bool.false_ne_true
  onlyActive := h.onlyActive_setWork hbusy work
  answered := h.answered

/-- A turn of the active request. -/
structure Turn (c c' : Connection) (id : Nat) : Prop where
  queue : Queue c'
  requestID : c'.requestID = some id
  isClosing : c'.isClosing = c.isClosing
  work : ∀ other, other ≠ id → c'.work other = c.work other
  parts : ∃ n inside, Responses c'.written n inside ∧ Stage (c'.work id) id n inside
  heartbeatField : (c'.work id).heartbeat = true → c'.responseHeartbeat = some id
  streamField : ∀ other, c'.responseStreamTask = some other → other = id ∧ (c'.work id).stream ≠ .idle

theorem Stage.bounds {work : Work} {n : Nat} {inside : Bool} (h : Stage work id n inside) : n + inside.toNat ≤ id + 1 := by
  cases h <;> simp

theorem inv_of_turn {c' : Connection} (h : c.Inv) (hclosing : c.isClosing = false) (hid : c.requestID = some id)
    (hturn : Turn c c' id) : c'.Inv where
  queue := hturn.queue
  closed := fun hne => absurd ((hturn.isClosing.trans hclosing).symm.trans hne) Bool.false_ne_true
  live := fun _ => by
    refine ⟨?_, ?_, ?_⟩
    · obtain ⟨n, inside, hparts, hstage⟩ := hturn.parts
      exact ⟨n, inside, hparts, by rw [hturn.requestID]; exact hstage⟩
    · intro other hother
      by_cases heq : other = id
      · subst heq
        exact hturn.heartbeatField hother
      · have hidle := h.onlyActive hclosing other (by simpa [hid] using Ne.symm heq)
        rw [hturn.work other heq, hidle.heartbeat] at hother
        cases hother
    · intro other hother
      obtain ⟨rfl, hstream⟩ := hturn.streamField other hother
      exact ⟨hturn.requestID, hstream⟩
  onlyActive := by
    intro _ other hother
    have hne : other ≠ id := by
      rintro rfl
      exact hother hturn.requestID
    rw [hturn.work other hne]
    exact h.onlyActive hclosing other (by simpa [hid] using Ne.symm hne)
  answered := by
    obtain ⟨n, inside, hparts, hstage⟩ := hturn.parts
    exact ⟨n, inside, hparts, by rw [← hturn.queue.active id hturn.requestID]; exact hstage.bounds⟩

/-- What is written and what runs for a request whose task, response or stream is not over. -/
theorem Connection.Inv.stage_of_busy (h : c.Inv) (hactive : c.isActive = true) (hbusy : ¬ (c.work id).Idle) :
    c.isClosing = false ∧ c.requestID = some id ∧ ∃ n inside, Responses c.written n inside ∧ Stage (c.work id) id n inside := by
  have hclosing := h.isClosing_of_active hactive
  have hid := h.requestID_of_busy hclosing hbusy
  obtain ⟨n, inside, hparts, hrequest⟩ := (h.live hactive).parts
  rw [hid] at hrequest
  exact ⟨hclosing, hid, n, inside, hparts, hrequest⟩

theorem Work.busy_of_task {work : Work} (h : work.task = true) : ¬ work.Idle := fun hidle =>
  Bool.false_ne_true (hidle.task.symm.trans h)

theorem Work.busy_of_dataEnd {work : Work} (h : work.dataEnd = true) : ¬ work.Idle := fun hidle =>
  Bool.false_ne_true (hidle.dataEnd.symm.trans h)

theorem Work.busy_of_heartbeat {work : Work} (h : work.heartbeat = true) : ¬ work.Idle := fun hidle =>
  Bool.false_ne_true (hidle.heartbeat.symm.trans h)

theorem Work.busy_of_stream {work : Work} (hidle : work.stream ≠ .idle) (hdone : work.stream ≠ .done) : ¬ work.Idle :=
  fun h => h.stream.elim hidle hdone

theorem Work.busy_of_beforeEnd {work : Work} (h : work.stream.beforeEnd = true) : ¬ work.Idle := by
  rintro ⟨_, hstream | hstream, _, _⟩ <;> rw [hstream] at h <;> cases h

/-- The response of the active request, while its stream is written. -/
theorem Connection.Inv.streaming (h : c.Inv) (hactive : c.isActive = true) (hphase : (c.work id).stream.beforeEnd = true) :
    c.isClosing = false ∧ c.requestID = some id ∧ Responses c.written id true ∧
      ∃ heartbeat, c.work id = ⟨false, (c.work id).stream, false, heartbeat, false⟩ := by
  obtain ⟨hclosing, hid, n, inside, hparts, hstage⟩ := h.stage_of_busy hactive (Work.busy_of_beforeEnd hphase)
  refine ⟨hclosing, hid, ?_⟩
  cases hstage with
  | processing hwork => rw [hwork] at hphase; cases hphase
  | sent hwork => rw [hwork] at hphase; cases hphase
  | streaming heartbeat stream _ hwork => exact ⟨hparts, heartbeat, by rw [hwork]⟩
  | ending stream hstream hwork =>
    rw [hwork] at hphase
    rcases hstream with rfl | rfl <;> cases hphase

theorem inv_writeBody (h : c.Inv) (hphase : (c.work id).stream.beforeEnd = true) (bytes : List UInt8) :
    (c.write (.body id bytes)).Inv := by
  cases hactive : c.isActive with
  | false => rw [write_of_inactive hactive]; exact h
  | true =>
    obtain ⟨hclosing, hid, hparts, heartbeat, hwork⟩ := h.streaming hactive hphase
    have hlive := h.live hactive
    rw [write_of_active hactive]
    refine inv_of_turn h hclosing hid ⟨?_, hid, rfl, fun _ _ => rfl, ?_, hlive.heartbeatField id, ?_⟩
    · exact ⟨h.queue.count, h.queue.room, h.queue.bytes, h.queue.limit, h.queue.queued, h.queue.started, h.queue.active⟩
    · exact ⟨id, true, hparts.body bytes, .streaming heartbeat _ hphase hwork⟩
    · intro other hother
      obtain ⟨hrequest, hstream⟩ := hlive.streamField other hother
      obtain rfl : id = other := by simpa [hid] using hrequest
      exact ⟨rfl, hstream⟩

/-- The task of the stream goes on to its next phase. -/
theorem inv_setStream (h : c.Inv) (hphase : (c.work id).stream.beforeEnd = true) {stream : StreamPhase}
    (hstream : stream.beforeEnd = true) : (c.setStream id stream).Inv := by
  cases hactive : c.isActive with
  | false => exact inv_setWork_of_inactive h hactive (Work.busy_of_beforeEnd hphase) _
  | true =>
    obtain ⟨hclosing, hid, hparts, heartbeat, hwork⟩ := h.streaming hactive hphase
    have hlive := h.live hactive
    refine inv_of_turn h hclosing hid
      ⟨h.queue.setWork _ _, hid, rfl, fun other hne => work_setWork_of_ne c _ hne, ?_, ?_, ?_⟩
    · refine ⟨id, true, hparts, .streaming heartbeat stream hstream ?_⟩
      rw [setStream, work_setWork, hwork]
    · intro hheartbeat
      rw [setStream, work_setWork] at hheartbeat
      exact hlive.heartbeatField id hheartbeat
    · intro other hother
      obtain rfl : id = other := by simpa [hid] using (hlive.streamField other hother).1
      refine ⟨rfl, ?_⟩
      rw [setStream, work_setWork]
      rintro rfl
      cases hstream

theorem inv_writeHeartbeat (h : c.Inv) (hphase : (c.work id).stream.beforeEnd = true) (isWritable : Bool) :
    (c.writeHeartbeat id isWritable).Inv := by
  unfold writeHeartbeat
  split
  · exact inv_writeBody h hphase _
  · exact h

theorem inv_heartbeatTick (h : c.Inv) (hscheduled : (c.work id).heartbeat = true) (isWritable : Bool) :
    (c.heartbeatTick id isWritable).Inv := by
  unfold heartbeatTick
  have hbusy := Work.busy_of_heartbeat hscheduled
  split
  · rename_i hguard
    obtain ⟨_, _, n, inside, _, hstage⟩ := h.stage_of_busy hguard.2 hbusy
    cases hstage with
    | processing hwork => rw [hwork] at hscheduled; cases hscheduled
    | sent hwork => rw [hwork] at hscheduled; cases hscheduled
    | streaming heartbeat stream hstream hwork => exact inv_writeHeartbeat h (by rw [hwork]; exact hstream) isWritable
    | ending stream hstream hwork => rw [hwork] at hscheduled; cases hscheduled
  · rename_i hguard
    cases hactive : c.isActive with
    | false => exact inv_setWork_of_inactive h hactive hbusy _
    | true => exact absurd ⟨(h.stage_of_busy hactive hbusy).2.1, hactive⟩ hguard

theorem inv_heartbeatFailed (h : c.Inv) (id : Nat) : (c.heartbeatFailed id).Inv := by
  unfold heartbeatFailed
  split
  · exact inv_cancel_close h.queue h.answered
  · exact h

/-! ## The end of a response -/

theorem Work.Idle.cancelHeartbeat {other : Nat} (h : (c.work other).Idle) : (c.cancelHeartbeat.work other).Idle where
  task := h.task
  stream := h.stream
  heartbeat := by simp [Connection.cancelHeartbeat, h.heartbeat]
  dataEnd := h.dataEnd

/-- The response of the active request is complete and nothing runs for it any more. -/
structure Complete (c : Connection) (id : Nat) : Prop where
  isClosing : c.isClosing = false
  requestID : c.requestID = some id
  parts : Responses c.written (id + 1) false
  idle : ∀ other, (c.work other).Idle

theorem inv_finishRequest (hqueue : Queue c) (hclosed : c.isClosing → Closed c) (honly : OnlyActive c)
    (hanswered : Answered c) (hcomplete : c.isActive = true → Complete c id) (keepAlive : Bool) :
    (c.finishRequest id keepAlive).Inv := by
  unfold finishRequest
  split
  · have hqueue' : Queue { c.cancelHeartbeat with
        requestID := none, requestCancellation := none, requestTask := none, responseStreamTask := none } :=
      ⟨hqueue.count, hqueue.room, hqueue.bytes, hqueue.limit, hqueue.queued, hqueue.started, nofun⟩
    simp only
    split
    · rename_i hkeep
      have hactive : c.isActive = true := by
        rw [Bool.and_eq_true] at hkeep
        exact hkeep.2
      obtain ⟨hclosing, hid, hparts, hidle⟩ := hcomplete hactive
      refine inv_startNextRequest ⟨hqueue', ?_, fun _ => ⟨?_, ?_, nofun⟩, ?_, hanswered⟩
      · exact fun hne => absurd (hclosing.symm.trans hne) Bool.false_ne_true
      · exact ⟨id + 1, false, hparts, hqueue.active id hid, rfl⟩
      · intro other hother
        have hheartbeat := (hidle other).cancelHeartbeat.heartbeat
        rw [hheartbeat] at hother
        cases hother
      · exact fun _ other _ => (hidle other).cancelHeartbeat
    · exact inv_cancel_close hqueue' hanswered
  · rename_i hne
    exact ⟨hqueue, hclosed, fun hactive => absurd (hcomplete hactive).requestID hne, honly, hanswered⟩

/-- The last turn of a request, whose end is written. -/
theorem inv_setWork_finishRequest (h : c.Inv) (hbusy : ¬ (c.work id).Idle)
    (hstage : ∀ n inside, Stage (c.work id) id n inside → n = id + 1 ∧ inside = false) {work : Work}
    (hidle : c.isActive = true → work.Idle) (keepAlive : Bool) : ((c.setWork id work).finishRequest id keepAlive).Inv := by
  refine inv_finishRequest (h.queue.setWork id work) ?_ (h.onlyActive_setWork hbusy work) h.answered ?_ keepAlive
  · intro hclosing
    have hclosed := h.closed hclosing
    exact ⟨hclosed.isActive, hclosed.state, hclosed.pendingRequests, hclosed.pendingBodyBytes, hclosed.requestID,
      hclosed.requestCancellation, hclosed.requestTask, hclosed.responseStreamTask, hclosed.responseHeartbeat⟩
  · intro hactive
    obtain ⟨hclosing, hid, n, inside, hparts, hstaged⟩ := h.stage_of_busy hactive hbusy
    obtain ⟨rfl, rfl⟩ := hstage n inside hstaged
    refine ⟨hclosing, hid, hparts, fun other => ?_⟩
    by_cases heq : other = id
    · rw [heq, work_setWork]
      exact hidle hactive
    · exact h.onlyActive_setWork hbusy work hclosing other (by simpa [hid, setWork] using Ne.symm heq)

theorem Stage.of_dataEnd {work : Work} {n : Nat} {inside : Bool} (h : Stage work id n inside) (hend : work.dataEnd = true) :
    n = id + 1 ∧ inside = false ∧ work = { Work.none with dataEnd := true } := by
  cases h with
  | processing hwork => rw [hwork] at hend; cases hend
  | sent hwork => exact ⟨rfl, rfl, hwork⟩
  | streaming heartbeat stream _ hwork => rw [hwork] at hend; cases hend
  | ending stream _ hwork => rw [hwork] at hend; cases hend

theorem Stage.of_ending {work : Work} {n : Nat} {inside : Bool} (h : Stage work id n inside)
    (hphase : work.stream = .writingEnd ∨ work.stream = .leaving) :
    n = id + 1 ∧ inside = false ∧ work = ⟨false, work.stream, false, false, false⟩ := by
  cases h with
  | processing hwork => rw [hwork] at hphase; rcases hphase with hphase | hphase <;> cases hphase
  | sent hwork => rw [hwork] at hphase; rcases hphase with hphase | hphase <;> cases hphase
  | streaming heartbeat stream hstream hwork =>
    rw [hwork] at hphase
    rcases hphase with rfl | rfl <;> cases hstream
  | ending stream _ hwork => exact ⟨rfl, rfl, by rw [hwork]⟩

theorem inv_dataEndComplete (h : c.Inv) (hend : (c.work id).dataEnd = true) (keepAlive success : Bool) :
    (c.dataEndComplete id keepAlive success).Inv := by
  unfold dataEndComplete
  split
  · have hbusy := Work.busy_of_dataEnd hend
    refine inv_setWork_finishRequest h hbusy ?_ ?_ keepAlive
    · intro n inside hstage
      obtain ⟨hn, hinside, _⟩ := hstage.of_dataEnd hend
      exact ⟨hn, hinside⟩
    · intro hactive
      obtain ⟨_, _, n, inside, _, hstage⟩ := h.stage_of_busy hactive hbusy
      rw [(hstage.of_dataEnd hend).2.2]
      exact ⟨rfl, .inl rfl, rfl, rfl⟩
  · exact inv_cancel_close (h.queue.setWork _ _) h.answered

theorem inv_streamLeave (h : c.Inv) (hphase : (c.work id).stream = .leaving) (keepAlive : Bool) :
    ((c.setStream id .done).finishRequest id keepAlive).Inv := by
  have hbusy : ¬ (c.work id).Idle := Work.busy_of_stream (by simp [hphase]) (by simp [hphase])
  refine inv_setWork_finishRequest h hbusy ?_ ?_ keepAlive
  · intro n inside hstage
    obtain ⟨hn, hinside, _⟩ := hstage.of_ending (.inr hphase)
    exact ⟨hn, hinside⟩
  · intro hactive
    obtain ⟨_, _, n, inside, _, hstage⟩ := h.stage_of_busy hactive hbusy
    rw [(hstage.of_ending (.inr hphase)).2.2]
    exact ⟨rfl, .inr rfl, rfl, rfl⟩

theorem inv_streamEndWritten (h : c.Inv) (hphase : (c.work id).stream = .writingEnd) : (c.setStream id .leaving).Inv := by
  have hbusy : ¬ (c.work id).Idle := Work.busy_of_stream (by simp [hphase]) (by simp [hphase])
  cases hactive : c.isActive with
  | false => exact inv_setWork_of_inactive h hactive hbusy _
  | true =>
    obtain ⟨hclosing, hid, n, inside, hparts, hstage⟩ := h.stage_of_busy hactive hbusy
    obtain ⟨rfl, rfl, hwork⟩ := hstage.of_ending (.inl hphase)
    refine inv_of_turn h hclosing hid
      ⟨h.queue.setWork _ _, hid, rfl, fun other hne => work_setWork_of_ne c _ hne, ?_, ?_, ?_⟩
    · refine ⟨id + 1, false, hparts, .ending .leaving (.inr rfl) ?_⟩
      rw [setStream, work_setWork, hwork]
    · intro hheartbeat
      rw [setStream, work_setWork, hwork] at hheartbeat
      cases hheartbeat
    · intro other hother
      obtain rfl : id = other := by simpa [hid] using ((h.live hactive).streamField other hother).1
      exact ⟨rfl, by simp [setStream]⟩

theorem inv_streamEnd (h : c.Inv) (hphase : (c.work id).stream = .ended) : (c.streamEnd id).Inv := by
  have hopen : (c.work id).stream.beforeEnd = true := by rw [hphase]; rfl
  unfold streamEnd
  split
  · rename_i hguard
    obtain ⟨hclosing, hid, hparts, heartbeat, hwork⟩ := h.streaming hguard.2 hopen
    have hlive := h.live hguard.2
    rw [write_of_active (c := c.cancelHeartbeat) hguard.2]
    refine inv_of_turn h hclosing hid ⟨?_, hid, rfl, ?_, ⟨id + 1, false, hparts.finish, ?_⟩, ?_, ?_⟩
    · exact ⟨h.queue.count, h.queue.room, h.queue.bytes, h.queue.limit, h.queue.queued, h.queue.started, h.queue.active⟩
    · intro other hne
      have hidle := h.onlyActive hclosing other (by simpa [hid] using Ne.symm hne)
      simp only [setStream, setWork, cancelHeartbeat, ne_eq, hne, not_false_eq_true, Function.update_of_ne, hidle.heartbeat,
        Bool.false_and]
      rw [← hidle.heartbeat]
    · refine .ending .writingEnd (.inl rfl) ?_
      rw [setStream, work_setWork]
      simp only [cancelHeartbeat]
      rw [hwork]
      cases heartbeat with
      | false => rfl
      | true =>
        have := hlive.heartbeatField id (by rw [hwork])
        simp [this]
    · intro hheartbeat
      have hlive := hlive.heartbeatField id
      simp only [setStream, work_setWork, cancelHeartbeat, Bool.and_eq_true, decide_eq_true_eq] at hheartbeat
      exact absurd (hlive hheartbeat.1) hheartbeat.2
    · intro other hother
      obtain rfl : id = other := by simpa [hid] using (hlive.streamField other hother).1
      exact ⟨rfl, by simp [setStream]⟩
  · rename_i hguard
    cases hactive : c.isActive with
    | false => exact inv_setWork_of_inactive h hactive (Work.busy_of_beforeEnd hopen) _
    | true => exact absurd ⟨(h.streaming hactive hopen).2.1, hactive⟩ hguard

theorem inv_streamCancelled (h : c.Inv) (hphase : (c.work id).stream = .reading)
    (hcancelled : (c.work id).streamCancelled = true) : (c.setStream id .leaving).Inv := by
  have hopen : (c.work id).stream.beforeEnd = true := by rw [hphase]; rfl
  cases hactive : c.isActive with
  | false => exact inv_setWork_of_inactive h hactive (Work.busy_of_beforeEnd hopen) _
  | true =>
    obtain ⟨_, _, _, heartbeat, hwork⟩ := h.streaming hactive hopen
    rw [hwork] at hcancelled
    cases hcancelled

/-! ## Writing a response -/

theorem Stage.of_task {work : Work} {n : Nat} {inside : Bool} (h : Stage work id n inside) (htask : work.task = true) :
    n = id ∧ inside = false ∧ work = { Work.none with task := true } := by
  cases h with
  | processing hwork => exact ⟨rfl, rfl, hwork⟩
  | sent hwork => rw [hwork] at htask; cases htask
  | streaming heartbeat stream _ hwork => rw [hwork] at htask; cases htask
  | ending stream _ hwork => rw [hwork] at htask; cases htask

/-- `c'` follows `c` in the turn that begins the response of the active request. -/
structure Begins (c c' : Connection) (id : Nat) (inside : Bool) : Prop where
  queue : Queue c'
  isActive : c'.isActive = true
  requestID : c'.requestID = some id
  isClosing : c'.isClosing = c.isClosing
  others : c'.work = c.work
  parts : Responses c'.written id inside
  work : c.work id = .none
  responseStreamTask : c'.responseStreamTask = none

theorem Begins.write {c' : Connection} {inside inside' : Bool} {part : ResponsePart} (h : Begins c c' id inside)
    (hparts : Responses (c'.written ++ [part]) id inside') : Begins c (c'.write part) id inside' where
  queue := h.queue.write part
  isActive := by simp [h.isActive]
  requestID := by simp [h.requestID]
  isClosing := by simp [h.isClosing]
  others := by simp [h.others]
  parts := by rw [write_of_active h.isActive]; exact hparts
  work := h.work
  responseStreamTask := by simp [h.responseStreamTask]

theorem Begins.head {c' : Connection} (h : Begins c c' id false) (head : ResponseHead) :
    Begins c (c'.write (.head id head)) id true := h.write (h.parts.head head)

theorem Begins.body {c' : Connection} (h : Begins c c' id true) (bytes : List UInt8) :
    Begins c (c'.write (.body id bytes)) id true := h.write (h.parts.body bytes)

theorem Begins.writeHeartbeat {c' : Connection} (h : Begins c c' id true) (isWritable : Bool) :
    Begins c (c'.writeHeartbeat id isWritable) id true := by
  unfold Connection.writeHeartbeat
  split
  · exact h.body _
  · exact h

/-- The whole response is written. -/
theorem Begins.turn_dataEnd {c' : Connection} (h : Begins c c' id true) :
    Turn c ((c'.write (.finish id)).setWork id { c'.work id with dataEnd := true }) id where
  queue := (h.queue.write _).setWork _ _
  requestID := by simpa [setWork] using h.requestID
  isClosing := by simpa [setWork] using h.isClosing
  work := fun other hne => by rw [work_setWork_of_ne _ _ hne, write_work, h.others]
  parts := by
    refine ⟨id + 1, false, ?_, .sent ?_⟩
    · rw [setWork, write_of_active h.isActive]
      exact h.parts.finish
    · rw [work_setWork, h.others, h.work]
  heartbeatField := fun hheartbeat => by
    rw [work_setWork, h.others, h.work] at hheartbeat
    cases hheartbeat
  streamField := fun other hother => by
    simp [setWork, h.responseStreamTask] at hother

theorem cancelStream_of_none (h : c.responseStreamTask = none) : c.cancelStream = c := by
  cases c
  cases h
  simp [cancelStream]

/-- The stream of the response begins. -/
theorem Begins.turn_stream {c' : Connection} (h : Begins c c' id true) :
    Turn c ({ c'.cancelStream with responseHeartbeat := some id, responseStreamTask := some id }.setWork id
      { c'.cancelStream.work id with heartbeat := true, stream := .reading }) id := by
  rw [cancelStream_of_none h.responseStreamTask]
  refine ⟨?_, h.requestID, h.isClosing, ?_, ⟨id, true, h.parts, .streaming true .reading rfl ?_⟩, fun _ => rfl, ?_⟩
  · have hqueue := h.queue
    exact ⟨hqueue.count, hqueue.room, hqueue.bytes, hqueue.limit, hqueue.queued, hqueue.started, hqueue.active⟩
  · exact fun other hne => (work_setWork_of_ne _ _ hne).trans (congrFun h.others other)
  · rw [work_setWork, h.others, h.work]
    rfl
  · intro other hother
    cases hother
    exact ⟨rfl, by simp⟩

theorem Begins.turn {c' : Connection} (h : Begins c c' id false) (current : RequestState) (response : HTTPResponse)
    (isWritable : Bool) : Turn c (c'.writeResponse id current response isWritable) id := by
  unfold writeResponse
  simp only
  have hhead := h.head (responseHead response current.head.version current.head.isKeepAlive)
  split
  · split
    · exact hhead.turn_dataEnd
    · exact (hhead.body _).turn_dataEnd
  · exact (hhead.writeHeartbeat isWritable).turn_stream

theorem inv_respond (h : c.Inv) (htask : (c.work id).task = true) (current : RequestState) (response : HTTPResponse)
    (isWritable : Bool) : (c.respond id current response isWritable).Inv := by
  have hbusy := Work.busy_of_task htask
  unfold respond
  simp only
  split
  · rename_i hguard
    obtain ⟨hclosing, hid, n, inside, hparts, hstage⟩ := h.stage_of_busy hguard.2 hbusy
    obtain ⟨rfl, rfl, hwork⟩ := hstage.of_task htask
    have hbegins : Begins (c.setWork n { c.work n with task := false })
        { c.setWork n { c.work n with task := false } with requestTask := none } n false := by
      refine ⟨?_, hguard.2, hid, rfl, rfl, hparts, ?_, ?_⟩
      · have hqueue := h.queue
        exact ⟨hqueue.count, hqueue.room, hqueue.bytes, hqueue.limit, hqueue.queued, hqueue.started, hqueue.active⟩
      · rw [work_setWork, hwork]
        rfl
      · cases hstream : c.responseStreamTask with
        | none => exact hstream
        | some other =>
          obtain ⟨hother, hidle⟩ := (h.live hguard.2).streamField other hstream
          obtain rfl : n = other := by simpa [hid] using hother
          exact absurd (by rw [hwork]; rfl) hidle
    have hturn := hbegins.turn current response isWritable
    refine inv_of_turn h hclosing hid
      ⟨hturn.queue, hturn.requestID, hturn.isClosing, ?_, hturn.parts, hturn.heartbeatField, hturn.streamField⟩
    exact fun other hne => (hturn.work other hne).trans (work_setWork_of_ne c _ hne)
  · rename_i hguard
    cases hactive : c.isActive with
    | false => exact inv_setWork_of_inactive h hactive hbusy _
    | true => exact absurd ⟨(h.stage_of_busy hactive hbusy).2.1, hactive⟩ hguard

/-! ## Runs -/

theorem inv_step {c' : Connection} {e : HTTPEvent} (h : c.Inv) (hstep : HTTPStep c e c') : c'.Inv := by
  cases hstep with
  | head => exact inv_readHead h _
  | body => exact inv_readBody h _
  | finish => exact inv_readEnd h
  | respond htask _ => exact inv_respond h htask _ _ _
  | dataEndComplete hend _ => exact inv_dataEndComplete h hend _ _
  | heartbeat hscheduled => exact inv_heartbeatTick h hscheduled _
  | heartbeatFailed => exact inv_heartbeatFailed h _
  | streamItem hphase _ _ => exact inv_setStream h (by rw [hphase]; rfl) rfl
  | streamEmpty _ => exact h
  | streamOver hphase => exact inv_setStream h (by rw [hphase]; rfl) rfl
  | streamCancelled hphase hcancelled => exact inv_streamCancelled h hphase hcancelled
  | @streamWrite id bytes interrupted hphase =>
    have hopen : (c.work id).stream.beforeEnd = true := by rw [hphase]; rfl
    exact inv_setStream (inv_writeBody h hopen bytes) (by rw [write_work]; exact hopen) rfl
  | streamWritten hphase => exact inv_setStream h (by rw [hphase]; rfl) rfl
  | streamWriteFailed hphase => exact inv_setStream h (by rw [hphase]; rfl) rfl
  | streamMessageWritten hphase => exact inv_setStream h (by rw [hphase]; rfl) rfl
  | streamInterrupted hphase => exact inv_setStream h (by rw [hphase]; rfl) rfl
  | streamInterruptedInactive hphase _ => exact inv_setStream h (by rw [hphase]; rfl) rfl
  | streamEnd hphase => exact inv_streamEnd h hphase
  | @streamEndSkipped id hphase hactive =>
    have hopen : (c.work id).stream.beforeEnd = true := by rw [hphase]; rfl
    exact inv_setWork_of_inactive h hactive (Work.busy_of_beforeEnd hopen) _
  | streamEndWritten hphase => exact inv_streamEndWritten h hphase
  | streamLeave hphase _ => exact inv_streamLeave h hphase _
  | disconnect => exact inv_disconnect h
  | channelInactive hactive => exact inv_closed h.queue h.answered hactive
  | handlerRemoved hactive => exact inv_closed h.queue h.answered hactive
  | errorCaught => exact inv_cancel_close h.queue h.answered

theorem inv_open (maximumRequestBytes : Nat) : (open_ maximumRequestBytes).Inv where
  queue := ⟨Nat.zero_le _, nofun, rfl, Nat.zero_le _, fun _ => rfl, List.prefix_rfl, nofun⟩
  closed := nofun
  live := fun _ => ⟨⟨0, false, .nil, rfl, rfl⟩, nofun, nofun⟩
  onlyActive := fun _ _ _ => ⟨rfl, .inl rfl, rfl, rfl⟩
  answered := ⟨0, false, .nil, Nat.zero_le _⟩

/-- Everything the handler and the channel hold is the same. What still runs may have gone on. -/
def SameHandler (c c' : Connection) : Prop := c' = { c with work := c'.work }

theorem SameHandler.trans {a b c : Connection} (h : SameHandler a b) (h' : SameHandler b c) : SameHandler a c := by
  unfold SameHandler at *
  rw [h', h]

theorem SameHandler.closed {c' : Connection} (h : SameHandler c c') (hclosed : Closed c) : Closed c' := by
  rw [h]
  exact ⟨hclosed.isActive, hclosed.state, hclosed.pendingRequests, hclosed.pendingBodyBytes, hclosed.requestID,
    hclosed.requestCancellation, hclosed.requestTask, hclosed.responseStreamTask, hclosed.responseHeartbeat⟩

theorem cancelActiveRequest_of_closed (h : Closed c) (hclosing : c.isClosing = true) :
    SameHandler c c.cancelActiveRequest := by
  obtain ⟨h1, h2, h3, h4, h5, h6, h7, h8, h9⟩ := h
  cases c
  simp only at h1 h2 h3 h4 h5 h6 h7 h8 h9 hclosing
  subst h1 h2 h3 h4 h5 h6 h7 h8 h9 hclosing
  rfl

theorem close_of_inactive (h : c.isActive = false) : c.close = c := by
  cases c
  cases h
  rfl

theorem finishRequest_of_closed (h : Closed c) (id : Nat) (keepAlive : Bool) : c.finishRequest id keepAlive = c :=
  if_neg (by simp [h.requestID])

/-- A late turn has no effect on a closing handler. -/
theorem closing_step {c' : Connection} {e : HTTPEvent} (h : Closed c) (hclosing : c.isClosing = true)
    (hstep : HTTPStep c e c') : SameHandler c c' := by
  have hsetWork : ∀ id work, Closed (c.setWork id work) := fun id work =>
    SameHandler.closed (c := c) rfl h
  cases hstep with
  | head => rw [readHead, if_pos hclosing]; rfl
  | body => rw [readBody, if_pos hclosing]; rfl
  | finish => rw [readEnd, if_pos hclosing]; rfl
  | respond htask hcurrent =>
    unfold respond
    simp only
    rw [if_neg (by simp [setWork, h.requestID])]
    rfl
  | @dataEndComplete id current success hend hcurrent =>
    unfold dataEndComplete
    cases success with
    | true =>
      simp only [if_true]
      rw [finishRequest_of_closed (hsetWork _ _)]
      rfl
    | false =>
      -- A failed end closes the channel, which is closing already.
      have hcancel := cancelActiveRequest_of_closed (hsetWork id { c.work id with dataEnd := false }) hclosing
      rw [if_neg Bool.false_ne_true, close_of_inactive (by exact h.isActive)]
      exact SameHandler.trans (b := c.setWork id { c.work id with dataEnd := false }) rfl hcancel
  | heartbeat hscheduled =>
    unfold heartbeatTick
    rw [if_neg (by simp [h.requestID])]
    rfl
  | heartbeatFailed =>
    unfold heartbeatFailed
    rw [if_neg (by simp [h.requestID])]
    rfl
  | streamWrite hphase => rw [write_of_inactive h.isActive]; rfl
  | streamEnd hphase =>
    unfold streamEnd
    rw [if_neg (by simp [h.requestID])]
    rfl
  | streamLeave hphase hcurrent =>
    rw [setStream, finishRequest_of_closed (hsetWork _ _)]
    rfl
  | disconnect => rw [close_of_inactive h.isActive]; rfl
  | channelInactive hactive => exact cancelActiveRequest_of_closed h hclosing
  | handlerRemoved hactive => exact cancelActiveRequest_of_closed h hclosing
  | errorCaught =>
    rw [close_of_inactive (by exact h.isActive)]
    exact cancelActiveRequest_of_closed h hclosing
  | streamEmpty _ => rfl
  | streamItem | streamOver | streamCancelled | streamWritten | streamWriteFailed | streamMessageWritten
  | streamInterrupted | streamInterruptedInactive | streamEndSkipped | streamEndWritten => rfl

@[simp] theorem startNextRequest_maximumRequestBytes :
    c.startNextRequest.maximumRequestBytes = c.maximumRequestBytes := by
  unfold startNextRequest
  split
  · split <;> rfl
  · rfl

@[simp] theorem write_maximumRequestBytes (part : ResponsePart) :
    (c.write part).maximumRequestBytes = c.maximumRequestBytes := by
  unfold write
  split <;> rfl

@[simp] theorem writeHeartbeat_maximumRequestBytes (isWritable : Bool) :
    (c.writeHeartbeat id isWritable).maximumRequestBytes = c.maximumRequestBytes := by
  unfold writeHeartbeat
  split <;> simp

@[simp] theorem finishRequest_maximumRequestBytes (keepAlive : Bool) :
    (c.finishRequest id keepAlive).maximumRequestBytes = c.maximumRequestBytes := by
  unfold finishRequest
  split
  · simp only
    split
    · exact startNextRequest_maximumRequestBytes
    · rfl
  · rfl

@[simp] theorem writeResponse_maximumRequestBytes (current : RequestState) (response : HTTPResponse) (isWritable : Bool) :
    (c.writeResponse id current response isWritable).maximumRequestBytes = c.maximumRequestBytes := by
  unfold writeResponse
  simp only
  split
  · split <;> simp [setWork]
  · simp [setWork, cancelStream]

theorem step_maximumRequestBytes {c' : Connection} {e : HTTPEvent} (hstep : HTTPStep c e c') :
    c'.maximumRequestBytes = c.maximumRequestBytes := by
  cases hstep with
  | head =>
    unfold readHead
    split_ifs <;> rfl
  | body =>
    unfold readBody
    split
    · rfl
    · split
      · rfl
      · split_ifs <;> rfl
  | finish =>
    unfold readEnd
    split
    · rfl
    · split
      · rfl
      · exact startNextRequest_maximumRequestBytes
  | respond =>
    unfold respond
    simp only
    split
    · exact writeResponse_maximumRequestBytes _ _ _
    · rfl
  | dataEndComplete =>
    unfold dataEndComplete
    split
    · exact finishRequest_maximumRequestBytes _
    · rfl
  | heartbeat =>
    unfold heartbeatTick
    split
    · exact writeHeartbeat_maximumRequestBytes _
    · rfl
  | heartbeatFailed =>
    unfold heartbeatFailed
    split <;> rfl
  | streamWrite => exact write_maximumRequestBytes _
  | streamEnd =>
    unfold streamEnd
    split
    · exact write_maximumRequestBytes _
    · rfl
  | streamLeave => exact finishRequest_maximumRequestBytes _
  | streamEmpty | streamItem | streamOver | streamCancelled | streamWritten | streamWriteFailed | streamMessageWritten
  | streamInterrupted | streamInterruptedInactive | streamEndSkipped | streamEndWritten | disconnect | channelInactive
  | handlerRemoved | errorCaught => rfl

variable {events : List HTTPEvent}

theorem inv_of_run {maximumRequestBytes : Nat} (h : Run HTTPStep (open_ maximumRequestBytes) events c) :
    c.Inv ∧ c.maximumRequestBytes = maximumRequestBytes :=
  h.inv (fun c => c.Inv ∧ c.maximumRequestBytes = maximumRequestBytes)
    (fun _ _ _ hinv hstep => ⟨inv_step hinv.1 hstep, (step_maximumRequestBytes hstep).trans hinv.2⟩)
    ⟨inv_open maximumRequestBytes, rfl⟩

theorem closing_run {c' : Connection} (h : Run HTTPStep c events c') (hclosed : Closed c) (hclosing : c.isClosing = true) :
    SameHandler c c' :=
  h.mono (fun c => Closed c ∧ c.isClosing = true) SameHandler (fun _ => rfl) (fun _ _ _ => SameHandler.trans)
    (fun _ _ _ hinv hstep =>
      have hsame := closing_step hinv.1 hinv.2 hstep
      ⟨⟨hsame.closed hinv.1, by rw [hsame]; exact hinv.2⟩, hsame⟩)
    ⟨hclosed, hclosing⟩

/-- At most one request is worked on and four wait, within the memory limit. The
responses answer the requests one after another, and nothing happens once the
handler closes. -/
theorem pipelining_handler {maximumRequestBytes : Nat} (h : Run HTTPStep (open_ maximumRequestBytes) events c) :
    (c.isClosing = false → ∀ id, c.requestID ≠ some id → (c.work id).Idle) ∧
    c.pendingRequests.length ≤ 4 ∧
    c.pendingBodyBytes = (c.pendingRequests.map (·.body.length)).sum ∧
    c.pendingBodyBytes + c.state.elim 0 (·.body.length) ≤ maximumRequestBytes ∧
    (∃ n inside, Responses c.written n inside ∧ n + inside.toNat ≤ c.started.length) ∧
    c.started <+: c.received ∧
    (c.isClosing = true → ∀ more c', Run HTTPStep c more c' → SameHandler c c') := by
  obtain ⟨hinv, hmaximum⟩ := inv_of_run h
  have hqueue := hinv.queue
  refine ⟨hinv.onlyActive, hqueue.count, hqueue.bytes, hmaximum ▸ hqueue.limit, hinv.answered, hqueue.started, ?_⟩
  intro hclosing more c' hrun
  exact closing_run hrun (hinv.closed hclosing) hclosing

def sampleHead : RequestHead := ⟨"GET", "/health", "HTTP/1.1", [], true⟩

/-- One request, answered at once. -/
def sampleAnswered : Connection :=
  (((open_ 16).readHead sampleHead).readEnd.respond 0 ⟨sampleHead, [], false⟩ ⟨200, [], .data []⟩ true).dataEndComplete 0
    true true

theorem sample_run : Run HTTPStep (open_ 16)
    [.head sampleHead, .finish, .respond 0 ⟨200, [], .data []⟩ true, .dataEndComplete 0 true] sampleAnswered :=
  have hcurrent : ∀ {c : Connection}, c.started[0]? = some ⟨sampleHead, [], false⟩ → (c.work 0).dataEnd = true →
      HTTPStep c (.dataEndComplete 0 true) (c.dataEndComplete 0 true true) := fun hcurrent hend =>
    .dataEndComplete hend hcurrent
  .cons .head (.cons .finish (.cons (.respond rfl rfl) (.cons (hcurrent rfl rfl) .nil)))

theorem sample_response_answers : sampleAnswered.written.length = 2 ∧
    ∃ n inside, Responses sampleAnswered.written n inside ∧ n + inside.toNat ≤ 1 :=
  ⟨rfl, (pipelining_handler sample_run).2.2.2.2.1⟩

end
end Tanpopo.Server.Pipeline
