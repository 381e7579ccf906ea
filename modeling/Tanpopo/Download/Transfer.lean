import Tanpopo.Lib.Go
import Tanpopo.Lib.Runs
import Tanpopo.Lib.Tiles
import Mathlib
/-!
# The transfer of one file

A job writes to a part file, by one stream or by ranges that workers fetch at
the same time, and puts the part file in place of its destination.
-/

namespace Tanpopo.Download.Transfer

open Go

abbrev Bytes := List UInt8
abbrev ByteRange := Interval

/-- Arithmetic of `int64`. -/
def int64 (n : Int) : Int := Int.bmod n (2 ^ 64)

/-- The number of bytes of a range, as `downloadRange` expects them. -/
def expected (r : ByteRange) : Int := int64 (int64 (r.last - r.first) + 1)

/-- One turn of the loop of `planDownloadRanges`: the range and the next `start`. -/
def planDownloadRange (total chunkSize start : Int) : ByteRange × Int :=
  let size := min chunkSize (int64 (total - start))
  let last := int64 (int64 (start + size) - 1)
  (⟨start, last⟩, int64 (last + 1))

/-! ## Answers -/

def isBlank (c : Char) : Bool := ['\t', '\n', '\x0c', '\r', ' '].contains c

/-- `\d+` -/
def digits (text : List Char) : Option String :=
  if text ≠ [] ∧ text.all Char.isDigit then some (String.ofList text) else none

/-- The first byte, the last one and the number of all of a `Content-Range`. -/
def parseContentRange (value : String) : Option (Int × Int × Int) :=
  let text := (trimSpace value).toList
  let rest := (text.drop 5).dropWhile isBlank
  if ¬ equalFold (String.ofList (text.take 5)) "bytes" ∨ rest = text.drop 5 then none
  else match rest.splitOn '/' with
    | [span, total] => match span.splitOn '-' with
      | [start, last] => do
        let start ← parseInt (← digits start)
        let last ← parseInt (← digits last)
        let total ← parseInt (← digits total)
        if start < 0 ∨ last < start ∨ total ≤ last then none else some (start, last, total)
      | _ => none
    | _ => none

structure Answer where
  status : Nat
  statusText : String
  contentLength : Int
  contentRange : String

def Answer.isSuccess (a : Answer) : Bool := 200 ≤ a.status && a.status < 300

structure RemoteDownloadInfo where
  size : Int
  rangeSupported : Bool

/-- The size that the answer to the HEAD request tells. -/
def announcedSize : Option Answer → Int
  | some a => if a.isSuccess then a.contentLength else -1
  | none => -1

/-- The answers are those to the HEAD request and to the one for the first byte. -/
def inspectRemote (chunkSize : Int) (head probe : Option Answer) : RemoteDownloadInfo :=
  let size := announcedSize head
  if 0 < size ∧ size ≤ chunkSize then ⟨size, false⟩
  else match probe with
    | none => ⟨size, false⟩
    | some a =>
      if a.status ≠ 206 then ⟨size, false⟩
      else match parseContentRange a.contentRange with
        | none => ⟨size, false⟩
        | some (start, last, total) => if start ≠ 0 ∨ last ≠ 0 ∨ total < 1 then ⟨size, false⟩ else ⟨total, true⟩

/-! ## Fetching by ranges -/

inductive Error where
  | canceled
  | text (message : String)
  deriving DecidableEq

/-- A request for one file, and what the remote has under its name. -/
structure Source where
  content : Bytes
  chunkSize : Int
  chunkWorkers : Int
  overwrite : Bool

/-- A partial answer names the size that the file has. -/
def Source.Honest (c : Source) (a : Answer) : Bool :=
  a.status ≠ 206 || (parseContentRange a.contentRange).all fun found => found.2.2 = (c.content.length : Int)

inductive Worker where
  | idle
  | asking (range : ByteRange)
  | copying (range : ByteRange) (written : Nat)
  | gone
  deriving DecidableEq

structure Pool where
  total : Int
  start : Int
  closed : Bool
  queue : List ByteRange
  workers : List Worker
  failure : Option Error
  file : Bytes
  /-- What the producer has planned. -/
  planned : List ByteRange
  /-- Those whose `Content-Range` was found to be right. -/
  accepted : List ByteRange
  deriving DecidableEq

inductive PoolEvent where
  | produces
  | closes
  | takes (worker : Nat)
  | leaves (worker : Nat)
  | responds (worker : Nat) (answer : Answer)
  | copies (worker : Nat) (count : Nat)
  | finishes (worker : Nat)
  | breaks (worker : Nat) (err : Error)

/-- `WriteAt` -/
def writeAt (file : Bytes) (offset : Nat) (bytes : Bytes) : Bytes :=
  file.take offset ++ List.replicate (offset - file.length) 0 ++ bytes ++ file.drop (offset + bytes.length)

/-- `count` bytes of the file from `offset`. -/
def Source.slice (c : Source) (offset count : Nat) : Bytes := (c.content.drop offset).take count

def workerCount (c : Source) (total : Int) : Int :=
  let segments := int64 (int64 (total - 1) / c.chunkSize + 1)
  if segments < max 1 c.chunkWorkers then segments else max 1 c.chunkWorkers

namespace Pool

def put (p : Pool) (i : Nat) (w : Worker) : Pool := { p with workers := p.workers.set i w }

/-- `workerContext` is done. -/
def stopped (p : Pool) (cancelled : Bool) : Bool := cancelled || p.failure.isSome

/-- The worker returns, and the first failure is kept. -/
def fail (p : Pool) (i : Nat) (err : Error) : Pool :=
  { p.put i .gone with failure := p.failure.or (some err) }

def open_ (c : Source) (total : Int) (file : Bytes) : Pool where
  total := total
  start := 0
  closed := false
  queue := []
  workers := List.replicate (workerCount c total).toNat .idle
  failure := none
  file := file
  planned := []
  accepted := []

def step (c : Source) (cancelled : Bool) (p : Pool) : PoolEvent → Option Pool
  | .produces =>
    if ¬ p.closed ∧ p.start < p.total ∧ p.queue.length < p.workers.length then
      let (range, next) := planDownloadRange p.total c.chunkSize p.start
      some { p with start := next, queue := p.queue ++ [range], planned := p.planned ++ [range] }
    else none
  | .closes => if ¬ p.closed ∧ (p.total ≤ p.start ∨ p.stopped cancelled) then some { p with closed := true } else none
  | .takes i => match p.workers[i]?, p.queue with
    | some .idle, range :: rest => some { p.put i (.asking range) with queue := rest }
    | _, _ => none
  | .leaves i =>
    if p.workers[i]? = some .idle ∧ (p.stopped cancelled ∨ (p.closed ∧ p.queue = [])) then some (p.put i .gone) else none
  | .responds i answer => match p.workers[i]? with
    | some (.asking range) =>
      if ¬ c.Honest answer then none
      else if answer.status ≠ 206 then some (p.fail i (.text ("遠端伺服器未依 Range 回傳分段內容: " ++ answer.statusText)))
      else if parseContentRange answer.contentRange = some (range.first, range.last, p.total) then
        some { p.put i (.copying range 0) with accepted := p.accepted ++ [range] }
      else some (p.fail i (.text ("遠端伺服器回傳無效的 Content-Range: " ++ answer.contentRange)))
    | _ => none
  | .copies i count => match p.workers[i]? with
    | some (.copying range written) =>
      if (written + count : Int) ≤ expected range then
        let offset := range.first.toNat + written
        some { p.put i (.copying range (written + count)) with file := writeAt p.file offset (c.slice offset count) }
      else none
    | _ => none
  | .finishes i => match p.workers[i]? with
    | some (.copying range written) => if (written : Int) = expected range then some (p.put i .idle) else none
    | _ => none
  | .breaks i err => match p.workers[i]? with
    | some (.asking _) | some (.copying _ _) => some (p.fail i err)
    | _ => none

end Pool

/-! ## The job -/

inductive Outcome where
  | completed
  | cancelled
  | failed
  deriving DecidableEq

inductive Entry where
  | file (bytes : Bytes)
  | other
  deriving DecidableEq

/-- What can go wrong once the new file is complete. -/
inductive Operation where
  | place
  | restore
  | clear
  | removePart
  deriving DecidableEq

inductive Stage where
  | waiting
  | opening
  | inspecting
  | truncating (total : Int)
  | requesting
  | sequential (written : Nat)
  | chunked (pool : Pool)
  | fetched
  | syncing
  | closing
  | closed
  | looking
  | backingUp
  | placing (backed : Bool)
  | restoring
  | clearing
  | leaving (outcome : Outcome)
  | ended (outcome : Outcome)
  deriving DecidableEq

structure Job where
  stage : Stage
  cancelled : Bool
  part : Option Bytes
  destination : Option Entry
  backup : Option Entry
  /-- The operations on files that failed at the end. -/
  faults : List Operation
  planned : List ByteRange
  accepted : List ByteRange

inductive Event where
  /-- The next operation of `run` succeeds. -/
  | goes
  | fails (err : Error)
  | cancels
  | inspected (head probe : Option Answer)
  | pool (e : PoolEvent)
  | responds (answer : Answer)
  | receives (count : Nat)
  | bodyEnds

namespace Job

def start (previous : Option Entry) : Job := ⟨.waiting, false, none, previous, none, [], [], []⟩

def setStage (j : Job) (stage : Stage) : Job := { j with stage := stage }

def setPool (j : Job) (p : Pool) : Job :=
  { j with stage := .chunked p, part := some p.file, planned := p.planned, accepted := p.accepted }

/-- What `run` does with an error of the download. -/
def leave (j : Job) (err : Error) : Job :=
  j.setStage (.leaving (if j.cancelled ∨ err = .canceled then .cancelled else .failed))

def giveUp (j : Job) : Job := j.setStage (.leaving .failed)

/-- `cancelled` when the context is done. -/
def unlessCancelled (j : Job) (stage : Stage) : Job := j.setStage (if j.cancelled then .leaving .cancelled else stage)

def record (j : Job) (op : Operation) : Job := { j with faults := op :: j.faults }

def goes (c : Source) (j : Job) : Option Job :=
  match j.stage with
  | .waiting => some (j.setStage .opening)
  | .opening => some { j with stage := .inspecting, part := some [] }
  | .truncating total =>
    if j.cancelled then some (j.leave .canceled)
    else if total < 1 ∨ c.chunkSize < 1 then some (j.leave (.text "下載分段大小無效"))
    else some (j.setPool (.open_ c total (List.replicate total.toNat 0)))
  | .chunked p =>
    if p.closed ∧ p.workers.all (· = .gone) then
      match p.failure with
      | some err => some (j.leave err)
      | none => some (if j.cancelled then j.leave .canceled else j.setStage .fetched)
    else none
  | .fetched => some (j.unlessCancelled .syncing)
  | .syncing => some (j.setStage .closing)
  | .closing => some (j.setStage .closed)
  | .closed => some (j.unlessCancelled .looking)
  | .looking => match j.destination with
    | none => some (j.setStage (.placing false))
    | some .other => some j.giveUp
    | some (.file _) => some (if c.overwrite then j.setStage .backingUp else j.giveUp)
  | .backingUp => some { j with stage := .placing true, destination := none, backup := j.destination }
  | .placing backed =>
    some { j with
      stage := if backed then .clearing else .ended .completed
      destination := j.part.map .file
      part := none }
  | .restoring => some { j with stage := .leaving .failed, destination := j.backup, backup := none }
  | .clearing => some { j with stage := .ended .completed, backup := none }
  | .leaving outcome => some { j with stage := .ended outcome, part := none }
  | _ => none

def fails (j : Job) (err : Error) : Option Job :=
  match j.stage with
  | .waiting => if j.cancelled then some (j.setStage (.ended .cancelled)) else none
  | .opening => some (j.setStage (.ended .failed))
  | .truncating _ | .requesting | .sequential _ => some (j.leave err)
  | .inspecting | .syncing | .closing | .looking | .backingUp => some j.giveUp
  | .placing backed => some ((j.record .place).setStage (if backed then .restoring else .leaving .failed))
  | .restoring => some (j.record .restore).giveUp
  | .clearing => some (j.record .clear).giveUp
  | .leaving outcome => some ((j.record .removePart).setStage (.ended outcome))
  | _ => none

def step (c : Source) (j : Job) : Event → Option Job
  | .goes => j.goes c
  | .fails err => j.fails err
  | .cancels => some { j with cancelled := true }
  | .inspected head probe => match j.stage with
    | .inspecting =>
      if ¬ (head.all c.Honest ∧ probe.all c.Honest) then none
      else
        let info := inspectRemote c.chunkSize head probe
        some (j.setStage (if info.rangeSupported ∧ c.chunkSize < info.size then .truncating info.size else .requesting))
    | _ => none
  | .pool e => match j.stage with
    | .chunked p => (p.step c j.cancelled e).map j.setPool
    | _ => none
  | .responds answer => match j.stage with
    | .requesting =>
      some (if answer.isSuccess then j.setStage (.sequential 0) else j.leave (.text ("Hugging Face 回傳 " ++ answer.statusText)))
    | _ => none
  | .receives count => match j.stage with
    | .sequential written =>
      if written + count ≤ c.content.length then
        some { j with
          stage := .sequential (written + count)
          part := j.part.map fun file => writeAt file written (c.slice written count) }
      else none
    | _ => none
  | .bodyEnds => match j.stage with
    | .sequential written => if written = c.content.length then some (j.setStage .fetched) else none
    | _ => none

end Job

abbrev Steps (c : Source) (j : Job) (e : Event) (j' : Job) : Prop := j.step c e = some j'

/-! ## A file of three ranges, fetched by two workers in place of an old one -/

def newFile : Source := ⟨[1, 2, 3, 4, 5], 2, 2, true⟩

def oldFile : Entry := .file [9]

def partialAnswer (contentRange : String) : Answer := ⟨206, "206 Partial Content", 0, contentRange⟩

def fetching : List PoolEvent :=
  [.produces, .produces, .takes 1, .takes 0, .responds 0 (partialAnswer "bytes 2-3/5"), .copies 0 1,
    .responds 1 (partialAnswer "bytes 0-1/5"), .produces, .closes, .copies 1 2, .finishes 1, .copies 0 1, .takes 1,
    .responds 1 (partialAnswer "bytes 4-4/5"), .finishes 0, .leaves 0, .copies 1 1, .finishes 1, .leaves 1]

def replacing : List Event :=
  [.goes, .goes, .inspected none (some (partialAnswer "bytes 0-0/5")), .goes] ++ fetching.map .pool ++ List.replicate 9 .goes

def replaced : Job := (replacing.foldlM (Job.step newFile) (.start oldFile)).getD (.start none)

theorem replaced_run : Run (Steps newFile) (.start oldFile) replacing replaced := by
  have hsome : (replacing.foldlM (Job.step newFile) (.start oldFile)).isSome = true := by decide +kernel
  refine Run.of_foldlM ?_
  rw [replaced]
  cases h : replacing.foldlM (Job.step newFile) (.start oldFile) with
  | none => rw [h] at hsome; cases hsome
  | some j => rfl

end Tanpopo.Download.Transfer
