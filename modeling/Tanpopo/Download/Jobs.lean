import Tanpopo.Lib.Runs
import Tanpopo.Lib.Table
/-!
# The jobs of the download manager

Each job has a goroutine that waits for a slot, downloads, settles the job and
then gives up what it holds, one critical section after another. The table of
jobs, the table of destinations and the table of cancel functions are changed
in different sections.

- `step`: one critical section of `startValidated`, `Cancel`, `run` or the
  deferred clean-up.
-/

namespace Tanpopo.Download

inductive JobState where
  | queued | downloading | cancelling | failed
  deriving DecidableEq

structure DownloadJob where
  destination : String
  state : JobState
  error : String
  createdAt : Int

def DownloadJob.live (job : DownloadJob) : Bool := job.state = .queued || job.state = .downloading

def maxRememberedJobs : Nat := 50

/-- How far the goroutine of a job is. -/
inductive Stage where
  | waiting
  /-- It has a slot, the job still reads as it was. -/
  | admitted
  | downloading
  /-- `fail` was called. -/
  | failed
  /-- `complete` or `cancelled` was called. -/
  | settled
  /-- `releaseDestination` was called. -/
  | released
  deriving DecidableEq

namespace Stage

def running (s : Stage) : Bool := s = .waiting || s = .admitted || s = .downloading

/-- The destination is still reserved. -/
def holds (s : Stage) : Bool := s.running || s = .failed

end Stage

structure Runner where
  destination : String
  stage : Stage
  slot : Bool

structure Manager where
  slots : Nat
  taken : Nat
  jobs : Table String DownloadJob
  activeTargets : Table String String
  /-- The cancel functions. -/
  cancellations : Table String Unit
  runners : Table String Runner
  /-- Every id that was drawn. -/
  issued : List String

namespace Manager

def new (slots : Nat) : Manager := ⟨slots, 0, ∅, ∅, ∅, ∅, []⟩

/-! ## Critical sections -/

/-- `oldest` is a job that is not live and as old as any such job; ties are broken by the order of the map. -/
def oldestRemembered (m : Manager) : Option String → Bool
  | none => m.jobs.entries.all fun e => e.2.live
  | some id => match m.jobs.get? id with
    | none => false
    | some job => !job.live && m.jobs.entries.all fun e => e.2.live || job.createdAt ≤ e.2.createdAt

def pruneLocked (m : Manager) (oldest : Option String) : Manager :=
  if m.jobs.length < maxRememberedJobs then m
  else match oldest with
    | none => m
    | some id => { m with jobs := m.jobs.delete id }

/-- What `os.Stat` says about the destination. -/
inductive Found where
  | missing | regular | other
  | failed (message : String)

def checkDestination (overwrite : Bool) : Found → Except String Unit
  | .missing => .ok ()
  | .regular => if overwrite then .ok () else .error "目的檔案已存在；若需取代請啟用覆寫"
  | .other => .error "目的路徑已存在且不是一般檔案"
  | .failed message => .error message

/-- The new job, once its destination is free. -/
def enter (m : Manager) (id : String) (now : Int) (destination : String) : Manager :=
  { m with
    jobs := m.jobs.set id { destination, state := .queued, error := "", createdAt := now }
    activeTargets := m.activeTargets.set destination id
    cancellations := m.cancellations.set id ()
    runners := m.runners.set id { destination, stage := .waiting, slot := false }
    issued := id :: m.issued }

def startValidated (m : Manager) (found : Found) (overwrite : Bool) (randomID : Except String String) (now : Int)
    (destination : String) (oldest : Option String) : Except String Manager :=
  match checkDestination overwrite found with
  | .error e => .error e
  | .ok () => match randomID with
    | .error e => .error e
    | .ok id =>
      if (m.activeTargets.get? destination).isSome then .error "相同目的檔案已有下載工作進行中"
      else .ok ((m.pruneLocked oldest).enter id now destination)

def cancel (m : Manager) (id : String) : Except String Manager :=
  match m.jobs.get? id with
  | none => .error "找不到下載工作"
  | some job =>
    if !job.live || (m.cancellations.get? id).isNone then .error "下載工作目前無法取消"
    else .ok { m with jobs := m.jobs.set id { job with state := .cancelling } }

def update (m : Manager) (id : String) (mutate : DownloadJob → DownloadJob) : Manager :=
  match m.jobs.get? id with
  | none => m
  | some job => { m with jobs := m.jobs.set id (mutate job) }

def fail (m : Manager) (id message : String) : Manager :=
  m.update id fun job => { job with state := .failed, error := message }

def releaseDestination (m : Manager) (destination id : String) : Manager :=
  if m.activeTargets.get? destination = some id then { m with activeTargets := m.activeTargets.delete destination } else m

/-- The job is forgotten and its destination given up in one section. -/
def settle (m : Manager) (id destination : String) : Manager :=
  { m with jobs := m.jobs.delete id }.releaseDestination destination id

def complete (m : Manager) (id destination : String) : Manager := m.settle id destination

def cancelled (m : Manager) (id destination : String) : Manager := m.settle id destination

/-! ## Steps -/

inductive Event where
  | start (found : Found) (overwrite : Bool) (randomID : Except String String) (now : Int) (destination : String)
      (oldest : Option String)
  | cancel (id : String)
  /-- A slot is free. -/
  | reserve (id : String)
  | begin (id : String)
  | fail (id message : String)
  | complete (id : String)
  /-- The context of the job, or the one it was made from, is done. -/
  | cancelled (id : String)
  | releaseSlot (id : String)
  | releaseDestination (id : String)
  | forget (id : String)

/-- The goroutine goes on to another stage. -/
def move (m : Manager) (id : String) (runner : Runner) : Manager := { m with runners := m.runners.set id runner }

def runnerStep (m : Manager) (id : String) (r : Runner) : Event → Option Manager
  | .reserve _ =>
    if r.stage = .waiting ∧ m.taken < m.slots then
      some { m.move id { r with stage := .admitted, slot := true } with taken := m.taken + 1 }
    else none
  | .begin _ =>
    if r.stage = .admitted then
      some ((m.update id fun job => { job with state := .downloading }).move id { r with stage := .downloading })
    else none
  | .fail _ message =>
    if r.stage = .downloading then some ((m.fail id message).move id { r with stage := .failed }) else none
  | .complete _ =>
    if r.stage = .downloading then some ((m.complete id r.destination).move id { r with stage := .settled }) else none
  | .cancelled _ =>
    if r.stage = .waiting ∨ r.stage = .downloading then
      some ((m.cancelled id r.destination).move id { r with stage := .settled })
    else none
  | .releaseSlot _ =>
    if (r.stage = .failed ∨ r.stage = .settled) ∧ r.slot then
      some { m.move id { r with slot := false } with taken := m.taken - 1 }
    else none
  | .releaseDestination _ =>
    if (r.stage = .failed ∨ r.stage = .settled) ∧ !r.slot then
      some ((m.releaseDestination r.destination id).move id { r with stage := .released })
    else none
  | .forget _ =>
    if r.stage = .released then
      some { m with cancellations := m.cancellations.delete id, runners := m.runners.delete id }
    else none
  | _ => none

/-- An id is never drawn twice. -/
def step (m : Manager) (e : Event) : Option Manager :=
  match e with
  | .start found overwrite randomID now destination oldest =>
    if (∀ id, randomID.toOption = some id → id ∉ m.issued) ∧ m.oldestRemembered oldest then
      match m.startValidated found overwrite randomID now destination oldest with
      | .error _ => some m
      | .ok m' => some m'
    else none
  | .cancel id => match m.cancel id with
    | .error _ => some m
    | .ok m' => some m'
  | .reserve id | .begin id | .fail id _ | .complete id | .cancelled id | .releaseSlot id | .releaseDestination id
  | .forget id => (m.runners.get? id).bind fun r => m.runnerStep id r e

end Manager
end Tanpopo.Download
