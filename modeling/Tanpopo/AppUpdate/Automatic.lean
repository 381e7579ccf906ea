import Tanpopo.Lib.Go
import Tanpopo.Lib.Runs
import Mathlib
/-!
# The hand-off of an automatic update

The running program downloads an update, starts a helper and waits until the
helper has checked the update and says so in a hand-off file. Then it shuts
itself down, and the helper, which waits for that, installs the update.

- `prepareStep`: one call of `Automatic.prepare`, or one turn of its `select`.
- `helperStep`: one call of `RunAutomaticHelper`.
- `step`: both, with the files, the processes and the time between them.
-/

namespace Tanpopo.AppUpdate

open Go

structure ReleaseAsset where
  name : String
  state : String
  size : Int
  digest : String
  url : String
  deriving DecidableEq

structure OfficialRelease where
  tag : String
  draft : Bool
  prerelease : Bool
  assets : List ReleaseAsset

structure ReadyRecord where
  pid : Int
  token : String
  deriving DecidableEq

structure UpdateStatus where
  state : String
  message : String

structure AutomaticPlan where
  target : String
  workspace : String
  statusDir : String
  directory : String
  parentPID : Int
  lockFD : Nat
  platform : String
  tag : String
  token : String
  asset : ReleaseAsset

/-- What an updater was made with, and the process it runs in. -/
structure Automatic where
  target : String
  statusDir : String
  directory : String
  platform : String
  pid : Int

/-- What the programs use of the libraries. -/
structure Library where
  /-- `json.Marshal` and `json.Unmarshal` of a hand-off record. -/
  marshal : ReadyRecord → String
  unmarshal : String → Option ReadyRecord
  sha256 : List UInt8 → List UInt8
  /-- `validateAssetURL`, which has no error. -/
  validURL : ReleaseAsset → String → Bool

/-! ## Checks -/

def suffixes : List (String × String) :=
  [("darwin-arm64", "arm64.dmg"), ("darwin-amd64", "x64.dmg"), ("windows-amd64", "x64.msi"), ("windows-arm64", "arm64.msi"),
    ("linux-amd64", "linux-x64.zip"), ("linux-arm64", "linux-arm64.zip")]

def maxUploadBytes : Int := 4 * 2 ^ 30

def selectReleaseAsset (release : OfficialRelease) (platform : String) : Except String ReleaseAsset :=
  match suffixes.lookup platform with
  | none => .error "目前平台不支援自動更新"
  | some suffix =>
    match release.assets.filter fun asset => asset.name = "Tanpopo-" ++ trimPrefix release.tag "v" ++ "-" ++ suffix with
    | [asset] =>
      let digest := hexDecode (trimPrefix asset.digest "sha256:")
      if asset.state ≠ "uploaded" ∨ asset.size ≤ 0 ∨ maxUploadBytes < asset.size ∨
          hasPrefix asset.digest "sha256:" = false ∨ digest.map List.length ≠ some 32 then
        .error "官方更新套件缺少有效大小或 SHA-256 摘要"
      else .ok asset
    | _ => .error ("此版本沒有唯一對應的 " ++ platform ++ " 更新套件")

/-- The end of `release`, which a response has to pass. -/
def checkRelease (tag : String) (release : OfficialRelease) : Except String OfficialRelease :=
  if release.draft ∨ release.prerelease ∨ (tag ≠ "" ∧ tag ≠ release.tag) then .error "官方更新版本不符或不是穩定發布" else .ok release

def verifyDownloadedAsset (lib : Library) (archive : Option (List UInt8)) (asset : ReleaseAsset) : Except String Unit :=
  match archive with
  | none => .error "no such file or directory"
  | some content =>
    if (content.length : Int) ≠ asset.size ∨ "sha256:" ++ hexEncode (lib.sha256 content) ≠ asset.digest then
      .error "更新套件在交接後的 SHA-256 不符"
    else .ok ()

def isCleanAbs (path : String) : Bool := hasPrefix path "/" && pathClean path = path

def checkPlan (platform : String) (p : AutomaticPlan) : Except String Unit :=
  if p.platform ≠ platform ∨ p.parentPID ≤ 1 ∨ p.token.utf8ByteSize ≠ 64 ∨
      hasPrefix (pathBase p.workspace) ".tanpopo-update-" = false then .error "更新計畫與執行環境不符"
  else if [p.target, p.workspace, p.statusDir, p.directory].all isCleanAbs = false then .error "更新計畫路徑無效"
  else if pathDir p.workspace ≠ pathDir p.target then .error "更新暫存與安裝目錄必須位於相同檔案系統"
  else .ok ()

/-- The hand-off file carries this record. -/
def handsOff (lib : Library) (content : String) (record : ReadyRecord) : Bool :=
  decide (content.utf8ByteSize ≤ 4096) && decide (lib.unmarshal content = some record)

/-! ## The two programs -/

/-- The calls of `prepare` up to the start of the helper. -/
inductive Call where
  | latest | mkdirRoot | mkdirTemp | writeDownloading | download | writeVerifying | random | marshalPlan | writePlan
  | stageHelper | openLog | startHelper
  deriving DecidableEq

inductive PreparePhase where
  /-- `Start` was not called. -/
  | idle
  | before (call : Call)
  /-- In the `select`. -/
  | watching
  /-- The helper was to be killed; waits for its end. -/
  | killed (e : String)
  /-- On the way out with an error, before the deferred removal of the workspace. -/
  | cleaning (e : String)
  | returned (e : Option String)
  /-- `Start` wrote the error to the status and is not active any more. -/
  | finished (e : Option String)
  deriving DecidableEq

/-- The calls of `RunAutomaticHelper`, as it makes them on Unix. -/
inductive HelperCall where
  | readPlan | checkPlan | acquireLock | setVerifying | fetchRelease | selectAsset | validateURL | verify | setPreparing
  | preparePayload | setStopping | writeHandoff | wait | checkParent | setInstalling | install | setCompleted | removeWorkspace
  deriving DecidableEq

inductive HelperPhase where
  | notStarted
  | before (call : HelperCall)
  | ended
  deriving DecidableEq

/-- What the programs have done. -/
inductive Action where
  | startedHelper (pid : Int) (plan : AutomaticPlan)
  | readHandoff (content : String)
  | shutdown
  | sawHelperEnd
  | removedWorkspace (failed : Bool)
  | returned (e : Option String)
  | fetched (tag : String) (release : OfficialRelease)
  | verified (asset : ReleaseAsset)
  | wroteHandoff (record : ReadyRecord)
  | sawParentEnd
  | install

structure Machine where
  parentAlive : Bool
  phase : PreparePhase
  /-- What `prepare` knows so far. -/
  tag : String
  asset : ReleaseAsset
  workspace : String
  token : String
  helperPID : Int
  helper : HelperPhase
  plan : AutomaticPlan
  release : OfficialRelease
  selected : ReleaseAsset
  workspaceExists : Bool
  handoff : Option String
  status : Option UpdateStatus
  archive : Option (List UInt8)
  /-- The last action first. -/
  log : List Action

def noAsset : ReleaseAsset := ⟨"", "", 0, "", ""⟩

def initial (a : Automatic) : Machine where
  parentAlive := true
  phase := .idle
  tag := ""
  asset := noAsset
  workspace := ""
  token := ""
  helperPID := 0
  helper := .notStarted
  plan := ⟨a.target, "", a.statusDir, a.directory, a.pid, 3, a.platform, "", "", noAsset⟩
  release := ⟨"", false, false, []⟩
  selected := noAsset
  workspaceExists := false
  handoff := none
  status := none
  archive := none
  log := []

inductive PrepareEvent where
  /-- `Start` has the lock and has written the status. -/
  | start
  /-- The call fails. -/
  | fails (e : String)
  /-- The call succeeds, with what it gives. -/
  | latest (tag : String) (asset : ReleaseAsset)
  | mkdirTemp (workspace : String)
  | random (token : String)
  | startHelper (pid : Int)
  | succeeds
  /-- The ticker; the hand-off file can be read or not. -/
  | tick (readable : Bool)
  | done
  | cancelled (e : String) (killFails : Bool)
  | timer (killFails : Bool)
  /-- `<-done` after a kill. -/
  | waits
  | removeAll (fails : Bool)
  | finish
  deriving DecidableEq

namespace Machine

def does (m : Machine) (action : Action) : Machine := { m with log := action :: m.log }

/-- Before `mkdirTemp` there is nothing to remove. -/
def leaves (m : Machine) (e : String) : Machine :=
  if m.workspaceExists then { m with phase := .cleaning e } else { m with phase := .returned (some e) }.does (.returned (some e))

def kills (m : Machine) (e : String) (killFails : Bool) : Machine :=
  { m with phase := .killed e, helper := if killFails then m.helper else .ended }

def exitMessage (m : Machine) : String :=
  match m.status with
  | some ⟨"failed", message⟩ => message
  | _ => "更新程序在關閉程式前結束"

/-- The plan that is written for the helper. -/
def planOf (a : Automatic) (m : Machine) : AutomaticPlan :=
  ⟨a.target, m.workspace, a.statusDir, a.directory, a.pid, 3, a.platform, m.tag, m.token, m.asset⟩

def readsHandoff (lib : Library) (m : Machine) (content : String) : Machine :=
  let m := m.does (.readHandoff content)
  if handsOff lib content ⟨m.helperPID, m.plan.token⟩ then
    (({ m with phase := .returned none }.does .shutdown).does (.returned none))
  else m

/-- The call after the one that succeeded. -/
def callDone (a : Automatic) (m : Machine) : Call → Option Machine
  | .mkdirRoot => some { m with phase := .before .mkdirTemp }
  | .writeDownloading => some { m with phase := .before .download, status := some ⟨"downloading", "正在自動下載更新…"⟩ }
  | .download => some { m with phase := .before .writeVerifying }
  | .writeVerifying => some { m with phase := .before .random, status := some ⟨"verifying", "下載完成，正在驗證更新套件…"⟩ }
  | .marshalPlan => some { m with phase := .before .writePlan }
  | .writePlan => some { m with phase := .before .stageHelper, plan := m.planOf a }
  | .stageHelper => some { m with phase := .before .openLog }
  | .openLog => some { m with phase := .before .startHelper }
  | _ => none

/-- One call of `prepare`, or one case of its `select`. -/
def prepareStep (lib : Library) (a : Automatic) (m : Machine) (event : PrepareEvent) : Option Machine :=
  match m.phase, event with
  | .idle, .start => some { m with phase := .before .latest, status := some ⟨"checking", "正在取得官方更新套件…"⟩ }
  | .before _, .fails e => some (m.leaves e)
  | .before .latest, .latest tag asset => some { m with phase := .before .mkdirRoot, tag, asset }
  | .before .mkdirTemp, .mkdirTemp workspace =>
    some { m with phase := .before .writeDownloading, workspace, workspaceExists := true }
  | .before .random, .random token => some { m with phase := .before .marshalPlan, token }
  | .before .startHelper, .startHelper pid =>
    some ({ m with phase := .watching, helperPID := pid, helper := .before .readPlan }.does (.startedHelper pid m.plan))
  | .before call, .succeeds => m.callDone a call
  | .watching, .tick readable =>
    match readable, m.handoff with
    | true, some content => some (m.readsHandoff lib content)
    | _, _ => some m
  | .watching, .done =>
    if m.helper = .ended then some ({ m with phase := .cleaning m.exitMessage }.does .sawHelperEnd) else none
  | .watching, .cancelled e killFails => some (m.kills e killFails)
  | .watching, .timer killFails => some (m.kills "更新準備逾時，原程式保持執行" killFails)
  | .killed e, .waits => if m.helper = .ended then some ({ m with phase := .cleaning e }.does .sawHelperEnd) else none
  | .cleaning e, .removeAll fails =>
    some (({ m with phase := .returned (some e), workspaceExists := m.workspaceExists && fails }.does
      (.removedWorkspace fails)).does (.returned (some e)))
  | .returned (some e), .finish => some { m with phase := .finished (some e), status := some ⟨"failed", e⟩ }
  | .returned none, .finish => some { m with phase := .finished none }
  | _, _ => none

/-! ## The helper -/

/-- An error ends the helper; once it has the lock it writes the error to the status. Where the other program has ended
by then, the helper starts it again before that. -/
def helperFails (m : Machine) (call : HelperCall) (e : String) : Machine :=
  { m with
    helper := .ended
    status := if [HelperCall.readPlan, .checkPlan, .acquireLock].contains call then m.status else some ⟨"failed", e⟩ }

/-- What a call of the helper does when nothing outside fails. -/
def helperCall (lib : Library) (platform : String) (m : Machine) : HelperCall → Except String Machine
  | .readPlan => .ok { m with helper := .before .checkPlan }
  | .checkPlan => (AppUpdate.checkPlan platform m.plan).map fun _ => { m with helper := .before .acquireLock }
  | .acquireLock => .ok { m with helper := .before .setVerifying }
  | .setVerifying =>
    .ok { m with helper := .before .fetchRelease, status := some ⟨"verifying", "下載完成，正在驗證更新套件…"⟩ }
  -- the response comes with an event of its own
  | .fetchRelease => .error "無法取得官方更新資訊"
  | .selectAsset =>
    match selectReleaseAsset m.release m.plan.platform with
    | .error e => .error e
    | .ok asset =>
      if asset ≠ m.plan.asset then .error "官方發布內容在下載後已變更，請重新更新"
      else .ok { m with helper := .before .validateURL, selected := asset }
  | .validateURL =>
    if lib.validURL m.selected m.plan.tag then .ok { m with helper := .before .verify } else .error "更新下載位址無效"
  | .verify =>
    (verifyDownloadedAsset lib m.archive m.selected).map fun _ =>
      { m with helper := .before .setPreparing }.does (.verified m.selected)
  | .setPreparing => .ok { m with helper := .before .preparePayload, status := some ⟨"preparing", "正在準備安裝更新…"⟩ }
  | .preparePayload => .ok { m with helper := .before .setStopping }
  | .setStopping => .ok { m with helper := .before .writeHandoff, status := some ⟨"stopping", "即將關閉程式並安裝更新…"⟩ }
  | .writeHandoff =>
    if m.workspaceExists then
      .ok ({ m with helper := .before .wait, handoff := some (lib.marshal ⟨m.helperPID, m.plan.token⟩) }.does
        (.wroteHandoff ⟨m.helperPID, m.plan.token⟩))
    else .error "no such file or directory"
  | .wait => .ok (if m.parentAlive then m else { m with helper := .before .checkParent })
  | .checkParent =>
    if m.parentAlive then .error "原程式未能正常關閉，已取消安裝"
    else .ok ({ m with helper := .before .setInstalling }.does .sawParentEnd)
  | .setInstalling =>
    .ok ({ m with helper := .before .install, status := some ⟨"installing", "程式已關閉，正在安裝更新…"⟩ }.does .install)
  | .install => .ok { m with helper := .before .setCompleted }
  | .setCompleted => .ok { m with helper := .before .removeWorkspace, status := some ⟨"completed", "更新完成，程式已重新啟動。"⟩ }
  | .removeWorkspace => .ok { m with helper := .ended, workspaceExists := false }

inductive HelperEvent where
  /-- The call is made. -/
  | call
  /-- The call fails for a reason outside. -/
  | fails (e : String)
  /-- The server answers with this release. -/
  | release (response : OfficialRelease)
  /-- The time to wait for the other program is over. -/
  | deadline
  /-- Something else ends the process. -/
  | dies

def helperStep (lib : Library) (platform : String) (m : Machine) (event : HelperEvent) : Option Machine :=
  match m.helper, event with
  | .before .fetchRelease, .release response =>
    match checkRelease m.plan.tag response with
    | .error e => some (m.helperFails .fetchRelease e)
    | .ok release => some ({ m with helper := .before .selectAsset, release }.does (.fetched m.plan.tag release))
  | .before .wait, .deadline => some { m with helper := .before .checkParent }
  | .before .wait, .fails _ => none
  | .before .checkParent, .fails _ => none
  -- the error of removing the workspace is ignored
  | .before .removeWorkspace, .fails _ => some { m with helper := .ended }
  | .before call, .call =>
    match m.helperCall lib platform call with
    | .ok m' => some m'
    | .error e => some (m.helperFails call e)
  | .before call, .fails e => some (m.helperFails call e)
  | .before _, .dies => some { m with helper := .ended }
  | _, _ => none

/-! ## Together -/

inductive Event where
  | prepare (event : PrepareEvent)
  | helper (event : HelperEvent)
  /-- The running program ends, shut down or not. -/
  | parentEnds
  /-- The files are changed by something else. -/
  | writes (handoff : Option String) (status : Option UpdateStatus) (archive : Option (List UInt8))

def step (lib : Library) (a : Automatic) (m : Machine) : Event → Option Machine
  | .prepare event => if m.parentAlive then m.prepareStep lib a event else none
  | .helper event => m.helperStep lib a.platform event
  | .parentEnds => some { m with parentAlive := false }
  | .writes handoff status archive => some { m with handoff, status, archive }

end Machine
end Tanpopo.AppUpdate
