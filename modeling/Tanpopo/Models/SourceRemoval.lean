import Tanpopo.Lib.Path
import Tanpopo.Lib.Runs
import Tanpopo.Models.Startup
import Tanpopo.Standalone.Package
import Mathlib
/-!
# Removing a GGUF file after its conversion

The manager starts a runtime for a GGUF file, reads what it prints and asks
whether it is ready. A file whose conversion was loaded may be removed then.
-/

namespace Tanpopo.Models.SourceRemoval

open Go Standalone

/-! ## Files -/

inductive FileKind where
  | regular
  | link
  | other
  deriving DecidableEq

/-- `os.FileInfo`. Two files are one when their identities are. -/
structure FileInfo where
  kind : FileKind
  identity : Nat
  size : Int
  modTime : Int
  deriving DecidableEq

structure Disk where
  getwd : Except String String
  lstat : String → Except String FileInfo
  evalSymlinks : String → Except String String
  readDir : String → Except String Directory

/-- `os.Remove` of a file. -/
def Disk.remove (disk : Disk) (path : String) : Disk where
  getwd := disk.getwd
  lstat other := if other = path then .error "no such file or directory" else disk.lstat other
  evalSymlinks := disk.evalSymlinks
  readDir directory :=
    if directory = pathDir path then (disk.readDir directory).map fun root => root.delete (pathBase path)
    else disk.readDir directory

structure PendingGGUFSourceRemoval where
  path : String
  identity : FileInfo
  fastGGUFLoaded : Bool
  deriving DecidableEq

def prepareGGUFSourceRemoval (disk : Disk) (modelDirectory sourcePath : String) : Except String PendingGGUFSourceRemoval :=
  match absPath disk.getwd (trimSpace modelDirectory) with
  | .error err => .error ("無法解析 GGUF 模型目錄: " ++ err)
  | .ok root => match absPath disk.getwd (trimSpace sourcePath) with
    | .error err => .error ("無法解析來源 GGUF 路徑: " ++ err)
    | .ok source =>
      if ¬ Go.equalFold (pathExt source) ".gguf" then .error "來源檔案不是 GGUF"
      else match disk.evalSymlinks root with
        | .error err => .error ("無法驗證 GGUF 模型目錄: " ++ err)
        | .ok resolvedRoot => match disk.evalSymlinks source with
          | .error err => .error ("無法驗證來源 GGUF: " ++ err)
          | .ok resolvedSource =>
            let relative := pathRel resolvedRoot resolvedSource
            if relative = "." ∨ relative = ".." ∨ hasPrefix relative "../" then
              .error "來源 GGUF 不在受管理的模型目錄內"
            else match disk.lstat source with
              | .error err => .error ("無法讀取來源 GGUF: " ++ err)
              | .ok info =>
                if info.kind ≠ .regular then .error "來源 GGUF 必須是一般檔案，且不可為符號連結"
                else .ok { path := source, identity := info, fastGGUFLoaded := false }

/-! ## Packages -/

def canonicalExistingPath (disk : Disk) (path : String) : String :=
  let path := pathClean path
  let path := match absPath disk.getwd path with
    | .ok absolute => absolute
    | .error _ => path
  let path := match disk.evalSymlinks path with
    | .ok resolved => resolved
    | .error _ => path
  pathClean path

structure Candidate where
  path : String
  profile : String
  modified : Int

/-- A package next to the source that names it, by its path or by its file name. -/
def candidate (parser : Parser) (disk : Disk) (sourcePath : String) (root : Directory) (name : String) : Option Candidate :=
  match root.get? name with
  | some (.node .directory) | some (.link _) | none => none
  | some (.node _) =>
    if ¬ hasSuffix (Go.toLower name) ".fgguf.json" then none
    else match readStandaloneFastGGUFPackage parser root name with
      | .error _ => none
      | .ok pkg =>
        let nameMatches := Go.equalFold (pathBase sourcePath) (pathBase (pkg.manifest.sourceNames.headD ""))
        let pathMatches := match pkg.manifest.sourcePaths with
          | [] => false
          | path :: _ => canonicalExistingPath disk path = canonicalExistingPath disk sourcePath
        if pathMatches || nameMatches then
          some ⟨pathJoin (pathDir sourcePath) pkg.manifestPath, pkg.manifest.profile, pkg.modifiedAt⟩
        else none

def standaloneFastGGUFManifestForSource (parser : Parser) (disk : Disk) (sourcePath preferredProfile : String) :
    Except String String :=
  match absPath disk.getwd (trimSpace sourcePath) with
  | .error err => .error err
  | .ok sourcePath => match disk.readDir (pathDir sourcePath) with
    | .error err => .error err
    | .ok root =>
      let preferred (c : Candidate) : Bool := preferredProfile ≠ "" && c.profile = preferredProfile
      let before (a b : Candidate) : Bool :=
        if preferred a ≠ preferred b then preferred a else b.modified ≤ a.modified
      match (((root.entries.map (·.1)).mergeSort).filterMap (candidate parser disk sourcePath root)).mergeSort before with
      | [] => .error "找不到可獨立啟動的 Fast GGUF"
      | first :: _ => .ok first.path

/-- Whether the file is removed, with the line of the log. -/
def removeOriginalGGUF (parser : Parser) (disk : Disk) (removal : PendingGGUFSourceRemoval) (fault : Option String) :
    Bool × String :=
  match disk.lstat removal.path with
  | .error err => (false, "Fast GGUF 已完成，但無法確認原始 GGUF，未移除: " ++ err)
  | .ok current =>
    if current.kind ≠ .regular ∨ removal.identity.identity ≠ current.identity ∨ current.size ≠ removal.identity.size ∨
        current.modTime ≠ removal.identity.modTime then
      (false, "Fast GGUF 已完成，但原始 GGUF 在轉換期間發生變更，未移除。")
    else match standaloneFastGGUFManifestForSource parser disk removal.path "" with
      | .error err => (false, "Fast GGUF 已完成，但獨立啟動資產不完整，未移除原始 GGUF: " ++ err)
      | .ok _ => match fault with
        | some err => (false, "Fast GGUF 已完成，但移除原始 GGUF 失敗: " ++ err)
        | none => (true, "Fast GGUF 已完成，已移除原始 GGUF: " ++ removal.path)

/-! ## Output -/

/-- What follows the first `marker`. -/
def after (text marker : String) : Option String :=
  (text.toList.tails.find? marker.toList.isPrefixOf).map fun rest => String.ofList (rest.drop marker.length)

/-- `strings.Fields`. -/
def fields (text : String) : List String :=
  ((text.toList.splitOnP isSpace).filter fun field => ¬ field.isEmpty).map String.ofList

/-- `strings.Cut` at an equals sign. -/
def cut (field : String) : Option (String × String) :=
  (after field "=").map fun value => (String.ofList (field.toList.takeWhile (· ≠ '=')), value)

structure Progress where
  phase : String
  completed : Int
  total : Int
  unit : String

def readField (progress : Progress) (field : String) : Progress :=
  match cut field with
  | none => progress
  | some (key, value) =>
    if key = "phase" then { progress with phase := value }
    else if key = "completed" then { progress with completed := atoi value }
    else if key = "total" then { progress with total := atoi value }
    else if key = "unit" then { progress with unit := value }
    else progress

def parseMLXGGUFProgress (line : String) : Option Progress :=
  match (after line "TANPOPO_MODEL_PROGRESS ").orElse fun _ => after line "TANPOPO_GGUF_PROGRESS " with
  | none => none
  | some text =>
    let progress := (fields text).foldl readField ⟨"", 0, 0, "bytes"⟩
    if progress.phase ∉ ["converting", "saving_cache", "loading_cache", "loading"] then none
    else if progress.completed < 0 ∨ progress.total ≤ 0 ∨ (progress.unit ≠ "bytes" ∧ progress.unit ≠ "steps") then none
    else some { progress with completed := min progress.completed progress.total }

/-- A line that says that the converted model was loaded and can run without its source. -/
def showsStandalone (line : String) : Bool :=
  (contains line "state=reloaded" || contains line "state=hit") && contains line "standalone=ready"

def preparationOf (line : String) : String :=
  if contains line "state=checking" then "checking_cache"
  else if contains line "state=loading" || contains line "state=hit" then "loading_cache"
  else if contains line "state=miss" || contains line "state=invalid" then "converting"
  else if contains line "state=saving" then "saving_cache"
  else if contains line "state=stored" || contains line "state=unavailable" then "loading"
  else if contains line "state=disabled" then "direct_loading"
  else ""

/-! ## The manager -/

structure Preparation where
  phase : String
  done : Int
  total : Int
  percent : Int
  known : Bool

def noPreparation (phase : String) : Preparation := ⟨phase, 0, 0, 0, false⟩

/-- Commands are numbered in the order in which they are started. -/
structure Manager where
  cmd : Option Nat
  running : Bool
  ready : Bool
  stopping : Bool
  skipGGUFConversionCache : Bool
  preparation : Preparation
  pendingGGUFRemoval : Option PendingGGUFSourceRemoval

/-- The command is the one that runs. -/
def Manager.active (m : Manager) (command : Nat) : Bool := m.cmd = some command && m.running

/-- The command is the one that runs, and it is not ready. -/
def Manager.loading (m : Manager) (command : Nat) : Bool := m.active command && !m.ready

/-- The JSON reader, and the percentage of two numbers in doubles. -/
structure Env where
  parser : Parser
  percent : Int → Int → Int

def showProgress (env : Env) (m : Manager) (progress : Progress) : Manager :=
  let steps : Bool := progress.unit = "steps"
  { m with preparation := {
      phase := if m.skipGGUFConversionCache then m.preparation.phase else progress.phase
      done := if steps then 0 else progress.completed
      total := if steps then 0 else progress.total
      percent := env.percent progress.completed progress.total
      known := true } }

def showPreparation (m : Manager) (preparation : String) : Manager :=
  let preparation :=
    if m.skipGGUFConversionCache then "direct_loading"
    else if m.preparation.phase = "converting" ∧ preparation = "checking_cache" then "converting"
    else preparation
  { m with preparation :=
      if preparation ∈ ["checking_cache", "loading_cache", "direct_loading"] then noPreparation preparation
      else { m.preparation with phase := preparation } }

def handleMLXRuntimeOutput (env : Env) (m : Manager) (command : Nat) (line : String) : Manager :=
  match parseMLXGGUFProgress line with
  | some progress => if m.loading command then showProgress env m progress else m
  | none =>
    if ¬ contains line "TANPOPO_GGUF_CACHE " then m
    else if showsStandalone line then
      if m.loading command then
        { m with pendingGGUFRemoval := m.pendingGGUFRemoval.map fun removal => { removal with fastGGUFLoaded := true } }
      else m
    else if preparationOf line = "" then m
    else if m.loading command then showPreparation m (preparationOf line)
    else m

def runtimeHealthResponseReady (statusCode : Int) : Bool :=
  (200 ≤ statusCode && statusCode < 300) || statusCode = 401 || statusCode = 403

/-- What the probe of a command that answers leaves, and what is to be removed. -/
def becomeReady (removeOriginalGGUF : Bool) (m : Manager) (command : Nat) : Manager × Option PendingGGUFSourceRemoval :=
  if m.active command then
    ({ m with ready := true, preparation := noPreparation "", pendingGGUFRemoval := none },
      match m.pendingGGUFRemoval with
      | none => none
      | some removal => if removal.fastGGUFLoaded && removeOriginalGGUF then some removal else none)
  else (m, none)

/-- `wait`. -/
def exited (m : Manager) (command : Nat) : Manager :=
  if m.cmd = some command then
    { m with
      cmd := none
      running := false
      ready := false
      stopping := false
      preparation := noPreparation ""
      pendingGGUFRemoval := none }
  else m

/-- What a start that passed its other checks comes to. `isGGUF` is false for the other runtime. -/
structure Launch where
  isGGUF : Bool
  modelDirectory : String
  modelArgument : String
  skipGGUFConversionCache : Bool
  extraArgs : List String
  /-- The rank of a ring; such a process is not asked whether it is ready. -/
  ranked : Bool
  preparation : String

def pendingSourceRemoval (disk : Disk) (removeOriginalGGUF : Bool) (launch : Launch) :
    Except String (Option PendingGGUFSourceRemoval) :=
  if removeOriginalGGUF && !hasAnyArgument launch.extraArgs ["--distributed-config", "--distributed-config-base64"] &&
      launch.isGGUF && !launch.skipGGUFConversionCache && !isFastGGUFManifestPath launch.modelArgument then
    match prepareGGUFSourceRemoval disk launch.modelDirectory launch.modelArgument with
    | .error err => .error ("無法啟用轉換後移除原 GGUF: " ++ err)
    | .ok removal => .ok (some removal)
  else .ok none

/-! ## Events -/

/-- Where `monitorReady` of a command is. -/
inductive Monitor where
  | probing
  | removing (removal : PendingGGUFSourceRemoval)

structure State where
  manager : Manager
  removeOriginalGGUF : Bool
  disk : Disk
  started : Nat
  monitors : Table Nat Monitor

inductive Event where
  | starts (launch : Launch)
  /-- A process prints a line. -/
  | prints (command : Nat) (line : String)
  /-- A monitor looks whether its command runs. -/
  | looks (command : Nat)
  /-- A monitor gets an answer, or none. -/
  | answers (command : Nat) (statusCode : Option Int)
  /-- A monitor removes what it was left with. -/
  | removes (command : Nat) (fault : Option String)
  | exits (command : Nat)
  | stops
  /-- `Restore`, when its start fails. -/
  | restoreFails
  | sets (removeOriginalGGUF : Bool)
  /-- Another program changes the files. -/
  | changes (disk : Disk)

section
variable (env : Env)

def State.start (s : State) (launch : Launch) : State :=
  if s.manager.running then s
  else match pendingSourceRemoval s.disk s.removeOriginalGGUF launch with
    | .error _ => s
    | .ok pending =>
      { s with
        manager := {
          cmd := some s.started
          running := true
          ready := false
          stopping := false
          skipGGUFConversionCache := launch.skipGGUFConversionCache
          preparation := noPreparation launch.preparation
          pendingGGUFRemoval := pending }
        started := s.started + 1
        monitors := if launch.ranked then s.monitors else s.monitors.set s.started .probing }

def State.answer (s : State) (command : Nat) : Option Int → State
  | none => s
  | some statusCode =>
    if runtimeHealthResponseReady statusCode then
      let (manager, removal) := becomeReady s.removeOriginalGGUF s.manager command
      { s with manager, monitors := match removal with
          | none => s.monitors.delete command
          | some removal => s.monitors.set command (.removing removal) }
    else s

def State.remove (s : State) (command : Nat) (removal : PendingGGUFSourceRemoval) (fault : Option String) : State :=
  { s with
    monitors := s.monitors.delete command
    disk := if (SourceRemoval.removeOriginalGGUF env.parser s.disk removal fault).1 then s.disk.remove removal.path else s.disk }

def State.step (s : State) : Event → Option State
  | .starts launch => some (s.start launch)
  | .prints command line =>
    if command < s.started then some { s with manager := handleMLXRuntimeOutput env s.manager command line } else none
  | .looks command => match s.monitors.get? command with
    | some .probing => some (if s.manager.active command then s else { s with monitors := s.monitors.delete command })
    | _ => none
  | .answers command statusCode => match s.monitors.get? command with
    | some .probing => some (s.answer command statusCode)
    | _ => none
  | .removes command fault => match s.monitors.get? command with
    | some (.removing removal) => some (s.remove env command removal fault)
    | _ => none
  | .exits command => if command < s.started then some { s with manager := exited s.manager command } else none
  | .stops =>
    some (if s.manager.running && s.manager.cmd.isSome then { s with manager := { s.manager with stopping := true } } else s)
  | .restoreFails => some { s with manager := { s.manager with running := false } }
  | .sets removeOriginalGGUF => some { s with removeOriginalGGUF }
  | .changes disk => some { s with disk }

/-- `NewManager`. -/
def initial (removeOriginalGGUF : Bool) (disk : Disk) : State where
  manager := ⟨none, false, false, false, false, noPreparation "", none⟩
  removeOriginalGGUF
  disk
  started := 0
  monitors := ∅

end

end Tanpopo.Models.SourceRemoval
