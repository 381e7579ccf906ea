import Tanpopo.Models.Startup
/-!
# The saved state

A successful start is saved, and a restarted service starts what was saved. The
state that is saved is normalized first, for the runtime it is for.

- `normalizeRuntimeState`, `validateRuntimeState`: what `Save` does with a state.
- `start`: `startLocked` as a whole.
- `restore`, `restart`: `Restore` of a service that was just started.
-/

namespace Tanpopo.Models

open Go Download

@[ext]
structure RuntimeState where
  desiredRunning : Bool
  runtime : String
  runtimeVariant : String
  model : String
  mmproj : String
  draftModel : String
  draftKind : String
  dflashEnabled : Bool
  mmapEnabled : Bool
  fastGGUF : Bool
  skipGGUFConversionCache : Bool
  kvCacheQuantization : String
  startupCommandID : String
  startupCommandName : String
  deriving DecidableEq

/-- Which kind of draft is kept. -/
def normalDraftKind (dflashEnabled : Bool) (draftKind : String) : String :=
  let kind := if dflashEnabled then "dflash" else toLower (trimSpace draftKind)
  if (kind = "dflash" ∧ dflashEnabled = true) ∨ kind = "mtp" then kind else ""

def normalRuntime (runtime : String) : String :=
  if trimSpace runtime = "" then runtimeLlamaServer else trimSpace runtime

def normalizeRuntimeState (state : RuntimeState) : RuntimeState :=
  let runtime := normalRuntime state.runtime
  let draftKind := normalDraftKind state.dflashEnabled state.draftKind
  { state with
    runtime
    model := trimSpace state.model
    mmproj := if runtime = runtimeMLXServer then "" else trimSpace state.mmproj
    draftModel := if draftKind = "" then "" else trimSpace state.draftModel
    draftKind
    fastGGUF := runtime = runtimeMLXServer && state.fastGGUF
    skipGGUFConversionCache := runtime = runtimeMLXServer && state.skipGGUFConversionCache
    kvCacheQuantization := if draftKind = "" then toLower (trimSpace state.kvCacheQuantization) else ""
    startupCommandID := trimSpace state.startupCommandID
    startupCommandName := trimSpace state.startupCommandName }

def isStateText (value : String) : Bool := value.utf8ByteSize ≤ 4096 && !containsAny value "\x00\r\n"

def validateRuntimeState (state : RuntimeState) : Except String Unit :=
  if state.runtime ≠ runtimeLlamaServer ∧ state.runtime ≠ runtimeMLXServer then .error "runtime 不支援"
  else if state.runtimeVariant ≠ "" ∧ (state.runtime ≠ runtimeLlamaServer ∨ isAMDRuntimeVariant state.runtimeVariant = false) then
    .error "runtime_variant 不支援"
  else if [state.model, state.mmproj, state.draftModel, state.startupCommandID, state.startupCommandName].all isStateText = false then
    .error "格式錯誤"
  else if state.desiredRunning = true ∧ (state.model = "" ∨ state.startupCommandID = "") then
    .error "執行狀態缺少模型或啟動參數 ID"
  else if state.draftKind ≠ "" ∧ state.draftModel = "" then .error "推測解碼狀態缺少 Draft 模型"
  else if state.draftKind = "mtp" ∧ state.runtime ≠ runtimeMLXServer then .error "MTP 狀態僅支援 mlx-server"
  else if state.kvCacheQuantization ≠ "" ∧ state.kvCacheQuantization ≠ "q8" ∧ state.kvCacheQuantization ≠ "q4" then
    .error "KV Cache 量化狀態只支援 Q8 或 Q4"
  else if state.draftKind ≠ "" ∧ state.kvCacheQuantization ≠ "" then .error "推測解碼與 KV Cache 量化狀態不可同時啟用"
  else .ok ()

def save (state : RuntimeState) : Except String RuntimeState :=
  (validateRuntimeState (normalizeRuntimeState state)).map fun _ => normalizeRuntimeState state

/-- What a new service reads of a saved state. -/
def load (saved : RuntimeState) : Except String RuntimeState :=
  (validateRuntimeState (normalizeRuntimeState saved)).map fun _ => normalizeRuntimeState saved

/-! ## Starting and restoring -/

/-- What the status says once the runtime was started. -/
def statusOf (args : StartArguments) (p : Prepared) (started : Started) : RuntimeState where
  desiredRunning := true
  runtime := if p.command.isMLX then runtimeMLXServer else runtimeLlamaServer
  runtimeVariant := if p.command.isMLX then "" else p.command.runtimeVariant
  model := trimSpace args.model
  mmproj := started.statusMMProj
  draftModel := trimSpace p.command.draftModel
  draftKind :=
    -- without a draft model there is no kind; DFlash overrides what the directory says
    if trimSpace p.command.draftModel = "" then "" else if p.dflashEnabled then "dflash" else started.selection.draftKind
  dflashEnabled := p.dflashEnabled
  mmapEnabled := args.mmapEnabled
  fastGGUF := args.fastGGUFEnabled
  skipGGUFConversionCache := args.skipGGUFConversionCache
  kvCacheQuantization := p.command.kvCacheQuantization
  startupCommandID := p.command.id
  startupCommandName := p.command.name

/-- The memory and the answers of the runtime at one time. -/
structure Moment where
  memory : Option MemorySnapshot
  inspect : Inspect

def start (host : Host) (settings : Settings) (moment : Moment) (args : StartArguments) :
    Except String (Selection × RuntimeState) := do
  let prepared ← prepare host settings args
  let p ← protect host settings moment.memory args.model args.mmproj prepared
  preflight host moment.inspect settings args p.command
  let started ← launch host settings args p
  let state ← save (statusOf args p started)
  return (started.selection, state)

/-- The arguments `Restore` calls `Start` with. -/
def restoreArguments (saved : RuntimeState) (command : StartupCommand) : StartArguments where
  model := saved.model
  mmproj := saved.mmproj
  draftModel := saved.draftModel
  dflashEnabled := saved.dflashEnabled
  mmapEnabled := saved.mmapEnabled
  fastGGUFEnabled := saved.fastGGUF
  kvCacheQuantizationEnabled := saved.kvCacheQuantization ≠ ""
  skipGGUFConversionCache := saved.skipGGUFConversionCache
  conversionConfirmationKey := ""
  startupCommand := command

/-- `resolveCommand` is `Get` of the store of startup commands. -/
def restore (host : Host) (settings : Settings) (moment : Moment) (resolveCommand : String → Except String StartupCommand)
    (saved : RuntimeState) : Except String (StartupCommand × Selection) :=
  if !saved.desiredRunning then .error "狀態檔不要求恢復"
  else match resolveCommand saved.startupCommandID with
    | .error e => .error e
    | .ok command =>
      if command.runtime ≠ saved.runtime then
        .error ("啟動參數 Runtime 已由 " ++ saved.runtime ++ " 變更為 " ++ command.runtime)
      else if command.runtimeVariant ≠ saved.runtimeVariant then
        .error "啟動參數的 Runtime 版本已變更，請手動確認後重新載入模型"
      else (start host settings moment (restoreArguments saved command)).map fun started => (command, started.1)

/-- A new service loads the state that was saved and restores it. -/
def restart (host : Host) (settings : Settings) (moment : Moment) (resolveCommand : String → Except String StartupCommand)
    (saved : RuntimeState) : Except String (StartupCommand × Selection) := do
  restore host settings moment resolveCommand (← load saved)

end Tanpopo.Models
