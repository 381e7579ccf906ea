import Tanpopo.Models.Active
import Tanpopo.Models.Arguments
/-!
# Starting a model

`startLocked` checks a request, may give up speculative decoding under memory
pressure, asks the MLX runtime whether a GGUF file has to be converted first,
starts the runtime and saves what it started.

- `prepare`, `protect`, `preflight`, `launch`: the parts of `startLocked`.
- `RuntimeState`: what is saved, with its normalization and its checks.
- `restore`: what a restarted service does with it.
-/

namespace Tanpopo.Models

open Go Download

structure StartupCommand where
  id : String
  name : String
  runtime : String
  runtimeVariant : String
  draftModel : String
  contextSize : Int
  kvCacheQuantization : String
  clusterGGUFStrategy : String
  extraArgs : List String
  deriving DecidableEq

/-- The arguments of `Start`. -/
structure StartArguments where
  model : String
  mmproj : String
  draftModel : String
  dflashEnabled : Bool
  mmapEnabled : Bool
  fastGGUFEnabled : Bool
  kvCacheQuantizationEnabled : Bool
  skipGGUFConversionCache : Bool
  conversionConfirmationKey : String
  startupCommand : StartupCommand

structure Settings where
  memoryProtectionEnabled : Bool
  removeOriginalGGUF : Bool
  defaultFastGGUFStrategy : String

structure MemorySnapshot where
  totalBytes : UInt64
  availableBytes : UInt64

structure ConversionPreflight where
  requiresConversion : Bool
  cacheKey : String

/-- What the files and the programs of the machine say. -/
structure Host where
  /-- `resolveModelFile` of a name that is not blank, and `resolveMLXModel`. -/
  modelFile : String → Except String String
  mlxModel : String → Except String String
  standalonePackage : String → Except String Unit
  /-- `resolveFastGGUFFallbackManifest`, for a strategy. -/
  fallbackManifest : String → String → Except String String
  isEmbeddedMTPGGUF : String → Bool
  isGGUFDFlashDraft : String → Bool
  isSupportedGGUFDFlashTarget : String → Bool
  isMLXDraftDirectory : String → Bool
  isSupportedMLXMTPDraftDirectory : String → Bool
  isSupportedMLXMTPTargetDirectory : String → Bool
  validateMLXMTPPair : String → String → Except String Unit
  isSupportedMLXDFlashDraftDirectory : String → Bool
  isSupportedMLXDFlashTargetDirectory : String → Bool
  /-- `mlxGGUFModelArchitecture`, and whether it is canonically `qwen35`. -/
  architecture : String → Except String String
  isQwen35 : String → Bool
  /-- `resolveCompanionMMProj`: the path, and how the status names it. -/
  companionMMProj : String → Except String (String × String)
  /-- `pathFootprintBytes`. -/
  footprint : String → Except String UInt64
  serverBinary : Except String String
  mlxServer : Except String String
  /-- `AMDModeFromArguments` and `detectAMDRuntime`. -/
  amdBinary : List String → Except String String
  isAppleSilicon : Bool
  prepareGGUFSourceRemoval : String → Except String Unit
  /-- A process of this program can be started. -/
  executes : String → Bool

/-- `--inspect-gguf-cache` of the MLX runtime, for a strategy, the fast mode, a model and a projection. -/
abbrev Inspect := String → Bool → String → String → Except String ConversionPreflight

def mtpArguments : List String := ["--mtp-draft", "--mtp-block-size"]

def StartupCommand.isMLX (c : StartupCommand) : Bool := c.runtime = runtimeMLXServer

def StartupCommand.mtpEnabled (c : StartupCommand) : Bool := c.isMLX && hasAnyArgument c.extraArgs mtpArguments

def strategy (settings : Settings) (c : StartupCommand) : String :=
  if c.clusterGGUFStrategy ≠ "" then c.clusterGGUFStrategy else settings.defaultFastGGUFStrategy

/-! ## Models -/

def isFastGGUFManifestPath (path : String) : Bool := hasSuffix (toLower (trimSpace path)) ".fgguf.json"

def resolveModelFile (host : Host) (value : String) : Except String String :=
  if trimSpace value = "" then .error "不可為空" else host.modelFile (trimSpace value)

def resolveMLXModel (host : Host) (value : String) : Except String String :=
  if trimSpace value = "" then .error "不可為空" else host.mlxModel (trimSpace value)

def resolveMLXGGUFFile (host : Host) (value : String) : Except String String :=
  match resolveModelFile host (trimPrefix (trimSpace value) mlxGGUFPathPrefix) with
  | .error e => .error e
  | .ok path => if equalFold (pathExt path) ".gguf" then .ok path else .error "不是 GGUF 檔案"

/-- The path of the target, and whether it is a GGUF file. -/
def resolveMLXTargetModel (host : Host) (strategy value : String) : Except String (String × Bool) :=
  let value := trimSpace value
  if hasPrefix value mlxGGUFPathPrefix then
    let modelPath := trimSpace (trimPrefix value mlxGGUFPathPrefix)
    if isFastGGUFManifestPath modelPath then
      match resolveModelFile host modelPath with
      | .error e => .error e
      | .ok resolved => (host.standalonePackage resolved).map fun _ => (resolved, true)
    else match resolveMLXGGUFFile host modelPath with
      | .ok path => .ok (path, true)
      | .error e => match host.fallbackManifest strategy modelPath with
        | .error _ => .error e
        | .ok manifestPath => .ok (manifestPath, true)
  else (resolveMLXModel host value).map fun path => (path, false)

structure TargetSelection where
  modelArgument : String
  isGGUF : Bool
  mmprojArgument : String
  statusMMProj : String

def resolveMLXTargetSelection (host : Host) (strategy model mmproj : String) : Except String TargetSelection :=
  match resolveMLXTargetModel host strategy model with
  | .error e => .error e
  | .ok (modelArgument, false) =>
    if trimSpace mmproj ≠ "" then .error "mmproj 只能搭配 GGUF Target 模型" else .ok ⟨modelArgument, false, "", ""⟩
  | .ok (modelArgument, true) =>
    if isFastGGUFManifestPath modelArgument then
      if trimSpace mmproj ≠ "" then .error "Fast GGUF 已內含所需投影權重，請勿另行指定 mmproj"
      else .ok ⟨modelArgument, true, "", ""⟩
    else if isMMProjGGUF modelArgument then .error "mmproj 不可作為 GGUF Target 模型啟動"
    else match host.architecture modelArgument with
      | .error e => .error ("無法讀取 GGUF 模型架構：" ++ e)
      | .ok architecture =>
        if trimSpace architecture = "" then .error "GGUF 缺少 general.architecture，無法交由 mlx-server 載入"
        else if trimSpace mmproj ≠ "" then
          (resolveMLXGGUFFile host mmproj).map fun path => ⟨modelArgument, true, path, trimSpace mmproj⟩
        else if host.isQwen35 architecture then
          (host.companionMMProj modelArgument).map fun companion => ⟨modelArgument, true, companion.1, companion.2⟩
        else .ok ⟨modelArgument, true, "", ""⟩

/-! ## Checks -/

/-- The command as it goes on, with the draft it may use. -/
structure Prepared where
  command : StartupCommand
  draftModel : String
  dflashEnabled : Bool
  deriving DecidableEq

/-- A GGUF target of MTP has to have the prediction layers in it. -/
def embeddedMTPTarget (host : Host) (strategy : String) (args : StartArguments) : Except String Bool :=
  if !args.startupCommand.mtpEnabled then .ok false
  else match resolveMLXTargetModel host strategy args.model with
    | .error e => .error e
    | .ok (modelArgument, isGGUF) =>
      if isGGUF && !host.isEmbeddedMTPGGUF modelArgument then .error "這份 GGUF 未包含 mlx-server 支援的內嵌 MTP 預測層"
      else .ok isGGUF

def internalArguments : List String :=
  ["--distributed-rank", "--distributed-config-base64", "--distributed-parent-stdin", "--distributed-smoke"]

def StartArguments.drafts (args : StartArguments) : Bool := args.dflashEnabled || args.startupCommand.mtpEnabled

/-- The draft the request is about: none without speculative decoding, or when the target has it built in. -/
def chosenDraft (args : StartArguments) (embedded : Bool) : String :=
  if embedded || !args.drafts then "" else trimSpace args.draftModel

def preparedArgs (args : StartArguments) (embedded : Bool) : List String :=
  let c := args.startupCommand
  let extraArgs := if args.drafts && c.isMLX then withoutDraftModelArguments c.extraArgs else withoutDFlashArguments c.extraArgs
  if args.dflashEnabled && !embedded && !c.isMLX then extraArgs ++ ["--spec-type", "draft-dflash"] else extraArgs

def preparedWith (args : StartArguments) (embedded : Bool) : Prepared where
  command := { args.startupCommand with
    kvCacheQuantization := if args.kvCacheQuantizationEnabled then args.startupCommand.kvCacheQuantization else ""
    draftModel := chosenDraft args embedded
    extraArgs := preparedArgs args embedded }
  draftModel := chosenDraft args embedded
  dflashEnabled := args.dflashEnabled

/-- The part of `startLocked` before the memory is looked at. -/
def prepare (host : Host) (settings : Settings) (args : StartArguments) : Except String Prepared :=
  let c := args.startupCommand
  if c.isMLX && hasAnyArgument c.extraArgs internalArguments then
    .error "受管 Runtime 不接受 worker 或 Smoke 內部參數；請使用 --distributed-config 設定節點"
  else if args.kvCacheQuantizationEnabled && c.kvCacheQuantization = "" then .error "請先在啟動參數選擇 KV Cache Q8 或 Q4"
  else match embeddedMTPTarget host (strategy settings c) args with
    | .error e => .error e
    | .ok embedded =>
      if args.dflashEnabled && c.mtpEnabled then .error "DFlash 與 MTP 不可同時啟用"
      else if args.drafts && args.kvCacheQuantizationEnabled then .error "Draft 推測解碼與 KV Cache 量化不可同時啟用"
      else if args.skipGGUFConversionCache && !c.isMLX then .error "不建立 Fast GGUF 只適用於 mlx-server 載入 GGUF"
      else if !embedded && args.drafts && chosenDraft args embedded = "" then
        .error ("找不到可用的 " ++ (if c.mtpEnabled then "MTP" else "DFlash") ++
          " Draft 模型，請先到「模型下載」取得配對的 Draft")
      else .ok (preparedWith args embedded)

/-! ## Memory pressure -/

def gibibyte : UInt64 := 1024 * 1024 * 1024

def estimateRuntimeMemoryBytes (targetBytes companionBytes draftBytes : UInt64) (contextSize batchSize : Int)
    (kvQuantization : String) : UInt64 :=
  let modelBytes := targetBytes + companionBytes + draftBytes
  let baseBytes := modelBytes + modelBytes / 10 + 512 * 1024 * 1024
  let bytesPerToken := max (64 * 1024) (min (1024 * 1024) (targetBytes / 60000))
  let bytesPerToken :=
    if kvQuantization = "q4" then bytesPerToken * 35 / 100
    else if kvQuantization = "q8" then bytesPerToken * 60 / 100
    else bytesPerToken
  let kvBytes := bytesPerToken * UInt64.ofNat (max 128 contextSize).toNat
  let batchBytes := min (modelBytes * UInt64.ofNat (max 128 batchSize).toNat / 8192) (8 * gibibyte)
  baseBytes + kvBytes + batchBytes

def contextCandidates (configured : Int) : List Int :=
  let values := ([configured, 131072, 65536, 32768, 16384, 8192, 4096].filter fun value => 0 < value && value ≤ configured).dedup
  if values = [] then [max 128 configured] else values

def runtimeBatchSize (c : StartupCommand) : Int :=
  (positiveArgument (if c.isMLX then "--prefill-step-size" else "--batch-size") c.extraArgs).getD 512

def lowerBatch (c : StartupCommand) : StartupCommand :=
  { c with
    extraArgs :=
      if c.runtime = runtimeLlamaServer then
        setManagedIntegerArgument (setManagedIntegerArgument c.extraArgs "--batch-size" 256) "--ubatch-size" 128
      else setManagedIntegerArgument c.extraArgs "--prefill-step-size" 256 }

def companionFootprint (host : Host) (resolve : String → Except String String) (value : String) : Except String UInt64 :=
  if trimSpace value = "" then .ok 0
  else match resolve value with
    | .error e => .error e
    | .ok path => host.footprint path

def runtimeModelFootprintBytes (host : Host) (settings : Settings) (c : StartupCommand) (model mmproj draftModel : String) :
    Except String (UInt64 × UInt64 × UInt64) := do
  let path ← if c.isMLX then (resolveMLXTargetModel host (strategy settings c) model).map (·.1) else resolveModelFile host model
  let target ← host.footprint path
  let companion ← companionFootprint host (resolveModelFile host) mmproj
  let draft ← companionFootprint host (if c.isMLX then resolveMLXModel host else resolveModelFile host) draftModel
  return (target, companion, draft)

/-- The largest context that fits, and whether there is one. -/
def chooseContext (c : StartupCommand) (budget target companion draft : UInt64) (batchSize : Int) : Int × Bool :=
  let contexts := contextCandidates c.contextSize
  match contexts.find? fun contextSize =>
      estimateRuntimeMemoryBytes target companion draft contextSize batchSize c.kvCacheQuantization ≤ budget with
  | some contextSize => (contextSize, true)
  | none => (contexts.getLastD 0, false)

def withoutDraft (p : Prepared) : Prepared :=
  { command := { p.command with
      extraArgs := withoutSpeculativeDecodingArguments p.command.extraArgs
      draftModel := "" }
    draftModel := ""
    dflashEnabled := false }

/-- There is room for the model with its draft, if need be with the smaller batch. -/
def draftFits (p : Prepared) (budget target companion draft : UInt64) : Bool :=
  (chooseContext p.command budget target companion draft (runtimeBatchSize p.command)).2 ||
    (chooseContext p.command budget target companion draft 256).2

def Prepared.withContext (p : Prepared) (contextSize : Int) : Prepared :=
  { p with command := { p.command with contextSize } }

/-- The smaller batch first, then no speculative decoding, and the context as large as it fits. -/
def fitMemory (p : Prepared) (budget target companion draft : UInt64) : Except String Prepared :=
  let first := chooseContext p.command budget target companion draft (runtimeBatchSize p.command)
  let second := chooseContext p.command budget target companion draft 256
  let third := chooseContext p.command budget target companion 0 256
  let lower := { p with command := lowerBatch p.command }
  if first.2 then .ok (p.withContext first.1)
  else if second.2 then .ok (lower.withContext second.1)
  else if (p.dflashEnabled || p.command.mtpEnabled || trimSpace p.draftModel ≠ "") && third.2 then
    .ok ((withoutDraft lower).withContext third.1)
  else .error "記憶體壓力保護已阻止啟動"

def reserveBytes (snapshot : MemorySnapshot) : UInt64 := max (2 * gibibyte) (snapshot.totalBytes * 8 / 100)

def isUnprotected (settings : Settings) (snapshot : MemorySnapshot) : Bool :=
  !settings.memoryProtectionEnabled || snapshot.totalBytes = 0 || snapshot.availableBytes = 0

def distributedArguments : List String := ["--distributed-config", "--distributed-config-base64"]

def isDistributed (c : StartupCommand) : Bool := c.isMLX && hasAnyArgument c.extraArgs distributedArguments

def protect (host : Host) (settings : Settings) (memory : Option MemorySnapshot) (model mmproj : String) (p : Prepared) :
    Except String Prepared :=
  match memory with
  | none => .ok p
  | some snapshot =>
    if isUnprotected settings snapshot then .ok p
    else if snapshot.availableBytes ≤ reserveBytes snapshot then .error "記憶體壓力保護已阻止啟動"
    else if isDistributed p.command then .ok p
    else match runtimeModelFootprintBytes host settings p.command model mmproj p.draftModel with
      | .error e => .error ("記憶體壓力保護無法估算模型: " ++ e)
      | .ok (target, companion, draft) =>
        fitMemory p (snapshot.availableBytes - reserveBytes snapshot) target companion draft

/-- The protection has no room for the draft. -/
def underPressure (host : Host) (settings : Settings) (memory : Option MemorySnapshot) (model mmproj : String) (p : Prepared) :
    Bool :=
  match memory with
  | none => false
  | some snapshot =>
    if isUnprotected settings snapshot || isDistributed p.command then false
    else match runtimeModelFootprintBytes host settings p.command model mmproj p.draftModel with
      | .error _ => false
      | .ok (target, companion, draft) =>
        !draftFits p (snapshot.availableBytes - reserveBytes snapshot) target companion draft

/-! ## Conversion -/

def inspectConversion (host : Host) (inspect : Inspect) (settings : Settings) (model mmproj : String) (fast : Bool)
    (c : StartupCommand) : Except String ConversionPreflight :=
  if !host.isAppleSilicon then .error "mlx-server 僅支援 macOS Apple Silicon"
  else match resolveMLXTargetSelection host (strategy settings c) model mmproj with
    | .error e => .error e
    | .ok selection =>
      if !selection.isGGUF || isFastGGUFManifestPath selection.modelArgument then .ok ⟨false, ""⟩
      else match host.mlxServer with
        | .error e => .error e
        | .ok _ => inspect (strategy settings c) fast selection.modelArgument selection.mmprojArgument

/-- A conversion has to be confirmed with its key. -/
def preflight (host : Host) (inspect : Inspect) (settings : Settings) (args : StartArguments) (c : StartupCommand) :
    Except String Unit :=
  if !c.isMLX || args.skipGGUFConversionCache then .ok ()
  else match inspectConversion host inspect settings args.model args.mmproj args.fastGGUFEnabled c with
    | .error e => .error ("無法判斷 GGUF 是否需要轉換: " ++ e)
    | .ok inspection =>
      if inspection.requiresConversion && trimSpace args.conversionConfirmationKey ≠ inspection.cacheKey then
        .error "此模型需要轉換並建立 Fast GGUF，請先確認轉換"
      else .ok ()

/-! ## The runtime -/

/-- What a runtime was started with. -/
structure Selection where
  modelArgument : String
  mmprojArgument : String
  draftModelArgument : String
  draftKind : String
  dflashEnabled : Bool
  mtpEnabled : Bool
  deriving DecidableEq

structure Started where
  selection : Selection
  statusMMProj : String
  deriving DecidableEq

def execute (host : Host) (binary : String) (selection : Selection) : Except String Selection :=
  if host.executes binary then .ok selection else .error ("啟動 " ++ binary ++ " 失敗")

def isAMDRuntimeVariant (variant : String) : Bool := variant = "amd-vulkan"

def llamaBinary (host : Host) (c : StartupCommand) : Except String String :=
  if c.runtimeVariant = "" then host.serverBinary
  else if isAMDRuntimeVariant c.runtimeVariant then host.amdBinary c.extraArgs
  else .error "不支援的 Runtime 版本"

def llamaDraft (host : Host) (modelPath draftModel : String) : Except String String :=
  if trimSpace draftModel = "" then .ok ""
  else if !host.isSupportedGGUFDFlashTarget modelPath then .error "目前 Target GGUF 架構不支援 DFlash"
  else match resolveModelFile host draftModel with
    | .error e => .error e
    | .ok draftModelPath =>
      if !host.isGGUFDFlashDraft draftModelPath then .error "指定的 Draft GGUF 不是 DFlash Draft 架構"
      else if draftModelPath = modelPath then .error "DFlash Draft 模型不可與 Target 模型相同"
      else .ok draftModelPath

def llamaMMProj (host : Host) (mmproj : String) : Except String String :=
  if trimSpace mmproj = "" then .ok "" else resolveModelFile host mmproj

def startLlama (host : Host) (model mmproj : String) (p : Prepared) : Except String Started := do
  let binary ← llamaBinary host p.command
  let modelPath ← resolveModelFile host model
  if host.isGGUFDFlashDraft modelPath then .error "DFlash Draft 模型不可作為 Target 模型啟動"
  else
    let mmprojPath ← llamaMMProj host mmproj
    let draftModelPath ← llamaDraft host modelPath p.command.draftModel
    let selection ← execute host binary {
      modelArgument := modelPath
      mmprojArgument := mmprojPath
      draftModelArgument := draftModelPath
      draftKind := if trimSpace p.command.draftModel = "" then "" else "dflash"
      dflashEnabled := p.dflashEnabled
      mtpEnabled := false }
    return ⟨selection, trimSpace mmproj⟩

/-- The kind of a draft, which its directory decides. -/
def mlxDraftKind (host : Host) (modelArgument draft : String) : Except String String :=
  if host.isSupportedMLXMTPDraftDirectory draft then
    if !host.isSupportedMLXMTPTargetDirectory modelArgument then .error "目前 Target MLX 模型架構不支援 MTP"
    else (host.validateMLXMTPPair modelArgument draft).map fun _ => "mtp"
  else if host.isSupportedMLXDFlashDraftDirectory draft then
    if !host.isSupportedMLXDFlashTargetDirectory modelArgument then .error "目前 Target MLX 模型架構不支援 DFlash"
    else .ok "dflash"
  else .error "指定的 MLX Draft 不是 Runtime 支援的 DFlash 或 MTP 模型"

def mlxDraft (host : Host) (target : TargetSelection) (c : StartupCommand) : Except String (String × String) :=
  if c.mtpEnabled && target.isGGUF && isFastGGUFManifestPath target.modelArgument then
    .error "Fast GGUF fallback 目前不支援內嵌 MTP；請停用 MTP 後啟動"
  else if c.mtpEnabled && target.isGGUF && !host.isEmbeddedMTPGGUF target.modelArgument then
    .error "這份 GGUF 未包含 mlx-server 支援的內嵌 MTP 預測層"
  else if trimSpace c.draftModel = "" then .ok ("", if c.mtpEnabled && target.isGGUF then "mtp" else "")
  else if target.isGGUF then .error "GGUF Target 目前不支援 MLX Draft 推測解碼；請搭配 MLX safetensors Target"
  else match resolveMLXModel host c.draftModel with
    | .error e => .error e
    | .ok draft => match mlxDraftKind host target.modelArgument draft with
      | .error e => .error e
      | .ok kind => if draft = target.modelArgument then .error "Draft 模型不可與 Target 模型相同" else .ok (draft, kind)

def sourceRemoval (host : Host) (settings : Settings) (target : TargetSelection) (skip : Bool) (c : StartupCommand) :
    Except String Unit :=
  if settings.removeOriginalGGUF && !hasAnyArgument c.extraArgs distributedArguments &&
      target.isGGUF && !skip && !isFastGGUFManifestPath target.modelArgument then
    host.prepareGGUFSourceRemoval target.modelArgument
  else .ok ()

def startTarget (host : Host) (settings : Settings) (args : StartArguments) (p : Prepared) (binary : String)
    (target : TargetSelection) : Except String Selection := do
  sourceRemoval host settings target args.skipGGUFConversionCache p.command
  if args.skipGGUFConversionCache && !target.isGGUF then .error "不建立 Fast GGUF 只適用於 mlx-server 載入 GGUF"
  else if args.fastGGUFEnabled && !target.isGGUF then .error "快速GGUF模式只適用於 mlx-server 載入 GGUF"
  else if (target.isGGUF && host.isGGUFDFlashDraft target.modelArgument) ||
      (!target.isGGUF && host.isMLXDraftDirectory target.modelArgument) then .error "Draft 模型不可作為 Target 模型啟動"
  else
    let (draft, draftKind) ← mlxDraft host target p.command
    execute host binary {
      modelArgument := target.modelArgument
      mmprojArgument := target.mmprojArgument
      draftModelArgument := draft
      draftKind
      dflashEnabled := p.dflashEnabled
      mtpEnabled := p.command.mtpEnabled }

def startMLX (host : Host) (settings : Settings) (args : StartArguments) (p : Prepared) : Except String Started := do
  if !host.isAppleSilicon then .error "mlx-server 僅支援 macOS Apple Silicon"
  else
    let binary ← host.mlxServer
    let target ← resolveMLXTargetSelection host (strategy settings p.command) args.model args.mmproj
    let selection ← startTarget host settings args p binary target
    return ⟨selection, target.statusMMProj⟩

def launch (host : Host) (settings : Settings) (args : StartArguments) (p : Prepared) : Except String Started :=
  if p.command.isMLX then startMLX host settings args p
  else if args.fastGGUFEnabled then .error "快速GGUF模式目前只支援 mlx-server 載入 GGUF"
  else startLlama host args.model args.mmproj p

end Tanpopo.Models
