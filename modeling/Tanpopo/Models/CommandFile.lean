import Tanpopo.Models.Commands
import Tanpopo.Lib.Runs
/-!
# The file of the startup commands

Opening the file of an older version changes commands, adds presets and writes
the file again.
-/

namespace Tanpopo.Models

open Go Download

def currentCommandFileVersion : Int := 15

def defaultContextSize : Int := 256 * 1024

structure CommandFile where
  version : Int
  commands : List StoredCommand
  deriving DecidableEq

/-- What `os.ReadFile` and `json.Unmarshal` make of the file. -/
inductive CommandDisk where
  | missing
  | failed (err : String)
  | file (data : CommandFile)
  deriving DecidableEq

/-! ## Presets -/

def presetMTPArguments : List String :=
  ["--spec-type", "draft-mtp", "--spec-draft-n-max", "2", "--parallel", "1", "--flash-attn", "on", "--jinja"]

def baseCommand (fallback : StoredCommand) (now : Int) : StoredCommand :=
  normalizeCommand { fallback with
    id := "default"
    name := "預設參數（256K）"
    runtime := runtimeLlamaServer
    runtimeVariant := ""
    draftModel := ""
    contextSize := defaultContextSize
    extraArgs := []
    createdAt := now
    updatedAt := now }

def newPreset (base : StoredCommand) (id name : String) (extraArgs : List String) (kvCacheQuantization : Option String) :
    StoredCommand :=
  { base with id, name, extraArgs, kvCacheQuantization := kvCacheQuantization.getD base.kvCacheQuantization }

/-- The presets of the MLX runtime differ in these values only. -/
def mlxPreset (now : Int) (id name kvCacheQuantization : String) (extraArgs : List String) : StoredCommand where
  id := id
  name := name
  runtime := runtimeMLXServer
  runtimeVariant := ""
  draftModel := ""
  contextSize := defaultContextSize
  kvCacheQuantization := kvCacheQuantization
  clusterGGUFStrategy := ""
  extraArgs := extraArgs
  serverHost := "0.0.0.0"
  serverPort := 8080
  gpuLayers := -1
  threads := 0
  mmapReserveGB := 0
  createdAt := now
  updatedAt := now

def amdPreset (base : StoredCommand) (now : Int) : StoredCommand where
  id := "amd-vulkan"
  name := "LLaMA Server（AMD Vulkan）四人"
  runtime := runtimeLlamaServer
  runtimeVariant := "amd-vulkan"
  draftModel := ""
  contextSize := defaultContextSize
  kvCacheQuantization := "q4"
  clusterGGUFStrategy := ""
  extraArgs := ["--tanpopo-amd-mode=auto", "--parallel", "4"]
  serverHost := base.serverHost
  serverPort := base.serverPort
  gpuLayers := -1
  threads := 0
  mmapReserveGB := 0
  createdAt := now
  updatedAt := now

/-- `builtinCommands` after the first. -/
def presets (base : StoredCommand) (now : Int) : List StoredCommand :=
  [amdPreset base now,
    newPreset base "kv-cache-q8" "KV Cache Q8（256K）" ["--flash-attn", "on"] (some "q8"),
    newPreset base "kv-cache-q4" "KV Cache Q4（256K）" ["--flash-attn", "on"] (some "q4"),
    newPreset base "no-reasoning" "強制關閉思考（256K）" ["--reasoning", "off", "--reasoning-budget", "0", "--jinja"] none,
    newPreset base "mtp" "MTP（256K）" presetMTPArguments none,
    newPreset base "dflash" "DFlash（256K，需 Draft GGUF）"
      ["--spec-type", "draft-dflash", "--spec-draft-n-max", "15", "--flash-attn", "on", "--jinja"] none,
    mlxPreset now "mlx-default" "MLX Apple Silicon（256K）" "" ["--prefill-step-size", "2048"],
    mlxPreset now "mlx-kv-q4" "MLX KV Cache Q4（256K）" "q4" ["--prefill-step-size", "2048"],
    mlxPreset now "mlx-kv-q8" "MLX KV Cache Q8（256K）" "q8" ["--prefill-step-size", "2048"],
    mlxPreset now "mlx-no-thinking" "MLX 強制關閉思考（256K）" "" ["--no-thinking", "--prefill-step-size", "2048"],
    mlxPreset now "mlx-mtp" "MLX MTP（Greedy，Block 2）" ""
      ["--temperature", "0", "--mtp-block-size", "2", "--prefill-step-size", "2048"],
    mlxPreset now "mlx-dflash" "MLX DFlash 1（Greedy，Block 5）" ""
      ["--temperature", "0", "--dflash-block-size", "5", "--prefill-step-size", "2048"],
    mlxPreset now "mlx-dflash2" "MLX DFlash 2（Sampling，Block 8）" ""
      ["--temperature", "1", "--top-p", "0.95", "--top-k", "20", "--dflash-block-size", "8", "--prefill-step-size", "2048"]]

def builtinCommands (fallback : StoredCommand) (now : Int) : List StoredCommand :=
  baseCommand fallback now :: presets (baseCommand fallback now) now

/-! ## Older versions -/

/-- The values of the arguments of the KV cache. -/
def managedKVCacheValues : List String → List String
  | [] => []
  | raw :: rest =>
    let argument := trimSpace raw
    let inline := String.ofList ((argument.toList.dropWhile (· ≠ '=')).drop 1)
    if !managedKVCacheArguments.contains (trimSpace (argumentName argument)) then managedKVCacheValues rest
    else if argument.toList.contains '=' then inline :: managedKVCacheValues rest
    else match rest with
      | [] => [""]
      | value :: rest => trimSpace value :: managedKVCacheValues rest

def inferLegacyKVCacheQuantization (arguments : List String) : String :=
  let values := (managedKVCacheValues arguments).map fun value => toLower (trimSpace value)
  if values.any fun value => value = "4" || contains value "q4" || contains value "affine4" then "q4"
  else if values.any fun value => value = "8" || contains value "q8" || contains value "affine8" then "q8"
  else ""

def migrateLegacyKVCacheQuantization (command : StoredCommand) : StoredCommand :=
  if trimSpace command.kvCacheQuantization = "" then
    { command with kvCacheQuantization := inferLegacyKVCacheQuantization command.extraArgs }
  else command

/-- A command of a file of this version, as it is read and normalised. -/
def readCommand (version : Int) (command : StoredCommand) : StoredCommand :=
  let command := { command with clusterGGUFStrategy := "" }
  normalizeCommand (if version < 9 then migrateLegacyKVCacheQuantization command else command)

/-- The loop over the commands of a file, after those in `seen`. -/
def readCommands (version : Int) : List StoredCommand → List StoredCommand → Except String (List StoredCommand)
  | [], seen => .ok seen
  | command :: rest, seen =>
    let command := readCommand version command
    match validateCommand command with
    | .error err => .error ("啟動參數 " ++ command.name ++ " 格式錯誤: " ++ err)
    | .ok () =>
      if seen.any (·.id = command.id) then .error ("啟動參數 ID 重複: " ++ command.id)
      else if seen.any fun other => toLower other.name = toLower command.name then .error ("啟動參數名稱重複: " ++ command.name)
      else readCommands version rest (seen ++ [command])

/-- The changes of one command, in their order. -/
def migrateCommand (version now : Int) (command : StoredCommand) : StoredCommand :=
  let command := if command.id = "default" then { command with contextSize := defaultContextSize, updatedAt := now } else command
  let command :=
    if version < 5 ∧ command.id = "mlx-default" ∧ command.extraArgs.contains "--prompt-cache-size" then
      { command with
        name := "MLX Apple Silicon（256K）"
        runtime := runtimeMLXServer
        draftModel := ""
        contextSize := defaultContextSize
        extraArgs := ["--prefill-step-size", "2048"]
        updatedAt := now }
    else command
  let command :=
    if version < 7 ∧ command.id = "mlx-dflash" then
      { command with
        name := "MLX DFlash 1（Qwen3／Qwen3.5，Block 5）"
        runtime := runtimeMLXServer
        contextSize := defaultContextSize
        extraArgs := ["--temperature", "0", "--dflash-block-size", "5", "--prefill-step-size", "2048"]
        updatedAt := now }
    else command
  let command :=
    if version < 8 ∧ command.id = "mlx-dflash" then
      { command with name := "MLX DFlash 1（Greedy，Block 5）", updatedAt := now }
    else command
  let command :=
    if version < 11 ∧ command.id = "mtp" ∧
        command.extraArgs = ["--spec-type", "draft-mtp", "--spec-draft-n-max", "2", "--flash-attn", "on", "--jinja"] then
      { command with extraArgs := presetMTPArguments, updatedAt := now }
    else command
  if version < 12 ∧ command.id = "mtp" ∧ command.extraArgs =
      ["--spec-type", "draft-mtp", "--spec-draft-n-max", "4", "--parallel", "1", "--flash-attn", "on", "--jinja"] then
    { command with extraArgs := presetMTPArguments, updatedAt := now }
  else command

/-- The presets whose ids and names are not yet there. -/
def missingPresets (ids names : List String) : List StoredCommand → List StoredCommand
  | [] => []
  | preset :: rest =>
    if ids.contains preset.id || names.contains (toLower preset.name) then missingPresets ids names rest
    else preset :: missingPresets (preset.id :: ids) (toLower preset.name :: names) rest

/-! ## Opening and changing -/

structure CommandWorld where
  disk : CommandDisk
  store : Option CommandStore
  deriving DecidableEq

/-- `NewStore`, with the error of the first file operation of its `persist` that fails. -/
def newCommandStore (disk : CommandDisk) (fallback : StoredCommand) (now : Int) (fault : Option String) :
    Except String CommandWorld :=
  let save (commands : List StoredCommand) : Except String CommandWorld :=
    match fault with
    | some err => .error err
    | none => .ok ⟨.file ⟨currentCommandFileVersion, commands⟩, some ⟨commands⟩⟩
  match disk with
  | .missing => save (builtinCommands fallback now)
  | .failed err => .error err
  | .file data =>
    if currentCommandFileVersion < data.version then
      .error ("啟動參數設定檔版本 " ++ toString data.version ++ " 高於目前支援的版本 " ++ toString currentCommandFileVersion)
    else if data.commands = [] then .error "啟動參數清單不可為空"
    else match readCommands data.version data.commands [] with
      | .error err => .error err
      | .ok commands =>
        if data.version < currentCommandFileVersion then
          save (commands.map (migrateCommand data.version now) ++
            missingPresets (commands.map (·.id)) (commands.map fun command => toLower command.name)
              (presets (baseCommand fallback now) now))
        else .ok ⟨disk, some ⟨commands⟩⟩

/-- A call, the time of it and the error of the first file operation of `persist` that fails. -/
inductive CommandCall where
  | create (command : StoredCommand) (randomBytes : Except String (List UInt8)) (now : Int) (fault : Option String)
  | update (id : String) (command : StoredCommand) (now : Int) (fault : Option String)
  | delete (id : String) (fault : Option String)
  /-- The program starts again. -/
  | restart (fallback : StoredCommand) (now : Int) (fault : Option String)

namespace CommandWorld

/-- The file is written before the commands are kept. -/
def saved {α : Type} (w : CommandWorld) : Except String α × CommandStore → CommandWorld
  | (.ok _, s) => ⟨.file ⟨currentCommandFileVersion, s.commands⟩, some s⟩
  | (.error _, s) => { w with store := some s }

/-- No random number is drawn twice. -/
def step (w : CommandWorld) : CommandCall → Option CommandWorld
  | .create command randomBytes now fault => do
    let s ← w.store
    let id := randomBytes.toOption.map fun bytes => "profile-" ++ hexEncode bytes
    if s.commands.any fun other => id = some other.id then none
    else some (w.saved (s.create command randomBytes now fault))
  | .update id command now fault => w.store.map fun s => w.saved (s.update id command now fault)
  | .delete id fault => w.store.map fun s => w.saved (s.delete id fault)
  | .restart fallback now fault =>
    match newCommandStore w.disk fallback now fault with
    | .ok w => some w
    | .error _ => some { w with store := none }

end CommandWorld

abbrev CommandSteps (w : CommandWorld) (call : CommandCall) (w' : CommandWorld) : Prop := w.step call = some w'

end Tanpopo.Models
