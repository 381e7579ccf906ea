import Tanpopo.Download.Requests
import Mathlib
/-!
# Batches of downloads

A batch is the requested file with the files that belong to it, or the snapshot
of a repository. Their names come from listings the server sends.

- `selectCompanionFilenames`, `selectDFlashGGUF`, `selectMLXRepositoryFiles`:
  what is taken from a listing.
- `startWithCompanions`, `startRepository`: the jobs of a batch.
-/

namespace Tanpopo.Download

open Go

variable {World : Type} {env : Environment World}

/-! ## The best companion -/

def filenameTokens : List Char → List (List Char)
  | [] => []
  | c :: rest =>
    if !tokenCharacter c then [] :: filenameTokens rest
    else match filenameTokens rest with
      | [] => [[c]]
      | token :: tokens => (c :: token) :: tokens

def filenameTokenSet (filename : String) : List String :=
  let stem := toLower (trimSuffix (pathBase filename) (pathExt filename))
  (((filenameTokens stem.toList).map String.ofList).filter fun part =>
    !(part = "" || part = "gguf" || part = "model" || part = "draft" || hasPrefix part "mmproj" ||
      hasPrefix part "dflash")).dedup

def companionScore (mainDirectory : String) (mainTokens : List String) (filename : String) : Nat :=
  (if pathDir filename = mainDirectory then 1000 else 0) +
    ((filenameTokenSet filename).filterMap fun token =>
      if mainTokens.contains token then some token.length else none).sum

def chooseBestCompanion (env : Environment World) (mainFilename : String) (candidates : List String) : String :=
  let mainTokens := filenameTokenSet mainFilename
  let score := companionScore (pathDir mainFilename) mainTokens
  (env.sortSlice (fun left right =>
    if score left ≠ score right then score right < score left else toLower left < toLower right) candidates).headD ""

/-- The first one next to the main file, else the first of the least depth. -/
def chooseChatTemplate (mainFilename : String) (candidates : List String) : String :=
  match candidates.find? fun candidate => pathDir candidate = pathDir mainFilename with
  | some candidate => candidate
  | none => (candidates.foldl (fun best candidate => match best with
      | none => some candidate
      | some name => if countOf candidate '/' < countOf name '/' then some candidate else best) none).getD ""

/-! ## Selections from a listing -/

def chatTemplateFilename : String := "chat_template.jinja"

def modelConfigurationFilename : String := "config.json"

def runtimeAssetFilenames : List String := [modelConfigurationFilename, chatTemplateFilename]

def isRuntimeAsset (filename : String) : Bool := runtimeAssetFilenames.contains (toLower (pathBase filename))

/-- The names of a listing but the main file, each once. -/
def companionNames (mainFilename : String) (info : RepositoryInfo) : List String :=
  (info.siblings.foldl (fun names sibling =>
    let filename := slashName sibling
    if filename = "" ∨ filename = mainFilename ∨ filename ∈ names then names else names ++ [filename]) [])

def isGGUFCompanion (kind other : String) (filename : String) : Bool :=
  let base := toLower (pathBase filename)
  !isRuntimeAsset filename && equalFold (pathExt filename) ".gguf" && contains base kind &&
    !(other ≠ "" && contains base other)

def selectCompanionFilenames (env : Environment World) (mainFilename : String) (info : RepositoryInfo) : List String :=
  let mainFilename := slashName mainFilename
  let mainBase := toLower (pathBase mainFilename)
  if contains mainBase "mmproj" || contains mainBase "dflash" then []
  else
    let names := companionNames mainFilename info
    let template (name : String) : String :=
      chooseChatTemplate mainFilename ((names.filter isRuntimeAsset).filter fun candidate => equalFold (pathBase candidate) name)
    [chooseBestCompanion env mainFilename (names.filter (isGGUFCompanion "mmproj" "")),
      chooseBestCompanion env mainFilename (names.filter (isGGUFCompanion "dflash" "mmproj")),
      template chatTemplateFilename, template modelConfigurationFilename].filter (· ≠ "")

/-- A draft model has to stay below the directory it is joined to. -/
def selectDFlashGGUF (env : Environment World) (mainFilename : String) (info : RepositoryInfo) : String :=
  chooseBestCompanion env mainFilename ((info.siblings.map slashName).filter fun filename =>
    filename ≠ "" && equalFold (pathExt filename) ".gguf" && (safeJoin env.getwd "." filename).toBool)

def isMLXRuntimeFile (filename : String) : Bool :=
  let base := toLower (pathBase filename)
  if base = ".gitattributes" || hasPrefix base "readme" || hasPrefix base "license" then false
  else [".safetensors", ".json", ".model", ".txt", ".tiktoken", ".jinja", ".yaml", ".yml"].contains
    (toLower (pathExt base))

def mlxFilePriority (filename : String) : Nat :=
  let base := toLower (pathBase filename)
  if base = "config.json" then 0
  else if hasSuffix base ".json" || hasSuffix base ".jinja" then 1
  else if hasSuffix base ".safetensors" then 3
  else 2

/-- The files of a snapshot, configurations first and weights last. -/
def selectMLXRepositoryFiles (env : Environment World) (info : RepositoryInfo) : Except String (List String) :=
  let files := info.siblings.foldl (fun files sibling =>
    let filename := slashName sibling
    if filename = "" ∨ filename ∈ files ∨ isMLXRuntimeFile filename = false then files
    else if (safeJoin env.getwd "." filename).toBool then files ++ [filename] else files) []
  let bases := files.map fun filename => toLower (pathBase filename)
  if bases.contains "config.json" = false ∨ (bases.any fun base => hasSuffix base ".safetensors") = false then
    .error "repository 不是完整的 MLX 模型：必須同時包含 config.json 與 safetensors"
  else .ok (files.mergeSort fun left right =>
    if mlxFilePriority left ≠ mlxFilePriority right then mlxFilePriority left < mlxFilePriority right
    else !decide (toLower right < toLower left))

def missingRuntimeAssets (companions : List String) : List String :=
  runtimeAssetFilenames.filter fun name => !(companions.map fun companion => toLower (pathBase companion)).contains name

/-- The repository a model card names as its source. -/
def baseModelRepository (info : RepositoryInfo) : String :=
  ((info.baseModel.map fun reference => trim (trimPrefix (trimSpace reference) "https://huggingface.co/") ['/']).find?
    fun reference => reference ≠ "" && !equalFold reference info.id && countOf reference '/' = 1).getD ""

def containsDFlashFilename (filenames : List String) : Bool :=
  filenames.any fun filename => contains (toLower (pathBase filename)) "dflash"

/-! ## One file -/

/-- A job that was started, with the request its goroutine works on. -/
structure QueuedJob where
  id : String
  request : Request
  destination : String
  deriving DecidableEq

structure BatchResult where
  jobs : List QueuedJob
  detected : List String
  skipped : List String
  warnings : List String
  deriving DecidableEq

namespace BatchResult

def warn (result : BatchResult) (warning : String) : BatchResult :=
  { result with warnings := result.warnings ++ [warning] }

def skip (result : BatchResult) (name : String) : BatchResult := { result with skipped := result.skipped ++ [name] }

def start (result : BatchResult) (job : QueuedJob) : BatchResult := { result with jobs := result.jobs ++ [job] }

def detect (result : BatchResult) (name : String) : BatchResult := { result with detected := result.detected ++ [name] }

/-- `appendUnique` to the detected names. -/
def detectOnce (result : BatchResult) (name : String) : BatchResult :=
  if name ∈ result.detected then result else result.detect name

end BatchResult

def startValidated (env : Environment World) (request : Request) (destination : String) (w : World) :
    Except String QueuedJob × World :=
  match env.reserve request destination w with
  | (.error e, w) => (.error e, w)
  | (.ok id, w) => (.ok { id, request, destination }, w)

def start (env : Environment World) (request : Request) (w : World) : Except String QueuedJob × World :=
  let request := normalizeRequest env request
  match validateRequest env request with
  | .error e => (.error e, w)
  | .ok () => match safeJoin env.getwd request.modelDirectory (localDestination request) with
    | .error e => (.error e, w)
    | .ok destination => startValidated env request destination w

inductive Outcome where
  | unjoined (message : String)
  | present
  | refused (message : String)
  | started (job : QueuedJob)

/-- Queue a file that belongs to another one. -/
def tryQueue (env : Environment World) (request : Request) (w : World) : Outcome × World :=
  match safeJoin env.getwd request.modelDirectory (localDestination request) with
  | .error e => (.unjoined e, w)
  | .ok destination =>
    let (regular, w) := if request.overwrite then (false, w) else env.isRegularFile destination w
    if regular then (.present, w)
    else match startValidated env request destination w with
      | (.error e, w) => (.refused e, w)
      | (.ok job, w) => (.started job, w)

def queueCompanion (env : Environment World) (result : BatchResult) (request : Request) (displayName : String) (w : World) :
    BatchResult × World :=
  match tryQueue env request w with
  | (.unjoined e, w) => (result.warn (displayName ++ ": " ++ e), w)
  | (.present, w) => (result.skip displayName, w)
  | (.refused e, w) => (result.warn (displayName ++ ": " ++ e), w)
  | (.started job, w) => (result.start job, w)

/-! ## A file with its companions -/

def fetchRepositoryInfo (env : Environment World) (request : Request) (w : World) : Except String RepositoryInfo × World :=
  match env.repositoryAnswer request w with
  | (.error e, w) => (.error e, w)
  | (.ok info, w) => (.ok { info with id := if trimSpace info.id = "" then request.repository else info.id }, w)

def queueCompanions (env : Environment World) (request : Request) : List String → BatchResult → World → BatchResult × World
  | [], result, w => (result, w)
  | filename :: rest, result, w =>
    let (result, w) := queueCompanion env result { request with filename } filename w
    queueCompanions env request rest result w

theorem queueCompanions_cons (request : Request) (filename : String) (rest : List String) (result : BatchResult) (w : World) :
    queueCompanions env request (filename :: rest) result w =
      queueCompanions env request rest (queueCompanion env result { request with filename } filename w).1
        (queueCompanion env result { request with filename } filename w).2 := rfl

/-- A file of the repository the model was made from is reported as detected once it was started. -/
def queueBaseAssets (env : Environment World) (request : Request) (available : String → Option String) :
    List String → BatchResult → World → BatchResult × World
  | [], result, w => (result, w)
  | name :: rest, result, w => match available name with
    | none => queueBaseAssets env request available rest result w
    | some filename => match tryQueue env { request with filename } w with
      | (.unjoined e, w) =>
        queueBaseAssets env request available rest (result.warn (filename ++ ": " ++ e)) w
      | (.present, w) => queueBaseAssets env request available rest (result.skip filename) w
      | (.refused e, w) =>
        queueBaseAssets env request available rest (result.warn (request.repository ++ "/" ++ filename ++ ": " ++ e)) w
      | (.started job, w) =>
        queueBaseAssets env request available rest ((result.detect (request.repository ++ "/" ++ filename)).start job) w

/-- The files at the top of a listing by their name in lower case, the last one if several share it. -/
def topFile (info : RepositoryInfo) (name : String) : Option String :=
  ((info.siblings.map slashName).filter fun filename => countOf filename '/' = 0).reverse.find? fun filename =>
    toLower filename = name

def startBaseAssets (env : Environment World) (request : Request) (companions : List String) (targetInfo : RepositoryInfo)
    (result : BatchResult) (w : World) : BatchResult × World :=
  let missing := missingRuntimeAssets companions
  let baseRepository := baseModelRepository targetInfo
  if missing = [] ∨ baseRepository = "" then (result, w)
  else
    let assetRequest := { request with repository := baseRepository, revision := "main" }
    match fetchRepositoryInfo env assetRequest w with
    | (.error e, w) => (result.warn ("來源模型 " ++ baseRepository ++ " 的語意檔案檢查失敗: " ++ e), w)
    | (.ok baseInfo, w) => queueBaseAssets env assetRequest (topFile baseInfo) missing result w

def startDraft (env : Environment World) (request : Request) (companions : List String) (targetInfo : RepositoryInfo)
    (result : BatchResult) (w : World) : BatchResult × World :=
  if containsDFlashFilename companions then (result, w)
  else match env.discoverDFlashRepository request targetInfo w with
    | (.error e, w) => (result.warn ("DFlash Draft 自動偵測失敗: " ++ e), w)
    | (.ok none, w) => (result, w)
    | (.ok (some draft), w) =>
      let filename := selectDFlashGGUF env request.filename draft.info
      if filename = "" then (result, w)
      else queueCompanion env (result.detect (draft.info.id ++ "/" ++ filename))
        { request with repository := draft.info.id, revision := draft.revision, filename } filename w

def startWithCompanions (env : Environment World) (request : Request) (w : World) : Except String BatchResult × World :=
  let request := normalizeRequest env request
  match validateRequest env request with
  | .error e => (.error e, w)
  | .ok () =>
    let (answer, w) := fetchRepositoryInfo env request w
    let companions := match answer with
      | .error _ => []
      | .ok info => selectCompanionFilenames env request.filename info
    let warnings := match answer with
      | .error e => ["附屬檔案檢查失敗: " ++ e]
      | .ok _ => []
    match start env request w with
    | (.error e, w) => (.error e, w)
    | (.ok mainJob, w) =>
      let (result, w) := queueCompanions env request companions ⟨[mainJob], companions, [], warnings⟩ w
      match answer with
      | .error _ => (.ok result, w)
      | .ok targetInfo =>
        let (result, w) := startBaseAssets env request companions targetInfo result w
        let (result, w) := startDraft env request companions targetInfo result w
        (.ok result, w)

/-! ## A repository -/

def queueRepositoryFiles (env : Environment World) (request : Request) (localDirectory displayPrefix : String) :
    List String → BatchResult → World → BatchResult × World
  | [], result, w => (result, w)
  | filename :: rest, result, w =>
    let (result, w) := queueCompanion env (result.detectOnce (displayPrefix ++ filename))
      { request with filename, localDirectory } (displayPrefix ++ filename) w
    queueRepositoryFiles env request localDirectory displayPrefix rest result w

theorem queueRepositoryFiles_cons (request : Request) (localDirectory displayPrefix filename : String) (rest : List String)
    (result : BatchResult) (w : World) :
    queueRepositoryFiles env request localDirectory displayPrefix (filename :: rest) result w =
      queueRepositoryFiles env request localDirectory displayPrefix rest
        (queueCompanion env (result.detectOnce (displayPrefix ++ filename)) { request with filename, localDirectory }
          (displayPrefix ++ filename) w).1
        (queueCompanion env (result.detectOnce (displayPrefix ++ filename)) { request with filename, localDirectory }
          (displayPrefix ++ filename) w).2 := rfl

def startDraftRepository (env : Environment World) (request : Request) (info : RepositoryInfo) (result : BatchResult)
    (w : World) : BatchResult × World :=
  match env.isDFlashTarget request info w with
  | (false, w) => (result, w)
  | (true, w) => match env.discoverDFlashRepository request info w with
    | (.error e, w) => (result.warn ("DFlash Draft 自動偵測失敗: " ++ e), w)
    | (.ok none, w) => (result, w)
    | (.ok (some draft), w) => match selectMLXRepositoryFiles env draft.info with
      | .error e => (result.warn ("DFlash Draft 檔案清單無效: " ++ e), w)
      | .ok files =>
        queueRepositoryFiles env { request with repository := draft.info.id, revision := draft.revision }
          (mlxStorageDirectory env draft.info.id draft.revision) (draft.info.id ++ "/") files result w

def startRepository (env : Environment World) (request : Request) (w : World) : Except String BatchResult × World :=
  let request := { normalizeRequest env request with runtime := runtimeMLXServer, filename := "placeholder" }
  match validateRequest env request with
  | .error e => (.error e, w)
  | .ok () => match fetchRepositoryInfo env request w with
    | (.error e, w) => (.error e, w)
    | (.ok info, w) => match selectMLXRepositoryFiles env info with
      | .error e => (.error e, w)
      | .ok files =>
        let (result, w) := queueRepositoryFiles env request (mlxStorageDirectory env request.repository request.revision) ""
          files ⟨[], files, [], []⟩ w
        let (result, w) := startDraftRepository env request info result w
        if result.jobs = [] ∧ result.skipped = [] then (.error "repository 沒有可下載的 MLX 模型檔案", w)
        else (.ok result, w)

end Tanpopo.Download
