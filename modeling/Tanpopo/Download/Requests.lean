import Tanpopo.Lib.Path
import Mathlib.Data.List.Sort
/-!
# Download requests

A request is normalized and checked before any file of it is queued. Where a
file goes is decided by `SafeJoin`, which keeps it below the model directory.

- `normalizeRequest`, `validateRequest`: what `Start`, `StartWithCompanions` and
  `StartRepository` do with a request first.
- `modelStorageDirectory`, `mlxStorageDirectory`: the directory a model gets.
-/

namespace Tanpopo.Download

open Go

def runtimeLlamaServer : String := "llama-server"

def runtimeMLXServer : String := "mlx-server"

structure Request where
  runtime : String
  repository : String
  filename : String
  revision : String
  modelDirectory : String
  endpoint : String
  token : String
  overwrite : Bool
  localDirectory : String
  deriving DecidableEq

structure RepositoryInfo where
  id : String
  /-- The file names of the listing, as the server sent them. -/
  siblings : List String
  /-- `base_model` of the model card. -/
  baseModel : List String

structure DFlashRepository where
  info : RepositoryInfo
  revision : String

/-- What the manager calls. The world is the disk, the network and the other jobs. -/
structure Environment (World : Type) where
  getwd : Except String String
  getwd_absolute : ∀ directory, getwd = .ok directory → isAbs directory = true
  /-- `url.Parse` reads the text and finds a scheme `http` or `https` and a host. -/
  isEndpoint : String → Bool
  /-- The first four bytes of SHA-256 in hexadecimal. -/
  digest : String → String
  /-- `sort.Slice`, which leaves names of equal rank in any order. -/
  sortSlice : (String → String → Bool) → List String → List String
  sortSlice_perm : ∀ less names, (sortSlice less names).Perm names
  /-- The decoded answer of the server to a request for the listing of a repository. -/
  repositoryAnswer : Request → World → Except String RepositoryInfo × World
  /-- The draft model the server offers for a repository, if any. -/
  discoverDFlashRepository : Request → RepositoryInfo → World → Except String (Option DFlashRepository) × World
  /-- The configuration of a repository was read and is one a draft model can work for. -/
  isDFlashTarget : Request → RepositoryInfo → World → Bool × World
  /-- `os.Stat` finds a regular file. -/
  isRegularFile : String → World → Bool × World
  /-- `startValidated` reserves the destination and starts the job under a new id. -/
  reserve : Request → String → World → Except String String × World

variable {World : Type} {env : Environment World}

/-! ## Names of storage directories -/

def storageCharacter (c : Char) : Bool :=
  ('A' ≤ c && c ≤ 'Z') || ('a' ≤ c && c ≤ 'z') || ('0' ≤ c && c ≤ '9') || c = '.' || c = '_' || c = '-'

/-- Each run of other characters becomes one `-`. -/
def cleanName (allowed : Char → Bool) (lastWasSeparator : Bool) : List Char → List Char
  | [] => []
  | c :: rest =>
    if allowed c then c :: cleanName allowed false rest
    else if lastWasSeparator then cleanName allowed true rest
    else '-' :: cleanName allowed true rest

def shortName (name ifEmpty : String) (limit : Nat) (cutset : List Char) : String :=
  let name := if name = "" then ifEmpty else name
  if name.length > limit then String.ofList ((name.toList.take limit).rdropWhile cutset.contains) else name

def modelStorageDirectory (env : Environment World) (repository revision filename : String) : String :=
  let stem := trimSuffix (pathBase filename) (pathExt filename)
  let rawName := String.intercalate "--" [String.intercalate "--" (split repository '/'),
    String.intercalate "--" (split revision '/'), stem]
  let name := trim (String.ofList (cleanName storageCharacter false rawName.toList)) ['.', '-', '_']
  shortName name "model" 160 ['.', '-', '_'] ++ "-" ++
    env.digest (repository ++ "\x00" ++ revision ++ "\x00" ++ filename)

/-- What `filenameTokenPattern` leaves of a text in lower case. -/
def tokenCharacter (c : Char) : Bool := ('a' ≤ c && c ≤ 'z') || ('0' ≤ c && c ≤ '9')

def mlxStorageDirectory (env : Environment World) (repository revision : String) : String :=
  let rawName := String.intercalate "--" [String.intercalate "--" (split repository '/'),
    String.intercalate "--" (split revision '/')]
  let name := trim (String.ofList (cleanName tokenCharacter false (toLower rawName).toList)) ['-']
  shortName name "mlx-model" 150 ['-', '.', '_'] ++ "-" ++ env.digest (repository ++ "\x00" ++ revision)

/-! ## Normalization -/

/-- The name of a file, with slashes. -/
def slashName (name : String) : String := trimSpace (replaceAll name '\\' '/')

def normalizeRequest (env : Environment World) (request : Request) : Request :=
  let runtime := trimSpace request.runtime
  let repository := trimSpace request.repository
  let filename := slashName request.filename
  let revision := trimSpace request.revision
  let revision := if revision = "" then "main" else revision
  let localDirectory := trim (slashName request.localDirectory) ['/']
  { request with
    runtime := if runtime = "" then runtimeLlamaServer else runtime
    repository
    filename
    revision
    modelDirectory := trimSpace request.modelDirectory
    endpoint := trimRight (trimSpace request.endpoint) '/'
    localDirectory := if localDirectory = "" then modelStorageDirectory env repository revision filename
      else localDirectory }

@[simp] theorem normalizeRequest_modelDirectory (request : Request) :
    (normalizeRequest env request).modelDirectory = trimSpace request.modelDirectory := rfl

/-! ## Checks -/

def safeJoin (getwd : Except String String) (base relative : String) : Except String String :=
  if trimSpace base = "" then .error "基底目錄不可為空"
  else
    let relative := pathClean relative
    if relative = "." ∨ isAbs relative then .error "檔名必須是模型目錄下的相對路徑"
    else match absPath getwd base with
      | .error e => .error e
      | .ok baseAbs =>
        let target := pathJoin baseAbs relative
        let rel := pathRel baseAbs target
        if rel = ".." ∨ hasPrefix rel "../" then .error "檔名不可離開模型目錄" else .ok target

def localDestination (request : Request) : String := pathJoin request.localDirectory request.filename

/-- One half of `repositoryPattern`. -/
def isCoordinate (part : String) : Bool := match part.toList with
  | [] => false
  | first :: rest => first.isAlphanum && rest.all storageCharacter

def isRepository (repository : String) : Bool := match split repository '/' with
  | [owner, model] => isCoordinate owner && isCoordinate model
  | _ => false

def validateRepositoryCoordinates (repository revision : String) : Except String Unit :=
  if isRepository (trimSpace repository) = false then .error "repository 必須為 owner/model 格式"
  else if containsAny revision "\r\n\x00" ∨ trimSpace revision = "" then .error "revision 格式錯誤"
  else .ok ()

def validateRepositoryLookup (env : Environment World) (request : Request) : Except String Unit :=
  match validateRepositoryCoordinates request.repository request.revision with
  | .error e => .error e
  | .ok () => if env.isEndpoint request.endpoint then .ok () else .error "Hugging Face Endpoint 格式錯誤"

def validateRequest (env : Environment World) (request : Request) : Except String Unit :=
  if request.runtime ≠ runtimeLlamaServer ∧ request.runtime ≠ runtimeMLXServer then
    .error "runtime 僅支援 llama-server 或 mlx-server"
  else match validateRepositoryLookup env request with
    | .error e => .error e
    | .ok () =>
      if request.filename = "" ∨ request.filename = "." then .error "filename 不可為空"
      else if request.modelDirectory = "" then .error "請先設定模型存放目錄"
      else match safeJoin env.getwd request.modelDirectory request.filename with
        | .error e => .error e
        | .ok _ => (safeJoin env.getwd request.modelDirectory (localDestination request)).map fun _ => ()

/-! ## What a join promises -/

structure Joined (getwd : Except String String) (base relative target base' : String) : Prop where
  base : absPath getwd base = .ok base'
  absolute : isAbs base' = true
  not_absolute : isAbs relative = false
  names : absNames target = walk true (absNames base') (split relative '/')
  /-- The target is the base or below it. -/
  inside : absNames base' <+: absNames target

theorem joined_of_safeJoin {getwd : Except String String} {base relative target : String}
    (hgetwd : ∀ directory, getwd = .ok directory → isAbs directory = true) (h : safeJoin getwd base relative = .ok target) :
    ∃ base', Joined getwd base relative target base' := by
  unfold safeJoin at h
  rw [if_neg fun hempty => by rw [if_pos hempty] at h; cases h] at h
  dsimp only at h
  split at h
  · cases h
  rename_i hrelative
  split at h
  · cases h
  rename_i base' hbase
  split at h
  · cases h
  rename_i hinside
  cases h
  obtain ⟨hup, hups⟩ := not_or.1 hinside
  have habsolute := isAbs_absPath hgetwd hbase
  have hrel : isAbs relative = false := Bool.eq_false_iff.2 fun habs => hrelative (.inr (isAbs_pathClean habs))
  refine ⟨base', hbase, habsolute, hrel, ?_, isPrefix_of_pathRel hup (Bool.eq_false_iff.2 hups)⟩
  rw [absNames_pathJoin habsolute, walk_pathClean _ hrel]

end Tanpopo.Download
