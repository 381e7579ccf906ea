import Tanpopo.Models.Active
import Tanpopo.Standalone.Package
import Mathlib
/-!
# Deleting a conversion cache

A converted model lies next to its GGUF file: a manifest `.fgguf.json` names the
source, the shards and the JSON assets of the conversion. Older conversions have
a directory of their own outside of the model directory.

- `adjacentEntry`, `legacyEntry`: what is taken for a complete conversion.
- `deleteGGUFConversionCache`: removes the conversions of one model.
-/

namespace Tanpopo.Models

open Go Download Standalone

/-- The directories of the models, and the directories in `converted_gguf_cache`. What is not a plain directory is `none`. -/
structure Disk where
  directories : Table String Directory
  legacy : Table String (Option Directory)

namespace Disk

def lookup (disk : Disk) (directory name : String) : Option DirectoryEntry :=
  (disk.directories.get? directory).bind fun root => root.get? name

/-- `os.Remove` of a file. It is no error that it is not there. -/
def remove (directory : String) (disk : Disk) (name : String) : Disk :=
  match disk.directories.get? directory with
  | none => disk
  | some root => { disk with directories := disk.directories.set directory (root.delete name) }

def removeAll (disk : Disk) (name : String) : Disk := { disk with legacy := disk.legacy.delete name }

end Disk

/-- What a request reads besides the disk. -/
structure CacheQuery where
  status : LlamaStatus
  ggufDirectory : String
  modelPath : String
  /-- `ListModels` of the directory. -/
  models : Except String (List ModelFile)
  getwd : Except String String
  /-- `canonicalExistingPath`: where a path leads. -/
  canonicalPath : String → String
  /-- `json.Unmarshal` of a manifest. -/
  unmarshal : List UInt8 → Option ConversionCacheManifest
  /-- `strings.ToLower` and `strings.EqualFold`. -/
  lower : String → String
  equalFold : String → String → Bool

/-- A conversion. Its paths are names in the directory that was read. -/
structure CacheEntry where
  path : String
  shardPaths : List String
  assetPaths : List String
  directory : Bool
  sourceName : String
  sourcePath : String
  bytes : Nat
  deriving DecidableEq

/-! ## Manifests -/

def assets (m : ConversionCacheManifest) : List String :=
  [m.configuration, m.tokenizer, m.tokenizerConfiguration, m.processorConfiguration, m.generationConfiguration]

def readManifest (q : CacheQuery) (root : Directory) (name : String) : Option (RegularFile × ConversionCacheManifest) :=
  match root.regular? name with
  | none => none
  | some info =>
    if info.contents = [] ∨ info.contents.length > maximumConversionManifestBytes then none
    else (q.unmarshal info.contents).map fun m => (info, m)

/-- The bytes of the shards, if each is a regular file with one of the endings. -/
def shardBytes (root : Directory) (endings : List String) : List String → Option Nat
  | [] => some 0
  | shard :: rest =>
    if shard = "" ∨ pathBase shard ≠ shard ∨ endings.any (hasSuffix shard) = false then none
    else match root.regular? shard with
      | none => none
      | some info =>
        if info.contents = [] then none else (shardBytes root endings rest).map fun bytes => info.contents.length + bytes

/-- The assets that are named, and their bytes. Any regular file next to the manifest will do. -/
def assetFiles (root : Directory) : List String → Option (List String × Nat)
  | [] => some ([], 0)
  | asset :: rest =>
    if trimSpace asset = "" then assetFiles root rest
    else match regularAdjacentFastGGUFFile root asset "" with
      | .error _ => none
      | .ok info => (assetFiles root rest).map fun (names, bytes) => (asset :: names, info.contents.length + bytes)

def cacheEntry (q : CacheQuery) (path : String) (shardPaths assetPaths : List String) (directory : Bool)
    (m : ConversionCacheManifest) (bytes : Nat) : CacheEntry where
  path
  shardPaths
  assetPaths
  directory
  sourceName := pathBase (m.sourceNames.headD "")
  sourcePath := match m.sourcePaths with
    | [] => ""
    | sourcePath :: _ => q.canonicalPath sourcePath
  bytes

def adjacentEntry (q : CacheQuery) (root : Directory) (name : String) : Option CacheEntry :=
  if hasSuffix name ".fgguf.json" = false then none
  else match readManifest q root name with
    | none => none
    | some (info, m) =>
      if (m.schemaVersion ≠ 3 ∧ m.schemaVersion ≠ 4) ∨ m.key = "" ∨ m.sourceNames = [] ∨ m.shards = [] then none
      else match shardBytes root [".fgguf"] m.shards with
        | none => none
        | some bytes =>
          if m.schemaVersion ≠ 4 then some (cacheEntry q name m.shards [] false m (info.contents.length + bytes))
          else match assetFiles root (assets m) with
            | none => none
            | some (names, assetBytes) =>
              -- three assets are required, but any three of the five will do
              if names.length < 3 then none
              else some (cacheEntry q name m.shards names false m (info.contents.length + bytes + assetBytes))

def adjacentGGUFConversionCacheEntries (q : CacheQuery) (root : Directory) : List CacheEntry :=
  ((root.entries.map (·.1)).mergeSort).filterMap (adjacentEntry q root)

def legacyEntry (q : CacheQuery) (name : String) (root : Directory) : Option CacheEntry :=
  if hasPrefix name "." then none
  else match readManifest q root "manifest.json" with
    | none => none
    | some (info, m) =>
      if (m.schemaVersion ≠ 2 ∧ m.schemaVersion ≠ 3) ∨ m.key ≠ name ∨ m.sourceNames = [] ∨ m.shards = [] then none
      else (shardBytes root [".safetensors", ".fgguf"] m.shards).map fun bytes =>
        cacheEntry q name [] [] true m (info.contents.length + bytes)

def legacyGGUFConversionCacheEntries (q : CacheQuery) (disk : Disk) : List CacheEntry :=
  ((disk.legacy.entries.map (·.1)).mergeSort).filterMap fun name =>
    (disk.legacy.get? name).bind fun root => root.bind (legacyEntry q name)

/-- A directory that does not exist has no entries. -/
def ggufConversionCacheEntriesForRoot (q : CacheQuery) (disk : Disk) (directory : String) : List CacheEntry :=
  ((disk.directories.get? directory).elim [] (adjacentGGUFConversionCacheEntries q)) ++
    legacyGGUFConversionCacheEntries q disk

/-! ## Requests -/

structure CacheTarget where
  path : String
  filename : String
  /-- No other model of the listing has this file name. -/
  uniqueName : Bool
  deriving DecidableEq

/-- A recorded source path decides, else the recorded name does if it is unique. -/
def ggufConversionCacheMatches (q : CacheQuery) (target : CacheTarget) (sourceName sourcePath : String) : Bool :=
  if sourcePath ≠ "" then sourcePath = target.path
  else target.uniqueName && q.equalFold sourceName target.filename

def CacheEntry.belongs (q : CacheQuery) (target : CacheTarget) (entry : CacheEntry) : Bool :=
  ggufConversionCacheMatches q target entry.sourceName entry.sourcePath

/-- The checks of a request, and what it asks for. -/
def selectTarget (q : CacheQuery) : Except String CacheTarget :=
  if q.status.running && activeModelMatches q.status "gguf" q.modelPath then .error errModelInUse
  else
    let modelPath := trimPrefix (trimSpace q.modelPath) mlxGGUFPathPrefix
    if modelPath = "" then .error "模型路徑不可為空"
    else match q.models with
      | .error e => .error e
      | .ok models =>
        let targets := models.filter ModelFile.isTarget
        if targets.all fun model => model.path ≠ modelPath then .error "找不到模型，請重新整理清單後再試"
        else match safeJoin q.getwd q.ggufDirectory modelPath with
          | .error e => .error ("模型路徑格式錯誤: " ++ e)
          | .ok joined =>
            let filename := pathBase modelPath
            .ok {
              path := q.canonicalPath joined
              filename
              uniqueName := (targets.filter fun model => q.lower (pathBase model.path) = q.lower filename).length = 1 }

/-- The files of a conversion, in the order they are removed. -/
def CacheEntry.files (entry : CacheEntry) : List String := entry.shardPaths ++ entry.assetPaths ++ [entry.path]

def deleteGGUFConversionCacheEntry (directory : String) (disk : Disk) (entry : CacheEntry) : Disk :=
  if entry.directory then disk.removeAll entry.path else entry.files.foldl (Disk.remove directory) disk

/-- The conversions a request removes. -/
def matchedEntries (q : CacheQuery) (disk : Disk) (target : CacheTarget) : List CacheEntry :=
  (ggufConversionCacheEntriesForRoot q disk (pathDir target.path)).filter (CacheEntry.belongs q target)

/-- The bytes and the number of the conversions that were removed. -/
def deleteGGUFConversionCache (q : CacheQuery) (disk : Disk) : Except String (Nat × Nat) × Disk :=
  match selectTarget q with
  | .error e => (.error e, disk)
  | .ok target =>
    let entries := matchedEntries q disk target
    if entries = [] then (.error "找不到可移除的 Fast GGUF", disk)
    else (.ok ((entries.map (·.bytes)).sum, entries.length),
      entries.foldl (deleteGGUFConversionCacheEntry (pathDir target.path)) disk)

end Tanpopo.Models
