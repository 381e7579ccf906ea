import Tanpopo.Standalone.Manifest
import Tanpopo.Lib.Table
import Tanpopo.FastGGUF.Container
import Mathlib
/-!
# Packages without their source

`readStandaloneFastGGUFPackage` decides on the server whether a converted model
can run without the GGUF file it was made from; `loadStandalone` is the runtime
that has to load it.
-/

namespace Tanpopo.Standalone

open FastGGUF Swift

/-- A regular file. -/
structure RegularFile where
  contents : Data
  contents_lt : contents.length < 2 ^ 63
  modified : Int

inductive Node where
  | file (file : RegularFile)
  | directory
  /-- Neither a file nor a directory. Reading it fails. -/
  | special

/-- What a name stands for. A symbolic link leads to a node or nowhere. -/
inductive DirectoryEntry where
  | node (node : Node)
  | link (target : Option Node)

/-- The directory of the manifest. -/
abbrev Directory := Table String DirectoryEntry

namespace Directory

/-- `os.Lstat`, for a regular file that is not a link. -/
def regular? (root : Directory) (name : String) : Option RegularFile :=
  match root.get? name with
  | some (.node (.file file)) => some file
  | _ => none

/-- What a read finds, through a link. -/
def node? (root : Directory) (name : String) : Option Node :=
  match root.get? name with
  | some (.node node) => some node
  | some (.link target) => target
  | none => none

def read? (root : Directory) (name : String) : Option RegularFile :=
  match root.node? name with
  | some (.file file) => some file
  | _ => none

theorem read?_of_regular? {root : Directory} {name : String} {file : RegularFile} (h : root.regular? name = some file) :
    root.read? name = some file := by
  unfold regular? at h
  split at h
  · rename_i hentry
    cases h
    simp [read?, node?, hentry]
  · cases h

end Directory

/-- The JSON readers of both programs: what a text is, as a value and as a document. -/
structure Parser where
  value : Data → Option JSON
  document : Data → Option Document

/-! ## Go -/

inductive PackageError where
  | message (text : String)
  /-- An error of `os` or `encoding/json`. -/
  | system
  deriving DecidableEq

structure Package where
  manifestPath : String
  manifest : ConversionCacheManifest
  configPath : String
  bytes : Int
  modifiedAt : Int

def maximumConversionManifestBytes : Nat := 4194304

/-- Only ASCII letters matter for the suffixes that are compared. -/
def toLower (name : String) : String := String.ofList (name.toList.map Char.toLower)

def regularAdjacentFastGGUFFile (root : Directory) (filename requiredSuffix : String) : Except PackageError RegularFile :=
  if filename = "" ∨ Go.pathBase filename ≠ filename ∨
      (requiredSuffix ≠ "" ∧ !Go.hasSuffix (toLower filename) requiredSuffix) then
    .error (.message "Fast GGUF 檔名無效")
  else match root.regular? filename with
    | none => .error (.message "Fast GGUF 檔案不完整")
    | some file => if file.contents = [] then .error (.message "Fast GGUF 檔案不完整") else .ok file

/-- The sizes and the latest modification time of files that must be there. -/
def requireFiles (root : Directory) (requiredSuffix : String) : List String → Int × Int → Except PackageError (Int × Int)
  | [], total => .ok total
  | name :: rest, (bytes, modified) =>
    match regularAdjacentFastGGUFFile root name requiredSuffix with
    | .error e => .error e
    | .ok file => requireFiles root requiredSuffix rest (bytes + file.contents.length, max modified file.modified)

/-- Assets that are missing or invalid are passed over. -/
def optionalBytes (root : Directory) (names : List String) : Int :=
  (names.map fun name =>
    if Go.trimSpace name = "" then 0
    else match regularAdjacentFastGGUFFile root name "" with
      | .error _ => 0
      | .ok file => (file.contents.length : Int)).sum

namespace ConversionCacheManifest

def complete (m : ConversionCacheManifest) : Bool :=
  (m.schemaVersion = 3 || m.schemaVersion = 4) && m.key ≠ "" && m.sourceNames ≠ [] && m.shards ≠ [] && 0 < m.weightCount &&
    (m.groupSize = 32 || m.groupSize = 64)

def requiredAssets (m : ConversionCacheManifest) : List String :=
  if m.schemaVersion = 4 then [m.configuration, m.tokenizer, m.tokenizerConfiguration]
  else ["config.json", "tokenizer.json", "tokenizer_config.json"]

def optionalAssets (m : ConversionCacheManifest) : List String :=
  if m.schemaVersion = 4 then [m.processorConfiguration, m.generationConfiguration] else ["generation_config.json"]

end ConversionCacheManifest

/-- The lower case of the text that is not blank at its ends. -/
def normalizeModelArchitecture (architecture : String) : String := toLower (Go.trimSpace architecture)

def fastGGUFConfigurationArchitecture (parser : Parser) (root : Directory) (name : String) : Except PackageError String :=
  match root.read? name with
  | none => .error .system
  | some file =>
    match (parser.document file.contents).bind fun doc => goString (doc.fold? "model_type") with
    | none => .error .system
    | some modelType =>
      let architecture := normalizeModelArchitecture (Go.trimSpace modelType)
      if architecture = "" then .error (.message "Fast GGUF 設定缺少 model_type") else .ok architecture

/-- The checks on the files that a complete manifest names. -/
def checkFiles (parser : Parser) (root : Directory) (manifestPath : String) (info : RegularFile)
    (m : ConversionCacheManifest) : Except PackageError Package :=
  match requireFiles root ".fgguf" m.shards (info.contents.length, info.modified) with
  | .error e => .error e
  | .ok total =>
    match requireFiles root ".json" m.requiredAssets total with
    | .error e => .error e
    | .ok (bytes, modifiedAt) =>
      let configPath := m.requiredAssets.headD ""
      match fastGGUFConfigurationArchitecture parser root configPath with
      | .error e => .error e
      | .ok _ => .ok { manifestPath, manifest := m, configPath, bytes := bytes + optionalBytes root m.optionalAssets, modifiedAt }

/-- The manifest is `manifestPath` in `root`. -/
def readStandaloneFastGGUFPackage (parser : Parser) (root : Directory) (manifestPath : String) : Except PackageError Package :=
  match root.regular? manifestPath with
  | none => .error (.message "Fast GGUF manifest 無效")
  | some info =>
    if info.contents = [] ∨ info.contents.length > maximumConversionManifestBytes then
      .error (.message "Fast GGUF manifest 無效")
    else match (parser.document info.contents).bind unmarshal with
      | none => .error (.message "Fast GGUF manifest 內容不完整")
      | some m =>
        if m.complete then checkFiles parser root manifestPath info m
        else .error (.message "Fast GGUF manifest 內容不完整")

/-! ## Swift -/

inductive LoadError where
  | invalidManifest
  | duplicateWeight (name : String)
  | weightCountMismatch (expected actual : Int)
  | container (failure : Failure)
  /-- An error of `Data(contentsOf:)`, `JSONDecoder` or `JSONSerialization`. -/
  | foundation

structure StandalonePackage where
  weights : List (String × MLXArray)
  groupSize : Int
  profile : String
  sourceName : String
  configurationData : Data
  tokenizerData : Data
  tokenizerConfigurationData : Data
  processorConfigurationData : Option Data
  generationConfigurationData : Option Data

structure StandaloneAssetURLs where
  configuration : String
  tokenizer : String
  tokenizerConfiguration : String
  processor : Option String
  generation : Option String

def lastPathComponent (name : String) : String := if name = "" then "" else Go.pathBase name

def safeAdjacentFilename (name : String) : Bool := name ≠ "" && name = lastPathComponent name

def contentsOf (root : Directory) (name : String) : Outcome LoadError Data :=
  match root.read? name with
  | none => .threw .foundation
  | some file => .ok file.contents

def contentsOfOptional (root : Directory) : Option String → Outcome LoadError (Option Data)
  | none => .ok none
  | some name => do
    let data ← contentsOf root name
    return some data

def standaloneManifest (parser : Parser) (root : Directory) (manifestPath : String) : Outcome LoadError Manifest :=
  match root.read? manifestPath with
  | none => .threw .foundation
  | some info =>
    match (parser.document info.contents).bind decode with
    | none => .threw .foundation
    | some m =>
      if (m.schemaVersion = 3 ∨ m.schemaVersion = 4) ∧ m.key ≠ "" ∧ m.shards ≠ [] ∧ (m.groupSize = 32 ∨ m.groupSize = 64) then
        .ok m
      else .threw .invalidManifest

def requiredAsset : Option String → Outcome LoadError String
  | none => .threw .invalidManifest
  | some name => if safeAdjacentFilename name then .ok name else .threw .invalidManifest

def optionalAsset : Option String → Outcome LoadError (Option String)
  | none => .ok none
  | some name => if safeAdjacentFilename name then .ok (some name) else .threw .invalidManifest

def firstExisting (root : Directory) (names : List String) : Option String := names.find? fun name => (root.node? name).isSome

def standaloneAssetURLs (root : Directory) (m : Manifest) : Outcome LoadError StandaloneAssetURLs :=
  if m.schemaVersion = 4 then do
    let configuration ← requiredAsset m.configuration
    let tokenizer ← requiredAsset m.tokenizer
    let tokenizerConfiguration ← requiredAsset m.tokenizerConfiguration
    let processor ← optionalAsset m.processorConfiguration
    let generation ← optionalAsset m.generationConfiguration
    return { configuration, tokenizer, tokenizerConfiguration, processor, generation }
  else
    return { configuration := "config.json"
             tokenizer := "tokenizer.json"
             tokenizerConfiguration := "tokenizer_config.json"
             processor := firstExisting root ["preprocessor_config.json", "processor_config.json"]
             generation := firstExisting root ["generation_config.json"] }

/-- The template beside the manifest, unless it is blank or not UTF-8. -/
def adjacentTemplate (root : Directory) : Option String :=
  match (root.read? "chat_template.jinja").bind fun file => String.fromUTF8? ⟨file.contents.toArray⟩ with
  | none => none
  | some template => if Go.trimSpace template = "" then none else some template

def setMember (members : List (String × JSON)) (name : String) (value : JSON) : List (String × JSON) :=
  members.filter (fun m => m.1 ≠ name) ++ [(name, value)]

/-- `serialize` is `JSONSerialization.data`. -/
def tokenizerConfigurationByAddingAdjacentTemplate (parser : Parser) (serialize : JSON → Data) (data : Data)
    (root : Directory) : Outcome LoadError Data :=
  match adjacentTemplate root with
  | none => .ok data
  | some template =>
    match parser.value data with
    | none => .threw .foundation
    | some (.object members) => .ok (serialize (.object (setMember members "chat_template" (.string template))))
    | some _ => .threw .invalidManifest

section
variable (p : Platform)

/-- Each weight must be new. -/
def addWeights (weights : List (String × MLXArray)) : List (String × MLXArray) → Outcome LoadError (List (String × MLXArray))
  | [] => .ok weights
  | (name, value) :: rest =>
    if weights.any fun w => p.canonical w.1 = p.canonical name then .threw (.duplicateWeight name)
    else addWeights (weights ++ [(name, value)]) rest

def loadShard (root : Directory) (key : String) (mode : Mode) (filename : String) :
    Outcome LoadError (List (String × MLXArray)) :=
  if safeAdjacentFilename filename && Go.hasSuffix filename ".fgguf" then
    match root.read? filename with
    | none => .threw .foundation
    | some file =>
      match load p ⟨filename, file.contents, file.contents_lt⟩ key mode with
      | .ok loaded => .ok loaded.1
      | .threw failure => .threw (.container failure)
      | .trap => .trap
  else .threw .invalidManifest

def loadShards (root : Directory) (key : String) (mode : Mode) :
    List String → List (String × MLXArray) → Outcome LoadError (List (String × MLXArray))
  | [], weights => .ok weights
  | filename :: rest, weights => do
    let shard ← loadShard p root key mode filename
    let weights ← addWeights p weights shard
    loadShards root key mode rest weights

/-- Packages of the older schema may keep their template in a file of its own. -/
def tokenizerConfigurationData (parser : Parser) (serialize : JSON → Data) (root : Directory) (m : Manifest) (data : Data) :
    Outcome LoadError Data :=
  if m.schemaVersion = 3 then tokenizerConfigurationByAddingAdjacentTemplate parser serialize data root else .ok data

/-- The weights and assets, once the manifest is read. Progress is not represented. -/
def loadAssets (parser : Parser) (serialize : JSON → Data) (root : Directory) (manifestPath : String) (mode : Mode)
    (m : Manifest) (urls : StandaloneAssetURLs) : Outcome LoadError StandalonePackage := do
  let configurationData ← contentsOf root urls.configuration
  let tokenizerData ← contentsOf root urls.tokenizer
  let data ← contentsOf root urls.tokenizerConfiguration
  let tokenizerConfigurationData ← tokenizerConfigurationData parser serialize root m data
  let weights ← loadShards p root m.key mode m.shards []
  Outcome.guard ((weights.length : Int) = m.weightCount) (.weightCountMismatch m.weightCount weights.length)
  let processorConfigurationData ← contentsOfOptional root urls.processor
  let generationConfigurationData ← contentsOfOptional root urls.generation
  return { weights, groupSize := m.groupSize, profile := m.profile, sourceName := m.sourceNames.headD manifestPath,
           configurationData, tokenizerData, tokenizerConfigurationData, processorConfigurationData,
           generationConfigurationData }

def loadStandalone (parser : Parser) (serialize : JSON → Data) (root : Directory) (manifestPath : String) (mode : Mode) :
    Outcome LoadError StandalonePackage := do
  let m ← standaloneManifest parser root manifestPath
  let urls ← standaloneAssetURLs root m
  loadAssets p parser serialize root manifestPath mode m urls

end
end Tanpopo.Standalone
