import Tanpopo.GGUF.Gemma4
/-!
# Loading a model and its converted package

`loadContainer` loads a GGUF model through the conversion cache, and
`loadFastGGUFContainer` loads what the cache holds without the GGUF file. A
step is a load or an edit of the files beside the model. The GGUF file and its
projector stay the same.
-/

namespace Tanpopo.GGUF

open Swift Outcome

/-! ## What the loaders rest on -/

/-- The files beside a model, as far as they can be read. -/
structure SideFiles (D : Type) where
  configuration : Option D
  tokenizer : Option D
  tokenizerConfiguration : Option D
  generationConfiguration : Option D
  preprocessorConfiguration : Option D
  processorConfiguration : Option D
  chatTemplate : Option D
  /-- When the configuration was modified. -/
  configurationModified : Int

/-- By which a cache key tells the configuration from others. -/
def SideFiles.configurationIdentity {D : Type} (files : SideFiles D) : Option (D × Int) :=
  files.configuration.map fun data => (data, files.configurationModified)

/-- What a load is asked for, with the resolved group size. -/
structure LoadSettings where
  groupSize : Nat
  profile : String
  recurrentPromotion : String
  groupSize_valid : groupSize = 32 ∨ groupSize = 64

abbrev JSONObject := List (String × AnyValue)

/-- The libraries, what the GGUF file gives, and the conversion of its weights. `D` are file contents, `C` tokenizer
configurations, `W` weights, `S` their shards and `K` cache keys. A `none` is a thrown error. -/
structure Runtime (D C W S K : Type) where
  /-- JSON as `JSONSerialization` reads and writes it, and JSON5. -/
  parse : D → Option JSONObject
  parseJSON5 : D → Option JSONObject
  serialize : JSONObject → D
  parse_serialize : ∀ object, parse (serialize object) = some object
  parseJSON5_of_parse : ∀ data object, parse data = some object → parseJSON5 data = some object
  /-- The model type of a `BaseConfiguration`. -/
  modelType : Configuration → Option String
  /-- `config(from:)` and the encoder of the same type. -/
  config : D → Option C
  encode : C → D
  config_encode : ∀ c, config (encode c) = some c
  chatTemplate : D → Option String
  addChatTemplate : C → String → C
  addAdjacentTemplate : D → Option D → Option D
  unknownTokenFallback : C → C → C
  /-- Whether `AutoTokenizer.from` succeeds. -/
  autoTokenizer : C → C → Bool
  embeddedConfiguration : Option D → Option D
  embeddedTokenizerData : Option C
  embeddedTokenizerConfiguration : Option C
  hasProjector : Bool
  embeddedProcessorConfiguration : Option D
  createsModel : Bool → Configuration → Bool
  createsProcessor : D → C × C → Bool
  convert : LoadSettings → D → Option W
  shapes : W → WeightShapes
  /-- Quantizing a model and updating its parameters. -/
  installs : Bool → Configuration → W → Nat → Bool
  storeShards : W → Option S
  loadShards : S → Option W
  hasShards : S → Bool
  /-- The key of the sources, of which the configuration file may be one. -/
  key : LoadSettings → Option (D × Int) → K
  groupSize_of_key : ∀ s s' d d', key s d = key s' d' → s.groupSize = s'.groupSize

variable {D C W S K : Type}

/-- What a load uses. -/
structure Used (D C W : Type) where
  modelType : String
  configuration : Configuration
  tokenizer : C × C
  processorConfiguration : Option D
  generationConfiguration : Option D
  groupSize : Nat
  weights : W

structure FastGGUFRuntimeAssets (D : Type) where
  configurationData : D
  tokenizerData : D
  tokenizerConfigurationData : D
  processorConfigurationData : Option D
  generationConfigurationData : Option D

/-- What the cache holds under a key: the manifest and the assets that it names. -/
structure CacheEntry (D S : Type) where
  schemaVersion : Nat
  groupSize : Nat
  shards : S
  configuration : Option D
  tokenizer : Option D
  tokenizerConfiguration : Option D
  processorConfiguration : Option D
  generationConfiguration : Option D

abbrev Cache (D S K : Type) := K → Option (CacheEntry D S)

section Loaders
variable (r : Runtime D C W S K)

/-! ## Assets of a load -/

section SideFiles
variable (files : SideFiles D)

/-- The configuration made from metadata, or the file where there is none. -/
def configurationData : Option D := (r.embeddedConfiguration files.configuration).or files.configuration

def withChatTemplate (configuration : C) : C :=
  match files.chatTemplate.bind r.chatTemplate with
  | some template => r.addChatTemplate configuration template
  | none => configuration

def externalTokenizerData : Option C := files.tokenizer.bind r.config

def externalTokenizerConfiguration : Option C := files.tokenizerConfiguration.bind r.config

/-- The pairs of data and configuration in the order in which they are tried. -/
def tokenizerCandidates : List (C × C) :=
  let configurations := (externalTokenizerConfiguration r files).toList ++ r.embeddedTokenizerConfiguration.toList
  ((externalTokenizerData r files).toList ++ r.embeddedTokenizerData.toList).flatMap fun data =>
    configurations.map fun configuration => (data, withChatTemplate r files configuration)

/-- A tokenizer is the data and the configuration that it is made from. -/
def makeTokenizer (candidate : C × C) : Option (C × C) :=
  let configuration := r.unknownTokenFallback candidate.2 candidate.1
  if r.autoTokenizer configuration candidate.1 then some (candidate.1, configuration) else none

def tokenizer : Option (C × C) := (tokenizerCandidates r files).findSome? (makeTokenizer r)

def processorConfigurationData : Option (Option D) :=
  if r.hasProjector then
    match files.preprocessorConfiguration, files.processorConfiguration with
    | some data, _ => some (some data)
    | none, some data => some (some data)
    | none, none => r.embeddedProcessorConfiguration.map some
  else some none

/-- The processor file that is saved. -/
def savedProcessorData : Option (Option D) :=
  let configured := [files.preprocessorConfiguration, files.processorConfiguration].reduceOption.head?
  if r.hasProjector then (configured.or r.embeddedProcessorConfiguration).map some else some none

def fastGGUFRuntimeAssets (configurationData : D) : Option (FastGGUFRuntimeAssets D) := do
  let tokenizerData ← (externalTokenizerData r files).or r.embeddedTokenizerData
  let tokenizerConfiguration ← (externalTokenizerConfiguration r files).or r.embeddedTokenizerConfiguration
  let processorData ← savedProcessorData r files
  return ⟨configurationData, r.encode tokenizerData, r.encode (withChatTemplate r files tokenizerConfiguration),
    processorData, files.generationConfiguration⟩

end SideFiles

/-! ## The conversion cache -/

def currentManifestSchemaVersion : Nat := 4

def legacyFastGGUFManifestSchemaVersion : Nat := 3

def CacheEntry.isFastGGUF (entry : CacheEntry D S) : Bool :=
  entry.schemaVersion = legacyFastGGUFManifestSchemaVersion || entry.schemaVersion = currentManifestSchemaVersion

def CacheEntry.complete (entry : CacheEntry D S) : Bool :=
  entry.schemaVersion = currentManifestSchemaVersion && entry.configuration.isSome && entry.tokenizer.isSome &&
    entry.tokenizerConfiguration.isSome

def contains (entry : CacheEntry D S) : Bool :=
  (entry.schemaVersion = 2 || entry.isFastGGUF) && r.hasShards entry.shards

/-- An entry with all assets. -/
def completeEntry (assets : FastGGUFRuntimeAssets D) (groupSize : Nat) (shards : S) : CacheEntry D S :=
  ⟨currentManifestSchemaVersion, groupSize, shards, some assets.configurationData, some assets.tokenizerData,
    some assets.tokenizerConfigurationData, assets.processorConfigurationData, assets.generationConfigurationData⟩

/-- A complete entry gets the current configuration, any other all assets. `writes` is whether files can be written. -/
def ensureStandaloneAssets [DecidableEq D] (entry : CacheEntry D S) (assets : FastGGUFRuntimeAssets D) (writes : Bool) :
    Option (CacheEntry D S) :=
  if !(entry.isFastGGUF && r.hasShards entry.shards) then none
  else if entry.complete then
    if entry.configuration = some assets.configurationData then some entry
    else if writes then some { entry with configuration := some assets.configurationData }
    else none
  else if writes then some (completeEntry assets entry.groupSize entry.shards)
  else none

def loadCached (entry : CacheEntry D S) : Option W := if contains r entry then r.loadShards entry.shards else none

/-! ## Loading from the GGUF file -/

inductive CacheReport where
  | none
  | reloaded
  | hit (standalone : Bool)

/-- The evidence on which the GGUF file is deleted. -/
def CacheReport.isReady : CacheReport → Bool
  | .reloaded => true
  | .hit standalone => standalone
  | .none => false

/-- The cache after a stage, what was reported and the weights. -/
structure Obtained (D W S K : Type) where
  cache : Cache D S K
  report : CacheReport
  weights : Option W

/-- Converting, storing what was converted and loading it again. -/
def convertAndStore [DecidableEq K] (settings : LoadSettings) (writes : Bool) (configurationData : D)
    (assets : FastGGUFRuntimeAssets D) (key : K) (cache : Cache D S K) : Obtained D W S K :=
  match r.convert settings configurationData with
  | none => ⟨cache, .none, none⟩
  | some weights =>
    match if writes then r.storeShards weights else none with
    | none => ⟨cache, .none, some weights⟩
    | some shards =>
      let entry := completeEntry assets settings.groupSize shards
      match loadCached r entry with
      | some reloaded => ⟨Function.update cache key (some entry), .reloaded, some reloaded⟩
      | none => ⟨Function.update cache key (some entry), .none, some weights⟩

/-- The weights, from the cache or converted. -/
def obtainWeights [DecidableEq D] [DecidableEq K] (settings : LoadSettings) (writes : Bool) (configurationData : D)
    (assets : FastGGUFRuntimeAssets D) (key : K) (cache : Cache D S K) : Obtained D W S K :=
  match cache key with
  | none => convertAndStore r settings writes configurationData assets key cache
  | some entry =>
    let ensured := if contains r entry then ensureStandaloneAssets r entry assets writes else none
    let entry := ensured.getD entry
    match loadCached r entry with
    | some weights => ⟨Function.update cache key (some entry), .hit ensured.isSome, some weights⟩
    | none => convertAndStore r settings writes configurationData assets key (Function.update cache key none)

/-- How both loaders end: the model takes the weights, and tokenizer and processor are made. -/
def finish (vlm : Bool) (modelType : String) (object : JSONObject) (weights : W) (groupSize : Nat)
    (tokenizer : Option (C × C)) (processorConfiguration : Option (Option D)) (generationConfiguration : Option D) :
    Option (Used D C W) := do
  guard (r.installs vlm (configuration object) weights groupSize = true)
  let tokenizer ← tokenizer
  let processorConfiguration ← processorConfiguration
  guard (processorConfiguration.all fun data => r.createsProcessor data tokenizer)
  return ⟨modelType, configuration object, tokenizer, processorConfiguration, generationConfiguration, groupSize, weights⟩

/-- What is known before the cache is looked at. -/
structure Prepared (D : Type) where
  data : D
  object : JSONObject
  modelType : String
  assets : FastGGUFRuntimeAssets D

def isVLM (modelType : String) : Bool := r.hasProjector || modelType = "qwen3_5"

def prepare (files : SideFiles D) : Option (Prepared D) := do
  let data ← configurationData r files
  let object ← r.parseJSON5 data
  let modelType ← r.modelType (configuration object)
  let assets ← fastGGUFRuntimeAssets r files data
  guard (r.createsModel (isVLM r modelType) (configuration object) = true)
  return ⟨data, object, modelType, assets⟩

/-- A load with the cache enabled. -/
def loadContainer [DecidableEq D] [DecidableEq K] (files : SideFiles D) (settings : LoadSettings) (writes : Bool)
    (cache : Cache D S K) : Cache D S K × CacheReport × Option (Used D C W) :=
  match prepare r files with
  | none => (cache, .none, none)
  | some prepared =>
    let obtained := obtainWeights r settings writes prepared.data prepared.assets (r.key settings files.configurationIdentity) cache
    (obtained.cache, obtained.report, obtained.weights.bind fun weights =>
      finish r (isVLM r prepared.modelType) prepared.modelType prepared.object weights settings.groupSize
        (tokenizer r files) (processorConfigurationData r files) files.generationConfiguration)

/-! ## Loading without it -/

/-- `object[key] = value`. -/
def setMember (object : JSONObject) (key : String) (value : AnyValue) : JSONObject :=
  match object with
  | [] => [(key, value)]
  | pair :: rest => if pair.1 = key then (key, value) :: rest else pair :: setMember rest key value

def writeMember (restored : Configuration) (object : JSONObject) (key : String) : JSONObject :=
  match restored key with
  | some value => setMember object key value
  | none => object

/-- The object with the members that `applying` writes. -/
def writeLayout (object : JSONObject) (restored : Configuration) : JSONObject :=
  ["num_key_value_heads", "num_global_key_value_heads", "attention_k_eq_v"].foldl (writeMember restored) object

def restoringObject (object : JSONObject) (weightShapes : WeightShapes) : Option JSONObject :=
  match restoring (configuration object) weightShapes with
  | ok restored => some (writeLayout object restored)
  | _ => none

/-- The nested text configuration. -/
def nestedText (root : JSONObject) : Option JSONObject :=
  match root.lookup "text_config" with
  | some (.dictionary pairs) => some pairs
  | _ => none

def fastGGUFModelConfiguration (root : JSONObject) (weightShapes : WeightShapes) (usesVLMProcessor : Bool) :
    Option JSONObject := do
  let text ← restoringObject ((nestedText root).getD root) weightShapes
  if usesVLMProcessor && (nestedText root).isSome then return setMember root "text_config" (.dictionary text)
  else return text

/-- The assets of a package, which an older one takes from the files beside it. -/
def packageAssets (files : SideFiles D) (entry : CacheEntry D S) : Option (FastGGUFRuntimeAssets D) :=
  if entry.schemaVersion = currentManifestSchemaVersion then do
    let data ← entry.configuration
    let tokenizerData ← entry.tokenizer
    let tokenizerConfigurationData ← entry.tokenizerConfiguration
    return ⟨data, tokenizerData, tokenizerConfigurationData, entry.processorConfiguration, entry.generationConfiguration⟩
  else do
    let data ← files.configuration
    let tokenizerData ← files.tokenizer
    let tokenizerConfigurationData ← files.tokenizerConfiguration
    let tokenizerConfigurationData ← r.addAdjacentTemplate tokenizerConfigurationData files.chatTemplate
    return ⟨data, tokenizerData, tokenizerConfigurationData, files.preprocessorConfiguration.or files.processorConfiguration,
      files.generationConfiguration⟩

/-- The tokenizer of the one saved pair. -/
def packageTokenizer (assets : FastGGUFRuntimeAssets D) : Option (C × C) := do
  let data ← r.config assets.tokenizerData
  let configuration ← r.config assets.tokenizerConfigurationData
  makeTokenizer r (data, configuration)

def loadFastGGUFContainer (files : SideFiles D) (entry : CacheEntry D S) : Option (Used D C W) := do
  guard (entry.isFastGGUF = true ∧ r.hasShards entry.shards = true ∧ (entry.groupSize = 32 ∨ entry.groupSize = 64))
  let assets ← packageAssets r files entry
  let weights ← r.loadShards entry.shards
  let usesVLMProcessor := assets.processorConfigurationData.isSome
  let root ← r.parse assets.configurationData
  let restored ← fastGGUFModelConfiguration root (r.shapes weights) usesVLMProcessor
  let object ← r.parseJSON5 (r.serialize restored)
  let modelType ← r.modelType (configuration object)
  let vlm := usesVLMProcessor || modelType = "qwen3_5"
  guard (r.createsModel vlm (configuration object) = true)
  finish r vlm modelType object weights entry.groupSize (packageTokenizer r assets) (some assets.processorConfigurationData)
    assets.generationConfigurationData

/-! ## Loads and edits -/

structure LoadState (D S K : Type) where
  files : SideFiles D
  cache : Cache D S K

inductive LoadEvent (D : Type) where
  | edit (files : SideFiles D)
  | load (settings : LoadSettings) (writes : Bool)

def LoadState.step [DecidableEq D] [DecidableEq K] (s : LoadState D S K) : LoadEvent D → LoadState D S K
  | .edit files => { s with files := files }
  | .load settings writes => { s with cache := (loadContainer r s.files settings writes s.cache).1 }

/-- The state after edits and loads that began without a cache. -/
def afterEvents [DecidableEq D] [DecidableEq K] (files : SideFiles D) (events : List (LoadEvent D)) : LoadState D S K :=
  events.foldl (LoadState.step r) ⟨files, fun _ => none⟩

end Loaders

end Tanpopo.GGUF
