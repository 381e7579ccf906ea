import Tanpopo.Lib.Distinct
import Tanpopo.Lib.Go
import Mathlib.Data.Rat.Init
import Mathlib.Algebra.Order.Ring.Rat
/-!
# The settings and their normal form

- `normalizeSettings`, `validateSettings`: what is done to settings before they are saved.
- `normalizeSettings_eq_iff`: when normal settings are left as they are.
-/

namespace Tanpopo.Config

/-! ## The data -/

inductive Float64 where
  | finite (q : Rat)
  | infinity (negative : Bool)
  | nan
  deriving DecidableEq

structure DownloadFavorite where
  runtime : String
  repository : String
  revision : String
  deriving DecidableEq

structure PerformanceTuning where
  threads : Int
  batchSize : Int
  uBatchSize : Int
  prefillStepSize : Int
  deriving DecidableEq

structure PerformanceCalibration where
  key : String
  hardwareFingerprint : String
  runtime : String
  model : String
  startupCommandID : String
  startupCommandFingerprint : String
  tuning : PerformanceTuning
  averageTokensPerSecond : Float64
  medianTokensPerSecond : Float64
  runs : List Float64
  /-- The instant, in nanoseconds. -/
  updatedAt : Int
  deriving DecidableEq

structure Settings where
  modelDirectory : String
  mlxModelDirectory : String
  residentMode : Bool
  defaultFastGGUFEnabled : Bool
  defaultFastGGUFStrategy : String
  defaultKVCacheEnabled : Bool
  defaultMMapEnabled : Bool
  defaultDFlashEnabled : Bool
  removeOriginalGGUF : Bool
  autoCalibrationEnabled : Bool
  memoryProtectionEnabled : Bool
  uiLanguage : String
  uiTheme : String
  huggingFaceEndpoint : String
  huggingFaceToken : String
  defaultRevision : String
  serverHost : String
  serverPort : Int
  contextSize : Int
  gpuLayers : Int
  threads : Int
  extraArgs : List String
  downloadFavorites : List DownloadFavorite
  performanceCalibrations : List PerformanceCalibration
  deriving DecidableEq

def maxDownloadFavorites : Nat := 64

def maxPerformanceCalibrations : Nat := 128

/-! ## Normal form -/

section
-- What `os.UserHomeDir` gives.
variable (home : Option String)

def defaultSettings : Settings where
  modelDirectory := Go.pathJoin (homeOrDot home) "services/models"
  mlxModelDirectory := Go.pathJoin (homeOrDot home) "services/mlx-models"
  residentMode := false
  defaultFastGGUFEnabled := true
  defaultFastGGUFStrategy := "mode1"
  defaultKVCacheEnabled := false
  defaultMMapEnabled := false
  defaultDFlashEnabled := false
  removeOriginalGGUF := false
  autoCalibrationEnabled := true
  memoryProtectionEnabled := false
  uiLanguage := "auto"
  uiTheme := "tanpopo"
  huggingFaceEndpoint := "https://huggingface.co"
  huggingFaceToken := ""
  defaultRevision := "main"
  serverHost := "0.0.0.0"
  serverPort := 8080
  contextSize := 256 * 1024
  gpuLayers := -1
  threads := 0
  extraArgs := []
  downloadFavorites := []
  performanceCalibrations := []
where
  homeOrDot : Option String → String
    | none => "."
    | some directory => if Go.trimSpace directory = "" then "." else directory

def expandHome (path : String) : String :=
  if path ≠ "~" ∧ !Go.hasPrefix path "~/" ∧ !Go.hasPrefix path "~\\" then path
  else match home with
    | none | some "" => path
    | some directory => if path = "~" then directory else Go.pathJoin directory (String.ofList (path.toList.drop 2))

end

def normalizeUILanguage (value : String) : String :=
  let value := Go.toLower (Go.trimSpace value)
  if value ∈ ["zh-hant", "zh-tw", "zh-hk", "traditional-chinese"] then "zh-Hant"
  else if value ∈ ["en", "english"] then "en"
  else if value ∈ ["ja", "jp", "japanese"] then "ja"
  else if value ∈ ["ko", "kr", "korean"] then "ko"
  else "auto"

def normalizeUITheme (value : String) : String :=
  let value := Go.toLower (Go.trimSpace value)
  if value ∈ ["tanpopo", "ocean", "sakura", "wisteria"] then value else "tanpopo"

/-- `beta1` and `beta2` became the first mode, the old default the second. -/
def normalizeFastGGUFStrategy (value : String) : String :=
  let value := Go.toLower (Go.trimSpace value)
  if value ∈ ["mode2", "default"] then "mode2" else if value = "mode3" then "mode3" else "mode1"

def runtimes : List String := ["llama-server", "mlx-server"]

/-- One half of `downloadFavoriteRepositoryPattern`. -/
def isRepositoryPart (part : String) : Bool :=
  match part.toList with
  | [] => false
  | c :: rest => c.isAlphanum && rest.all fun c => c.isAlphanum || c = '.' || c = '_' || c = '-'

def downloadFavoriteRepositoryPattern (repository : String) : Bool :=
  match Go.split repository '/' with
  | [owner, model] => isRepositoryPart owner && isRepositoryPart model
  | _ => false

/-- A text that is empty but for white space stands for its default. -/
def orDefault (value fallback : String) : String := if Go.trimSpace value = "" then fallback else Go.trimSpace value

def normalizeDownloadFavorite (favorite : DownloadFavorite) : Option DownloadFavorite :=
  let favorite := {
    runtime := Go.toLower (Go.trimSpace favorite.runtime)
    repository := Go.trimSpace favorite.repository
    revision := orDefault favorite.revision "main" : DownloadFavorite }
  if favorite.runtime ∈ runtimes ∧ downloadFavoriteRepositoryPattern favorite.repository ∧
      !Go.containsAny favorite.revision "\r\n\x00" then some favorite
  else none

def normalizeDownloadFavorites (favorites : List DownloadFavorite) : List DownloadFavorite :=
  distinct normalizeDownloadFavorite (fun favorite => (favorite.runtime, Go.toLower favorite.repository, favorite.revision))
    (maxDownloadFavorites - 1) [] favorites

def validPerformanceTuning (value : PerformanceTuning) : Bool :=
  0 ≤ value.threads && value.threads ≤ 1024 && 0 ≤ value.batchSize && value.batchSize ≤ 8192 &&
    0 ≤ value.uBatchSize && value.uBatchSize ≤ 8192 && 0 ≤ value.prefillStepSize && value.prefillStepSize ≤ 8192 &&
    (value.batchSize = 0 || value.uBatchSize ≤ value.batchSize)

/-- No comparison holds of NaN. -/
def invalidSpeed : Float64 → Bool
  | .finite q => q ≤ 0 || q > 1000000
  | .infinity _ => true
  | .nan => false

def validCalibrationSpeeds (values : List Float64) : Bool := values.all fun value => !invalidSpeed value

/-- Paths are written with slashes already. -/
def normalizePerformanceCalibration (calibration : PerformanceCalibration) : Option PerformanceCalibration :=
  let calibration := { calibration with
    key := Go.trimSpace calibration.key
    hardwareFingerprint := Go.trimSpace calibration.hardwareFingerprint
    runtime := Go.toLower (Go.trimSpace calibration.runtime)
    model := Go.trimSpace calibration.model
    startupCommandID := Go.trimSpace calibration.startupCommandID
    startupCommandFingerprint := Go.trimSpace calibration.startupCommandFingerprint }
  if calibration.key ≠ "" ∧ calibration.runtime ∈ runtimes ∧ calibration.model ≠ "" ∧ calibration.startupCommandID ≠ "" ∧
      validPerformanceTuning calibration.tuning ∧ calibration.runs.length = 3 ∧ validCalibrationSpeeds calibration.runs then
    some calibration
  else none

def normalizePerformanceCalibrations (calibrations : List PerformanceCalibration) : List PerformanceCalibration :=
  distinct normalizePerformanceCalibration (·.key) (maxPerformanceCalibrations - 1) [] calibrations

def normalizeEndpoint (endpoint : String) : String :=
  let endpoint := Go.trimRight (Go.trimSpace endpoint) '/'
  if endpoint = "" then "https://huggingface.co" else endpoint

def normalizeExtraArgs (args : List String) : List String := (args.map Go.trimSpace).filter (· ≠ "")

section
variable (home : Option String)

def normalizeDirectory (path : String) : String := expandHome home (Go.trimSpace path)

def normalizeMLXModelDirectory (path : String) : String :=
  if normalizeDirectory home path = "" then (defaultSettings home).mlxModelDirectory else normalizeDirectory home path

def normalizeSettings (value : Settings) : Settings :=
  { value with
    modelDirectory := normalizeDirectory home value.modelDirectory
    mlxModelDirectory := normalizeMLXModelDirectory home value.mlxModelDirectory
    uiLanguage := normalizeUILanguage value.uiLanguage
    uiTheme := normalizeUITheme value.uiTheme
    defaultFastGGUFStrategy := normalizeFastGGUFStrategy value.defaultFastGGUFStrategy
    huggingFaceEndpoint := normalizeEndpoint value.huggingFaceEndpoint
    huggingFaceToken := Go.trimSpace value.huggingFaceToken
    defaultRevision := orDefault value.defaultRevision "main"
    serverHost := orDefault value.serverHost "0.0.0.0"
    extraArgs := normalizeExtraArgs value.extraArgs
    downloadFavorites := normalizeDownloadFavorites value.downloadFavorites
    performanceCalibrations := normalizePerformanceCalibrations value.performanceCalibrations }

end

/-- What must not be, with its error. -/
def settingsChecks (value : Settings) : List (Bool × String) :=
  [(value.defaultKVCacheEnabled && value.defaultDFlashEnabled, "KV Cache 量化與 DFlash 不可同時設為預設開啟"),
    (value.defaultFastGGUFStrategy ∉ ["mode1", "mode2", "mode3", "default", "beta1", "beta2"],
      "default_fast_gguf_strategy 只支援 mode1、mode2 或 mode3"),
    (value.uiLanguage ∉ ["auto", "zh-Hant", "en", "ja", "ko"], "ui_language 只支援 auto、zh-Hant、en、ja 或 ko"),
    (value.uiTheme ∉ ["tanpopo", "ocean", "sakura", "wisteria"], "ui_theme 只支援 tanpopo、ocean、sakura 或 wisteria"),
    (Go.trimSpace value.modelDirectory = "", "model_directory 不可為空"),
    (Go.trimSpace value.mlxModelDirectory = "", "mlx_model_directory 不可為空"),
    (value.serverPort < 1 || value.serverPort > 65535, "server_port 必須介於 1 到 65535"),
    (value.contextSize < 128 || value.contextSize > 1048576, "context_size 必須介於 128 到 1048576"),
    (value.gpuLayers < -1, "gpu_layers 不可小於 -1"),
    (value.threads < 0, "threads 不可小於 0"),
    (!Go.hasPrefix value.huggingFaceEndpoint "https://" && !Go.hasPrefix value.huggingFaceEndpoint "http://",
      "huggingface_endpoint 僅支援 http 或 https"),
    (value.extraArgs.any fun arg => Go.containsAny arg "\r\n\x00", "extra_args 不可包含換行或 NUL 字元"),
    (value.downloadFavorites.length > maxDownloadFavorites, "download_favorites 最多只能保存 64 筆"),
    (value.performanceCalibrations.length > maxPerformanceCalibrations, "performance_calibrations 最多只能保存 128 筆"),
    (value.performanceCalibrations.any fun calibration => !validPerformanceTuning calibration.tuning ||
        calibration.runs.length ≠ 3 || !validCalibrationSpeeds calibration.runs,
      "performance_calibrations 包含無效的校準資料")]

def favoriteChecks (favorite : DownloadFavorite) : List (Bool × String) :=
  [(favorite.runtime ∉ runtimes, "download_favorites runtime 格式錯誤"),
    (!downloadFavoriteRepositoryPattern favorite.repository, "download_favorites repository 必須為 owner/model 格式"),
    (favorite.revision = "" || Go.containsAny favorite.revision "\r\n\x00", "download_favorites revision 格式錯誤")]

/-- The error of `ValidateSettings`: that of the first check that applies. -/
def validateSettings (value : Settings) : Option String :=
  ((settingsChecks value ++ value.downloadFavorites.flatMap favoriteChecks).find? (·.1)).map (·.2)

/-! ## What a second pass changes -/

theorem normalizeUILanguage_idem (value : String) : normalizeUILanguage (normalizeUILanguage value) = normalizeUILanguage value := by
  have hmem : normalizeUILanguage value ∈ ["zh-Hant", "en", "ja", "ko", "auto"] := by
    unfold normalizeUILanguage
    simp only
    split_ifs <;> simp
  exact (by decide +kernel : ∀ v ∈ ["zh-Hant", "en", "ja", "ko", "auto"], normalizeUILanguage v = v) _ hmem

theorem normalizeUITheme_idem (value : String) : normalizeUITheme (normalizeUITheme value) = normalizeUITheme value := by
  have hmem : normalizeUITheme value ∈ ["tanpopo", "ocean", "sakura", "wisteria"] := by
    unfold normalizeUITheme
    simp only
    split_ifs with h
    · exact h
    · simp
  exact (by decide +kernel : ∀ v ∈ ["tanpopo", "ocean", "sakura", "wisteria"], normalizeUITheme v = v) _ hmem

theorem normalizeFastGGUFStrategy_idem (value : String) :
    normalizeFastGGUFStrategy (normalizeFastGGUFStrategy value) = normalizeFastGGUFStrategy value := by
  have hmem : normalizeFastGGUFStrategy value ∈ ["mode2", "mode3", "mode1"] := by
    unfold normalizeFastGGUFStrategy
    simp only
    split_ifs <;> simp
  exact (by decide +kernel : ∀ v ∈ ["mode2", "mode3", "mode1"], normalizeFastGGUFStrategy v = v) _ hmem

theorem orDefault_idem {fallback : String} (h : Go.trimSpace fallback = fallback) (value : String) :
    orDefault (orDefault value fallback) fallback = orDefault value fallback := by
  unfold orDefault
  split_ifs with htrim htrim' htrim'
  · rfl
  · exact h
  · rw [Go.trimSpace_trimSpace] at htrim'
    exact absurd htrim' htrim
  · exact Go.trimSpace_trimSpace value

/-- A runtime that is recognised reads the same again. -/
theorem runtime_idem {runtime : String} (h : runtime ∈ runtimes) : Go.toLower (Go.trimSpace runtime) = runtime :=
  (by decide +kernel : ∀ v ∈ runtimes, Go.toLower (Go.trimSpace v) = v) runtime h

theorem normalizeDownloadFavorite_idem (x y : DownloadFavorite) (h : normalizeDownloadFavorite x = some y) :
    normalizeDownloadFavorite y = some y := by
  unfold normalizeDownloadFavorite at h
  obtain ⟨hvalid, heq⟩ := Option.ite_none_right_eq_some.1 h
  obtain rfl := Option.some.inj heq
  unfold normalizeDownloadFavorite
  simp only [runtime_idem hvalid.1, Go.trimSpace_trimSpace, orDefault_idem (show Go.trimSpace "main" = "main" by decide +kernel)]
  exact if_pos hvalid

theorem normalizePerformanceCalibration_idem (x y : PerformanceCalibration) (h : normalizePerformanceCalibration x = some y) :
    normalizePerformanceCalibration y = some y := by
  unfold normalizePerformanceCalibration at h
  obtain ⟨hvalid, heq⟩ := Option.ite_none_right_eq_some.1 h
  obtain rfl := Option.some.inj heq
  unfold normalizePerformanceCalibration
  simp only [runtime_idem hvalid.2.1, Go.trimSpace_trimSpace]
  exact if_pos hvalid

theorem normalizeExtraArgs_idem (args : List String) : normalizeExtraArgs (normalizeExtraArgs args) = normalizeExtraArgs args := by
  have htrimmed : ∀ arg ∈ normalizeExtraArgs args, Go.trimSpace arg = arg := by
    intro arg harg
    obtain ⟨a, -, rfl⟩ := List.mem_map.1 (List.mem_filter.1 harg).1
    exact Go.trimSpace_trimSpace a
  have hmap : (normalizeExtraArgs args).map Go.trimSpace = normalizeExtraArgs args :=
    (List.map_congr_left htrimmed).trans (List.map_id' _)
  rw [normalizeExtraArgs, hmap, List.filter_eq_self]
  exact fun arg harg => (List.mem_filter.1 harg).2

theorem trimRight_trimRight (text : String) : Go.trimRight (Go.trimRight text '/') '/' = Go.trimRight text '/' := by
  rw [Go.trimRight, Go.trimRight, String.toList_ofList, List.rdropWhile_idempotent]

theorem trimRight_sublist (text : String) : (Go.trimRight text '/').toList.Sublist text.toList := by
  rw [Go.trimRight, String.toList_ofList]
  exact (List.rdropWhile_prefix _ _).sublist

theorem trimSpace_sublist (text : String) : (Go.trimSpace text).toList.Sublist text.toList := by
  rw [Go.trimSpace_toList]
  exact (List.rdropWhile_prefix _ _).sublist.trans (List.dropWhile_sublist _)

/-- An endpoint is read alike again unless white space stands before its last slashes. -/
theorem normalizeEndpoint_idem_iff (endpoint : String) :
    normalizeEndpoint (normalizeEndpoint endpoint) = normalizeEndpoint endpoint ↔
      Go.trimSpace (Go.trimRight (Go.trimSpace endpoint) '/') = Go.trimRight (Go.trimSpace endpoint) '/' := by
  have hstripped := trimRight_trimRight (Go.trimSpace endpoint)
  generalize hvalue : Go.trimRight (Go.trimSpace endpoint) '/' = value at *
  have hfirst : normalizeEndpoint endpoint = if value = "" then "https://huggingface.co" else value := by
    rw [normalizeEndpoint, hvalue]
  rw [hfirst]
  by_cases hempty : value = ""
  · subst hempty
    exact iff_of_true (by decide +kernel) (by decide +kernel)
  · rw [if_neg hempty]
    constructor
    · intro hsame
      unfold normalizeEndpoint at hsame
      simp only at hsame
      split_ifs at hsame
      · rw [← hsame]
        decide +kernel
      · refine String.toList_injective ((trimSpace_sublist value).antisymm ?_)
        have hsub := trimRight_sublist (Go.trimSpace value)
        rwa [hsame] at hsub
    · intro htrim
      rw [normalizeEndpoint, htrim, hstripped]
      exact if_neg hempty

/-! ## Directories -/

section
variable (home : Option String)

/-- The path has no white space at its ends and is not expanded again. -/
def Settled (path : String) : Prop := expandHome home (Go.trimSpace path) = path

instance (path : String) : Decidable (Settled home path) := inferInstanceAs (Decidable (_ = _))

variable {home}

theorem pathClean_ne_empty (name : String) : Go.pathClean name ≠ "" := by
  unfold Go.pathClean
  simp only
  split_ifs with hrooted hempty
  · intro h
    have hchars := congrArg String.toList h
    simp at hchars
  · decide
  · exact hempty

theorem expandHome_ne_empty {path : String} (h : path ≠ "") : expandHome home path ≠ "" := by
  unfold expandHome
  split
  · exact h
  · split
    · exact h
    · exact h
    · rename_i directory hdirectory
      split
      · exact hdirectory
      · rw [Go.pathJoin, if_neg (fun hboth => hdirectory hboth.1)]
        exact pathClean_ne_empty _

/-- A directory that is not blank is kept when it is settled. -/
theorem normalizeMLXModelDirectory_eq_iff {path : String} (h : Go.trimSpace path ≠ "") :
    normalizeMLXModelDirectory home path = path ↔ Settled home path := by
  rw [normalizeMLXModelDirectory, if_neg (show ¬ normalizeDirectory home path = "" from expandHome_ne_empty h)]
  exact Iff.rfl

/-! ## Settings -/

/-- What keeps settings from changing when they are read again. -/
structure Stable (home : Option String) (value : Settings) : Prop where
  modelDirectory : Settled home (normalizeDirectory home value.modelDirectory)
  mlxModelDirectory : Settled home (normalizeMLXModelDirectory home value.mlxModelDirectory)
  endpoint : Go.trimSpace (Go.trimRight (Go.trimSpace value.huggingFaceEndpoint) '/') =
    Go.trimRight (Go.trimSpace value.huggingFaceEndpoint) '/'

/-- Each field is in its normal form. -/
structure Fixed (home : Option String) (value : Settings) : Prop where
  modelDirectory : normalizeDirectory home value.modelDirectory = value.modelDirectory
  mlxModelDirectory : normalizeMLXModelDirectory home value.mlxModelDirectory = value.mlxModelDirectory
  uiLanguage : normalizeUILanguage value.uiLanguage = value.uiLanguage
  uiTheme : normalizeUITheme value.uiTheme = value.uiTheme
  defaultFastGGUFStrategy : normalizeFastGGUFStrategy value.defaultFastGGUFStrategy = value.defaultFastGGUFStrategy
  huggingFaceEndpoint : normalizeEndpoint value.huggingFaceEndpoint = value.huggingFaceEndpoint
  huggingFaceToken : Go.trimSpace value.huggingFaceToken = value.huggingFaceToken
  defaultRevision : orDefault value.defaultRevision "main" = value.defaultRevision
  serverHost : orDefault value.serverHost "0.0.0.0" = value.serverHost
  extraArgs : normalizeExtraArgs value.extraArgs = value.extraArgs
  downloadFavorites : normalizeDownloadFavorites value.downloadFavorites = value.downloadFavorites
  performanceCalibrations : normalizePerformanceCalibrations value.performanceCalibrations = value.performanceCalibrations

theorem normalizeSettings_eq_self_iff {value : Settings} : normalizeSettings home value = value ↔ Fixed home value := by
  constructor
  · intro h
    cases value
    simp only [normalizeSettings, Settings.mk.injEq, true_and] at h
    obtain ⟨h1, h2, h3, h4, h5, h6, h7, h8, h9, h10, h11, h12⟩ := h
    exact ⟨h1, h2, h4, h5, h3, h6, h7, h8, h9, h10, h11, h12⟩
  · rintro ⟨h1, h2, h3, h4, h5, h6, h7, h8, h9, h10, h11, h12⟩
    rw [normalizeSettings, h1, h2, h3, h4, h5, h6, h7, h8, h9, h10, h11, h12]

/-- Normal settings are left as they are exactly when they are stable. -/
theorem normalizeSettings_idem_iff {value : Settings} (hmlx : Go.trimSpace (normalizeSettings home value).mlxModelDirectory ≠ "") :
    normalizeSettings home (normalizeSettings home value) = normalizeSettings home value ↔ Stable home value := by
  rw [normalizeSettings_eq_self_iff]
  constructor
  · rintro ⟨hmodel, hdirectory, -, -, -, hendpoint, -⟩
    rw [normalizeMLXModelDirectory_eq_iff hmlx] at hdirectory
    simp only [normalizeSettings] at hmodel hdirectory hendpoint
    exact ⟨hmodel, hdirectory, (normalizeEndpoint_idem_iff _).1 hendpoint⟩
  · rintro ⟨hmodel, hdirectory, hendpoint⟩
    have hmlx' := hmlx
    simp only [normalizeSettings] at hmlx'
    constructor <;> simp only [normalizeSettings]
    case modelDirectory => exact hmodel
    case mlxModelDirectory => exact (normalizeMLXModelDirectory_eq_iff hmlx').2 hdirectory
    case uiLanguage => exact normalizeUILanguage_idem _
    case uiTheme => exact normalizeUITheme_idem _
    case defaultFastGGUFStrategy => exact normalizeFastGGUFStrategy_idem _
    case huggingFaceEndpoint => exact (normalizeEndpoint_idem_iff _).2 hendpoint
    case huggingFaceToken => exact Go.trimSpace_trimSpace _
    case defaultRevision => exact orDefault_idem (by decide +kernel) _
    case serverHost => exact orDefault_idem (by decide +kernel) _
    case extraArgs => exact normalizeExtraArgs_idem _
    case downloadFavorites => exact distinct_distinct normalizeDownloadFavorite_idem
    case performanceCalibrations => exact distinct_distinct normalizePerformanceCalibration_idem

end

end Tanpopo.Config
