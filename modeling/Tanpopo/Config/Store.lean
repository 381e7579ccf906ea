import Tanpopo.Config.Settings
/-!
# The settings store

- `save_iff`: when what is saved is normal and comes back when the store is opened again.
-/

namespace Tanpopo.Config

/-! ## The file -/

/-- The members of a JSON object of settings. -/
structure SettingsFile where
  modelDirectory : Option String
  mlxModelDirectory : Option String
  residentMode : Option Bool
  defaultFastGGUFEnabled : Option Bool
  defaultFastGGUFStrategy : Option String
  defaultKVCacheEnabled : Option Bool
  defaultMMapEnabled : Option Bool
  defaultDFlashEnabled : Option Bool
  removeOriginalGGUF : Option Bool
  autoCalibrationEnabled : Option Bool
  memoryProtectionEnabled : Option Bool
  uiLanguage : Option String
  uiTheme : Option String
  huggingFaceEndpoint : Option String
  huggingFaceToken : Option String
  defaultRevision : Option String
  serverHost : Option String
  serverPort : Option Int
  contextSize : Option Int
  gpuLayers : Option Int
  threads : Option Int
  extraArgs : Option (List String)
  downloadFavorites : Option (List DownloadFavorite)
  performanceCalibrations : Option (List PerformanceCalibration)

/-- `json.MarshalIndent`, which leaves out some empty members. -/
def members (value : Settings) : SettingsFile where
  modelDirectory := value.modelDirectory
  mlxModelDirectory := value.mlxModelDirectory
  residentMode := value.residentMode
  defaultFastGGUFEnabled := value.defaultFastGGUFEnabled
  defaultFastGGUFStrategy := value.defaultFastGGUFStrategy
  defaultKVCacheEnabled := value.defaultKVCacheEnabled
  defaultMMapEnabled := value.defaultMMapEnabled
  defaultDFlashEnabled := value.defaultDFlashEnabled
  removeOriginalGGUF := value.removeOriginalGGUF
  autoCalibrationEnabled := value.autoCalibrationEnabled
  memoryProtectionEnabled := value.memoryProtectionEnabled
  uiLanguage := value.uiLanguage
  uiTheme := value.uiTheme
  huggingFaceEndpoint := value.huggingFaceEndpoint
  huggingFaceToken := if value.huggingFaceToken = "" then none else some value.huggingFaceToken
  defaultRevision := value.defaultRevision
  serverHost := value.serverHost
  serverPort := value.serverPort
  contextSize := value.contextSize
  gpuLayers := value.gpuLayers
  threads := value.threads
  extraArgs := value.extraArgs
  downloadFavorites := if value.downloadFavorites = [] then none else some value.downloadFavorites
  performanceCalibrations := if value.performanceCalibrations = [] then none else some value.performanceCalibrations

def Float64.isFinite : Float64 → Bool
  | .finite _ => true
  | _ => false

def marshalIndent (value : Settings) : Option SettingsFile :=
  if value.performanceCalibrations.all fun calibration => calibration.averageTokensPerSecond.isFinite &&
      calibration.medianTokensPerSecond.isFinite && calibration.runs.all Float64.isFinite then
    some (members value)
  else none

/-- `json.Unmarshal` into settings that are filled already. -/
def unmarshal (file : SettingsFile) (value : Settings) : Settings where
  modelDirectory := file.modelDirectory.getD value.modelDirectory
  mlxModelDirectory := file.mlxModelDirectory.getD value.mlxModelDirectory
  residentMode := file.residentMode.getD value.residentMode
  defaultFastGGUFEnabled := file.defaultFastGGUFEnabled.getD value.defaultFastGGUFEnabled
  defaultFastGGUFStrategy := file.defaultFastGGUFStrategy.getD value.defaultFastGGUFStrategy
  defaultKVCacheEnabled := file.defaultKVCacheEnabled.getD value.defaultKVCacheEnabled
  defaultMMapEnabled := file.defaultMMapEnabled.getD value.defaultMMapEnabled
  defaultDFlashEnabled := file.defaultDFlashEnabled.getD value.defaultDFlashEnabled
  removeOriginalGGUF := file.removeOriginalGGUF.getD value.removeOriginalGGUF
  autoCalibrationEnabled := file.autoCalibrationEnabled.getD value.autoCalibrationEnabled
  memoryProtectionEnabled := file.memoryProtectionEnabled.getD value.memoryProtectionEnabled
  uiLanguage := file.uiLanguage.getD value.uiLanguage
  uiTheme := file.uiTheme.getD value.uiTheme
  huggingFaceEndpoint := file.huggingFaceEndpoint.getD value.huggingFaceEndpoint
  huggingFaceToken := file.huggingFaceToken.getD value.huggingFaceToken
  defaultRevision := file.defaultRevision.getD value.defaultRevision
  serverHost := file.serverHost.getD value.serverHost
  serverPort := file.serverPort.getD value.serverPort
  contextSize := file.contextSize.getD value.contextSize
  gpuLayers := file.gpuLayers.getD value.gpuLayers
  threads := file.threads.getD value.threads
  extraArgs := file.extraArgs.getD value.extraArgs
  downloadFavorites := file.downloadFavorites.getD value.downloadFavorites
  performanceCalibrations := file.performanceCalibrations.getD value.performanceCalibrations

/-- What `os.ReadFile` and the JSON reader find at the path. -/
inductive Contents where
  | missing
  | unreadable (message : String)
  | invalid (message : String)
  | object (file : SettingsFile)

/-! ## The store -/

structure Store where
  settings : Settings
  file : Contents

/-- The file changes in the last step, the renaming; `failure` is the error of any step. -/
def writeFileAtomic (failure : Option String) (content : SettingsFile) (file : Contents) : Option String × Contents :=
  match failure with
  | some e => (some e, file)
  | none => (none, .object content)

section
variable (home : Option String)

/-- The error, and the store after it. -/
def saveLocked (failure : Option String) (value : Settings) (store : Store) : Option String × Store :=
  let value := normalizeSettings home value
  match validateSettings value with
  | some e => (some e, store)
  | none =>
    match marshalIndent value with
    | none => (some "json: unsupported value", store)
    | some content =>
      match writeFileAtomic failure content store.file with
      | (some e, file) => (some e, { store with file })
      | (none, file) => (none, ⟨value, file⟩)

def save (failure : Option String) (value : Settings) (store : Store) : Option String × Store := saveLocked home failure value store

/-- The change is given the settings and may fail. -/
def update (failure : Option String) (change : Settings → Except String Settings) (store : Store) : Option String × Store :=
  match change store.settings with
  | .error e => (some e, store)
  | .ok value => saveLocked home failure value store

def newStore (failure : Option String) (file : Contents) : Except String Store :=
  match file with
  | .missing =>
    match save home failure (defaultSettings home) ⟨defaultSettings home, file⟩ with
    | (some e, _) => .error e
    | (none, store) => .ok store
  | .unreadable e => .error e
  | .invalid e => .error ("解析設定檔失敗: " ++ e)
  | .object members =>
    let settings := normalizeSettings home (unmarshal members (defaultSettings home))
    match validateSettings settings with
    | some e => .error e
    | none => .ok ⟨settings, file⟩

end

/-! ## Reading back -/

variable {home failure : Option String} {value : Settings} {store store' : Store}

/-- Members that are left out are empty by default. -/
theorem unmarshal_members (value : Settings) : unmarshal (members value) (defaultSettings home) = value := by
  have hlist : ∀ {α : Type} [DecidableEq α] (l : List α), (if l = [] then none else some l).getD [] = l := by
    intro α _ l
    split
    · rename_i hnil
      exact hnil.symm
    · rfl
  have htoken : ∀ s : String, (if s = "" then none else some s).getD "" = s := by
    intro s
    split
    · rename_i hempty
      exact hempty.symm
    · rfl
  have hfavorites := hlist value.downloadFavorites
  have hcalibrations := hlist value.performanceCalibrations
  have htoken := htoken value.huggingFaceToken
  cases value
  simp only [unmarshal, members, defaultSettings, Option.getD_some, htoken, hfavorites, hcalibrations]

/-- A save that succeeds puts normal settings in the store and in the file. -/
theorem saveLocked_cases (home failure : Option String) (value : Settings) (store : Store) :
    (∃ e, saveLocked home failure value store = (some e, store)) ∨
    (validateSettings (normalizeSettings home value) = none ∧
      saveLocked home failure value store =
        (none, ⟨normalizeSettings home value, .object (members (normalizeSettings home value))⟩)) := by
  unfold saveLocked
  simp only
  split
  · exact .inl ⟨_, rfl⟩
  · rename_i hvalid
    split
    · exact .inl ⟨_, rfl⟩
    · rename_i content hcontent
      obtain ⟨-, hcontent⟩ := Option.ite_none_right_eq_some.1 hcontent
      obtain rfl := Option.some.inj hcontent
      cases failure with
      | some e => exact .inl ⟨e, rfl⟩
      | none => exact .inr ⟨hvalid, rfl⟩

theorem mlxModelDirectory_ne_blank (h : validateSettings value = none) : Go.trimSpace value.mlxModelDirectory ≠ "" := by
  intro hblank
  rw [validateSettings, Option.map_eq_none_iff, List.find?_eq_none] at h
  refine h (decide (Go.trimSpace value.mlxModelDirectory = ""), "mlx_model_directory 不可為空") ?_ (decide_eq_true hblank)
  exact List.mem_append_left _ (by simp [settingsChecks])

/-- What comes back is what normalizing once more gives. -/
theorem newStore_members (failure : Option String) (h : validateSettings value = none) (hfixed : normalizeSettings home value = value) :
    newStore home failure (.object (members value)) = .ok ⟨value, .object (members value)⟩ := by
  unfold newStore
  simp only
  rw [unmarshal_members, hfixed, h]

/-- The settings are normal, and opening the store again gives them. -/
def Reloads (home failure : Option String) (store : Store) : Prop :=
  normalizeSettings home store.settings = store.settings ∧
    ∃ reopened, newStore home failure store.file = .ok reopened ∧ reopened.settings = store.settings

theorem saveLocked_failed {e : String} (h : saveLocked home failure value store = (some e, store')) : store' = store := by
  rcases saveLocked_cases home failure value store with ⟨e', heq⟩ | ⟨-, heq⟩
  · rw [heq] at h
    cases h
    rfl
  · rw [heq] at h
    cases h

theorem saveLocked_reloads_iff (failure' : Option String) (h : saveLocked home failure value store = (none, store')) :
    Reloads home failure' store' ↔ Stable home value := by
  rcases saveLocked_cases home failure value store with ⟨e', heq⟩ | ⟨hvalid, heq⟩
  · rw [heq] at h
    cases h
  · rw [heq] at h
    cases h
    rw [← normalizeSettings_idem_iff (mlxModelDirectory_ne_blank hvalid)]
    exact ⟨And.left, fun hfixed => ⟨hfixed, _, newStore_members failure' hvalid hfixed, rfl⟩⟩

/-- The defaults with an endpoint. -/
def withEndpoint (endpoint : String) : Settings := { defaultSettings (some "/home/u") with huggingFaceEndpoint := endpoint }

theorem save_withEndpoint (endpoint : String)
    (h : validateSettings (normalizeSettings (some "/home/u") (withEndpoint endpoint)) = none) :
    ∃ store', save (some "/home/u") none (withEndpoint endpoint) ⟨withEndpoint endpoint, .missing⟩ = (none, store') ∧
      store'.settings = normalizeSettings (some "/home/u") (withEndpoint endpoint) := by
  rw [save, saveLocked]
  simp only [h]
  exact ⟨_, rfl, rfl⟩

end Tanpopo.Config
