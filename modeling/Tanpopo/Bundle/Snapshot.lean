import Tanpopo.Bundle.Safety
import Mathlib
/-!
# Snapshots of models

`createSelection` lists and hashes the files of a model: a whole directory, one
GGUF file with its assets, or a Fast GGUF manifest with its shards. The
directory is whatever the calls on it answer, so symbolic links are covered.
`snapshot_agrees`: the manifest is accepted, the directory it was made from
matches it, and no directory does in which a listed file differs.
-/

namespace Tanpopo.Bundle

open Go

/-! ## Directories -/

/-- What `Stat` says of a file. -/
structure FileInfo where
  regular : Bool
  size : Int

/-- An opened directory, by the answers to the calls made on it. -/
structure Directory where
  /-- What a walk meets that enters no hidden directory, and whether it is a directory. -/
  walk : List (TreePath × Bool)
  walkError : Option String
  readDir : Except String (List (String × Bool))
  stat : String → Except String FileInfo
  readFile : String → Except String (List UInt8)

/-- Opening the directories below a model root. -/
abbrev Root := String → Except String Directory

def Root.openDirectory (root : Root) (relative : String) : Except String Directory :=
  if relative ≠ "." && !validPath relative then .error "模型目錄格式無效" else root relative

namespace Directory

/-- Links are followed, and what they lead to must be a regular file. -/
def regularFile (d : Directory) (failure name : String) : Except String File :=
  match d.stat name with
  | .error e => .error e
  | .ok info => if info.regular then .ok ⟨name, info.size, ""⟩ else .error failure

def visit (d : Directory) (files : List File) (met : TreePath × Bool) : Except String (List File) :=
  let name := pathText met.1
  if met.1.getLast?.any isHidden || met.2 || !inventoried name then .ok files
  else if !validPath name then .error "模型包含不可攜的檔案路徑"
  else do
    let file ← d.regularFile ("模型檔案不是一般檔案：" ++ name) name
    if (files ++ [file]).length > maxFiles then .error "模型檔案數量超限" else .ok (files ++ [file])

def sortFiles (files : List File) : List File := files.insertionSort fun a b => a.path ≤ b.path

def inventory (d : Directory) : Except String (List File) := do
  let files ← d.walk.foldlM d.visit []
  match d.walkError with
  | some e => .error e
  | none => .ok (sortFiles files)

end Directory

/-! ## Selections -/

/-- What a selection reads of a Fast GGUF manifest. -/
structure FastManifest where
  shards : List String
  configuration : String
  tokenizer : String
  tokenizerConfiguration : String
  processorConfiguration : String
  generationConfiguration : String

/-- `json.Unmarshal` into a Fast GGUF manifest. -/
abbrev Unmarshal := List UInt8 → Option FastManifest

def FastManifest.names (manifest : FastManifest) : List String :=
  (manifest.shards ++ [manifest.configuration, manifest.tokenizer, manifest.tokenizerConfiguration,
    manifest.processorConfiguration, manifest.generationConfiguration]).filter (· ≠ "")

def configurationNames : List String :=
  ["config.json", "tokenizer.json", "tokenizer_config.json", "generation_config.json", "preprocessor_config.json",
    "processor_config.json", "chat_template.jinja"]

/-- An asset that goes along with a GGUF file of the same directory. -/
def isAsset (name : String) : Bool :=
  relevant name && !contains name ".tanpopo-" && !isHidden name && pathExt name ≠ ".gguf" && pathExt name ≠ ".fgguf" &&
    pathExt name ≠ ".safetensors"

namespace Directory

def fastNames (unmarshal : Unmarshal) (d : Directory) (entry : String) : Except String (List String) := do
  let data ← d.readFile entry
  match if data.length > maxManifestBytes then none else unmarshal data with
  | none => .error "Fast GGUF 清單無效"
  | some manifest =>
    if manifest.shards = [] then .error "Fast GGUF 清單無效"
    else if manifest.configuration = "" then
      .ok (manifest.names ++ configurationNames.filter fun name => (d.stat name).isOk)
    else .ok manifest.names

def assetNames (d : Directory) : Except String (List String) := do
  let entries ← d.readDir
  return (entries.filter fun item => !item.2 && isAsset item.1).map (·.1)

def selectedNames (unmarshal : Unmarshal) (d : Directory) (entry : String) : Except String (List String) :=
  if hasSuffix entry ".fgguf.json" then d.fastNames unmarshal entry else d.assetNames

def selectedFile (d : Directory) (name : String) : Except String File :=
  if !validPath name || pathBase name ≠ name then .error "模型資產必須位於同一目錄，且不得包含路徑跳脫"
  else d.regularFile "模型資產不是一般檔案" name

/-- The names are a set in the source, which is visited in any order and sorted afterwards. -/
def selectionInventory (unmarshal : Unmarshal) (d : Directory) (entry : String) (auxiliary : List String) :
    Except String (List File) :=
  if entry = "" then d.inventory
  else do
    let names ← d.selectedNames unmarshal entry
    let files ← (entry :: (auxiliary ++ names)).dedup.mapM d.selectedFile
    return sortFiles files

def hashed (codec : Codec) (d : Directory) (file : File) : Except String File :=
  match d.readFile file.path with
  | .error e => .error e
  | .ok content =>
    if (content.length : Int) ≠ file.size then .error ("模型在核對時變更：" ++ file.path)
    else .ok { file with sha256 := codec.hexSum content }

end Directory

/-! ## Snapshots -/

/-- Addition of `int64`. -/
def addInt64 (a b : Int) : Int := Int.bmod (a + b) (2 ^ 64)

def byteTotal (files : List File) : Int := files.foldl (fun total file => addInt64 total file.size) 0

structure Snapshot where
  manifest : Manifest
  relative : String
  deriving DecidableEq

/-- The entry of a single file, and its directory. -/
def splitEntry (relative : String) : String × String :=
  if hasSuffix relative ".gguf" || hasSuffix relative ".fgguf.json" then (pathBase relative, pathDir relative)
  else ("", relative)

def snapshotManifest (codec : Codec) (entry : String) (files : List File) (total : Int) : Manifest :=
  let manifest : Manifest := ⟨entry, files, "", total⟩
  { manifest with digest := manifest.contentDigest codec }

namespace Root

/-- `CreateSelection`, while nothing changes and nothing is cancelled. -/
def createSelection (codec : Codec) (unmarshal : Unmarshal) (root : Root) (relative : String) (auxiliary : List String) :
    Except String Snapshot := do
  let selected := splitEntry relative
  let directory ← root.openDirectory selected.2
  let listed ← directory.selectionInventory unmarshal selected.1 auxiliary
  let files ← listed.mapM (directory.hashed codec)
  let manifest := snapshotManifest codec selected.1 files (byteTotal listed)
  manifest.validate codec
  return ⟨manifest, selected.2⟩

end Root

namespace Directory

def sameFiles (files wanted : List File) : Bool :=
  files.map (fun file => (file.path, file.size)) = wanted.map fun file => (file.path, file.size)

def sameStat (d : Directory) (file : File) : Bool :=
  match d.stat file.path with
  | .error _ => false
  | .ok info => info.regular && info.size = file.size

def sameContent (codec : Codec) (d : Directory) (item : File) : Bool :=
  match d.readFile item.path with
  | .error _ => false
  | .ok content => (content.length : Int) = item.size && codec.hexSum content = item.sha256

def lists (d : Directory) (want : Manifest) : Bool :=
  if want.entry = "" then
    match d.inventory with
    | .error _ => false
    | .ok files => sameFiles files want.files
  else want.files.all d.sameStat

end Directory

/-- `Matches`, when it is not cancelled. -/
def Root.matches_ (codec : Codec) (root : Root) (relative : String) (want : Manifest) : Bool :=
  match root.openDirectory relative with
  | .error _ => false
  | .ok directory =>
    directory.lists want && (want.files.insertionSort fun a b => a.size ≤ b.size).all (directory.sameContent codec)

/-! ## Byte totals -/

variable {codec : Codec} {unmarshal : Unmarshal}

theorem sum_bounds {files : List File} (h : ∀ file ∈ files, 0 ≤ file.size ∧ file.size ≤ 2 ^ 50) :
    0 ≤ (files.map (·.size)).sum ∧ (files.map (·.size)).sum ≤ files.length * 2 ^ 50 := by
  induction files with
  | nil => exact ⟨le_refl _, le_refl _⟩
  | cons file rest ih =>
    obtain ⟨hlow, hhigh⟩ := h file List.mem_cons_self
    obtain ⟨hlow', hhigh'⟩ := ih fun other hother => h other (List.mem_cons_of_mem _ hother)
    rw [List.map_cons, List.sum_cons, List.length_cons]
    push_cast
    omega

theorem addInt64_eq {a b : Int} (hlow : 0 ≤ a + b) (hhigh : a + b < 2 ^ 63) : addInt64 a b = a + b :=
  Int.bmod_eq_of_le (by omega) (by omega)

/-- No sum on the way to the total of a short list overflows. -/
theorem byteTotal_eq {files : List File} (h : ∀ file ∈ files, 0 ≤ file.size ∧ file.size ≤ 2 ^ 50)
    (hcount : files.length ≤ maxFiles) : byteTotal files = (files.map (·.size)).sum := by
  induction files using List.reverseRecOn with
  | nil => rfl
  | append_singleton files file ih =>
    have hfiles : ∀ other ∈ files, 0 ≤ other.size ∧ other.size ≤ 2 ^ 50 :=
      fun other hother => h other (List.mem_append_left _ hother)
    obtain ⟨hlow, hhigh⟩ := h file (List.mem_append_right _ List.mem_cons_self)
    obtain ⟨hsum, hsum'⟩ := sum_bounds hfiles
    rw [List.length_append, List.length_singleton, maxFiles] at hcount
    rw [byteTotal, List.foldl_append, List.foldl_cons, List.foldl_nil, ← byteTotal, ih hfiles (by rw [maxFiles]; omega),
      List.map_append, List.sum_append, List.map_singleton, List.sum_singleton, addInt64_eq (by omega) (by omega)]

theorem byteTotal_congr {files others : List File} (h : files.map (·.size) = others.map (·.size)) :
    byteTotal files = byteTotal others := by
  rw [byteTotal, byteTotal, ← List.foldl_map, ← List.foldl_map (f := fun file : File => file.size), h]

/-! ## What a selection lists -/

namespace Directory

variable {d : Directory}

theorem sameStat_of_regularFile {failure name : String} {file : File} (h : d.regularFile failure name = .ok file) :
    d.sameStat file = true := by
  unfold regularFile at h
  split at h
  · cases h
  · rename_i info hstat
    split_ifs at h with hregular
    cases h
    simp [sameStat, hstat, hregular]

theorem sameStat_of_selectedFile {name : String} {file : File} (h : d.selectedFile name = .ok file) :
    d.sameStat file = true := by
  unfold selectedFile at h
  split_ifs at h
  exact sameStat_of_regularFile h

theorem sameStat_of_visit {files files' : List File} {met : TreePath × Bool} (h : d.visit files met = .ok files')
    (hfiles : ∀ file ∈ files, d.sameStat file = true) : ∀ file ∈ files', d.sameStat file = true := by
  unfold visit at h
  simp only at h
  split_ifs at h
  · cases h
    exact hfiles
  · obtain ⟨file, hfile, h⟩ := bind_ok_inv h
    split_ifs at h
    cases h
    intro other hother
    rcases List.mem_append.1 hother with hother | hother
    · exact hfiles other hother
    · rw [List.mem_singleton.1 hother]
      exact sameStat_of_regularFile hfile

theorem sameStat_of_visits {met : List (TreePath × Bool)} {start files : List File}
    (h : met.foldlM d.visit start = .ok files) (hstart : ∀ file ∈ start, d.sameStat file = true) :
    ∀ file ∈ files, d.sameStat file = true := by
  induction met generalizing start with
  | nil =>
    cases h
    exact hstart
  | cons first rest ih =>
    rw [List.foldlM_cons] at h
    obtain ⟨next, hnext, hrest⟩ := bind_ok_inv h
    exact ih hrest (sameStat_of_visit hnext hstart)

/-- Everything in an inventory is a regular file of the size that it says. -/
theorem sameStat_of_inventory {listed : List File} (h : d.inventory = .ok listed) :
    ∀ file ∈ listed, d.sameStat file = true := by
  unfold inventory at h
  obtain ⟨files, hfiles, h⟩ := bind_ok_inv h
  have hall := sameStat_of_visits hfiles nofun
  split at h
  · cases h
  · cases h
    intro file hfile
    exact hall file ((List.perm_insertionSort _ files).mem_iff.1 hfile)

theorem lists_of_selectionInventory {entry : String} {auxiliary : List String} {listed : List File}
    (h : d.selectionInventory unmarshal entry auxiliary = .ok listed) :
    if entry = "" then d.inventory = .ok listed else ∀ file ∈ listed, d.sameStat file = true := by
  unfold selectionInventory at h
  split_ifs at h ⊢ with hentry
  · exact h
  · obtain ⟨names, -, h⟩ := bind_ok_inv h
    obtain ⟨files, hfiles, h⟩ := bind_ok_inv h
    cases h
    intro file hfile
    obtain ⟨name, -, hname⟩ := exists_of_mem_mapM hfiles ((List.perm_insertionSort _ files).mem_iff.1 hfile)
    exact sameStat_of_selectedFile hname

/-- Hashing fills in the sum and nothing else. -/
theorem hashed_eq {file item : File} (h : d.hashed codec file = .ok item) :
    item.path = file.path ∧ item.size = file.size ∧ d.sameContent codec item = true := by
  unfold hashed at h
  split at h
  · cases h
  · rename_i content hread
    split_ifs at h with hsize
    cases h
    rw [not_not] at hsize
    simp [sameContent, hread, hsize]

theorem sameStat_congr {file item : File} (hpath : item.path = file.path) (hsize : item.size = file.size) :
    d.sameStat item = d.sameStat file := by
  rw [sameStat, sameStat, hpath, hsize]

end Directory

/-! ## Snapshots and directories -/

/-- A file of a manifest is missing, or has another size or another sum. -/
def Differs (codec : Codec) (d : Directory) (file : File) : Prop :=
  (∀ info, d.stat file.path = .ok info → info.regular = false ∨ info.size ≠ file.size) ∨
    ∀ content, d.readFile file.path = .ok content → (content.length : Int) ≠ file.size ∨ codec.hexSum content ≠ file.sha256

theorem matches_eq_true {root : Root} {relative : String} {want : Manifest} :
    root.matches_ codec relative want = true ↔ ∃ d, root.openDirectory relative = .ok d ∧ d.lists want = true ∧
      ∀ item ∈ want.files, d.sameContent codec item = true := by
  unfold Root.matches_
  cases root.openDirectory relative with
  | error e => simp
  | ok d =>
    simp only [Bool.and_eq_true, List.all_eq_true, Except.ok.injEq, exists_eq_left']
    refine and_congr_right fun _ => forall_congr' fun item => ?_
    rw [(List.perm_insertionSort _ want.files).mem_iff]

/-- Every file of a manifest that is listed is there. -/
theorem sameStat_of_lists {d : Directory} {want : Manifest} (h : d.lists want = true) :
    ∀ file ∈ want.files, d.sameStat file = true := by
  unfold Directory.lists at h
  split_ifs at h
  · split at h
    · cases h
    · rename_i files hfiles
      rw [Directory.sameFiles, decide_eq_true_eq] at h
      intro file hfile
      obtain ⟨found, hfound, heq⟩ := List.mem_map.1 (h ▸ List.mem_map_of_mem hfile)
      obtain ⟨hpath, hsize⟩ := Prod.mk.inj heq
      rw [Directory.sameStat_congr hpath.symm hsize.symm]
      exact Directory.sameStat_of_inventory hfiles found hfound
  · exact List.all_eq_true.1 h

theorem not_differs_of_matches {root : Root} {relative : String} {want : Manifest}
    (h : root.matches_ codec relative want = true) :
    ∃ d, root.openDirectory relative = .ok d ∧ ∀ file ∈ want.files, ¬ Differs codec d file := by
  obtain ⟨d, hopen, hlists, hcontent⟩ := matches_eq_true.1 h
  refine ⟨d, hopen, fun file hfile hdiffers => ?_⟩
  have hstat := sameStat_of_lists hlists file hfile
  have hread := hcontent file hfile
  unfold Directory.sameStat at hstat
  unfold Directory.sameContent at hread
  split at hstat
  · cases hstat
  split at hread
  · cases hread
  rename_i info hinfo _ content hcontent
  rw [Bool.and_eq_true, decide_eq_true_eq] at hstat
  rw [Bool.and_eq_true, decide_eq_true_eq, decide_eq_true_eq] at hread
  rcases hdiffers with hdiffers | hdiffers
  · rcases hdiffers info hinfo with hregular | hsize
    · rw [hstat.1] at hregular
      cases hregular
    · exact hsize hstat.2
  · rcases hdiffers content hcontent with hsize | hsum
    · exact hsize hread.1
    · exact hsum hread.2

/-- What `createSelection` has passed when it returns a snapshot. -/
theorem createSelection_ok {root : Root} {relative : String} {auxiliary : List String} {snapshot : Snapshot}
    (h : root.createSelection codec unmarshal relative auxiliary = .ok snapshot) :
    ∃ d listed files, root.openDirectory snapshot.relative = .ok d ∧
      d.selectionInventory unmarshal (splitEntry relative).1 auxiliary = .ok listed ∧
      listed.mapM (d.hashed codec) = .ok files ∧
      snapshot.manifest = snapshotManifest codec (splitEntry relative).1 files (byteTotal listed) ∧
      snapshot.manifest.validate codec = .ok () := by
  unfold Root.createSelection at h
  obtain ⟨d, hopen, h⟩ := bind_ok_inv h
  obtain ⟨listed, hlisted, h⟩ := bind_ok_inv h
  obtain ⟨files, hfiles, h⟩ := bind_ok_inv h
  obtain ⟨⟨⟩, hvalid, h⟩ := bind_ok_inv h
  cases h
  exact ⟨d, listed, files, hopen, hlisted, hfiles, rfl, hvalid⟩

/-- The listing that a manifest was made from is found again. -/
theorem lists_snapshot {d : Directory} {entry : String} {auxiliary : List String} {listed files : List File} {total : Int}
    (hlisted : d.selectionInventory unmarshal entry auxiliary = .ok listed) (hfiles : listed.mapM (d.hashed codec) = .ok files) :
    d.lists (snapshotManifest codec entry files total) = true := by
  have hshown := Directory.lists_of_selectionInventory hlisted
  unfold Directory.lists
  change (if entry = "" then _ else _) = true
  split_ifs at hshown ⊢
  · rw [hshown]
    have hsame : files.map (fun file => (file.path, file.size)) = listed.map fun file => (file.path, file.size) := by
      apply map_eq_of_mapM hfiles
      intro file item hitem
      rw [(Directory.hashed_eq hitem).1, (Directory.hashed_eq hitem).2.1]
    exact decide_eq_true hsame.symm
  · apply List.all_eq_true.2
    intro item hitem
    obtain ⟨file, hfile, hhashed⟩ := exists_of_mem_mapM hfiles hitem
    obtain ⟨hpath, hsize, -⟩ := Directory.hashed_eq hhashed
    rw [Directory.sameStat_congr hpath hsize]
    exact hshown file hfile

theorem size_bounds_of_filesValid {previous : Option File} {files : List File} (h : filesValid previous files = true) :
    ∀ file ∈ files, 0 ≤ file.size ∧ file.size ≤ 2 ^ 50 := by
  induction files generalizing previous with
  | nil => nofun
  | cons file rest ih =>
    simp only [filesValid, File.valid, Bool.and_eq_true, decide_eq_true_eq] at h
    obtain ⟨⟨⟨⟨⟨⟨-, -⟩, hlow⟩, hhigh⟩, -⟩, -⟩, hrest⟩ := h
    rintro other (_ | ⟨_, hother⟩)
    · exact ⟨hlow, hhigh⟩
    · exact ih hrest other hother

/-- The bound on the sizes of an accepted manifest. -/
theorem size_bounds_of_validate {manifest : Manifest} (h : manifest.validate codec = .ok ()) :
    ∀ file ∈ manifest.files, 0 ≤ file.size ∧ file.size ≤ 2 ^ 50 := by
  unfold Manifest.validate at h
  split_ifs at h with _ hfiles
  rw [Bool.not_eq_true, Bool.not_eq_false'] at hfiles
  exact size_bounds_of_filesValid hfiles

/-- A snapshot is accepted, its directory matches it, and a directory in which a listed file differs does not. -/
theorem snapshot_agrees (codec : Codec) (unmarshal : Unmarshal) (root : Root) (relative : String) (auxiliary : List String)
    (snapshot : Snapshot) (h : root.createSelection codec unmarshal relative auxiliary = .ok snapshot) :
    snapshot.manifest.validate codec = .ok () ∧
      (∀ n, byteTotal (snapshot.manifest.files.take n) = ((snapshot.manifest.files.take n).map (·.size)).sum) ∧
      byteTotal snapshot.manifest.files = snapshot.manifest.bytes ∧
      root.matches_ codec snapshot.relative snapshot.manifest = true ∧
      ∀ (other : Root) (place : String),
        (∀ d, other.openDirectory place = .ok d → ∃ file ∈ snapshot.manifest.files, Differs codec d file) →
        other.matches_ codec place snapshot.manifest = false := by
  obtain ⟨d, listed, files, hopen, hlisted, hfiles, hmanifest, hvalid⟩ := createSelection_ok h
  refine ⟨hvalid, fun n => ?_, ?_, ?_, fun other place hdiffers => ?_⟩
  · apply byteTotal_eq
    · intro file hfile
      exact size_bounds_of_validate hvalid file (List.mem_of_mem_take hfile)
    · exact (List.length_take_le' _ _).trans (valid_of_validate hvalid).count
  · rw [hmanifest]
    apply byteTotal_congr
    exact map_eq_of_mapM hfiles fun file item hitem => (Directory.hashed_eq hitem).2.1
  · apply matches_eq_true.2
    refine ⟨d, hopen, ?_, ?_⟩
    · rw [hmanifest]
      exact lists_snapshot hlisted hfiles
    · rw [hmanifest]
      intro item hitem
      obtain ⟨file, -, hhashed⟩ := exists_of_mem_mapM hfiles hitem
      exact (Directory.hashed_eq hhashed).2.2
  · apply Bool.eq_false_iff.2
    intro hmatches
    obtain ⟨d', hopen', hsame⟩ := not_differs_of_matches hmatches
    obtain ⟨file, hfile, hfound⟩ := hdiffers d' hopen'
    exact hsame file hfile hfound

/-- The sum of the manifest of an empty `m.gguf`. -/
def entrySumBytes : List UInt8 :=
  [190, 170, 185, 140, 132, 15, 237, 5, 40, 30, 238, 146, 43, 35, 218, 191,
    175, 193, 73, 45, 236, 121, 11, 187, 26, 90, 82, 206, 1, 217, 94, 56]

theorem length_emptySumBytes : emptySumBytes.length = 32 := rfl

theorem length_entrySumBytes : entrySumBytes.length = 32 := rfl

def entryCodec : Codec where
  sha256 bytes := if bytes = [] then ⟨emptySumBytes, length_emptySumBytes⟩ else ⟨entrySumBytes, length_entrySumBytes⟩
  marshalFiles := sampleJSON
  marshalEntry entry files :=
    ("\x7b\"Entry\":\"".toList ++ entry.toList ++ "\",\"Files\":".toList).map (fun c => UInt8.ofNat c.toNat) ++
      sampleJSON files ++ [125]
  marshal m :=
    ("\x7b\"entry\":\"".toList ++ m.entry.toList ++ "\",\"files\":".toList).map (fun c => UInt8.ofNat c.toNat) ++
      sampleJSON m.files ++ (",\"digest\":\"".toList ++ m.digest.toList ++ "\",\"bytes\":".toList ++
        (formatInt m.bytes).toList).map (fun c => UInt8.ofNat c.toNat) ++ [125]

/-- A directory with an empty `m.gguf` in it. -/
def entryRoot : Root := fun _ => .ok
  { walk := [(["m.gguf"], false)]
    walkError := none
    readDir := .ok [("m.gguf", false)]
    stat := fun name => if name = "m.gguf" then .ok ⟨true, 0⟩ else .error "no such file"
    readFile := fun name => if name = "m.gguf" then .ok [] else .error "no such file" }

def entrySnapshot : Snapshot := ⟨snapshotManifest entryCodec "m.gguf" [⟨"m.gguf", 0, emptySum⟩] 0, "."⟩

theorem entry_snapshot_agrees : entrySnapshot.manifest.validate entryCodec = .ok () ∧
    entryRoot.matches_ entryCodec "." entrySnapshot.manifest = true := by
  have hcreate : entryRoot.createSelection entryCodec (fun _ => none) "m.gguf" [] = .ok entrySnapshot := by decide +kernel
  obtain ⟨hvalid, -, -, hmatches, -⟩ := snapshot_agrees entryCodec (fun _ => none) entryRoot "m.gguf" [] entrySnapshot hcreate
  exact ⟨hvalid, hmatches⟩

/-! ## Trees without links -/

/-- The calls on a directory of a tree. -/
def opened (tree : Tree) (directory : TreePath) : Directory where
  walk := ((tree.walk directory).filter fun e => !e.1.dropLast.any isHidden).map fun e => (e.1, decide (e.2 = .dir))
  walkError := none
  readDir := .ok (((tree.walk directory).filter fun e => e.1.length = 1).map fun e => (pathText e.1, decide (e.2 = .dir)))
  stat name :=
    match tree.get? (directory ++ pathNames name) with
    | none => .error ("no such file: " ++ name)
    | some (.file content) => .ok ⟨true, content.length⟩
    | some _ => .ok ⟨false, 0⟩
  readFile name :=
    match fileAt tree directory name with
    | none => .error ("cannot read: " ++ name)
    | some content => .ok content

def treeRoot (tree : Tree) : Root := fun relative =>
  if tree.entryAt (pathNames relative) = some .dir then .ok (opened tree (pathNames relative))
  else .error ("not a directory: " ++ relative)

/-- No name of the tree has a slash in it. -/
def PlainNames (tree : Tree) : Prop := ∀ path e, tree.get? path = some e → ∀ name ∈ path, '/' ∉ name.toList

variable {tree : Tree} {directory : TreePath}

theorem any_isHidden (path : TreePath) : path.any isHidden = (path.dropLast.any isHidden || path.getLast?.any isHidden) := by
  rcases List.eq_nil_or_concat path with rfl | ⟨start, name, rfl⟩
  · rfl
  · simp

theorem pathNames_pathText {path : TreePath} (hplain : ∀ name ∈ path, '/' ∉ name.toList) (hne : path ≠ [])
    (hvalid : validPath (pathText path) = true) : pathNames (pathText path) = path := by
  rw [(validPath_parts hvalid).1, pathText, if_neg hne, split_join hne hplain]

/-- One step of the walk lists what the inventory of a tree lists. -/
theorem visit_opened {path : TreePath} {e : Entry} {files : List File} (hplain : PlainNames tree) (hne : path ≠ [])
    (hget : tree.get? (directory ++ path) = some e) (hbelow : path.dropLast.any isHidden = false) :
    ((opened tree directory).visit files (path, decide (e = .dir))).toOption =
      if !path.any isHidden && e ≠ .dir && inventoried (pathText path) then
        (inventoryFile (path, e)).bind fun file => if (files ++ [file]).length > maxFiles then none else some (files ++ [file])
      else some files := by
  have hnames : ∀ name ∈ path, '/' ∉ name.toList :=
    fun name hname => hplain _ e hget name (List.mem_append_right _ hname)
  rw [any_isHidden, hbelow, Bool.false_or]
  unfold Directory.visit
  dsimp only
  -- Both skip what is hidden, a directory or not listed in an inventory.
  by_cases hskip : (path.getLast?.any isHidden || decide (e = .dir) || !inventoried (pathText path)) = true
  · rw [if_pos hskip, if_neg]
    · rfl
    · revert hskip
      cases path.getLast?.any isHidden <;> cases inventoried (pathText path) <;> simp
  have hkeep : (!path.getLast?.any isHidden && decide (e ≠ .dir) && inventoried (pathText path)) = true := by
    revert hskip
    cases path.getLast?.any isHidden <;> cases inventoried (pathText path) <;> simp
  rw [if_neg hskip, if_pos hkeep]
  have hdir : e ≠ .dir := by
    rintro rfl
    simp at hskip
  cases hvalid : validPath (pathText path) with
  | false =>
    cases e with
    | dir => exact absurd rfl hdir
    | file content => simp [inventoryFile, hvalid, Except.toOption]
    | other => simp [inventoryFile, Except.toOption]
  | true =>
    have hback := pathNames_pathText hnames hne hvalid
    rw [if_neg (by simp)]
    cases e with
    | dir => exact absurd rfl hdir
    | file content =>
      have hfile : ∀ failure, (opened tree directory).regularFile failure (pathText path) =
          .ok ⟨pathText path, content.length, ""⟩ := by
        intro failure
        simp [Directory.regularFile, opened, hback, hget]
      simp only [hfile, inventoryFile, hvalid, if_true, Option.bind_some]
      change (if _ then Except.error _ else Except.ok _ : Except String (List File)).toOption = _
      split_ifs <;> rfl
    | other =>
      have hfile : ∀ failure, (opened tree directory).regularFile failure (pathText path) = .error failure := by
        intro failure
        simp [Directory.regularFile, opened, hback, hget]
      rw [hfile]
      rfl

theorem toOption_bind {ε α β : Type} (x : Except ε α) (f : α → Except ε β) :
    (x >>= f).toOption = x.toOption.bind fun a => (f a).toOption := by
  cases x <;> rfl

/-- A walk lists what is kept of it, up to the limit. -/
theorem visits_opened (directory : TreePath) (hplain : PlainNames tree) {l : List (TreePath × Entry)} (start : List File)
    (hl : ∀ e ∈ l, e.1 ≠ [] ∧ tree.get? (directory ++ e.1) = some e.2 ∧ e.1.dropLast.any isHidden = false)
    (hstart : start.length ≤ maxFiles) :
    ((l.map fun e => (e.1, decide (e.2 = .dir))).foldlM (opened tree directory).visit start).toOption =
      ((l.filter fun e => !e.1.any isHidden && e.2 ≠ .dir && inventoried (pathText e.1)).mapM inventoryFile).bind fun files =>
        if (start ++ files).length > maxFiles then none else some (start ++ files) := by
  induction l generalizing start with
  | nil =>
    change some start = if (start ++ []).length > maxFiles then none else some (start ++ [])
    rw [List.append_nil, if_neg (by omega)]
  | cons e rest ih =>
    obtain ⟨hne, hget, hbelow⟩ := hl e List.mem_cons_self
    have hrest : ∀ e ∈ rest, e.1 ≠ [] ∧ tree.get? (directory ++ e.1) = some e.2 ∧ e.1.dropLast.any isHidden = false :=
      fun e he => hl e (List.mem_cons_of_mem _ he)
    rw [List.map_cons, List.foldlM_cons, toOption_bind, visit_opened hplain hne hget hbelow, List.filter_cons]
    split_ifs with hkeep
    · rw [List.mapM_cons]
      cases inventoryFile e with
      | none => rfl
      | some file =>
        rw [Option.bind_some]
        split_ifs with hlong
        · cases (rest.filter fun e => !e.1.any isHidden && e.2 ≠ .dir && inventoried (pathText e.1)).mapM inventoryFile with
          | none => rfl
          | some files =>
            refine (if_pos ?_).symm
            rw [List.length_append] at hlong ⊢
            rw [List.length_singleton] at hlong
            rw [List.length_cons]
            omega
        · rw [Option.bind_some, ih _ hrest (by omega)]
          cases (rest.filter fun e => !e.1.any isHidden && e.2 ≠ .dir && inventoried (pathText e.1)).mapM inventoryFile with
          | none => rfl
          | some files =>
            rw [Option.bind_some, List.append_assoc]
            rfl
    · rw [Option.bind_some]
      exact ih _ hrest hstart

theorem inventory_opened (hplain : PlainNames tree) :
    (opened tree directory).inventory.toOption = inventory tree directory := by
  have hvisits := visits_opened directory hplain (l := (tree.walk directory).filter fun e => !e.1.dropLast.any isHidden) [] ?_
    (Nat.zero_le _)
  · have hsame : (((tree.walk directory).filter fun e => !e.1.dropLast.any isHidden).filter
        fun e => !e.1.any isHidden && e.2 ≠ .dir && inventoried (pathText e.1)) = inventoryEntries tree directory := by
      rw [List.filter_filter, inventoryEntries]
      refine List.filter_congr fun e _ => ?_
      rw [any_isHidden]
      cases e.1.dropLast.any isHidden <;> simp
    rw [hsame] at hvisits
    unfold Directory.inventory inventory
    rw [toOption_bind]
    change Option.bind (Except.toOption (List.foldlM _ _ (List.map _ _))) _ = _
    rw [hvisits]
    cases (inventoryEntries tree directory).mapM inventoryFile with
    | none => rfl
    | some files =>
      simp only [List.nil_append, Option.bind_some]
      split_ifs <;> rfl
  · rintro ⟨path, e⟩ he
    obtain ⟨hwalk, hbelow⟩ := List.mem_filter.1 he
    obtain ⟨hne, hget⟩ := Tree.mem_walk.1 hwalk
    exact ⟨hne, hget, by simpa using hbelow⟩

/-- On a tree without links this is the `Matches` above. -/
theorem matches_treeRoot (hplain : PlainNames tree) (relative : String) (want : Manifest) :
    (treeRoot tree).matches_ codec relative want = matches_ codec tree relative want := by
  unfold Root.matches_ matches_ Root.openDirectory openDirectory treeRoot
  split_ifs with hpath hdir
  · rfl
  · simp only
    congr 1
    · unfold Directory.lists listed
      split_ifs
      · rw [← inventory_opened hplain]
        cases (opened tree (pathNames relative)).inventory <;> rfl
      · congr 1
        funext file
        unfold Directory.sameStat fileAt opened
        simp only
        cases tree.get? (pathNames relative ++ pathNames file.path) with
        | none => rfl
        | some e => cases e <;> simp
    · congr 1
      funext item
      unfold Directory.sameContent contentMatches opened
      simp only
      cases fileAt tree (pathNames relative) item.path <;> rfl
  · rfl

end Tanpopo.Bundle
