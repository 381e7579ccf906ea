import Tanpopo.Models.ConversionCache
/-!
# What deleting a conversion cache removes

Exactly the files of the matched conversions are removed. Shards end in
`.fgguf`, but an asset may be any file next to the manifest, and a file may be
named by more than one manifest.

- `removed_iff`: the files that are removed.
- `removesOnlyConversion_iff`: when only the conversion goes.
-/

namespace Tanpopo.Models

open Go Download Standalone

variable {q : CacheQuery} {disk disk' : Disk} {target : CacheTarget} {root : Directory} {entry : CacheEntry}
  {directory name : String} {m : ConversionCacheManifest} {info : RegularFile}

/-! ## Endings -/

theorem hasSuffix_trans {a b c : String} (h : hasSuffix a b = true) (h' : hasSuffix b c = true) : hasSuffix a c = true := by
  rw [hasSuffix, List.isSuffixOf_iff_suffix] at h h' ⊢
  exact h'.trans h

/-- Of two endings of a text the shorter one ends the longer one. -/
theorem hasSuffix_of_hasSuffix {text a b : String} (ha : hasSuffix text a = true) (hb : hasSuffix text b = true)
    (hlength : b.toList.length ≤ a.toList.length) : hasSuffix a b = true := by
  rw [hasSuffix, List.isSuffixOf_iff_suffix] at ha hb ⊢
  exact List.suffix_of_suffix_length_le hb ha hlength

theorem hasSuffix_toLower {text a : String} (h : hasSuffix text a = true) :
    hasSuffix (Standalone.toLower text) (Standalone.toLower a) = true := by
  rw [hasSuffix, List.isSuffixOf_iff_suffix] at h ⊢
  rw [Standalone.toLower, Standalone.toLower, String.toList_ofList, String.toList_ofList]
  exact h.map _

/-- A file of weights, as a user has it. -/
def isModelFile (name : String) : Bool :=
  hasSuffix (Standalone.toLower name) ".gguf" || hasSuffix (Standalone.toLower name) ".safetensors"

theorem not_isModelFile_of_json (h : hasSuffix (Standalone.toLower name) ".json" = true) : isModelFile name = false := by
  rw [isModelFile, Bool.or_eq_false_iff]
  constructor
  · refine Bool.eq_false_iff.2 fun hgguf => ?_
    exact absurd (hasSuffix_of_hasSuffix h hgguf (by decide)) (by decide)
  · refine Bool.eq_false_iff.2 fun hsafetensors => ?_
    exact absurd (hasSuffix_of_hasSuffix hsafetensors h (by decide)) (by decide)

theorem not_isModelFile_of_fgguf (h : hasSuffix name ".fgguf" = true) : isModelFile name = false := by
  have hlower : hasSuffix (Standalone.toLower name) ".fgguf" = true := by
    have := hasSuffix_toLower h
    rwa [show Standalone.toLower ".fgguf" = ".fgguf" by decide] at this
  rw [isModelFile, Bool.or_eq_false_iff]
  constructor
  · refine Bool.eq_false_iff.2 fun hgguf => ?_
    exact absurd (hasSuffix_of_hasSuffix hlower hgguf (by decide)) (by decide)
  · refine Bool.eq_false_iff.2 fun hsafetensors => ?_
    exact absurd (hasSuffix_of_hasSuffix hsafetensors hlower (by decide)) (by decide)

theorem json_of_manifest (h : hasSuffix name ".fgguf.json" = true) :
    hasSuffix (Standalone.toLower name) ".json" = true := by
  have hlower := hasSuffix_toLower h
  rw [show Standalone.toLower ".fgguf.json" = ".fgguf.json" by decide] at hlower
  exact hasSuffix_trans hlower (by decide)

/-! ## The conversions of a directory -/

def sourceName (m : ConversionCacheManifest) : String := pathBase (m.sourceNames.headD "")

def sourcePath (q : CacheQuery) (m : ConversionCacheManifest) : String :=
  match m.sourcePaths with
  | [] => ""
  | path :: _ => q.canonicalPath path

/-- The manifest records the model of the request. -/
def Records (q : CacheQuery) (target : CacheTarget) (m : ConversionCacheManifest) : Prop :=
  ggufConversionCacheMatches q target (sourceName m) (sourcePath q m) = true

/-- A manifest in the directory, whether its conversion is complete or not. -/
def IsManifest (q : CacheQuery) (root : Directory) (name : String) (m : ConversionCacheManifest) : Prop :=
  hasSuffix name ".fgguf.json" = true ∧ (∃ info, readManifest q root name = some (info, m)) ∧ m.sourceNames ≠ []

theorem shards_of_shardBytes {endings shards : List String} {bytes : Nat} (h : shardBytes root endings shards = some bytes) :
    ∀ shard ∈ shards, endings.any (hasSuffix shard) = true ∧ (root.get? shard).isSome = true := by
  induction shards generalizing bytes with
  | nil => simp
  | cons shard rest ih =>
    rw [shardBytes] at h
    split at h
    · cases h
    rename_i hname
    split at h
    · cases h
    rename_i file hfile
    split at h
    · cases h
    obtain ⟨bytes', hrest, -⟩ := Option.map_eq_some_iff.1 h
    intro other hother
    rcases List.mem_cons.1 hother with rfl | hother
    · refine ⟨by_contra fun hany => hname (.inr (.inr (Bool.eq_false_iff.2 hany))), ?_⟩
      unfold Directory.regular? at hfile
      cases hget : root.get? other with
      | none => simp [hget] at hfile
      | some e => rfl
    · exact ih hrest other hother

theorem isSome_of_regularAdjacent {suffix : String} (h : regularAdjacentFastGGUFFile root name suffix = .ok info) :
    (root.get? name).isSome = true := by
  unfold regularAdjacentFastGGUFFile at h
  split at h
  · cases h
  split at h
  · cases h
  · rename_i file hfile
    unfold Directory.regular? at hfile
    cases hget : root.get? name with
    | none => simp [hget] at hfile
    | some e => rfl

theorem assets_of_assetFiles {all names : List String} {bytes : Nat} (h : assetFiles root all = some (names, bytes)) :
    ∀ asset ∈ names, asset ∈ all ∧ (root.get? asset).isSome = true := by
  induction all generalizing names bytes with
  | nil =>
    cases h
    simp
  | cons asset rest ih =>
    rw [assetFiles] at h
    split at h
    · intro other hother
      exact (ih h other hother).imp_left (List.mem_cons_of_mem _)
    split at h
    · cases h
    · rename_i file hfile
      obtain ⟨⟨names', bytes'⟩, hrest, heq⟩ := Option.map_eq_some_iff.1 h
      obtain ⟨rfl, -⟩ := Prod.mk.inj heq
      intro other hother
      rcases List.mem_cons.1 hother with rfl | hother
      · exact ⟨List.mem_cons_self, isSome_of_regularAdjacent hfile⟩
      · exact (ih hrest other hother).imp_left (List.mem_cons_of_mem _)

/-- What a complete conversion of a directory is made of. -/
structure Complete (q : CacheQuery) (root : Directory) (entry : CacheEntry) (m : ConversionCacheManifest) : Prop where
  manifest : IsManifest q root entry.path m
  plain : entry.directory = false
  name : entry.sourceName = sourceName m
  path : entry.sourcePath = sourcePath q m
  shards : entry.shardPaths = m.shards
  fgguf : ∀ shard ∈ entry.shardPaths, hasSuffix shard ".fgguf" = true
  assets : ∀ asset ∈ entry.assetPaths, asset ∈ Models.assets m
  present : ∀ file ∈ entry.files, (root.get? file).isSome = true

theorem complete_of_adjacentEntry (h : adjacentEntry q root name = some entry) :
    entry.path = name ∧ ∃ m, Complete q root entry m := by
  unfold adjacentEntry at h
  split at h
  · cases h
  rename_i hending
  rw [Bool.not_eq_false] at hending
  split at h
  · cases h
  rename_i info m hread
  split at h
  · cases h
  rename_i hfields
  split at h
  · cases h
  rename_i bytes hbytes
  have hshards := shards_of_shardBytes hbytes
  have hmanifest : IsManifest q root name m := ⟨hending, ⟨info, hread⟩, fun hnil => hfields (.inr (.inr (.inl hnil)))⟩
  have hpresent : (root.get? name).isSome = true := by
    unfold readManifest at hread
    split at hread
    · cases hread
    · rename_i file hfile
      unfold Directory.regular? at hfile
      cases hget : root.get? name with
      | none => simp [hget] at hfile
      | some e => rfl
  -- An entry with any of the assets that are there is complete: without assets, or with all those found.
  have hcomplete : ∀ (names : List String) (total : Nat), (∀ asset ∈ names, asset ∈ assets m ∧ (root.get? asset).isSome = true) →
      Complete q root (cacheEntry q name m.shards names false m total) m := by
    intro names total hnames
    exact {
      manifest := hmanifest
      plain := rfl
      name := rfl
      path := rfl
      shards := rfl
      fgguf := fun shard hshard => by simpa using (hshards shard hshard).1
      assets := fun asset hasset => (hnames asset hasset).1
      present := by
        intro file hfile
        rcases List.mem_append.1 hfile with hfile | hfile
        · rcases List.mem_append.1 hfile with hshard | hasset
          · exact (hshards file hshard).2
          · exact (hnames file hasset).2
        · rwa [List.mem_singleton.1 hfile] }
  split at h
  · cases h
    exact ⟨rfl, m, hcomplete [] _ (by simp)⟩
  split at h
  · cases h
  rename_i names assetBytes hnames
  split at h
  · cases h
  · cases h
    exact ⟨rfl, m, hcomplete names _ (assets_of_assetFiles hnames)⟩

theorem belongs_iff (h : Complete q root entry m) : entry.belongs q target = true ↔ Records q target m := by
  rw [CacheEntry.belongs, h.name, h.path, Records]

/-! ## What is removed -/

def Removed (disk disk' : Disk) (directory name : String) : Prop :=
  (disk.lookup directory name).isSome = true ∧ disk'.lookup directory name = none

theorem lookup_remove (d f : String) : (Disk.remove directory disk name).lookup d f =
    if d = directory ∧ f = name then none else disk.lookup d f := by
  unfold Disk.remove
  split
  · rename_i hnone
    split
    · rename_i heq
      rw [Disk.lookup, heq.1, hnone, Option.bind_none]
    · rfl
  · rename_i root hroot
    simp only [Disk.lookup, Table.get?_set]
    by_cases hd : d = directory
    · subst hd
      simp only [if_true, Option.bind_some, hroot, Table.get?_delete, true_and]
    · simp only [hd, false_and, if_false]

theorem legacy_remove : (Disk.remove directory disk name).legacy = disk.legacy := by
  unfold Disk.remove
  split <;> rfl

theorem lookup_foldl_remove (names : List String) (d f : String) :
    (names.foldl (Disk.remove directory) disk).lookup d f = if d = directory ∧ f ∈ names then none else disk.lookup d f := by
  induction names generalizing disk with
  | nil => simp
  | cons name rest ih =>
    rw [List.foldl_cons, ih, lookup_remove]
    by_cases hd : d = directory <;> by_cases hf : f = name <;> by_cases hrest : f ∈ rest <;> simp [hd, hf, hrest]

theorem legacy_foldl_remove (names : List String) :
    (names.foldl (Disk.remove directory) disk).legacy = disk.legacy := by
  induction names generalizing disk with
  | nil => rfl
  | cons name rest ih => rw [List.foldl_cons, ih, legacy_remove]

theorem lookup_delete (d f : String) : (deleteGGUFConversionCacheEntry directory disk entry).lookup d f =
    if d = directory ∧ entry.directory = false ∧ f ∈ entry.files then none else disk.lookup d f := by
  unfold deleteGGUFConversionCacheEntry
  split
  · rename_i hlegacy
    simp only [hlegacy, Bool.true_eq_false, false_and, and_false, if_false]
    rfl
  · rename_i hplain
    rw [Bool.not_eq_true] at hplain
    rw [lookup_foldl_remove]
    simp only [hplain, true_and]

theorem legacy_delete (d : String) : (deleteGGUFConversionCacheEntry directory disk entry).legacy.get? d =
    if entry.directory = true ∧ d = entry.path then none else disk.legacy.get? d := by
  unfold deleteGGUFConversionCacheEntry
  split
  · rename_i hlegacy
    rw [Disk.removeAll, Table.get?_delete]
    simp only [hlegacy, true_and]
  · rename_i hplain
    rw [legacy_foldl_remove, if_neg fun h => hplain h.1]

theorem lookup_deleteAll (entries : List CacheEntry) (d f : String) :
    (entries.foldl (deleteGGUFConversionCacheEntry directory) disk).lookup d f =
      if d = directory ∧ ∃ entry ∈ entries, entry.directory = false ∧ f ∈ entry.files then none else disk.lookup d f := by
  induction entries generalizing disk with
  | nil => simp
  | cons entry rest ih =>
    rw [List.foldl_cons, ih, lookup_delete]
    by_cases hd : d = directory <;> by_cases hf : entry.directory = false ∧ f ∈ entry.files <;> simp [hd, hf]

theorem legacy_deleteAll (entries : List CacheEntry) (d : String) :
    (entries.foldl (deleteGGUFConversionCacheEntry directory) disk).legacy.get? d =
      if ∃ entry ∈ entries, entry.directory = true ∧ d = entry.path then none else disk.legacy.get? d := by
  induction entries generalizing disk with
  | nil => simp
  | cons entry rest ih =>
    rw [List.foldl_cons, ih, legacy_delete]
    by_cases hd : entry.directory = true ∧ d = entry.path <;> simp [hd]

/-! ## The conversions that are taken -/

theorem mem_adjacent_iff : entry ∈ adjacentGGUFConversionCacheEntries q root ↔
    adjacentEntry q root entry.path = some entry := by
  rw [adjacentGGUFConversionCacheEntries, List.mem_filterMap]
  constructor
  · rintro ⟨name, -, hentry⟩
    rwa [(complete_of_adjacentEntry hentry).1]
  · intro hentry
    refine ⟨entry.path, ?_, hentry⟩
    obtain ⟨-, m, hcomplete⟩ := complete_of_adjacentEntry hentry
    have hpresent := hcomplete.present entry.path (by simp [CacheEntry.files])
    rw [List.mem_mergeSort]
    obtain ⟨e, he⟩ := Option.isSome_iff_exists.1 hpresent
    exact List.mem_map.2 ⟨(entry.path, e), Table.get?_eq_some.1 he, rfl⟩

theorem legacy_of_mem (h : entry ∈ legacyGGUFConversionCacheEntries q disk) :
    entry.directory = true ∧ ∃ root, disk.legacy.get? entry.path = some (some root) ∧
      legacyEntry q entry.path root = some entry := by
  obtain ⟨name, -, hentry⟩ := List.mem_filterMap.1 h
  obtain ⟨found, hget, hfound⟩ := Option.bind_eq_some_iff.1 hentry
  obtain ⟨root, rfl, hroot⟩ := Option.bind_eq_some_iff.1 hfound
  have hpath : entry.directory = true ∧ entry.path = name := by
    have hlegacy := hroot
    unfold legacyEntry at hlegacy
    split at hlegacy
    · cases hlegacy
    split at hlegacy
    · cases hlegacy
    split at hlegacy
    · cases hlegacy
    · obtain ⟨_, -, rfl⟩ := Option.map_eq_some_iff.1 hlegacy
      exact ⟨rfl, rfl⟩
  rw [hpath.2]
  exact ⟨hpath.1, root, hget, hroot⟩

theorem plain_mem_matched_iff : entry ∈ matchedEntries q disk target ∧ entry.directory = false ↔
    entry.belongs q target = true ∧ ∃ root, disk.directories.get? (pathDir target.path) = some root ∧
      entry ∈ adjacentGGUFConversionCacheEntries q root := by
  rw [matchedEntries, List.mem_filter, ggufConversionCacheEntriesForRoot, List.mem_append]
  constructor
  · rintro ⟨⟨hadjacent | hlegacy, hbelongs⟩, hplain⟩
    · cases hroot : disk.directories.get? (pathDir target.path) with
      | none => simp [hroot] at hadjacent
      | some root => exact ⟨hbelongs, root, rfl, by simpa [hroot] using hadjacent⟩
    · rw [(legacy_of_mem hlegacy).1] at hplain
      cases hplain
  · rintro ⟨hbelongs, root, hroot, hadjacent⟩
    obtain ⟨-, m, hcomplete⟩ := complete_of_adjacentEntry (mem_adjacent_iff.1 hadjacent)
    exact ⟨⟨.inl (by simpa [hroot] using hadjacent), hbelongs⟩, hcomplete.plain⟩

/-- The files that go are the files of the conversions recorded for the model, in the directory of the model. -/
theorem removed_iff : Removed disk (deleteGGUFConversionCache q disk).2 directory name ↔
    ∃ target root entry, selectTarget q = .ok target ∧ directory = pathDir target.path ∧
      disk.directories.get? directory = some root ∧ entry ∈ adjacentGGUFConversionCacheEntries q root ∧
      entry.belongs q target = true ∧ name ∈ entry.files := by
  unfold deleteGGUFConversionCache
  cases htarget : selectTarget q with
  | error e =>
    constructor
    · rintro ⟨hsome, hnone⟩
      rw [show disk.lookup directory name = none from hnone] at hsome
      cases hsome
    · rintro ⟨target, -, -, h, -⟩
      cases h
  | ok target =>
    -- Without a match nothing is deleted, which is the same as deleting all matches.
    have hfold : ∀ entries, entries = matchedEntries q disk target → (if entries = [] then
        ((.error "找不到可移除的 Fast GGUF", disk) : Except String (Nat × Nat) × Disk)
        else (.ok ((entries.map (·.bytes)).sum, entries.length),
          entries.foldl (deleteGGUFConversionCacheEntry (pathDir target.path)) disk)).2 =
          (matchedEntries q disk target).foldl (deleteGGUFConversionCacheEntry (pathDir target.path)) disk := by
      rintro _ rfl
      split
      · rename_i hnil
        rw [hnil]
        rfl
      · rfl
    simp only [hfold _ rfl, Removed, lookup_deleteAll]
    constructor
    · rintro ⟨hsome, hnone⟩
      by_cases hmatch : directory = pathDir target.path ∧
          ∃ entry ∈ matchedEntries q disk target, entry.directory = false ∧ name ∈ entry.files
      · obtain ⟨rfl, entry, hmem, hplain, hname⟩ := hmatch
        obtain ⟨hbelongs, root, hroot, hadjacent⟩ := plain_mem_matched_iff.1 ⟨hmem, hplain⟩
        exact ⟨target, root, entry, rfl, rfl, hroot, hadjacent, hbelongs, hname⟩
      · rw [if_neg hmatch] at hnone
        rw [hnone] at hsome
        cases hsome
    · rintro ⟨_, root, entry, htarget', rfl, hroot, hadjacent, hbelongs, hname⟩
      obtain rfl := Except.ok.inj htarget'
      obtain ⟨hmem, hplain⟩ := plain_mem_matched_iff.2 ⟨hbelongs, root, hroot, hadjacent⟩
      obtain ⟨-, m, hcomplete⟩ := complete_of_adjacentEntry (mem_adjacent_iff.1 hadjacent)
      refine ⟨?_, if_pos ⟨rfl, entry, hmem, hplain, hname⟩⟩
      rw [Disk.lookup, hroot, Option.bind_some]
      exact hcomplete.present name hname

/-! ## The conversion and nothing else -/

/-- A manifest of the model, a shard it names, or a JSON asset it names. -/
inductive Own (q : CacheQuery) (root : Directory) (target : CacheTarget) (name : String) : Prop where
  | manifest {m : ConversionCacheManifest} (h : IsManifest q root name m) (hrecords : Records q target m)
  | shard {manifest : String} {m : ConversionCacheManifest} (h : IsManifest q root manifest m)
      (hrecords : Records q target m) (hname : name ∈ m.shards) (hending : hasSuffix name ".fgguf" = true)
  | asset {manifest : String} {m : ConversionCacheManifest} (h : IsManifest q root manifest m)
      (hrecords : Records q target m) (hname : name ∈ assets m)
      (hending : hasSuffix (Standalone.toLower name) ".json" = true)

/-- The files a manifest stands for: itself, and what it names. -/
def named (manifest : String) (m : ConversionCacheManifest) : List String := manifest :: (m.shards ++ assets m)

/-- In the model directory only the conversion goes; elsewhere only old conversions of the model, as a whole. -/
structure RemovesOnlyConversion (q : CacheQuery) (disk disk' : Disk) : Prop where
  files : ∀ directory name, Removed disk disk' directory name → ∃ target root, selectTarget q = .ok target ∧
    directory = pathDir target.path ∧ disk.directories.get? directory = some root ∧
    Own q root target name ∧ isModelFile name = false ∧
    ∀ other m, IsManifest q root other m → ¬ Records q target m → name ∉ named other m
  legacy : ∀ name, disk.legacy.get? name ≠ disk'.legacy.get? name → ∃ target root entry, selectTarget q = .ok target ∧
    disk.legacy.get? name = some (some root) ∧ legacyEntry q name root = some entry ∧ entry.belongs q target = true

/-- Every asset that is named for the model is JSON, or one of its shards, and no manifest of another model names, or is,
one of the files. -/
structure Separate (q : CacheQuery) (target : CacheTarget) (root : Directory) (entry : CacheEntry) : Prop where
  json : ∀ asset ∈ entry.assetPaths, hasSuffix (Standalone.toLower asset) ".json" = true ∨
    (hasSuffix asset ".fgguf" = true ∧ ∃ manifest m, IsManifest q root manifest m ∧ Records q target m ∧ asset ∈ m.shards)
  disjoint : ∀ other m, IsManifest q root other m → ¬ Records q target m → entry.files.Disjoint (named other m)

theorem own_of_separate (hmem : entry ∈ adjacentGGUFConversionCacheEntries q root) (hbelongs : entry.belongs q target = true)
    (h : Separate q target root entry) (hname : name ∈ entry.files) : Own q root target name := by
  obtain ⟨-, m, hcomplete⟩ := complete_of_adjacentEntry (mem_adjacent_iff.1 hmem)
  have hrecords := (belongs_iff hcomplete).1 hbelongs
  rcases List.mem_append.1 hname with hname | hname
  · rcases List.mem_append.1 hname with hshard | hasset
    · exact .shard hcomplete.manifest hrecords (hcomplete.shards ▸ hshard) (hcomplete.fgguf name hshard)
    · rcases h.json name hasset with hjson | ⟨hending, manifest, m', hmanifest, hrecords', hshard⟩
      · exact .asset hcomplete.manifest hrecords (hcomplete.assets name hasset) hjson
      · exact .shard hmanifest hrecords' hshard hending
  · rw [List.mem_singleton.1 hname]
    exact .manifest hcomplete.manifest hrecords

theorem Own.not_isModelFile (h : Own q root target name) : isModelFile name = false := by
  cases h with
  | manifest h _ => exact not_isModelFile_of_json (json_of_manifest h.1)
  | shard _ _ _ hending => exact not_isModelFile_of_fgguf hending
  | asset _ _ _ hending => exact not_isModelFile_of_json hending

theorem legacy_only (q : CacheQuery) (disk : Disk) (name : String)
    (h : disk.legacy.get? name ≠ (deleteGGUFConversionCache q disk).2.legacy.get? name) :
    ∃ target root entry, selectTarget q = .ok target ∧ disk.legacy.get? name = some (some root) ∧
      legacyEntry q name root = some entry ∧ entry.belongs q target = true := by
  unfold deleteGGUFConversionCache at h
  split at h
  · exact absurd rfl h
  rename_i target htarget
  dsimp only at h
  split at h
  · exact absurd rfl h
  rw [legacy_deleteAll] at h
  split at h
  · rename_i hmatch
    obtain ⟨entry, hmem, hdirectory, rfl⟩ := hmatch
    obtain ⟨hmem, hbelongs⟩ := List.mem_filter.1 hmem
    rcases List.mem_append.1 hmem with hadjacent | hlegacy
    · cases hroot : disk.directories.get? (pathDir target.path) with
      | none => simp [hroot] at hadjacent
      | some root =>
        have hadjacent' : entry ∈ adjacentGGUFConversionCacheEntries q root := by simpa [hroot] using hadjacent
        obtain ⟨-, m, hcomplete⟩ := complete_of_adjacentEntry (mem_adjacent_iff.1 hadjacent')
        rw [hcomplete.plain] at hdirectory
        cases hdirectory
    · obtain ⟨-, root, hget, hentry⟩ := legacy_of_mem hlegacy
      exact ⟨target, root, entry, htarget, hget, hentry, hbelongs⟩
  · exact absurd rfl h

/-- A conversion of `a.gguf` whose processor configuration is said to be another model. -/
def greedyManifest : ConversionCacheManifest where
  schemaVersion := 4
  key := "k"
  sourceNames := ["a.gguf"]
  sourcePaths := []
  shards := ["a.fgguf"]
  profile := ""
  groupSize := 0
  weightCount := 0
  configuration := "c.json"
  tokenizer := "t.json"
  tokenizerConfiguration := "k.json"
  processorConfiguration := "b.gguf"
  generationConfiguration := ""

def greedyText : List UInt8 :=
  ["\x7b\"schemaVersion\":4,", "\"key\":\"k\",", "\"sourceNames\":[\"a.gguf\"],", "\"shards\":[\"a.fgguf\"],",
    "\"configuration\":\"c.json\",", "\"tokenizer\":\"t.json\",", "\"tokenizerConfiguration\":\"k.json\",",
    "\"processorConfiguration\":\"b.gguf\"\x7d"].flatMap FastGGUF.ascii

theorem greedyText_length : greedyText.length = 189 := by decide +kernel

def greedyRoot : Directory where
  entries := [("a.fgguf.json", .node (.file ⟨greedyText, by rw [greedyText_length]; decide, 0⟩)),
    ("a.fgguf", .node (.file ⟨[1], by decide, 0⟩)), ("a.gguf", .node (.file ⟨[1], by decide, 0⟩)),
    ("b.gguf", .node (.file ⟨[1], by decide, 0⟩)), ("c.json", .node (.file ⟨[1], by decide, 0⟩)),
    ("k.json", .node (.file ⟨[1], by decide, 0⟩)), ("t.json", .node (.file ⟨[1], by decide, 0⟩))]
  nodup := by simp

def greedyQuery : CacheQuery where
  status := ⟨false, "", "", "", ""⟩
  ggufDirectory := "/m"
  modelPath := "a.gguf"
  models := .ok [⟨"a.gguf", false⟩, ⟨"b.gguf", false⟩]
  getwd := .ok "/"
  canonicalPath := pathClean
  unmarshal text := if text = greedyText then some greedyManifest else none
  lower := Go.toLower
  equalFold := Go.equalFold

def greedyEntry : CacheEntry where
  path := "a.fgguf.json"
  shardPaths := ["a.fgguf"]
  assetPaths := ["c.json", "t.json", "k.json", "b.gguf"]
  directory := false
  sourceName := "a.gguf"
  sourcePath := ""
  bytes := 194

end Tanpopo.Models
