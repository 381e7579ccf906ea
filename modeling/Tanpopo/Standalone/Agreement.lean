import Tanpopo.Standalone.Package
import Tanpopo.FastGGUF.RoundTrip
/-!
# What the server accepts and the runtime loads

`standalone_loads_iff`: for a package that the server takes as standalone and
whose shards are intact, the runtime loads it exactly when the manifest has the
members and names that only the runtime demands.
-/

namespace Tanpopo.Standalone

open FastGGUF Swift Outcome

variable {p : Platform} {parser : Parser} {serialize : JSON → Data} {root : Directory} {manifestPath : String} {mode : Mode}
  {doc : Document}

/-! ## The server's checks -/

/-- A file that the server accepts can be named and read by the runtime. -/
structure Accepted (root : Directory) (name : String) (file : RegularFile) : Prop where
  safe : safeAdjacentFilename name = true
  regular : root.regular? name = some file

theorem accepted_of_regularAdjacent {name suffix : String} {file : RegularFile}
    (h : regularAdjacentFastGGUFFile root name suffix = .ok file) : Accepted root name file := by
  unfold regularAdjacentFastGGUFFile at h
  split at h
  · cases h
  · rename_i hname
    rw [not_or, not_or, not_not] at hname
    obtain ⟨hempty, hbase, -⟩ := hname
    cases hfile : root.regular? name with
    | none =>
      rw [hfile] at h
      cases h
    | some file' =>
      rw [hfile] at h
      simp only at h
      split at h
      · cases h
      · cases h
        exact ⟨by simp [safeAdjacentFilename, lastPathComponent, hempty, hbase], hfile⟩

theorem accepted_of_requireFiles {suffix : String} {names : List String} {total total' : Int × Int}
    (h : requireFiles root suffix names total = .ok total') : ∀ name ∈ names, ∃ file, Accepted root name file := by
  induction names generalizing total with
  | nil => exact nofun
  | cons name rest ih =>
    obtain ⟨bytes, modified⟩ := total
    rw [requireFiles] at h
    split at h
    · cases h
    · rename_i file hfile
      exact List.forall_mem_cons.2 ⟨⟨file, accepted_of_regularAdjacent hfile⟩, ih h⟩

/-- Everything the server found out about a package. -/
structure ServerAccepts (parser : Parser) (root : Directory) (manifestPath : String) (info : RegularFile) (doc : Document)
    (m : ConversionCacheManifest) : Prop where
  entry : root.regular? manifestPath = some info
  document : parser.document info.contents = some doc
  manifest : unmarshal doc = some m
  complete : m.complete = true
  shards : ∀ name ∈ m.shards, ∃ file, Accepted root name file
  assets : ∀ name ∈ m.requiredAssets, ∃ file, Accepted root name file

theorem standalone_of_read {pkg : Package} (h : readStandaloneFastGGUFPackage parser root manifestPath = .ok pkg) :
    ∃ info doc, ServerAccepts parser root manifestPath info doc pkg.manifest := by
  unfold readStandaloneFastGGUFPackage at h
  split at h
  · cases h
  rename_i info hinfo
  split_ifs at h
  split at h
  · cases h
  rename_i m hm
  split_ifs at h with hcomplete
  obtain ⟨doc, hdoc, hunmarshal⟩ := Option.bind_eq_some_iff.1 hm
  unfold checkFiles at h
  split at h
  · cases h
  rename_i total hshards
  split at h
  · cases h
  rename_i bytes modifiedAt hassets
  simp only at h
  split at h
  · cases h
  · cases h
    exact ⟨info, doc, hinfo, hdoc, hunmarshal, hcomplete, accepted_of_requireFiles hshards, accepted_of_requireFiles hassets⟩

/-! ## One manifest, read twice -/

/-- The fields that both programs use. -/
structure Agrees (g : ConversionCacheManifest) (m : Manifest) : Prop where
  schemaVersion : g.schemaVersion = m.schemaVersion
  key : g.key = m.key
  shards : g.shards = m.shards
  groupSize : g.groupSize = m.groupSize
  weightCount : g.weightCount = m.weightCount
  configuration : ∀ name, m.configuration = some name → g.configuration = name
  tokenizer : ∀ name, m.tokenizer = some name → g.tokenizer = name
  tokenizerConfiguration : ∀ name, m.tokenizerConfiguration = some name → g.tokenizerConfiguration = name

theorem goString_of_ifPresent {name s : String} {found : Option String} (h : ifPresent swiftString (doc.member? name) = some found)
    (hs : found = some s) : goString (doc.fold? name) = some s := by
  subst hs
  refine goString_of_swiftString ?_
  unfold ifPresent at h
  split at h
  · cases h
  · cases h
  · rename_i value _ hvalue
    rw [hvalue]
    obtain ⟨s', hs', heq⟩ := Option.map_eq_some_iff.1 h
    cases heq
    exact hs'

theorem agrees {g : ConversionCacheManifest} {m : Manifest} (hgo : unmarshal doc = some g) (hswift : decode doc = some m) :
    Agrees g m := by
  unfold unmarshal at hgo
  unfold decode at hswift
  obtain ⟨_, hversion, hgo⟩ := Option.bind_eq_some_iff.1 hgo
  obtain ⟨_, hkey, hgo⟩ := Option.bind_eq_some_iff.1 hgo
  obtain ⟨_, -, hgo⟩ := Option.bind_eq_some_iff.1 hgo
  obtain ⟨_, -, hgo⟩ := Option.bind_eq_some_iff.1 hgo
  obtain ⟨_, hshards, hgo⟩ := Option.bind_eq_some_iff.1 hgo
  obtain ⟨_, -, hgo⟩ := Option.bind_eq_some_iff.1 hgo
  obtain ⟨_, hgroup, hgo⟩ := Option.bind_eq_some_iff.1 hgo
  obtain ⟨_, hweights, hgo⟩ := Option.bind_eq_some_iff.1 hgo
  obtain ⟨_, hconfiguration, hgo⟩ := Option.bind_eq_some_iff.1 hgo
  obtain ⟨_, htokenizer, hgo⟩ := Option.bind_eq_some_iff.1 hgo
  obtain ⟨_, htokenizerConfiguration, hgo⟩ := Option.bind_eq_some_iff.1 hgo
  obtain ⟨_, -, hgo⟩ := Option.bind_eq_some_iff.1 hgo
  obtain ⟨_, -, hgo⟩ := Option.bind_eq_some_iff.1 hgo
  cases hgo
  obtain ⟨_, hversion', hswift⟩ := Option.bind_eq_some_iff.1 hswift
  obtain ⟨_, hkey', hswift⟩ := Option.bind_eq_some_iff.1 hswift
  obtain ⟨_, -, hswift⟩ := Option.bind_eq_some_iff.1 hswift
  obtain ⟨_, -, hswift⟩ := Option.bind_eq_some_iff.1 hswift
  obtain ⟨_, -, hswift⟩ := Option.bind_eq_some_iff.1 hswift
  obtain ⟨_, -, hswift⟩ := Option.bind_eq_some_iff.1 hswift
  obtain ⟨_, -, hswift⟩ := Option.bind_eq_some_iff.1 hswift
  obtain ⟨_, hgroup', hswift⟩ := Option.bind_eq_some_iff.1 hswift
  obtain ⟨_, -, hswift⟩ := Option.bind_eq_some_iff.1 hswift
  obtain ⟨_, hweights', hswift⟩ := Option.bind_eq_some_iff.1 hswift
  obtain ⟨_, -, hswift⟩ := Option.bind_eq_some_iff.1 hswift
  obtain ⟨_, -, hswift⟩ := Option.bind_eq_some_iff.1 hswift
  obtain ⟨_, hshards', hswift⟩ := Option.bind_eq_some_iff.1 hswift
  obtain ⟨_, hconfiguration', hswift⟩ := Option.bind_eq_some_iff.1 hswift
  obtain ⟨_, htokenizer', hswift⟩ := Option.bind_eq_some_iff.1 hswift
  obtain ⟨_, htokenizerConfiguration', hswift⟩ := Option.bind_eq_some_iff.1 hswift
  obtain ⟨_, -, hswift⟩ := Option.bind_eq_some_iff.1 hswift
  obtain ⟨_, -, hswift⟩ := Option.bind_eq_some_iff.1 hswift
  cases hswift
  refine ⟨goInt_of_swiftInt hversion' hversion, ?_, ?_, goInt_of_swiftInt hgroup' hgroup,
    goInt_of_swiftInt hweights' hweights, ?_, ?_, ?_⟩
  · exact Option.some.inj (hkey.symm.trans (goString_of_swiftString hkey'))
  · exact Option.some.inj (hshards.symm.trans (goStrings_of_swiftStrings hshards'))
  · exact fun s hs => Option.some.inj (hconfiguration.symm.trans (goString_of_ifPresent hconfiguration' hs))
  · exact fun s hs => Option.some.inj (htokenizer.symm.trans (goString_of_ifPresent htokenizer' hs))
  · exact fun s hs => Option.some.inj (htokenizerConfiguration.symm.trans (goString_of_ifPresent htokenizerConfiguration' hs))

/-! ## The runtime's demands -/

/-- The optional assets that the runtime reads. -/
def optionalNames (root : Directory) (m : Manifest) : List String :=
  if m.schemaVersion = 4 then m.processorConfiguration.toList ++ m.generationConfiguration.toList
  else (firstExisting root ["preprocessor_config.json", "processor_config.json"]).toList ++
    (firstExisting root ["generation_config.json"]).toList

/-- What the runtime demands and the server does not check. -/
structure Demands (parser : Parser) (root : Directory) (m : Manifest) : Prop where
  suffixes : ∀ shard ∈ m.shards, Go.hasSuffix shard ".fgguf" = true
  named : m.schemaVersion = 4 → m.configuration.isSome ∧ m.tokenizer.isSome ∧ m.tokenizerConfiguration.isSome
  optional : ∀ name ∈ optionalNames root m, safeAdjacentFilename name = true ∧ (root.read? name).isSome
  template : m.schemaVersion = 3 → (adjacentTemplate root).isSome → ∃ file members,
    root.read? "tokenizer_config.json" = some file ∧ parser.value file.contents = some (.object members)

/-- The manifest has the members that the runtime decodes, and they meet its demands. -/
def Compatible (parser : Parser) (root : Directory) (manifestPath : String) : Prop :=
  ∃ info doc, root.regular? manifestPath = some info ∧ parser.document info.contents = some doc ∧ HasMembers doc ∧
    ∀ m, decode doc = some m → Demands parser root m

/-- The named shards are valid containers for the key, with as many different tensors as the manifest says. -/
def ShardsHold (p : Platform) (root : Directory) (mode : Mode) (m : ConversionCacheManifest) : Prop :=
  ∃ arrays : List (List (String × MLXArray)),
    List.Forall₂ (fun name weights => ∃ file stats, root.regular? name = some file ∧
      load p ⟨name, file.contents, file.contents_lt⟩ m.key mode = .ok (weights, stats)) m.shards arrays ∧
    (arrays.flatten.map fun w => p.canonical w.1).Nodup ∧ (arrays.flatten.length : Int) = m.weightCount

/-! ## Loading -/

theorem addWeights_of_nodup {weights shard : List (String × MLXArray)}
    (h : ((weights ++ shard).map fun w => p.canonical w.1).Nodup) : addWeights p weights shard = .ok (weights ++ shard) := by
  induction shard generalizing weights with
  | nil => rw [addWeights, List.append_nil]
  | cons w rest ih =>
    obtain ⟨name, value⟩ := w
    have hnew : (weights.any fun w => p.canonical w.1 = p.canonical name) = false := by
      rw [List.map_append, List.nodup_append] at h
      rw [List.any_eq_false]
      intro w hw heq
      exact h.2.2 _ (List.mem_map.2 ⟨w, hw, rfl⟩) _ (List.mem_map.2 ⟨_, List.mem_cons_self, rfl⟩) (by simpa using heq)
    rw [addWeights, hnew, if_neg Bool.false_ne_true, ih (by simpa using h), List.append_assoc]
    rfl

theorem loadShard_ok {name key : String} {file : RegularFile} {weights : List (String × MLXArray)} {stats : Statistics}
    (hfile : Accepted root name file) (hsuffix : Go.hasSuffix name ".fgguf" = true)
    (hload : load p ⟨name, file.contents, file.contents_lt⟩ key mode = .ok (weights, stats)) :
    loadShard p root key mode name = .ok weights := by
  rw [loadShard, hfile.safe, hsuffix]
  simp only [Bool.and_self, if_true]
  rw [Directory.read?_of_regular? hfile.regular]
  simp only
  rw [hload]

theorem hasSuffix_of_loadShard {name key : String} {weights : List (String × MLXArray)}
    (h : loadShard p root key mode name = .ok weights) : Go.hasSuffix name ".fgguf" = true := by
  unfold loadShard at h
  split at h
  · rename_i hname
    rw [Bool.and_eq_true] at hname
    exact hname.2
  · cases h

/-- Intact shards load exactly when their names end as the runtime demands. -/
theorem loadShards_ok {key : String} {names : List String} {arrays : List (List (String × MLXArray))}
    {weights : List (String × MLXArray)} (hfiles : ∀ name ∈ names, ∃ file, Accepted root name file)
    (hload : List.Forall₂ (fun name weights => ∃ file stats, root.regular? name = some file ∧
      load p ⟨name, file.contents, file.contents_lt⟩ key mode = .ok (weights, stats)) names arrays)
    (hnodup : ((weights ++ arrays.flatten).map fun w => p.canonical w.1).Nodup)
    (hsuffixes : ∀ name ∈ names, Go.hasSuffix name ".fgguf" = true) :
    loadShards p root key mode names weights = .ok (weights ++ arrays.flatten) := by
  induction hload generalizing weights with
  | nil => rw [loadShards, List.flatten_nil, List.append_nil]
  | @cons name shard names arrays hshard _ ih =>
    obtain ⟨file, stats, hfile, hload⟩ := hshard
    obtain ⟨file', haccepted⟩ := hfiles name List.mem_cons_self
    cases Option.some.inj (hfile.symm.trans haccepted.regular)
    rw [List.flatten_cons, ← List.append_assoc] at hnodup ⊢
    have hadd : addWeights p weights shard = .ok (weights ++ shard) := by
      refine addWeights_of_nodup ?_
      rw [List.map_append] at hnodup
      exact (List.nodup_append.1 hnodup).1
    rw [loadShards, loadShard_ok haccepted (hsuffixes name List.mem_cons_self) hload, ok_bind, hadd, ok_bind]
    exact ih (fun name hname => hfiles name (List.mem_cons_of_mem _ hname)) hnodup
      fun name hname => hsuffixes name (List.mem_cons_of_mem _ hname)

theorem hasSuffix_of_loadShards {key : String} {names : List String} {weights loaded : List (String × MLXArray)}
    (h : loadShards p root key mode names weights = .ok loaded) : ∀ name ∈ names, Go.hasSuffix name ".fgguf" = true := by
  induction names generalizing weights with
  | nil => exact nofun
  | cons name rest ih =>
    rw [loadShards] at h
    obtain ⟨shard, hshard, h⟩ := bind_eq_ok.1 h
    obtain ⟨weights', -, h⟩ := bind_eq_ok.1 h
    exact List.forall_mem_cons.2 ⟨hasSuffix_of_loadShard hshard, ih h⟩

theorem contentsOf_eq_ok {name : String} {data : Data} :
    contentsOf root name = .ok data ↔ ∃ file, root.read? name = some file ∧ file.contents = data := by
  unfold contentsOf
  cases root.read? name <;> simp

theorem contentsOfOptional_eq_ok {name : Option String} :
    (∃ data, contentsOfOptional root name = .ok data) ↔ ∀ n ∈ name.toList, (root.read? n).isSome := by
  cases name with
  | none => simp [contentsOfOptional]
  | some n =>
    simp only [contentsOfOptional, bind_eq_ok, Option.toList_some, List.mem_singleton, forall_eq, Option.isSome_iff_exists]
    constructor
    · rintro ⟨_, data, hdata, -⟩
      obtain ⟨file, hfile, -⟩ := contentsOf_eq_ok.1 hdata
      exact ⟨file, hfile⟩
    · rintro ⟨file, hfile⟩
      exact ⟨_, file.contents, contentsOf_eq_ok.2 ⟨file, hfile, rfl⟩, rfl⟩

/-! ## Assets -/

theorem requiredAsset_eq_ok {name : Option String} {found : String} :
    requiredAsset name = .ok found ↔ name = some found ∧ safeAdjacentFilename found = true := by
  cases name with
  | none => simp [requiredAsset]
  | some n =>
    simp only [requiredAsset, Option.some.injEq]
    split
    · rename_i hsafe
      simp only [Outcome.ok.injEq]
      exact ⟨fun h => ⟨h, h ▸ hsafe⟩, fun h => h.1⟩
    · rename_i hnotSafe
      exact ⟨nofun, fun h => absurd (h.1 ▸ h.2) hnotSafe⟩

theorem optionalAsset_eq_ok {name found : Option String} :
    optionalAsset name = .ok found ↔ name = found ∧ ∀ n ∈ name.toList, safeAdjacentFilename n = true := by
  cases name with
  | none => simp [optionalAsset]
  | some n =>
    simp only [optionalAsset, Option.toList_some, List.mem_singleton, forall_eq]
    split
    · rename_i hsafe
      simp [hsafe]
    · rename_i hnotSafe
      simp [hnotSafe]

theorem safe_of_firstExisting {names : List String} {name : String} (hsafe : names.all safeAdjacentFilename = true)
    (h : name ∈ (firstExisting root names).toList) : safeAdjacentFilename name = true := by
  rw [Option.mem_toList] at h
  exact List.all_eq_true.1 hsafe name (List.mem_of_find?_eq_some h)

/-- The assets the runtime reads are those the manifest names. -/
theorem assetURLs_eq_ok {m : Manifest} {urls : StandaloneAssetURLs} (h : standaloneAssetURLs root m = .ok urls) :
    (m.schemaVersion = 4 → m.configuration.isSome ∧ m.tokenizer.isSome ∧ m.tokenizerConfiguration.isSome) ∧
      (m.schemaVersion ≠ 4 → urls.tokenizerConfiguration = "tokenizer_config.json") ∧
      urls.processor.toList ++ urls.generation.toList = optionalNames root m ∧
      ∀ name ∈ optionalNames root m, safeAdjacentFilename name = true := by
  unfold standaloneAssetURLs at h
  unfold optionalNames
  split at h
  · rename_i hversion
    obtain ⟨configuration, hconfiguration, h⟩ := bind_eq_ok.1 h
    obtain ⟨tokenizer, htokenizer, h⟩ := bind_eq_ok.1 h
    obtain ⟨tokenizerConfiguration, htokenizerConfiguration, h⟩ := bind_eq_ok.1 h
    obtain ⟨processor, hprocessor, h⟩ := bind_eq_ok.1 h
    obtain ⟨generation, hgeneration, h⟩ := bind_eq_ok.1 h
    cases h
    obtain ⟨rfl, hsafeProcessor⟩ := optionalAsset_eq_ok.1 hprocessor
    obtain ⟨rfl, hsafeGeneration⟩ := optionalAsset_eq_ok.1 hgeneration
    refine ⟨fun _ => ⟨?_, ?_, ?_⟩, fun hne => absurd hversion hne, by rw [if_pos hversion], ?_⟩
    · simp [(requiredAsset_eq_ok.1 hconfiguration).1]
    · simp [(requiredAsset_eq_ok.1 htokenizer).1]
    · simp [(requiredAsset_eq_ok.1 htokenizerConfiguration).1]
    · rw [if_pos hversion]
      intro name hname
      exact (List.mem_append.1 hname).elim (hsafeProcessor name) (hsafeGeneration name)
  · rename_i hversion
    cases h
    refine ⟨fun heq => absurd heq hversion, fun _ => rfl, by rw [if_neg hversion], ?_⟩
    rw [if_neg hversion]
    intro name hname
    rcases List.mem_append.1 hname with hname | hname
    · exact safe_of_firstExisting (by decide +kernel) hname
    · exact safe_of_firstExisting (by decide +kernel) hname

theorem assetURLs_of_demands {g : ConversionCacheManifest} {m : Manifest} (hagrees : Agrees g m)
    (hassets : ∀ name ∈ g.requiredAssets, ∃ file, Accepted root name file) (h : Demands parser root m) :
    ∃ urls, standaloneAssetURLs root m = .ok urls ∧
      [urls.configuration, urls.tokenizer, urls.tokenizerConfiguration] = g.requiredAssets := by
  unfold standaloneAssetURLs
  unfold ConversionCacheManifest.requiredAssets at hassets ⊢
  rw [hagrees.schemaVersion] at hassets ⊢
  split
  · rename_i hversion
    obtain ⟨hconfiguration, htokenizer, htokenizerConfiguration⟩ := h.named hversion
    obtain ⟨configuration, hconfiguration⟩ := Option.isSome_iff_exists.1 hconfiguration
    obtain ⟨tokenizer, htokenizer⟩ := Option.isSome_iff_exists.1 htokenizer
    obtain ⟨tokenizerConfiguration, htokenizerConfiguration⟩ := Option.isSome_iff_exists.1 htokenizerConfiguration
    have hoptional := h.optional
    rw [optionalNames, if_pos hversion] at hoptional
    rw [if_pos hversion, hagrees.configuration _ hconfiguration, hagrees.tokenizer _ htokenizer,
      hagrees.tokenizerConfiguration _ htokenizerConfiguration] at hassets
    have hsafe : ∀ name ∈ [configuration, tokenizer, tokenizerConfiguration], safeAdjacentFilename name = true := by
      intro name hname
      obtain ⟨file, hfile⟩ := hassets name hname
      exact hfile.safe
    have hprocessor : optionalAsset m.processorConfiguration = .ok m.processorConfiguration :=
      optionalAsset_eq_ok.2 ⟨rfl, fun name hname => (hoptional name (List.mem_append_left _ hname)).1⟩
    have hgeneration : optionalAsset m.generationConfiguration = .ok m.generationConfiguration :=
      optionalAsset_eq_ok.2 ⟨rfl, fun name hname => (hoptional name (List.mem_append_right _ hname)).1⟩
    refine ⟨⟨configuration, tokenizer, tokenizerConfiguration, m.processorConfiguration, m.generationConfiguration⟩, ?_, ?_⟩
    · rw [requiredAsset_eq_ok.2 ⟨hconfiguration, hsafe _ (by simp)⟩, ok_bind,
        requiredAsset_eq_ok.2 ⟨htokenizer, hsafe _ (by simp)⟩, ok_bind,
        requiredAsset_eq_ok.2 ⟨htokenizerConfiguration, hsafe _ (by simp)⟩, ok_bind, hprocessor, ok_bind, hgeneration, ok_bind]
      rfl
    · rw [hagrees.configuration _ hconfiguration, hagrees.tokenizer _ htokenizer,
        hagrees.tokenizerConfiguration _ htokenizerConfiguration]
  · exact ⟨_, rfl, rfl⟩

theorem template_eq_ok {data : Data} :
    (∃ data', tokenizerConfigurationByAddingAdjacentTemplate parser serialize data root = .ok data') ↔
      ((adjacentTemplate root).isSome → ∃ members, parser.value data = some (.object members)) := by
  unfold tokenizerConfigurationByAddingAdjacentTemplate
  cases adjacentTemplate root with
  | none => simp
  | some template =>
    cases parser.value data with
    | none => simp
    | some value => cases value <;> simp

/-! ## The two programs -/

/-- What the runtime loads it could decode, and everything it demands was there. -/
theorem compatible_of_load {pkg : Package} {package : StandalonePackage}
    (hpkg : readStandaloneFastGGUFPackage parser root manifestPath = .ok pkg)
    (hpackage : loadStandalone p parser serialize root manifestPath mode = .ok package) :
    Compatible parser root manifestPath := by
  obtain ⟨info, doc, haccepts⟩ := standalone_of_read hpkg
  have hread := Directory.read?_of_regular? haccepts.entry
  obtain ⟨m, hmanifest, hpackage⟩ := bind_eq_ok.1 hpackage
  obtain ⟨urls, hurls, hpackage⟩ := bind_eq_ok.1 hpackage
  have hdecode : decode doc = some m := by
    unfold standaloneManifest at hmanifest
    rw [hread] at hmanifest
    simp only [haccepts.document, Option.bind_some] at hmanifest
    split at hmanifest
    · cases hmanifest
    · rename_i hdecode
      split at hmanifest
      · cases hmanifest
        exact hdecode
      · cases hmanifest
  obtain ⟨hnamed, hstandard, hoptional, hsafe⟩ := assetURLs_eq_ok hurls
  unfold loadAssets at hpackage
  obtain ⟨_, -, hpackage⟩ := bind_eq_ok.1 hpackage
  obtain ⟨_, -, hpackage⟩ := bind_eq_ok.1 hpackage
  obtain ⟨data, hdata, hpackage⟩ := bind_eq_ok.1 hpackage
  obtain ⟨_, htemplate, hpackage⟩ := bind_eq_ok.1 hpackage
  obtain ⟨_, hweights, hpackage⟩ := bind_eq_ok.1 hpackage
  obtain ⟨_, -, hpackage⟩ := bind_eq_ok.1 hpackage
  obtain ⟨_, hprocessor, hpackage⟩ := bind_eq_ok.1 hpackage
  obtain ⟨_, hgeneration, -⟩ := bind_eq_ok.1 hpackage
  refine ⟨info, doc, haccepts.entry, haccepts.document, decode_isSome_iff.1 (by rw [hdecode]; rfl), fun m' hm' => ?_⟩
  cases Option.some.inj (hdecode.symm.trans hm')
  refine ⟨hasSuffix_of_loadShards hweights, hnamed, ?_, ?_⟩
  · intro name hname
    refine ⟨hsafe name hname, ?_⟩
    rw [← hoptional] at hname
    rcases List.mem_append.1 hname with hname | hname
    · exact contentsOfOptional_eq_ok.1 ⟨_, hprocessor⟩ name hname
    · exact contentsOfOptional_eq_ok.1 ⟨_, hgeneration⟩ name hname
  · intro hversion hsome
    rw [tokenizerConfigurationData, if_pos hversion] at htemplate
    obtain ⟨members, hmembers⟩ := template_eq_ok.1 ⟨_, htemplate⟩ hsome
    obtain ⟨file, hfile, rfl⟩ := contentsOf_eq_ok.1 hdata
    rw [hstandard (by omega)] at hfile
    exact ⟨file, members, hfile, hmembers⟩

/-- A package that the server accepts loads when its shards are intact and the runtime's demands are met. -/
theorem load_of_compatible {pkg : Package} (serialize : JSON → Data)
    (hpkg : readStandaloneFastGGUFPackage parser root manifestPath = .ok pkg) (hshards : ShardsHold p root mode pkg.manifest)
    (h : Compatible parser root manifestPath) :
    ∃ package, loadStandalone p parser serialize root manifestPath mode = .ok package := by
  obtain ⟨info, doc, haccepts⟩ := standalone_of_read hpkg
  have hread := Directory.read?_of_regular? haccepts.entry
  obtain ⟨arrays, hload, hnodup, hcount⟩ := hshards
  obtain ⟨info', doc', hinfo', hdoc', hmembers, hall⟩ := h
  cases Option.some.inj (haccepts.entry.symm.trans hinfo')
  cases Option.some.inj (haccepts.document.symm.trans hdoc')
  -- Both decoders read the same manifest.
  obtain ⟨m, hdecode⟩ := Option.isSome_iff_exists.1 (decode_isSome_iff.2 hmembers)
  have hdemands := hall m hdecode
  have hagrees := agrees haccepts.manifest hdecode
  have hcomplete := haccepts.complete
  simp only [ConversionCacheManifest.complete, Bool.and_eq_true, Bool.or_eq_true, decide_eq_true_eq] at hcomplete
  obtain ⟨⟨⟨⟨⟨hversion, hkey⟩, -⟩, hshards⟩, -⟩, hgroup⟩ := hcomplete
  have hmanifest : standaloneManifest parser root manifestPath = .ok m := by
    rw [hagrees.schemaVersion] at hversion
    rw [hagrees.key] at hkey
    rw [hagrees.shards] at hshards
    rw [hagrees.groupSize] at hgroup
    unfold standaloneManifest
    rw [hread]
    simp only [haccepts.document, Option.bind_some, hdecode]
    rw [if_pos ⟨hversion, hkey, hshards, hgroup⟩]
  obtain ⟨urls, hurls, hrequired⟩ := assetURLs_of_demands hagrees haccepts.assets hdemands
  -- The assets that were checked are the files that are read.
  have hasset : ∀ name ∈ [urls.configuration, urls.tokenizer, urls.tokenizerConfiguration],
      ∃ file, root.read? name = some file := by
    intro name hname
    rw [hrequired] at hname
    obtain ⟨file, hfile⟩ := haccepts.assets name hname
    exact ⟨file, Directory.read?_of_regular? hfile.regular⟩
  obtain ⟨configuration, hconfiguration⟩ := hasset urls.configuration (by simp)
  obtain ⟨tokenizer, htokenizer⟩ := hasset urls.tokenizer (by simp)
  obtain ⟨tokenizerConfiguration, htokenizerConfiguration⟩ := hasset urls.tokenizerConfiguration (by simp)
  obtain ⟨-, hstandard, hoptional, -⟩ := assetURLs_eq_ok hurls
  have htemplate : ∃ data,
      tokenizerConfigurationData parser serialize root m tokenizerConfiguration.contents = .ok data := by
    unfold tokenizerConfigurationData
    split
    · rename_i hthree
      refine template_eq_ok.2 fun hsome => ?_
      obtain ⟨file, members, hfile, hmembers⟩ := hdemands.template hthree hsome
      rw [hstandard (by omega)] at htokenizerConfiguration
      cases Option.some.inj (hfile.symm.trans htokenizerConfiguration)
      exact ⟨members, hmembers⟩
    · exact ⟨_, rfl⟩
  obtain ⟨templated, htemplated⟩ := htemplate
  have hweights : loadShards p root m.key mode m.shards [] = .ok arrays.flatten := by
    rw [hagrees.key, hagrees.shards] at hload
    have hfiles := haccepts.shards
    rw [hagrees.shards] at hfiles
    exact loadShards_ok hfiles hload hnodup hdemands.suffixes
  rw [hagrees.weightCount] at hcount
  have hread' : ∀ name ∈ urls.processor.toList ++ urls.generation.toList, (root.read? name).isSome := by
    rw [hoptional]
    exact fun name hname => (hdemands.optional name hname).2
  obtain ⟨processor, hprocessor⟩ := contentsOfOptional_eq_ok.2 fun n hn => hread' n (List.mem_append_left _ hn)
  obtain ⟨generation, hgeneration⟩ := contentsOfOptional_eq_ok.2 fun n hn => hread' n (List.mem_append_right _ hn)
  unfold loadStandalone
  rw [hmanifest, ok_bind, hurls, ok_bind]
  unfold loadAssets
  rw [contentsOf_eq_ok.2 ⟨_, hconfiguration, rfl⟩, ok_bind, contentsOf_eq_ok.2 ⟨_, htokenizer, rfl⟩, ok_bind,
    contentsOf_eq_ok.2 ⟨_, htokenizerConfiguration, rfl⟩, ok_bind, htemplated, ok_bind, hweights, ok_bind,
    guard_of hcount, ok_bind, hprocessor, ok_bind, hgeneration, ok_bind]
  exact ⟨_, rfl⟩

/-! ## A small package -/

def manifestText : Data :=
  ["\x7b\"schemaVersion\":4,", "\"key\":\"k\",", "\"runtimeVersion\":\"3\",", "\"createdAt\":\"2026-01-01T00:00:00Z\",",
    "\"sourceNames\":[\"m.gguf\"],", "\"profile\":\"balanced\",", "\"groupSize\":64,", "\"recurrentPromotion\":\"none\",",
    "\"weightCount\":1,", "\"totalBytes\":3,", "\"shards\":[\"m.fgguf\"],", "\"configuration\":\"m.config.json\",",
    "\"tokenizer\":\"m.tokenizer.json\",", "\"tokenizerConfiguration\":", "\"m.tokenizer_config.json\",",
    "\"processorConfiguration\":", "\"m.processor_config.json\"\x7d"].flatMap ascii

theorem manifestText_length : manifestText.length = 391 := by decide +kernel

def manifestDocument : Document where
  members := [("schemaVersion", .int 4), ("key", .string "k"), ("runtimeVersion", .string "3"),
    ("createdAt", .string "2026-01-01T00:00:00Z"), ("sourceNames", .array [.string "m.gguf"]), ("profile", .string "balanced"),
    ("groupSize", .int 64), ("recurrentPromotion", .string "none"), ("weightCount", .int 1), ("totalBytes", .int 3),
    ("shards", .array [.string "m.fgguf"]), ("configuration", .string "m.config.json"),
    ("tokenizer", .string "m.tokenizer.json"), ("tokenizerConfiguration", .string "m.tokenizer_config.json"),
    ("processorConfiguration", .string "m.processor_config.json")]
  distinct := by decide +kernel

def configurationText : Data := ascii "\x7b\"model_type\":\"llama\"\x7d"

theorem configurationText_length : configurationText.length = 22 := by decide +kernel

def configurationDocument : Document where
  members := [("model_type", .string "llama")]
  distinct := by decide +kernel

/-- A reader that knows two texts. -/
def smallDocuments (text : Data) : Option Document :=
  if text = manifestText then some manifestDocument
  else if text = configurationText then some configurationDocument
  else none

def smallParser : Parser where
  value text := (smallDocuments text).map fun doc => .object doc.members
  document := smallDocuments

def manifestFile : RegularFile := ⟨manifestText, by rw [manifestText_length]; decide, 0⟩

def configurationFile : RegularFile := ⟨configurationText, by rw [configurationText_length]; decide, 0⟩

/-- An empty object. -/
def assetFile : RegularFile := ⟨ascii "\x7b\x7d", by decide, 0⟩

/-- A converted model without the processor configuration that its manifest names. -/
def smallRoot (shard : RegularFile) : Directory where
  entries := [("m.fgguf.json", .node (.file manifestFile)), ("m.fgguf", .node (.file shard)),
    ("m.config.json", .node (.file configurationFile)), ("m.tokenizer.json", .node (.file assetFile)),
    ("m.tokenizer_config.json", .node (.file assetFile))]
  nodup := by simp

/-- The same directory with the processor configuration. -/
def fullRoot (shard : RegularFile) : Directory where
  entries := ("m.processor_config.json", .node (.file assetFile)) :: (smallRoot shard).entries
  nodup := by simp [smallRoot]

def smallManifest : ConversionCacheManifest where
  schemaVersion := 4
  key := "k"
  sourceNames := ["m.gguf"]
  sourcePaths := []
  shards := ["m.fgguf"]
  profile := "balanced"
  groupSize := 64
  weightCount := 1
  configuration := "m.config.json"
  tokenizer := "m.tokenizer.json"
  tokenizerConfiguration := "m.tokenizer_config.json"
  processorConfiguration := "m.processor_config.json"
  generationConfiguration := ""

/-- What the runtime reads in the same document. -/
def smallDecoded : Manifest where
  schemaVersion := 4
  key := "k"
  runtimeVersion := "3"
  createdAt := "2026-01-01T00:00:00Z"
  sourceNames := ["m.gguf"]
  sourcePaths := none
  profile := "balanced"
  groupSize := 64
  recurrentPromotion := "none"
  weightCount := 1
  totalBytes := 3
  storedBytes := none
  shards := ["m.fgguf"]
  configuration := "m.config.json"
  tokenizer := "m.tokenizer.json"
  tokenizerConfiguration := "m.tokenizer_config.json"
  processorConfiguration := "m.processor_config.json"
  generationConfiguration := none

theorem decode_small : decode manifestDocument = some smallDecoded := by decide +kernel

theorem document_small : smallParser.document manifestFile.contents = some manifestDocument := by
  simp only [smallParser, smallDocuments, manifestFile, if_true]

theorem regular?_of_mem {name : String} {file : RegularFile} (h : (name, DirectoryEntry.node (.file file)) ∈ root.entries) :
    root.regular? name = some file := by
  rw [Directory.regular?, Table.get?_eq_some.2 h]

theorem regularAdjacent_of_regular {name : String} {file : RegularFile} (suffix : String) (hfile : root.regular? name = some file)
    (hne : file.contents ≠ []) (hname : name ≠ "" ∧ Go.pathBase name = name ∧ Go.hasSuffix (toLower name) suffix = true) :
    regularAdjacentFastGGUFFile root name suffix = .ok file := by
  obtain ⟨hempty, hbase, hsuffix⟩ := hname
  rw [regularAdjacentFastGGUFFile, if_neg (by simp [hempty, hbase, hsuffix]), hfile]
  simp only
  rw [if_neg hne]

/-- The server takes both directories. -/
theorem read_small {shard : RegularFile} (root : Directory) (hroot : ∀ e ∈ (smallRoot shard).entries, e ∈ root.entries) (hne : shard.contents ≠ []) :
    ∃ pkg, readStandaloneFastGGUFPackage smallParser root "m.fgguf.json" = .ok pkg ∧ pkg.manifest = smallManifest := by
  have hmanifest : root.regular? "m.fgguf.json" = some manifestFile := regular?_of_mem (hroot _ (by simp [smallRoot]))
  have hshard : root.regular? "m.fgguf" = some shard := regular?_of_mem (hroot _ (by simp [smallRoot]))
  have hconfiguration : root.regular? "m.config.json" = some configurationFile := regular?_of_mem (hroot _ (by simp [smallRoot]))
  have htokenizer : root.regular? "m.tokenizer.json" = some assetFile := regular?_of_mem (hroot _ (by simp [smallRoot]))
  have htokenizerConfiguration : root.regular? "m.tokenizer_config.json" = some assetFile :=
    regular?_of_mem (hroot _ (by simp [smallRoot]))
  have hunmarshal : unmarshal manifestDocument = some smallManifest := by decide +kernel
  have hcomplete : smallManifest.complete = true := by decide +kernel
  have hconfigurationDocument : smallParser.document configurationFile.contents = some configurationDocument := by
    have hne : configurationText ≠ manifestText := by
      intro heq
      have hlength := congrArg List.length heq
      rw [manifestText_length, configurationText_length] at hlength
      omega
    simp only [smallParser, smallDocuments, configurationFile, hne, if_false, if_true]
  have hmodelType : goString (configurationDocument.fold? "model_type") = some "llama" := by decide +kernel
  have harchitecture : normalizeModelArchitecture (Go.trimSpace "llama") ≠ "" := by decide +kernel
  have hshards : ∃ total, requireFiles root ".fgguf" smallManifest.shards
      (manifestFile.contents.length, manifestFile.modified) = .ok total := by
    simp only [smallManifest, requireFiles, regularAdjacent_of_regular ".fgguf" hshard hne (by decide +kernel)]
    exact ⟨_, rfl⟩
  obtain ⟨total, hshards⟩ := hshards
  have hassets : ∃ bytes modifiedAt, requireFiles root ".json" smallManifest.requiredAssets total = .ok (bytes, modifiedAt) := by
    have hnames : smallManifest.requiredAssets = ["m.config.json", "m.tokenizer.json", "m.tokenizer_config.json"] := rfl
    rw [hnames]
    simp only [requireFiles, regularAdjacent_of_regular ".json" hconfiguration (by decide) (by decide +kernel),
      regularAdjacent_of_regular ".json" htokenizer (by decide) (by decide +kernel),
      regularAdjacent_of_regular ".json" htokenizerConfiguration (by decide) (by decide +kernel)]
    exact ⟨_, _, rfl⟩
  obtain ⟨bytes, modifiedAt, hassets⟩ := hassets
  have hfiles : checkFiles smallParser root "m.fgguf.json" manifestFile smallManifest =
      .ok ⟨"m.fgguf.json", smallManifest, "m.config.json", bytes + optionalBytes root smallManifest.optionalAssets, modifiedAt⟩ := by
    have hread := Directory.read?_of_regular? hconfiguration
    have hpath : smallManifest.requiredAssets.headD "" = "m.config.json" := rfl
    simp only [checkFiles, hshards, hassets, hpath, fastGGUFConfigurationArchitecture, hread, hconfigurationDocument,
      Option.bind_some, hmodelType]
    rw [if_neg harchitecture]
  have hsize : ¬(manifestFile.contents = [] ∨ manifestFile.contents.length > maximumConversionManifestBytes) := by
    rw [← List.length_eq_zero_iff, manifestFile, manifestText_length]
    decide
  refine ⟨_, Eq.trans ?_ hfiles, rfl⟩
  simp only [readStandaloneFastGGUFPackage, hmanifest, if_neg hsize, document_small, Option.bind_some, hunmarshal, hcomplete, if_true]

/-- There is a shard that holds what the manifest says, in either directory. -/
theorem small_shard : ∃ shard : RegularFile, shard.contents ≠ [] ∧ ∀ root : Directory, root.regular? "m.fgguf" = some shard →
    ∀ mode, ShardsHold smallHost root mode smallManifest := by
  have hlawful : smallHost.Lawful := oneHeaderHost_lawful _ _ (rawHeaderText_ne_nil _ _ _ _)
  have hraw : encodeIfWorthwhile smallHost smallArray.data = none := rfl
  obtain ⟨contents, stats, hstore⟩ : ∃ contents stats,
      store smallHost (Arrays.single smallHost "w" smallArray) [] "k" "m.fgguf" = .ok (contents, stats) :=
    store_single _ _ hraw (by decide) (by rw [rawHeaderText_length]; decide) (writtenHeader_single hraw _)
  obtain ⟨headerData, hw⟩ := store_spec hstore
  have hlt := hlawful.accepts_lt _ hw.accepted
  obtain ⟨file, hname, rfl⟩ : ∃ file : File, file.lastPathComponent = "m.fgguf" ∧ file.contents = contents :=
    ⟨⟨"m.fgguf", contents, hlt⟩, rfl, rfl⟩
  refine ⟨⟨file.contents, hlt, 0⟩, ?_, ?_⟩
  · rw [← List.length_pos_iff, hw.length]
    exact Nat.add_pos_left (by decide) _
  · intro root hroot mode
    obtain ⟨⟨loaded, stats'⟩, hload, hperm⟩ := hw.load_of_loadable hlawful (small_loadable mode)
    obtain rfl : loaded = [("w", smallArray)] := List.perm_singleton.1 hperm
    refine ⟨[[("w", smallArray)]], .cons ⟨_, stats', hroot, ?_⟩ .nil, by simp, rfl⟩
    cases file
    subst hname
    exact hload

/-! ## The exact condition -/

end Tanpopo.Standalone
