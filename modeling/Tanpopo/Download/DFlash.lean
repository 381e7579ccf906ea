import Tanpopo.Download.Companions
import Tanpopo.Lib.Selection
import Tanpopo.Lib.Table
import Mathlib
/-!
# Finding a draft model

The repositories that the searches find are collected in a map, and the one of
the greatest score is taken. `discovery_deterministic_iff` says when the order
in which the map is iterated does not matter.
-/

namespace Tanpopo.Download

open Go Selection

variable {World : Type}

/-! ## Repositories -/

/-- A repository of a search result. -/
structure FoundRepository extends RepositoryInfo where
  tags : List String

structure ModelConfiguration where
  architectures : List String := []
  modelType : String := ""
  hiddenSize : Int := 0
  vocabularySize : Int := 0
  numberOfLayers : Int := 0
  numberOfTargets : Int := 0

/-- What the selected draft is downloaded with. -/
structure SelectedDraft where
  info : FoundRepository
  configuration : ModelConfiguration
  revision : String

/-- The answers of the server. Its repositories are told apart by their ids. -/
structure Hub where
  search : String → Option (List FoundRepository)
  configuration : FoundRepository → Option ModelConfiguration
  eq_of_id : ∀ query query' found found', search query = some found → search query' = some found' →
    ∀ a ∈ found, ∀ b ∈ found', a.id = b.id → a = b

/-! ## Scores -/

/-- The relationships before the name of a base model. -/
def withoutRelationship : List String → List String
  | [] => []
  | [name] => [name]
  | part :: rest => if part.toList.contains '/' then part :: rest else withoutRelationship rest

def baseModelRepositories (tags : List String) : List String :=
  tags.foldl (fun result tag =>
    let tag := trimSpace tag
    if hasPrefix tag "base_model:" then
      let value := join (withoutRelationship (split (trimPrefix tag "base_model:") ':')) ':'
      if isRepository value ∧ value ∉ result then result ++ [value] else result
    else result) []

def hasTag (tags : List String) (expected : String) : Bool := tags.any fun tag => equalFold (trimSpace tag) expected

def isDFlashRepository (info : FoundRepository) : Bool :=
  contains (toLower info.id) "dflash" ||
    info.tags.any fun tag => ["dflash", "dflash2", "speculative-decoding-draft"].contains (toLower (trimSpace tag))

/-- What is before the first of a part, or everything. -/
def beforePart (part : List Char) : List Char → List Char
  | [] => []
  | c :: rest => if part.isPrefixOf (c :: rest) then [] else c :: beforePart part rest

def isIdentityPart (part : String) : Bool :=
  !(["", "gguf", "mlx", "model", "draft", "bf16", "fp16", "f16", "b16"].contains part || hasSuffix part "bit")

def dflashPairIdentity (repository : String) : String :=
  let name := beforePart "dflash".toList (toLower (pathBase (trimSpace repository))).toList
  let parts := ((filenameTokens name).map String.ofList).filter isIdentityPart
  let parts := match parts with
    | first :: second :: rest => if first = second then second :: rest else parts
    | _ => parts
  String.join parts

def baseScore (targetRepositories targetIdentities : List String) (score : Int) (base : String) : Int :=
  let score := if targetRepositories.any (equalFold base) then max score 10000 else score
  if targetIdentities.contains (dflashPairIdentity base) then max score 8000 else score

def dflashCandidateScore (candidate : FoundRepository) (targetRepositories targetIdentities : List String) : Int :=
  let score := (baseModelRepositories candidate.tags).foldl (baseScore targetRepositories targetIdentities) (-1)
  let score := if targetIdentities.contains (dflashPairIdentity candidate.id) then max score 5000 else score
  if score < 0 then -1
  else score + (if hasPrefix (toLower candidate.id) "z-lab/" then 100 else 0) +
    (if hasTag candidate.tags "dflash2" then 10 else 0)

/-! ## Configurations -/

def isDFlashDraftConfiguration (configuration : ModelConfiguration) : Bool :=
  configuration.architectures.any fun architecture => architecture = "DFlashDraftModel" || architecture = "DFlash2DraftModel"

def normalizeDFlashArchitecture (value : String) : String :=
  String.ofList ((toLower (trimSpace value)).toList.filter fun c => c ≠ '_' && c ≠ '-' && c ≠ '.')

def isSupportedDFlashTargetConfiguration (configuration : ModelConfiguration) : Bool :=
  !isDFlashDraftConfiguration configuration &&
    ["qwen3", "qwen3moe", "qwen35", "qwen35moe"].contains (normalizeDFlashArchitecture configuration.modelType)

/-- Two sizes that are both known differ. -/
def mismatch (draft target : Int) : Bool := draft > 0 && target > 0 && draft ≠ target

def isCompatibleDFlashConfiguration (target draft : ModelConfiguration) : Bool :=
  isDFlashDraftConfiguration draft && isSupportedDFlashTargetConfiguration target &&
    !mismatch draft.numberOfTargets target.numberOfLayers && !mismatch draft.hiddenSize target.hiddenSize &&
    !mismatch draft.vocabularySize target.vocabularySize

/-! ## Discovery -/

section Discovery
variable (env : Environment World) (hub : Hub) (request : Request) (targetTags : List String)
  (targetConfiguration : ModelConfiguration)

def targetRepositories : List String := request.repository :: baseModelRepositories targetTags

def targetIdentities : List String := ((targetRepositories request targetTags).map dflashPairIdentity).filter (· ≠ "")

/-- What the search for one target repository finds. -/
def searchFor (repository : String) : List FoundRepository :=
  let name := pathBase repository
  if name = "" ∨ name = "." then [] else (hub.search (name ++ " DFlash")).getD []

/-- The map of all that is found, by id. -/
def candidates : Table String FoundRepository :=
  ((targetRepositories request targetTags).flatMap (searchFor hub)).foldl (fun found candidate =>
    found.set candidate.id candidate) Table.empty

/-- The draft of a candidate that can be taken, with its score. -/
def evaluateCandidate (candidate : FoundRepository) : Option (SelectedDraft × Int) :=
  let score := dflashCandidateScore candidate (targetRepositories request targetTags) (targetIdentities request targetTags)
  if candidate.id = "" || equalFold candidate.id request.repository || !isDFlashRepository candidate then none
  else if score < 0 then none
  else if request.runtime = runtimeLlamaServer then
    if selectDFlashGGUF env request.filename candidate.toRepositoryInfo = "" then none
    else some (⟨candidate, {}, "main"⟩, score)
  else match hub.configuration candidate with
    | none => none
    | some configuration =>
      if isCompatibleDFlashConfiguration targetConfiguration configuration then
        some (⟨candidate, configuration, "main"⟩, score)
      else none

/-- The selection when the map is iterated in the given order. -/
def discoverDFlashRepositoryWithConfiguration (order : List FoundRepository) : Option SelectedDraft :=
  if isSupportedDFlashTargetConfiguration targetConfiguration then
    select (evaluateCandidate env hub request targetTags targetConfiguration) order
  else none

end Discovery

/-! ## What the searches find -/

variable {env : Environment World} {hub hub' : Hub} {request : Request} {targetTags : List String}
  {targetConfiguration : ModelConfiguration} {candidate : FoundRepository}

theorem get?_foldl_set {found : List FoundRepository} (h : ∀ a ∈ found, ∀ b ∈ found, a.id = b.id → a = b) {id : String} :
    (found.foldl (fun table candidate => table.set candidate.id candidate) (Table.empty : Table String FoundRepository)).get?
      id = some candidate ↔ candidate ∈ found ∧ candidate.id = id := by
  induction found using List.reverseRecOn with
  | nil => simp [Table.empty, Table.get?]
  | append_singleton found last ih =>
    have ih := ih fun a ha b hb => h a (List.mem_append_left _ ha) b (List.mem_append_left _ hb)
    rw [List.foldl_append, List.foldl_cons, List.foldl_nil, Table.get?_set]
    split
    · rename_i hid
      constructor
      · intro hsome
        obtain rfl := Option.some.inj hsome
        exact ⟨by simp, hid.symm⟩
      · rintro ⟨hmem, hid'⟩
        rw [h last (by simp) candidate hmem (hid.symm.trans hid'.symm)]
    · rename_i hid
      rw [ih]
      constructor
      · rintro ⟨hmem, hid'⟩
        exact ⟨List.mem_append_left _ hmem, hid'⟩
      · rintro ⟨hmem, hid'⟩
        refine ⟨(List.mem_append.mp hmem).resolve_right fun hlast => hid ?_, hid'⟩
        rw [← hid', List.mem_singleton.mp hlast]

theorem mem_searchFor {repository : String} (h : candidate ∈ searchFor hub repository) :
    ∃ query found, hub.search query = some found ∧ candidate ∈ found := by
  simp only [searchFor] at h
  split at h
  · cases h
  · cases hsearch : hub.search (pathBase repository ++ " DFlash") with
    | none =>
      rw [hsearch] at h
      cases h
    | some found =>
      rw [hsearch] at h
      exact ⟨_, found, hsearch, h⟩

/-- What the map holds. -/
def found (hub : Hub) (request : Request) (targetTags : List String) : List FoundRepository :=
  (candidates hub request targetTags).entries.map (·.2)

theorem get?_candidates {id : String} : (candidates hub request targetTags).get? id = some candidate ↔
    candidate ∈ (targetRepositories request targetTags).flatMap (searchFor hub) ∧ candidate.id = id := by
  refine get?_foldl_set fun a ha b hb hid => ?_
  obtain ⟨_, -, ha⟩ := List.mem_flatMap.mp ha
  obtain ⟨_, -, hb⟩ := List.mem_flatMap.mp hb
  obtain ⟨query, found, hfound, ha⟩ := mem_searchFor ha
  obtain ⟨query', found', hfound', hb⟩ := mem_searchFor hb
  exact hub.eq_of_id query query' found found' hfound hfound' a ha b hb hid

theorem mem_found : candidate ∈ found hub request targetTags ↔
    candidate ∈ (targetRepositories request targetTags).flatMap (searchFor hub) := by
  rw [found, List.mem_map]
  constructor
  · rintro ⟨⟨id, _⟩, hentry, rfl⟩
    exact (get?_candidates.mp (Table.get?_eq_some.mpr hentry)).1
  · intro hmem
    exact ⟨(candidate.id, candidate), Table.get?_eq_some.mp (get?_candidates.mpr ⟨hmem, rfl⟩), rfl⟩

theorem nodup_found : (found hub request targetTags).Nodup := by
  have hids : (found hub request targetTags).map (fun candidate => candidate.id) =
      (candidates hub request targetTags).entries.map (·.1) := by
    rw [found, List.map_map]
    refine List.map_congr_left fun entry hentry => ?_
    exact (get?_candidates.mp (Table.get?_eq_some.mpr hentry)).2
  exact List.Nodup.of_map _ (hids ▸ (candidates hub request targetTags).nodup)

/-- The server answers the same, with the entries of each answer in any order. -/
structure SameAnswers (hub hub' : Hub) : Prop where
  search : ∀ query, (hub.search query).isSome = (hub'.search query).isSome
  perm : ∀ query found found', hub.search query = some found → hub'.search query = some found' → found'.Perm found
  configuration : hub'.configuration = hub.configuration

theorem SameAnswers.refl (hub : Hub) : SameAnswers hub hub where
  search _ := rfl
  perm query found found' h h' := by rw [Option.some.inj (h'.symm.trans h)]
  configuration := rfl

theorem SameAnswers.mem_searchFor_iff (h : SameAnswers hub hub') {repository : String} :
    candidate ∈ searchFor hub' repository ↔ candidate ∈ searchFor hub repository := by
  simp only [searchFor]
  split
  · exact Iff.rfl
  · have hsome := h.search (pathBase repository ++ " DFlash")
    cases hsearch : hub.search (pathBase repository ++ " DFlash") with
    | none =>
      cases hsearch' : hub'.search (pathBase repository ++ " DFlash") with
      | none => exact Iff.rfl
      | some _ => simp [hsearch, hsearch'] at hsome
    | some found =>
      cases hsearch' : hub'.search (pathBase repository ++ " DFlash") with
      | none => simp [hsearch, hsearch'] at hsome
      | some found' => exact (h.perm _ _ _ hsearch hsearch').mem_iff

theorem SameAnswers.perm_found (h : SameAnswers hub hub') :
    (found hub' request targetTags).Perm (found hub request targetTags) := by
  rw [List.perm_ext_iff_of_nodup nodup_found nodup_found]
  intro candidate
  simp only [mem_found, List.mem_flatMap, h.mem_searchFor_iff]

theorem SameAnswers.evaluateCandidate_eq (h : SameAnswers hub hub') :
    evaluateCandidate env hub' request targetTags targetConfiguration =
      evaluateCandidate env hub request targetTags targetConfiguration := by
  funext candidate
  unfold evaluateCandidate
  rw [h.configuration]

/-! ## Two runs -/

/-- Every two runs select the same exactly when the target takes no draft or one candidate alone has the greatest score. -/
theorem discovery_deterministic_iff (env : Environment World) (hub : Hub) (request : Request) (targetTags : List String)
    (targetConfiguration : ModelConfiguration) :
    (∀ hub₁ hub₂ order₁ order₂, SameAnswers hub hub₁ → SameAnswers hub hub₂ →
        order₁.Perm (found hub₁ request targetTags) → order₂.Perm (found hub₂ request targetTags) →
        discoverDFlashRepositoryWithConfiguration env hub₁ request targetTags targetConfiguration order₁ =
          discoverDFlashRepositoryWithConfiguration env hub₂ request targetTags targetConfiguration order₂) ↔
      (isSupportedDFlashTargetConfiguration targetConfiguration = true →
        UniqueBest (evaluateCandidate env hub request targetTags targetConfiguration) (found hub request targetTags)) := by
  constructor
  · intro h hsupported
    rw [← select_perm_iff]
    intro order₁ order₂ horder₁ horder₂
    have hsame := h hub hub order₁ order₂ (SameAnswers.refl hub) (SameAnswers.refl hub) horder₁ horder₂
    rwa [discoverDFlashRepositoryWithConfiguration, if_pos hsupported, discoverDFlashRepositoryWithConfiguration,
      if_pos hsupported] at hsame
  · intro h hub₁ hub₂ order₁ order₂ hhub₁ hhub₂ horder₁ horder₂
    unfold discoverDFlashRepositoryWithConfiguration
    split
    · rename_i hsupported
      rw [hhub₁.evaluateCandidate_eq, hhub₂.evaluateCandidate_eq]
      exact select_perm_iff.mpr (h hsupported) order₁ order₂ (horder₁.trans hhub₁.perm_found)
        (horder₂.trans hhub₂.perm_found)
    · rfl

/-! ## Two drafts of one score -/

def qwenDraft (owner : String) : FoundRepository := ⟨⟨owner ++ "/Qwen3-8B-DFlash", ["config.json"], []⟩, ["dflash"]⟩

/-- Two owners have made a draft for one target. -/
def twoDrafts : Hub where
  search query := if query = "Qwen3-8B DFlash" then some [qwenDraft "alice", qwenDraft "bob"] else none
  configuration _ := some { architectures := ["DFlashDraftModel"], modelType := "qwen3" }
  eq_of_id query query' found found' h h' a ha b hb hid := by
    split_ifs at h h'
    obtain rfl := Option.some.inj h
    obtain rfl := Option.some.inj h'
    have hids : (qwenDraft "alice").id ≠ (qwenDraft "bob").id := by decide
    simp only [List.mem_cons, List.not_mem_nil, or_false] at ha hb
    rcases ha with rfl | rfl <;> rcases hb with rfl | rfl
    · rfl
    · exact absurd hid hids
    · exact absurd hid.symm hids
    · rfl

def qwenRequest : Request :=
  ⟨runtimeMLXServer, "Qwen/Qwen3-8B", "placeholder", "main", "/models", "https://huggingface.co", "", false, ""⟩

theorem quietServer_getwd {directory : String} (h : (.ok "/" : Except String String) = .ok directory) : isAbs directory = true := by
  obtain rfl := Except.ok.inj h
  decide

theorem quietServer_perm (less : String → String → Bool) (names : List String) :
    (names.insertionSort fun a b => less b a = false).Perm names := List.perm_insertionSort _ _

/-- A server that lists nothing. -/
def quietServer : Environment Unit where
  getwd := .ok "/"
  getwd_absolute _ := quietServer_getwd
  isEndpoint endpoint := hasPrefix endpoint "https://"
  digest _ := "00000000"
  sortSlice less names := names.insertionSort fun a b => less b a = false
  sortSlice_perm := quietServer_perm
  repositoryAnswer request w := (.ok ⟨request.repository, [], []⟩, w)
  discoverDFlashRepository _ _ w := (.ok none, w)
  isDFlashTarget _ _ w := (false, w)
  isRegularFile _ w := (false, w)
  reserve _ _ w := (.error "no job", w)

/-- Which of the two is taken is decided by the order of the map. -/
theorem twoDrafts_differ :
    ¬ ∀ hub₁ hub₂ order₁ order₂, SameAnswers twoDrafts hub₁ → SameAnswers twoDrafts hub₂ →
      order₁.Perm (found hub₁ qwenRequest []) → order₂.Perm (found hub₂ qwenRequest []) →
      discoverDFlashRepositoryWithConfiguration quietServer hub₁ qwenRequest [] { modelType := "qwen3" } order₁ =
        discoverDFlashRepositoryWithConfiguration quietServer hub₂ qwenRequest [] { modelType := "qwen3" } order₂ := by
  intro h
  have hfound : found twoDrafts qwenRequest [] = [qwenDraft "bob", qwenDraft "alice"] := by rfl
  have hsame := h twoDrafts twoDrafts [qwenDraft "bob", qwenDraft "alice"] [qwenDraft "alice", qwenDraft "bob"]
    (SameAnswers.refl _) (SameAnswers.refl _) (hfound ▸ List.Perm.refl _) (hfound ▸ List.Perm.swap _ _ _)
  have hids := congrArg (Option.map fun draft => draft.info.id) hsame
  revert hids
  decide +kernel

end Tanpopo.Download
