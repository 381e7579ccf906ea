import Tanpopo.Download.Companions
/-!
# Where downloads go

Each file of a batch is joined to the directory of its model, and the join is
only checked against the model directory above it. A name that starts with `..`
can leave the directory of the model for the one of another.
-/

namespace Tanpopo.Download

open Go

variable {World : Type} {env : Environment World} {request : Request} {w w' : World} {result : BatchResult}

/-! ## Jobs and their destinations -/

/-- The job went through `SafeJoin` below this model directory. -/
structure Queued (env : Environment World) (modelDirectory : String) (job : QueuedJob) : Prop where
  modelDirectory : job.request.modelDirectory = modelDirectory
  joined : safeJoin env.getwd job.request.modelDirectory (localDestination job.request) = .ok job.destination

/-- A path strictly inside `ModelDirectory/LocalDirectory`. -/
def InsideDirectory (base localDirectory path : String) : Prop :=
  Below (absNames (pathJoin base localDirectory)) (absNames path)

instance (base localDirectory path : String) : Decidable (InsideDirectory base localDirectory path) :=
  inferInstanceAs (Decidable (Below _ _))

/-- What the file name climbs out of, it names again, and more. A name without a leading `..` only has to name something. -/
def StaysIn (base localDirectory filename : String) : Prop :=
  let names := absNames (pathJoin base localDirectory)
  Below (names.drop (names.length - climbs filename)) (descent filename)

instance (base localDirectory filename : String) : Decidable (StaysIn base localDirectory filename) :=
  inferInstanceAs (Decidable (Below _ _))

theorem Queued.inside_iff {modelDirectory : String} {job : QueuedJob} (h : Queued env modelDirectory job) :
    ∃ base, absPath env.getwd modelDirectory = .ok base ∧ absNames base <+: absNames job.destination ∧
      (InsideDirectory base job.request.localDirectory job.destination ↔
        StaysIn base job.request.localDirectory job.request.filename) := by
  obtain ⟨base, hjoined⟩ := joined_of_safeJoin env.getwd_absolute h.joined
  refine ⟨base, h.modelDirectory ▸ hjoined.base, hjoined.inside, ?_⟩
  rw [InsideDirectory, hjoined.names, localDestination, walk_pathJoin _ hjoined.not_absolute,
    ← absNames_pathJoin hjoined.absolute, below_walk_iff isName_of_mem_absNames, StaysIn]

/-! ## Steps of a batch -/

theorem queued_of_startValidated {destination : String} {job : QueuedJob}
    (hjoin : safeJoin env.getwd request.modelDirectory (localDestination request) = .ok destination)
    (h : startValidated env request destination w = (.ok job, w')) :
    Queued env request.modelDirectory job ∧ job.request = request := by
  unfold startValidated at h
  split at h
  · cases h
  · obtain rfl := Except.ok.inj (congrArg Prod.fst h)
    exact ⟨⟨rfl, hjoin⟩, rfl⟩

theorem queued_of_start {job : QueuedJob} (h : start env request w = (.ok job, w')) :
    Queued env (normalizeRequest env request).modelDirectory job ∧ job.request = normalizeRequest env request := by
  unfold start at h
  dsimp only at h
  split at h
  · cases h
  split at h
  · cases h
  · rename_i hjoin
    exact queued_of_startValidated hjoin h

theorem queued_of_tryQueue {job : QueuedJob} (h : tryQueue env request w = (.started job, w')) :
    Queued env request.modelDirectory job ∧ job.request = request := by
  unfold tryQueue at h
  split at h
  · cases h
  rename_i destination hjoin
  generalize (if request.overwrite then (false, w) else env.isRegularFile destination w) = found at h
  obtain ⟨regular, w₁⟩ := found
  dsimp only at h
  split at h
  · cases h
  split at h
  · cases h
  · rename_i hstart
    obtain rfl := Outcome.started.inj (congrArg Prod.fst h)
    exact queued_of_startValidated hjoin hstart

/-- Every job of the batch went below the model directory, into one of the directories `D`. -/
def Contained (env : Environment World) (modelDirectory : String) (D : QueuedJob → Prop) (result : BatchResult) : Prop :=
  ∀ job ∈ result.jobs, Queued env modelDirectory job ∧ D job

variable {D : QueuedJob → Prop}

theorem contained_start {modelDirectory : String} {job : QueuedJob} (h : Contained env modelDirectory D result)
    (hjob : Queued env modelDirectory job) (hD : D job) : Contained env modelDirectory D (result.start job) := by
  intro other hother
  rcases List.mem_append.1 hother with hbefore | hnew
  · exact h other hbefore
  · rw [List.mem_singleton.1 hnew]
    exact ⟨hjob, hD⟩

theorem contained_detectOnce {modelDirectory : String} (name : String) (h : Contained env modelDirectory D result) :
    Contained env modelDirectory D (result.detectOnce name) := by
  unfold BatchResult.detectOnce
  split <;> exact h

theorem contained_queueCompanion (request : Request) (displayName : String) (w : World)
    (h : Contained env request.modelDirectory D result)
    (hD : ∀ job : QueuedJob, job.request = request → D job) :
    Contained env request.modelDirectory D (queueCompanion env result request displayName w).1 := by
  unfold queueCompanion
  split
  · exact h
  · exact h
  · exact h
  · obtain ⟨hjob, hrequest⟩ := queued_of_tryQueue ‹_›
    exact contained_start h hjob (hD _ hrequest)

theorem contained_queueCompanions (names : List String) (w : World) (h : Contained env request.modelDirectory D result)
    (hD : ∀ job : QueuedJob, job.request.localDirectory = request.localDirectory → D job) :
    Contained env request.modelDirectory D (queueCompanions env request names result w).1 := by
  induction names generalizing result w with
  | nil => exact h
  | cons filename rest ih =>
    have hfirst : Contained env request.modelDirectory D
        (queueCompanion env result { request with filename } filename w).1 :=
      contained_queueCompanion { request with filename } filename w h fun job hjob => hD job (by rw [hjob])
    rw [queueCompanions_cons]
    exact ih _ hfirst

theorem contained_queueBaseAssets (available : String → Option String) (names : List String) (w : World)
    (h : Contained env request.modelDirectory D result)
    (hD : ∀ job : QueuedJob, job.request.localDirectory = request.localDirectory → D job) :
    Contained env request.modelDirectory D (queueBaseAssets env request available names result w).1 := by
  induction names generalizing result w with
  | nil => exact h
  | cons name rest ih =>
    rw [queueBaseAssets]
    split
    · exact ih _ h
    split
    · exact ih _ h
    · exact ih _ h
    · exact ih _ h
    · obtain ⟨hjob, hrequest⟩ := queued_of_tryQueue ‹_›
      exact ih _ (contained_start h hjob (hD _ (by rw [hrequest])))

theorem contained_startBaseAssets (companions : List String) (targetInfo : RepositoryInfo) (w : World)
    (h : Contained env request.modelDirectory D result)
    (hD : ∀ job : QueuedJob, job.request.localDirectory = request.localDirectory → D job) :
    Contained env request.modelDirectory D (startBaseAssets env request companions targetInfo result w).1 := by
  unfold startBaseAssets
  dsimp only
  split
  · exact h
  split
  · exact h
  · exact contained_queueBaseAssets _ _ _ h hD

theorem contained_startDraft (companions : List String) (targetInfo : RepositoryInfo) (w : World)
    (h : Contained env request.modelDirectory D result)
    (hD : ∀ job : QueuedJob, job.request.localDirectory = request.localDirectory → D job) :
    Contained env request.modelDirectory D (startDraft env request companions targetInfo result w).1 := by
  unfold startDraft
  split
  · exact h
  split
  · exact h
  · exact h
  dsimp only
  split
  · exact h
  · rename_i draft _ _ _
    have hdetect : Contained env request.modelDirectory D
        (result.detect (draft.info.id ++ "/" ++ selectDFlashGGUF env request.filename draft.info)) := h
    exact contained_queueCompanion
      { request with
        repository := draft.info.id
        revision := draft.revision
        filename := selectDFlashGGUF env request.filename draft.info }
      (selectDFlashGGUF env request.filename draft.info) _ hdetect fun job hjob => hD job (by rw [hjob])

theorem contained_queueRepositoryFiles (localDirectory displayPrefix : String) (names : List String) (w : World)
    (h : Contained env request.modelDirectory D result)
    (hD : ∀ job : QueuedJob, job.request.repository = request.repository → job.request.revision = request.revision →
      job.request.localDirectory = localDirectory → D job) :
    Contained env request.modelDirectory D (queueRepositoryFiles env request localDirectory displayPrefix names result w).1 := by
  induction names generalizing result w with
  | nil => exact h
  | cons filename rest ih =>
    have hfirst : Contained env request.modelDirectory D (queueCompanion env (result.detectOnce (displayPrefix ++ filename))
        { request with filename, localDirectory } (displayPrefix ++ filename) w).1 :=
      contained_queueCompanion { request with filename, localDirectory } (displayPrefix ++ filename) w
        (contained_detectOnce _ h) fun job hjob => hD job (by rw [hjob]) (by rw [hjob]) (by rw [hjob])
    rw [queueRepositoryFiles_cons]
    exact ih _ hfirst

/-! ## Whole batches -/

/-- The directory of a request. It is normalized once more for the requested file itself. -/
def IsLocalDirectory (env : Environment World) (request : Request) (directory : String) : Prop :=
  directory = (normalizeRequest env request).localDirectory ∨
    directory = (normalizeRequest env (normalizeRequest env request)).localDirectory

theorem contained_startWithCompanions (h : startWithCompanions env request w = (.ok result, w')) :
    Contained env (trimSpace request.modelDirectory) (fun job => IsLocalDirectory env request job.request.localDirectory)
      result := by
  unfold startWithCompanions at h
  dsimp only at h
  split at h
  · cases h
  split at h
  · cases h
  rename_i mainJob _ hstart
  obtain ⟨hmain, hrequest⟩ := queued_of_start hstart
  rw [normalizeRequest_modelDirectory, normalizeRequest_modelDirectory, trimSpace_trimSpace] at hmain
  have hfirst : ∀ companions warnings, Contained env (normalizeRequest env request).modelDirectory
      (fun job => IsLocalDirectory env request job.request.localDirectory) ⟨[mainJob], companions, [], warnings⟩ := by
    intro companions warnings job hjob
    rw [List.mem_singleton.1 hjob]
    exact ⟨hmain, .inr (by rw [hrequest])⟩
  have hD : ∀ job : QueuedJob, job.request.localDirectory = (normalizeRequest env request).localDirectory →
      IsLocalDirectory env request job.request.localDirectory := fun _ => .inl
  split at h
  · obtain rfl := Except.ok.inj (congrArg Prod.fst h)
    exact contained_queueCompanions _ _ (hfirst _ _) hD
  · obtain rfl := Except.ok.inj (congrArg Prod.fst h)
    exact contained_startDraft _ _ _ (contained_startBaseAssets _ _ _ (contained_queueCompanions _ _ (hfirst _ _) hD) hD) hD

/-- A snapshot goes into the directory of its repository and revision. -/
def IsSnapshotDirectory (env : Environment World) (job : QueuedJob) : Prop :=
  job.request.localDirectory = mlxStorageDirectory env job.request.repository job.request.revision

theorem contained_startDraftRepository (info : RepositoryInfo) (w : World)
    (h : Contained env request.modelDirectory (IsSnapshotDirectory env) result) :
    Contained env request.modelDirectory (IsSnapshotDirectory env) (startDraftRepository env request info result w).1 := by
  unfold startDraftRepository
  split
  · exact h
  split
  · exact h
  · exact h
  split
  · exact h
  · refine contained_queueRepositoryFiles _ _ _ _ h fun job hrepository hrevision hdirectory => ?_
    rw [IsSnapshotDirectory, hdirectory, hrepository, hrevision]

theorem contained_startRepository (h : startRepository env request w = (.ok result, w')) :
    Contained env (trimSpace request.modelDirectory) (IsSnapshotDirectory env) result := by
  unfold startRepository at h
  have hmodel : ({ normalizeRequest env request with runtime := runtimeMLXServer, filename := "placeholder" } : Request).modelDirectory =
    trimSpace request.modelDirectory := rfl
  generalize ({ normalizeRequest env request with runtime := runtimeMLXServer, filename := "placeholder" } : Request) = queued at h hmodel
  rw [← hmodel]
  dsimp only at h
  split at h
  · cases h
  split at h
  · cases h
  split at h
  · cases h
  split at h
  · cases h
  · obtain rfl := Except.ok.inj (congrArg Prod.fst h)
    refine contained_startDraftRepository _ _ (contained_queueRepositoryFiles _ _ _ _ ?_ ?_)
    · exact fun job hjob => absurd hjob List.not_mem_nil
    · intro job hrepository hrevision hdirectory
      rw [IsSnapshotDirectory, hdirectory, hrepository, hrevision]

/-- A job of a batch is strictly inside the directory of its model exactly when its file name stays there. -/
theorem inside_iff_staysIn (env : Environment World) (request : Request) (w w' : World) (result : BatchResult)
    (job : QueuedJob) (hjob : job ∈ result.jobs) :
    (startWithCompanions env request w = (.ok result, w') → IsLocalDirectory env request job.request.localDirectory ∧
      ∃ base, absPath env.getwd (trimSpace request.modelDirectory) = .ok base ∧
        (InsideDirectory base job.request.localDirectory job.destination ↔
          StaysIn base job.request.localDirectory job.request.filename)) ∧
    (startRepository env request w = (.ok result, w') → IsSnapshotDirectory env job ∧
      ∃ base, absPath env.getwd (trimSpace request.modelDirectory) = .ok base ∧
        (InsideDirectory base job.request.localDirectory job.destination ↔
          StaysIn base job.request.localDirectory job.request.filename)) := by
  constructor
  · intro h
    obtain ⟨hqueued, hdirectory⟩ := contained_startWithCompanions h job hjob
    obtain ⟨base, hbase, -, hiff⟩ := hqueued.inside_iff
    exact ⟨hdirectory, base, hbase, hiff⟩
  · intro h
    obtain ⟨hqueued, hdirectory⟩ := contained_startRepository h job hjob
    obtain ⟨base, hbase, -, hiff⟩ := hqueued.inside_iff
    exact ⟨hdirectory, base, hbase, hiff⟩

/-- The server lists a companion that lies in the directory of another model. -/
def climbingServer : Environment Unit where
  getwd := .ok "/"
  getwd_absolute directory h := by
    obtain rfl := Except.ok.inj h
    decide
  isEndpoint endpoint := hasPrefix endpoint "http://"
  digest _ := "00000000"
  sortSlice less names := names.insertionSort fun a b => less b a = false
  sortSlice_perm _ _ := List.perm_insertionSort _ _
  repositoryAnswer _ w := (.ok ⟨"a/b", ["../c/mmproj.gguf"], []⟩, w)
  discoverDFlashRepository _ _ w := (.ok none, w)
  isDFlashTarget _ _ w := (false, w)
  isRegularFile _ w := (false, w)
  reserve _ _ w := (.ok "1", w)

def climbingRequest : Request where
  runtime := "llama-server"
  repository := "a/b"
  filename := "x.gguf"
  revision := "main"
  modelDirectory := "/m"
  endpoint := "http://h"
  token := ""
  overwrite := false
  localDirectory := "d"

def climbingBatch : BatchResult where
  jobs := [⟨"1", climbingRequest, "/m/d/x.gguf"⟩,
    ⟨"1", { climbingRequest with filename := "../c/mmproj.gguf" }, "/m/c/mmproj.gguf"⟩]
  detected := ["../c/mmproj.gguf"]
  skipped := []
  warnings := []

theorem startWithCompanions_climbing : startWithCompanions climbingServer climbingRequest () = (.ok climbingBatch, ()) := by
  decide +kernel

theorem climbingBatch_inside_iff : ∃ base, absPath (.ok "/") "/m" = .ok base ∧
    (InsideDirectory base "d" "/m/c/mmproj.gguf" ↔ StaysIn base "d" "../c/mmproj.gguf") :=
  have hmodel : trimSpace climbingRequest.modelDirectory = "/m" := by decide
  hmodel ▸ ((inside_iff_staysIn climbingServer climbingRequest () () climbingBatch
    ⟨"1", { climbingRequest with filename := "../c/mmproj.gguf" }, "/m/c/mmproj.gguf"⟩ (by decide)).1
    startWithCompanions_climbing).2

theorem companion_leaves_directory : ¬ ∀ (World : Type) (env : Environment World) (request : Request) (w w' : World)
    (result : BatchResult), startWithCompanions env request w = (.ok result, w') → ∀ job ∈ result.jobs, ∃ base,
      absPath env.getwd (trimSpace request.modelDirectory) = .ok base ∧
        InsideDirectory base job.request.localDirectory job.destination := by
  intro hclaim
  obtain ⟨base, hbase, hinside⟩ := hclaim Unit climbingServer climbingRequest () () climbingBatch startWithCompanions_climbing
    ⟨"1", { climbingRequest with filename := "../c/mmproj.gguf" }, "/m/c/mmproj.gguf"⟩ (by decide)
  have hmodel : absPath climbingServer.getwd (trimSpace climbingRequest.modelDirectory) = .ok "/m" := by decide +kernel
  obtain rfl := Except.ok.inj (hmodel.symm.trans hbase)
  revert hinside
  decide +kernel

end Tanpopo.Download
