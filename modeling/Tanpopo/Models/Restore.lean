import Tanpopo.Models.RuntimeState
/-!
# Restoring a model

A restarted service starts again what the last service had started. What was
saved is what the memory protection left of the request, normalized for its
runtime, so something of the request can be missing.

- `prepare_restored`: the request that is restored is prepared like the first one.
- `protect_keeps`: without pressure the protection keeps the draft.
- `launch_selection`: the runtime is started with the same selection.
- `restored_iff`: which requests come back as they were.
-/

namespace Tanpopo.Models

open Go Download

variable {host : Host} {settings : Settings} {args : StartArguments}

/-! ## Preparing -/

theorem resolveMLXTargetModel_trim (strategy value : String) :
    resolveMLXTargetModel host strategy (trimSpace value) = resolveMLXTargetModel host strategy value := by
  simp [resolveMLXTargetModel]

theorem resolveMLXTargetSelection_trim (strategy model mmproj : String) :
    resolveMLXTargetSelection host strategy (trimSpace model) mmproj = resolveMLXTargetSelection host strategy model mmproj := by
  simp only [resolveMLXTargetSelection, resolveMLXTargetModel_trim]

theorem resolveModelFile_trim (value : String) : resolveModelFile host (trimSpace value) = resolveModelFile host value := by
  simp [resolveModelFile]

/-- The checks a prepared request has passed. -/
structure Prepares (host : Host) (settings : Settings) (args : StartArguments) (embedded : Bool) : Prop where
  internal : (args.startupCommand.isMLX && hasAnyArgument args.startupCommand.extraArgs internalArguments) = false
  kv : (args.kvCacheQuantizationEnabled && args.startupCommand.kvCacheQuantization = "") = false
  target : embeddedMTPTarget host (strategy settings args.startupCommand) args = .ok embedded
  modes : (args.dflashEnabled && args.startupCommand.mtpEnabled) = false
  drafts : (args.drafts && args.kvCacheQuantizationEnabled) = false
  skip : (args.skipGGUFConversionCache && !args.startupCommand.isMLX) = false
  draft : (!embedded && args.drafts && chosenDraft args embedded = "") = false

theorem prepare_inv {p : Prepared} (h : prepare host settings args = .ok p) :
    ∃ embedded, Prepares host settings args embedded ∧ p = preparedWith args embedded := by
  unfold prepare at h
  simp only at h
  split at h
  · cases h
  · rename_i internal
    split at h
    · cases h
    · rename_i kv
      split at h
      · cases h
      · rename_i embedded target
        split at h
        · cases h
        · rename_i modes
          split at h
          · cases h
          · rename_i drafts
            split at h
            · cases h
            · rename_i skip
              split at h
              · cases h
              · rename_i draft
                refine ⟨embedded, ⟨?_, ?_, target, ?_, ?_, ?_, ?_⟩, (Except.ok.inj h).symm⟩ <;> simp_all

theorem Prepares.prepare {embedded : Bool} (h : Prepares host settings args embedded) :
    prepare host settings args = .ok (preparedWith args embedded) := by
  unfold Models.prepare
  simp only [h.internal, h.kv, h.target, h.modes, h.drafts, h.skip, h.draft]
  rfl

/-- Only a target of MTP has the prediction layers in it. -/
theorem Prepares.not_dflash {embedded : Bool} (h : Prepares host settings args embedded) (hd : chosenDraft args embedded = "") :
    args.dflashEnabled = false := by
  have target := h.target
  have draft := h.draft
  have modes := h.modes
  unfold embeddedMTPTarget at target
  cases hm : args.startupCommand.mtpEnabled <;> cases hf : args.dflashEnabled <;> simp_all [StartArguments.drafts]

/-! ## The memory -/

/-- What the protection can change of a request whose draft it keeps. -/
structure KeepsDraft (p q : Prepared) : Prop where
  command : ∃ contextSize extraArgs, q.command = { p.command with contextSize, extraArgs }
  draftModel : q.draftModel = p.draftModel
  dflashEnabled : q.dflashEnabled = p.dflashEnabled

/-- What is left of a request whose draft it gives up. -/
structure GivesUpDraft (p q : Prepared) : Prop where
  command : ∃ contextSize extraArgs, q.command = { p.command with contextSize, extraArgs, draftModel := "" }
  draftModel : q.draftModel = ""
  dflashEnabled : q.dflashEnabled = false

theorem KeepsDraft.refl (p : Prepared) : KeepsDraft p p := ⟨⟨_, _, rfl⟩, rfl, rfl⟩

theorem fitMemory_inv {p q : Prepared} {budget target companion draft : UInt64}
    (h : fitMemory p budget target companion draft = .ok q) :
    if draftFits p budget target companion draft then KeepsDraft p q else GivesUpDraft p q := by
  unfold fitMemory at h
  unfold draftFits
  simp only at h
  split at h
  · rename_i hfirst
    cases h
    rw [hfirst]
    exact ⟨⟨_, _, rfl⟩, rfl, rfl⟩
  · rename_i hfirst
    rw [Bool.eq_false_iff.2 hfirst]
    split at h
    · rename_i hsecond
      cases h
      rw [hsecond]
      exact ⟨⟨_, _, rfl⟩, rfl, rfl⟩
    · rename_i hsecond
      rw [Bool.eq_false_iff.2 hsecond]
      split at h
      · cases h
        exact ⟨⟨_, _, rfl⟩, rfl, rfl⟩
      · cases h

theorem protect_inv {memory : Option MemorySnapshot} {model mmproj : String} {p q : Prepared}
    (h : protect host settings memory model mmproj p = .ok q) :
    (underPressure host settings memory model mmproj p = true → GivesUpDraft p q) ∧
      (underPressure host settings memory model mmproj p = false → KeepsDraft p q) := by
  cases memory with
  | none =>
    cases h
    exact ⟨fun hp => (nomatch hp), fun _ => KeepsDraft.refl p⟩
  | some snapshot =>
    simp only [protect, underPressure] at h ⊢
    by_cases hu : isUnprotected settings snapshot = true
    · rw [if_pos hu] at h
      cases h
      simp [hu, KeepsDraft.refl]
    · rw [if_neg hu] at h
      split at h
      · cases h
      · by_cases hd : isDistributed p.command = true
        · rw [if_pos hd] at h
          cases h
          simp [hd, KeepsDraft.refl]
        · rw [if_neg hd] at h
          rw [if_neg (by simp [hu, hd])]
          revert h
          cases runtimeModelFootprintBytes host settings p.command model mmproj p.draftModel with
          | error e =>
            intro h
            cases h
          | ok sizes =>
            obtain ⟨target, companion, draft⟩ := sizes
            intro h
            have hfit := fitMemory_inv h
            constructor
            · intro hp
              rwa [if_neg (by simpa using hp)] at hfit
            · intro hp
              rwa [if_pos (by simpa using hp)] at hfit

/-! ## The runtime -/

theorem execute_inv {binary : String} {selection started : Selection} (h : execute host binary selection = .ok started) :
    started = selection := by
  unfold execute at h
  split at h
  · exact (Except.ok.inj h).symm
  · cases h

/-- The kind of a draft of the MLX runtime. -/
def draftDirectoryKind (host : Host) (draftModel : String) : String :=
  match resolveMLXModel host draftModel with
  | .ok draft => if host.isSupportedMLXMTPDraftDirectory draft then "mtp" else "dflash"
  | .error _ => ""

theorem draftDirectoryKind_cases (host : Host) (draftModel : String) : draftDirectoryKind host draftModel = "mtp" ∨
    draftDirectoryKind host draftModel = "dflash" ∨ draftDirectoryKind host draftModel = "" := by
  unfold draftDirectoryKind
  split
  · split
    · exact .inl rfl
    · exact .inr (.inl rfl)
  · exact .inr (.inr rfl)

theorem mlxDraftKind_inv {modelArgument draft kind : String} (h : mlxDraftKind host modelArgument draft = .ok kind) :
    kind = if host.isSupportedMLXMTPDraftDirectory draft then "mtp" else "dflash" := by
  unfold mlxDraftKind at h
  split at h
  · rename_i hm
    rw [if_pos hm]
    split at h
    · cases h
    · obtain ⟨_, -, rfl⟩ := map_ok_inv h
      rfl
  · rename_i hm
    rw [if_neg hm]
    split at h
    · split at h
      · cases h
      · exact (Except.ok.inj h).symm
    · cases h

theorem mlxDraft_kind {target : TargetSelection} {c : StartupCommand} {draft kind : String}
    (h : mlxDraft host target c = .ok (draft, kind)) (hd : trimSpace c.draftModel ≠ "") :
    kind = draftDirectoryKind host c.draftModel := by
  unfold mlxDraft at h
  unfold draftDirectoryKind
  split at h
  · cases h
  · split at h
    · cases h
    · split at h
      · cases h
      · split at h
        · cases h
        · rename_i directory hr
          rw [hr]
          split at h
          · cases h
          · rename_i kind' hk
            split at h
            · cases h
            · obtain ⟨-, rfl⟩ := Prod.mk.inj (Except.ok.inj h)
              exact mlxDraftKind_inv hk

theorem startTarget_inv {p : Prepared} {binary : String} {target : TargetSelection} {selection : Selection}
    (h : startTarget host settings args p binary target = .ok selection) :
    ∃ draft kind, mlxDraft host target p.command = .ok (draft, kind) ∧
      selection.mmprojArgument = target.mmprojArgument ∧ selection.modelArgument = target.modelArgument ∧
      selection.draftKind = kind ∧ selection.dflashEnabled = p.dflashEnabled := by
  unfold startTarget at h
  obtain ⟨_, -, h⟩ := bind_ok_inv h
  split at h
  · cases h
  · split at h
    · cases h
    · split at h
      · cases h
      · obtain ⟨⟨draft, kind⟩, hd, h⟩ := bind_ok_inv h
        obtain rfl := execute_inv h
        exact ⟨draft, kind, hd, rfl, rfl, rfl, rfl⟩

theorem startMLX_inv {p : Prepared} {started : Started} (h : startMLX host settings args p = .ok started) :
    ∃ binary target, host.isAppleSilicon = true ∧ host.mlxServer = .ok binary ∧
      resolveMLXTargetSelection host (strategy settings p.command) args.model args.mmproj = .ok target ∧
      startTarget host settings args p binary target = .ok started.selection ∧
      started.statusMMProj = target.statusMMProj := by
  unfold startMLX at h
  split at h
  · cases h
  · rename_i ha
    obtain ⟨binary, hb, h⟩ := bind_ok_inv h
    obtain ⟨target, ht, h⟩ := bind_ok_inv h
    obtain ⟨selection, hs, h⟩ := bind_ok_inv h
    obtain rfl := Except.ok.inj h
    exact ⟨binary, target, by simpa using ha, hb, ht, hs, rfl⟩

theorem startLlama_inv {model mmproj : String} {p : Prepared} {started : Started}
    (h : startLlama host model mmproj p = .ok started) :
    started.statusMMProj = trimSpace mmproj ∧ started.selection.dflashEnabled = p.dflashEnabled ∧
      started.selection.draftKind = if trimSpace p.command.draftModel = "" then "" else "dflash" := by
  unfold startLlama at h
  obtain ⟨binary, -, h⟩ := bind_ok_inv h
  obtain ⟨modelPath, -, h⟩ := bind_ok_inv h
  split at h
  · cases h
  · obtain ⟨mmprojPath, -, h⟩ := bind_ok_inv h
    obtain ⟨draft, -, h⟩ := bind_ok_inv h
    obtain ⟨selection, hs, h⟩ := bind_ok_inv h
    obtain rfl := Except.ok.inj h
    rw [execute_inv hs]
    exact ⟨rfl, rfl, rfl⟩

/-- The switch of DFlash, and the kind of a draft, of a runtime that was started. -/
theorem launch_inv {p : Prepared} {started : Started} (h : launch host settings args p = .ok started) :
    started.selection.dflashEnabled = p.dflashEnabled ∧ (trimSpace p.command.draftModel ≠ "" →
      started.selection.draftKind = if p.command.isMLX then draftDirectoryKind host p.command.draftModel else "dflash") := by
  unfold launch at h
  split at h
  · rename_i hm
    obtain ⟨binary, target, -, -, -, h, -⟩ := startMLX_inv h
    obtain ⟨draft, kind, hd, -, -, hk, hf⟩ := startTarget_inv h
    refine ⟨hf, fun hne => ?_⟩
    rw [hk, if_pos hm]
    exact mlxDraft_kind hd hne
  · rename_i hm
    split at h
    · cases h
    · obtain ⟨-, hf, hk⟩ := startLlama_inv h
      refine ⟨hf, fun hne => ?_⟩
      rw [hk, if_neg hne, if_neg hm]

/-- What a runtime of a target is told about its files. -/
def TargetSelection.arguments (target : TargetSelection) : String × Bool × String :=
  (target.modelArgument, target.isGGUF, target.mmprojArgument)

theorem startTarget_congr (host : Host) (settings : Settings) {args' : StartArguments} (p : Prepared) (kv binary : String) {target target' : TargetSelection}
    (hskip : args'.skipGGUFConversionCache = args.skipGGUFConversionCache) (hfast : args'.fastGGUFEnabled = args.fastGGUFEnabled)
    (ht : target'.arguments = target.arguments) :
    startTarget host settings args' { p with command := { p.command with kvCacheQuantization := kv } } binary target' =
      startTarget host settings args p binary target := by
  obtain ⟨model, isGGUF, mmproj, status⟩ := target
  obtain ⟨model', isGGUF', mmproj', status'⟩ := target'
  obtain ⟨rfl, rfl, rfl⟩ : model' = model ∧ isGGUF' = isGGUF ∧ mmproj' = mmproj := by
    simpa [TargetSelection.arguments] using ht
  unfold startTarget
  rw [hskip, hfast]
  rfl

theorem startLlama_congr (model mmproj : String) (p : Prepared) (kv : String) :
    startLlama host (trimSpace model) (trimSpace mmproj) { p with command := { p.command with kvCacheQuantization := kv } } =
      startLlama host model mmproj p := by
  unfold startLlama llamaMMProj
  simp only [resolveModelFile_trim, trimSpace_trimSpace]
  rfl

theorem resolveMLXTargetSelection_inv {strategy model mmproj : String} {target : TargetSelection}
    (h : resolveMLXTargetSelection host strategy model mmproj = .ok target) :
    resolveMLXTargetModel host strategy model = .ok (target.modelArgument, target.isGGUF) := by
  unfold resolveMLXTargetSelection at h
  split at h
  · cases h
  · rename_i hm
    split at h
    · cases h
    · obtain rfl := Except.ok.inj h
      exact hm
  · rename_i hm
    split at h
    · split at h
      · cases h
      · obtain rfl := Except.ok.inj h
        exact hm
    · split at h
      · cases h
      · split at h
        · cases h
        · split at h
          · cases h
          · split at h
            · obtain ⟨_, -, rfl⟩ := map_ok_inv h
              exact hm
            · split at h
              · obtain ⟨_, -, rfl⟩ := map_ok_inv h
                exact hm
              · obtain rfl := Except.ok.inj h
                exact hm

/-! ## The saved state -/

@[simp] theorem normalDraftKind_dflash (kind : String) : normalDraftKind true kind = "dflash" := by simp [normalDraftKind]

theorem normalDraftKind_false (kind : String) :
    normalDraftKind false kind = if toLower (trimSpace kind) = "mtp" then "mtp" else "" := by
  simp only [normalDraftKind, Bool.false_eq_true, if_false, and_false, false_or]
  split
  · assumption
  · rfl

theorem normalDraftKind_normalDraftKind (enabled : Bool) (kind : String) :
    normalDraftKind enabled (normalDraftKind enabled kind) = normalDraftKind enabled kind := by
  cases enabled with
  | true => simp
  | false =>
    simp only [normalDraftKind_false]
    split
    · exact if_pos (by decide)
    · exact if_neg (by decide)

theorem normalRuntime_normalRuntime (runtime : String) : normalRuntime (normalRuntime runtime) = normalRuntime runtime := by
  have hllama : normalRuntime runtimeLlamaServer = runtimeLlamaServer := by decide
  by_cases h : trimSpace runtime = ""
  · rw [show normalRuntime runtime = runtimeLlamaServer by rw [normalRuntime, if_pos h], hllama]
  · simp [normalRuntime, h]

theorem validate_kv {state : RuntimeState} (h : validateRuntimeState state = .ok ()) :
    state.kvCacheQuantization = "" ∨ state.kvCacheQuantization = "q8" ∨ state.kvCacheQuantization = "q4" := by
  unfold validateRuntimeState at h
  by_contra hkv
  rw [not_or, not_or] at hkv
  simp only [if_pos hkv] at h
  repeat (split at h; · cases h)
  cases h

/-- Normalizing such a state changes nothing. -/
structure RuntimeState.IsNormal (state : RuntimeState) : Prop where
  runtime : normalRuntime state.runtime = state.runtime
  model : trimSpace state.model = state.model
  mmproj : (if state.runtime = runtimeMLXServer then "" else trimSpace state.mmproj) = state.mmproj
  draftKind : normalDraftKind state.dflashEnabled state.draftKind = state.draftKind
  draftModel : (if state.draftKind = "" then "" else trimSpace state.draftModel) = state.draftModel
  fastGGUF : (decide (state.runtime = runtimeMLXServer) && state.fastGGUF) = state.fastGGUF
  skip : (decide (state.runtime = runtimeMLXServer) && state.skipGGUFConversionCache) = state.skipGGUFConversionCache
  kv : (if state.draftKind = "" then toLower (trimSpace state.kvCacheQuantization) else "") = state.kvCacheQuantization
  id : trimSpace state.startupCommandID = state.startupCommandID
  name : trimSpace state.startupCommandName = state.startupCommandName

theorem RuntimeState.IsNormal.normalize {state : RuntimeState} (h : state.IsNormal) : normalizeRuntimeState state = state := by
  have hr := h.runtime
  simp only [normalizeRuntimeState, hr, h.model, h.mmproj, h.draftKind, h.draftModel, h.fastGGUF, h.skip, h.kv, h.id, h.name]

theorem normalize_runtime (state : RuntimeState) : (normalizeRuntimeState state).runtime = normalRuntime state.runtime := by
  simp only [normalizeRuntimeState]

theorem normalize_draftKind (state : RuntimeState) :
    (normalizeRuntimeState state).draftKind = normalDraftKind state.dflashEnabled state.draftKind := by
  simp only [normalizeRuntimeState]

theorem normalize_mmproj (state : RuntimeState) : (normalizeRuntimeState state).mmproj =
    if (normalizeRuntimeState state).runtime = runtimeMLXServer then "" else trimSpace state.mmproj := by
  rw [normalize_runtime]
  simp only [normalizeRuntimeState]

theorem normalize_draftModel (state : RuntimeState) : (normalizeRuntimeState state).draftModel =
    if (normalizeRuntimeState state).draftKind = "" then "" else trimSpace state.draftModel := by
  rw [normalize_draftKind]
  simp only [normalizeRuntimeState]

theorem normalize_kv (state : RuntimeState) : (normalizeRuntimeState state).kvCacheQuantization =
    if (normalizeRuntimeState state).draftKind = "" then toLower (trimSpace state.kvCacheQuantization) else "" := by
  rw [normalize_draftKind]
  simp only [normalizeRuntimeState]

theorem normalize_fastGGUF (state : RuntimeState) : (normalizeRuntimeState state).fastGGUF =
    (decide ((normalizeRuntimeState state).runtime = runtimeMLXServer) && state.fastGGUF) := by
  rw [normalize_runtime]
  simp only [normalizeRuntimeState]

theorem normalize_skip (state : RuntimeState) : (normalizeRuntimeState state).skipGGUFConversionCache =
    (decide ((normalizeRuntimeState state).runtime = runtimeMLXServer) && state.skipGGUFConversionCache) := by
  rw [normalize_runtime]
  simp only [normalizeRuntimeState]

theorem normalize_isNormal {status : RuntimeState} (h : validateRuntimeState (normalizeRuntimeState status) = .ok ()) :
    (normalizeRuntimeState status).IsNormal where
  runtime := by
    rw [normalize_runtime]
    exact normalRuntime_normalRuntime status.runtime
  model := trimSpace_trimSpace status.model
  mmproj := by
    rw [normalize_mmproj]
    split <;> simp
  draftKind := by
    rw [normalize_draftKind]
    exact normalDraftKind_normalDraftKind status.dflashEnabled status.draftKind
  draftModel := by
    rw [normalize_draftModel]
    split <;> simp
  fastGGUF := by rw [normalize_fastGGUF, Bool.and_self_left]
  skip := by rw [normalize_skip, Bool.and_self_left]
  kv := by
    have hkv := validate_kv h
    split
    · obtain hk | hk | hk := hkv <;> rw [hk] <;> decide
    · rename_i hd
      rw [normalize_kv, if_neg hd]
  id := trimSpace_trimSpace status.startupCommandID
  name := trimSpace_trimSpace status.startupCommandName

/-- A state that was saved is read back as it is. -/
theorem load_normal {status : RuntimeState} (h : validateRuntimeState (normalizeRuntimeState status) = .ok ()) :
    load (normalizeRuntimeState status) = .ok (normalizeRuntimeState status) := by
  rw [load, (normalize_isNormal h).normalize, h]
  rfl

/-! ## A start -/

variable {moment moment' : Moment} {selection : Selection} {state : RuntimeState} {p q : Prepared} {started : Started}
  {embedded : Bool}

/-- The stages of a start, up to the state it saves. -/
structure Starts (host : Host) (settings : Settings) (moment : Moment) (args : StartArguments) (p q : Prepared)
    (started : Started) : Prop where
  prepared : prepare host settings args = .ok p
  protection : protect host settings moment.memory args.model args.mmproj p = .ok q
  conversion : preflight host moment.inspect settings args q.command = .ok ()
  launched : launch host settings args q = .ok started

/-- The state a start saves. -/
def stateOf (args : StartArguments) (q : Prepared) (started : Started) : RuntimeState :=
  normalizeRuntimeState (statusOf args q started)

theorem stateOf_model (args : StartArguments) (q : Prepared) (started : Started) :
    (stateOf args q started).model = trimSpace args.model := trimSpace_trimSpace args.model

theorem start_inv (h : start host settings moment args = .ok (selection, state)) :
    ∃ p q started, Starts host settings moment args p q started ∧ selection = started.selection ∧
      validateRuntimeState (stateOf args q started) = .ok () ∧ state = stateOf args q started := by
  unfold start at h
  obtain ⟨p, hp, h⟩ := bind_ok_inv h
  obtain ⟨q, hq, h⟩ := bind_ok_inv h
  obtain ⟨_, hc, h⟩ := bind_ok_inv h
  obtain ⟨started, hl, h⟩ := bind_ok_inv h
  obtain ⟨saved, hs, h⟩ := bind_ok_inv h
  obtain ⟨⟨⟩, hv, rfl⟩ := map_ok_inv hs
  obtain ⟨rfl, rfl⟩ := Prod.mk.inj (Except.ok.inj h)
  exact ⟨p, q, started, ⟨hp, hq, hc, hl⟩, rfl, hv, rfl⟩

theorem Starts.start (h : Starts host settings moment args p q started)
    (hv : validateRuntimeState (stateOf args q started) = .ok ()) :
    start host settings moment args = .ok (started.selection, stateOf args q started) := by
  have hs : save (statusOf args q started) = .ok (stateOf args q started) := by
    unfold save
    rw [show normalizeRuntimeState (statusOf args q started) = stateOf args q started from rfl, hv]
    rfl
  unfold Models.start
  rw [h.prepared]
  simp only [Bind.bind, Except.bind, h.protection, h.conversion, h.launched, hs]
  rfl

/-- What the preparation and the protection leave of the startup command. -/
theorem Starts.command (h : Starts host settings moment args p q started) :
    ∃ contextSize extraArgs draftModel, q.command = { args.startupCommand with
      contextSize
      extraArgs
      draftModel
      kvCacheQuantization := if args.kvCacheQuantizationEnabled then args.startupCommand.kvCacheQuantization else "" } := by
  obtain ⟨embedded, -, rfl⟩ := prepare_inv h.prepared
  obtain ⟨hgives, hkeeps⟩ := protect_inv h.protection
  cases hu : underPressure host settings moment.memory args.model args.mmproj (preparedWith args embedded) with
  | true =>
    obtain ⟨contextSize, extraArgs, hc⟩ := (hgives hu).command
    exact ⟨contextSize, extraArgs, "", hc⟩
  | false =>
    obtain ⟨contextSize, extraArgs, hc⟩ := (hkeeps hu).command
    exact ⟨contextSize, extraArgs, chosenDraft args embedded, hc⟩

theorem Starts.isMLX (h : Starts host settings moment args p q started) :
    q.command.isMLX = args.startupCommand.isMLX := by
  obtain ⟨_, _, _, hc⟩ := h.command
  rw [hc]
  rfl

theorem Starts.runtime (h : Starts host settings moment args p q started) :
    (stateOf args q started).runtime = if args.startupCommand.isMLX then runtimeMLXServer else runtimeLlamaServer := by
  have hmlx : normalRuntime runtimeMLXServer = runtimeMLXServer := by decide
  have hllama : normalRuntime runtimeLlamaServer = runtimeLlamaServer := by decide
  have hr : (statusOf args q started).runtime = if q.command.isMLX then runtimeMLXServer else runtimeLlamaServer := rfl
  rw [stateOf, normalize_runtime, hr, h.isMLX]
  split <;> assumption

theorem Starts.isMLX_iff (h : Starts host settings moment args p q started) :
    decide ((stateOf args q started).runtime = runtimeMLXServer) = args.startupCommand.isMLX := by
  rw [h.runtime]
  cases args.startupCommand.isMLX <;> decide

theorem Starts.variant (h : Starts host settings moment args p q started) :
    (stateOf args q started).runtimeVariant =
      if args.startupCommand.isMLX then "" else args.startupCommand.runtimeVariant := by
  have hv : (stateOf args q started).runtimeVariant = if q.command.isMLX then "" else q.command.runtimeVariant := rfl
  obtain ⟨_, _, _, hc⟩ := h.command
  rw [hv, h.isMLX, hc]

/-- Only a runtime that converts models has the switches for it. -/
theorem Starts.switches (h : Starts host settings moment args p q started) :
    (stateOf args q started).fastGGUF = args.fastGGUFEnabled ∧
      (stateOf args q started).skipGGUFConversionCache = args.skipGGUFConversionCache := by
  have hm := h.isMLX_iff
  unfold stateOf at hm ⊢
  rw [normalize_fastGGUF, normalize_skip, hm]
  cases hc : args.startupCommand.isMLX with
  | true => exact ⟨rfl, rfl⟩
  | false =>
    obtain ⟨embedded, hp, -⟩ := prepare_inv h.prepared
    have hl := h.launched
    rw [launch, h.isMLX, hc, if_neg Bool.false_ne_true] at hl
    split at hl
    · cases hl
    · rename_i hfast
      have hskip := hp.skip
      simp only [hc] at hskip
      exact ⟨by simpa [statusOf] using hfast, by simpa [statusOf] using hskip⟩

/-- The projection of the MLX runtime is not saved. -/
theorem Starts.mmproj (h : Starts host settings moment args p q started) :
    (stateOf args q started).mmproj = if args.startupCommand.isMLX then "" else trimSpace args.mmproj := by
  have hr := h.runtime
  unfold stateOf at hr ⊢
  rw [normalize_mmproj, hr]
  cases hc : args.startupCommand.isMLX with
  | true => rfl
  | false =>
    have hl := h.launched
    rw [launch, h.isMLX, hc, if_neg Bool.false_ne_true] at hl
    split at hl
    · cases hl
    · have hm := (startLlama_inv hl).1
      have hne : runtimeLlamaServer ≠ runtimeMLXServer := by decide
      simp [statusOf, hm, hne]

theorem Starts.kv (h : Starts host settings moment args p q started) :
    (stateOf args q started).kvCacheQuantization =
      if (stateOf args q started).draftKind = "" ∧ args.kvCacheQuantizationEnabled = true then
        toLower (trimSpace args.startupCommand.kvCacheQuantization) else "" := by
  have hq : (statusOf args q started).kvCacheQuantization =
      if args.kvCacheQuantizationEnabled then args.startupCommand.kvCacheQuantization else "" := by
    obtain ⟨_, _, _, hc⟩ := h.command
    simp [statusOf, hc]
  have hblank : toLower (trimSpace "") = "" := by decide
  unfold stateOf
  rw [normalize_kv, hq]
  by_cases hd : (normalizeRuntimeState (statusOf args q started)).draftKind = ""
  · cases hkv : args.kvCacheQuantizationEnabled <;> simp [hd, hblank]
  · simp [hd]

theorem trimSpace_chosenDraft (args : StartArguments) (embedded : Bool) :
    trimSpace (chosenDraft args embedded) = chosenDraft args embedded := by
  unfold chosenDraft
  split
  · decide
  · simp

/-- The kind of draft that is saved when the draft was not given up. -/
def savedKind (host : Host) (args : StartArguments) (embedded : Bool) : String :=
  if chosenDraft args embedded = "" then ""
  else if args.dflashEnabled then "dflash"
  else if draftDirectoryKind host (chosenDraft args embedded) = "mtp" then "mtp"
  else ""

theorem stateOf_draft (args : StartArguments) (q : Prepared) (started : Started) :
    (stateOf args q started).draftKind = normalDraftKind q.dflashEnabled (if trimSpace q.command.draftModel = "" then ""
        else if q.dflashEnabled then "dflash" else started.selection.draftKind) ∧
      (stateOf args q started).draftModel =
        if (stateOf args q started).draftKind = "" then "" else trimSpace q.command.draftModel := by
  refine ⟨rfl, ?_⟩
  have hd : (statusOf args q started).draftModel = trimSpace q.command.draftModel := rfl
  unfold stateOf
  rw [normalize_draftModel, hd, trimSpace_trimSpace]

/-- Under pressure nothing of a draft is saved. -/
theorem Starts.draft_of_pressure (h : Starts host settings moment args p q started)
    (hu : underPressure host settings moment.memory args.model args.mmproj p = true) :
    (stateOf args q started).dflashEnabled = false ∧ (stateOf args q started).draftModel = "" := by
  have hg := (protect_inv h.protection).1 hu
  obtain ⟨contextSize, extraArgs, hc⟩ := hg.command
  have hf : (stateOf args q started).dflashEnabled = q.dflashEnabled := rfl
  have ht : trimSpace q.command.draftModel = "" := by
    have hq : q.command.draftModel = "" := by rw [hc]
    rw [hq]
    decide
  refine ⟨hf.trans hg.dflashEnabled, ?_⟩
  rw [(stateOf_draft args q started).2, ht]
  exact ite_self _

/-- A draft that was kept is saved, unless it is there for MTP and its directory is of another kind. -/
theorem Starts.draft_of_keeps (h : Starts host settings moment args (preparedWith args embedded) q started)
    (hp : Prepares host settings args embedded) (hk : KeepsDraft (preparedWith args embedded) q) :
    (stateOf args q started).dflashEnabled = args.dflashEnabled ∧
      (stateOf args q started).draftKind = savedKind host args embedded ∧
      (stateOf args q started).draftModel = if savedKind host args embedded = "" then "" else chosenDraft args embedded := by
  obtain ⟨contextSize, extraArgs, hc⟩ := hk.command
  have hqf : q.dflashEnabled = args.dflashEnabled := hk.dflashEnabled
  have hqd : q.command.draftModel = chosenDraft args embedded := by
    rw [hc]
    rfl
  have hlaunch := (launch_inv h.launched).2
  have hkind : (stateOf args q started).draftKind = savedKind host args embedded := by
    have hnone : normalDraftKind false "" = "" := by decide
    rw [(stateOf_draft args q started).1, hqf, hqd, trimSpace_chosenDraft]
    rw [hqd, trimSpace_chosenDraft] at hlaunch
    unfold savedKind
    cases hdf : args.dflashEnabled with
    | true =>
      have hne : chosenDraft args embedded ≠ "" := by
        intro hne
        rw [hp.not_dflash hne] at hdf
        contradiction
      rw [normalDraftKind_dflash, if_neg hne, if_pos rfl]
    | false =>
      by_cases hne : chosenDraft args embedded = ""
      · rw [if_pos hne, if_pos hne, hnone]
      · have hm : args.startupCommand.isMLX = true := by
          by_contra hm
          apply hne
          simp [chosenDraft, StartArguments.drafts, StartupCommand.mtpEnabled, hdf, hm]
        have hkind := hlaunch hne
        rw [h.isMLX, hm, if_pos rfl] at hkind
        rw [if_neg hne, if_neg hne, if_neg Bool.false_ne_true, if_neg Bool.false_ne_true, hkind, normalDraftKind_false]
        have hmtp : toLower (trimSpace "mtp") = "mtp" := by decide
        have hdflash : toLower (trimSpace "dflash") ≠ "mtp" := by decide
        have hblank : toLower (trimSpace "") ≠ "mtp" := by decide
        obtain hv | hv | hv := draftDirectoryKind_cases host (chosenDraft args embedded) <;>
          simp [hv, hmtp, hdflash, hblank]
  refine ⟨hqf, hkind, ?_⟩
  rw [(stateOf_draft args q started).2, hkind, hqd, trimSpace_chosenDraft]

/-! ## The same request -/

variable {args' : StartArguments} {started' : Started}

/-- The request `Restore` makes, apart from its draft. -/
structure Repeats (args args' : StartArguments) : Prop where
  command : args'.startupCommand = args.startupCommand
  model : args'.model = trimSpace args.model
  mmproj : args'.mmproj = if args.startupCommand.isMLX then "" else trimSpace args.mmproj
  fastGGUF : args'.fastGGUFEnabled = args.fastGGUFEnabled
  skip : args'.skipGGUFConversionCache = args.skipGGUFConversionCache
  key : args'.conversionConfirmationKey = ""
  kv : args'.kvCacheQuantizationEnabled = true → args.kvCacheQuantizationEnabled = true

theorem Starts.repeats (h : Starts host settings moment args p q started) :
    Repeats args (restoreArguments (stateOf args q started) args.startupCommand) := by
  have hmodel := stateOf_model args q started
  have hmmproj := h.mmproj
  obtain ⟨hfast, hskip⟩ := h.switches
  have hkv : (stateOf args q started).kvCacheQuantization ≠ "" → args.kvCacheQuantizationEnabled = true := by
    rw [h.kv]
    split
    · rename_i hc
      exact fun _ => hc.2
    · exact fun hne => absurd rfl hne
  generalize stateOf args q started = state at *
  exact ⟨rfl, hmodel, hmmproj, hfast, hskip, rfl, fun h => hkv (of_decide_eq_true h)⟩

theorem Repeats.embeddedMTPTarget (hr : Repeats args args') (strategy : String) :
    embeddedMTPTarget host strategy args' = embeddedMTPTarget host strategy args := by
  unfold Models.embeddedMTPTarget
  rw [hr.command, hr.model, resolveMLXTargetModel_trim]

theorem Repeats.chosenDraft (hr : Repeats args args') (hf : args'.dflashEnabled = args.dflashEnabled)
    (hd : args'.draftModel = chosenDraft args embedded) : chosenDraft args' embedded = chosenDraft args embedded := by
  have hdrafts : args'.drafts = args.drafts := by rw [StartArguments.drafts, StartArguments.drafts, hf, hr.command]
  rw [Models.chosenDraft, hdrafts, hd, trimSpace_chosenDraft]
  split
  · rename_i hne
    rw [Models.chosenDraft, if_pos hne]
  · rfl

theorem Repeats.prepares (hr : Repeats args args') (hp : Prepares host settings args embedded)
    (hf : args'.dflashEnabled = args.dflashEnabled) (hd : args'.draftModel = Models.chosenDraft args embedded) :
    Prepares host settings args' embedded := by
  have hdrafts : args'.drafts = args.drafts := by rw [StartArguments.drafts, StartArguments.drafts, hf, hr.command]
  constructor
  · rw [hr.command]
    exact hp.internal
  · rw [hr.command]
    have := hp.kv
    cases hkv : args'.kvCacheQuantizationEnabled with
    | false => rfl
    | true => rwa [hr.kv hkv] at this
  · rw [hr.command, hr.embeddedMTPTarget]
    exact hp.target
  · rw [hr.command, hf]
    exact hp.modes
  · rw [hdrafts]
    have := hp.drafts
    cases hkv : args'.kvCacheQuantizationEnabled with
    | false => exact Bool.and_false _
    | true => rwa [hr.kv hkv] at this
  · rw [hr.command, hr.skip]
    exact hp.skip
  · rw [hdrafts, hr.chosenDraft hf hd]
    exact hp.draft

theorem Repeats.preparedWith (hr : Repeats args args') (hf : args'.dflashEnabled = args.dflashEnabled)
    (hd : args'.draftModel = Models.chosenDraft args embedded) :
    ∃ kv, preparedWith args' embedded =
      { preparedWith args embedded with command := { (preparedWith args embedded).command with kvCacheQuantization := kv } } := by
  have hdrafts : args'.drafts = args.drafts := by rw [StartArguments.drafts, StartArguments.drafts, hf, hr.command]
  refine ⟨if args'.kvCacheQuantizationEnabled then args.startupCommand.kvCacheQuantization else "", ?_⟩
  simp only [Models.preparedWith, preparedArgs, hr.chosenDraft hf hd, hr.command, hdrafts, hf]

/-- A request whose projection is left out and whose conversion nobody confirms. -/
def unconfirmed (args : StartArguments) : StartArguments := { args with mmproj := "", conversionConfirmationKey := "" }

theorem Repeats.preflight (hr : Repeats args args') (inspect : Inspect) :
    preflight host inspect settings args' (Models.preparedWith args' embedded).command =
      preflight host inspect settings (unconfirmed args) args.startupCommand := by
  have hm : (Models.preparedWith args' embedded).command.isMLX = args.startupCommand.isMLX := by
    rw [← hr.command]
    rfl
  have hs : strategy settings (Models.preparedWith args' embedded).command = strategy settings args.startupCommand := by
    rw [← hr.command]
    rfl
  have hmm := hr.mmproj
  unfold Models.preflight inspectConversion
  simp only [unconfirmed]
  rw [hm, hs, hr.skip, hr.model, hr.fastGGUF, hr.key, resolveMLXTargetSelection_trim]
  cases hc : args.startupCommand.isMLX with
  | false => simp only [Bool.not_false, Bool.true_or, if_true]
  | true =>
    rw [hc, if_pos rfl] at hmm
    rw [hmm]
    rfl

/-- The projection that is not named is the one that was asked for. -/
def sameProjection (host : Host) (settings : Settings) (args : StartArguments) : Prop :=
  (resolveMLXTargetSelection host (strategy settings args.startupCommand) args.model "").map TargetSelection.arguments =
    (resolveMLXTargetSelection host (strategy settings args.startupCommand) args.model args.mmproj).map
      TargetSelection.arguments

theorem Repeats.launch (hr : Repeats args args') (hf : args'.dflashEnabled = args.dflashEnabled)
    (hd : args'.draftModel = Models.chosenDraft args embedded)
    (hproj : args.startupCommand.isMLX = true → sameProjection host settings args)
    (h : launch host settings args (Models.preparedWith args embedded) = .ok started) :
    ∃ started', launch host settings args' (Models.preparedWith args' embedded) = .ok started' ∧
      started'.selection = started.selection := by
  obtain ⟨kv, hp⟩ := hr.preparedWith hf hd
  rw [hp]
  have hm : (Models.preparedWith args embedded).command.isMLX = args.startupCommand.isMLX := rfl
  have hm' : StartupCommand.isMLX { (Models.preparedWith args embedded).command with kvCacheQuantization := kv } =
    args.startupCommand.isMLX := rfl
  have hmm := hr.mmproj
  unfold Models.launch at h ⊢
  simp only [hm'] at ⊢
  rw [hm] at h
  cases hc : args.startupCommand.isMLX with
  | false =>
    simp only [hc, Bool.false_eq_true, if_false] at h hmm ⊢
    rw [hr.fastGGUF, hr.model, hmm, startLlama_congr]
    exact ⟨started, h, rfl⟩
  | true =>
    simp only [hc, if_true] at h hmm ⊢
    obtain ⟨binary, target, ha, hb, ht, hs, -⟩ := startMLX_inv h
    have hsame := hproj hc
    unfold sameProjection at hsame
    have ht' : resolveMLXTargetSelection host (strategy settings args.startupCommand) args.model args.mmproj = .ok target := ht
    rw [ht'] at hsame
    obtain ⟨target', htarget, hargs⟩ := map_ok_inv (hsame.trans rfl)
    have hstart := startTarget_congr host settings (Models.preparedWith args embedded) kv binary
      hr.skip hr.fastGGUF hargs.symm
    refine ⟨⟨started.selection, target'.statusMMProj⟩, ?_, rfl⟩
    unfold startMLX
    have hstrategy : strategy settings { (Models.preparedWith args embedded).command with kvCacheQuantization := kv } =
      strategy settings args.startupCommand := rfl
    simp only [hstrategy, ha, hb, hr.model, hmm, resolveMLXTargetSelection_trim, htarget, Bind.bind, Except.bind]
    rw [hstart, hs]
    rfl

/-! ## Coming back -/

variable {resolveCommand : String → Except String StartupCommand}

/-- What a start was asked for: the runtime as it starts when the memory is not looked at. -/
def asked (host : Host) (settings : Settings) (args : StartArguments) : Except String Started := do
  launch host settings args (← prepare host settings args)

/-- The request finds room as it is. -/
def EnoughMemory (host : Host) (settings : Settings) (moment : Moment) (args : StartArguments) : Prop :=
  ∀ p, prepare host settings args = .ok p → protect host settings moment.memory args.model args.mmproj p = .ok p

/-- The checks of `Validate` on the runtime of a startup command. -/
def validateRuntime (c : StartupCommand) : Except String Unit :=
  if c.runtime ≠ runtimeLlamaServer ∧ c.runtime ≠ runtimeMLXServer then .error "Runtime 僅支援 llama-server 或 mlx-server"
  else if c.runtimeVariant ≠ "" ∧ (c.runtime ≠ runtimeLlamaServer ∨ isAMDRuntimeVariant c.runtimeVariant = false) then
    .error "不支援的 Runtime 版本"
  else .ok ()

/-- After a restart the runtime runs with what the start was asked for. -/
def Restored (host : Host) (settings : Settings) (moment : Moment) (resolveCommand : String → Except String StartupCommand)
    (args : StartArguments) (saved : RuntimeState) : Prop :=
  ∃ started, asked host settings args = .ok started ∧
    restart host settings moment resolveCommand saved = .ok (args.startupCommand, started.selection)

/-- The requests that come back as they were: `p` is the request `startLocked` goes on with, `before` the time of
the start and `after` the time of the restart. -/
structure ComesBack (host : Host) (settings : Settings) (before after : Moment)
    (resolveCommand : String → Except String StartupCommand) (args : StartArguments) (p : Prepared) : Prop where
  /-- The start used the command as the store has it. -/
  command : resolveCommand (trimSpace args.startupCommand.id) = .ok args.startupCommand
  /-- With enough memory it starts. -/
  starts : ∃ started, launch host settings args p = .ok started
  /-- Its draft was not given up. -/
  room : p.draftModel ≠ "" → underPressure host settings before.memory args.model args.mmproj p = false
  /-- A draft for MTP is of that kind. -/
  kind : p.draftModel ≠ "" → args.dflashEnabled = false → draftDirectoryKind host p.draftModel = "mtp"
  /-- The projection is the one the runtime finds by itself. -/
  projection : args.startupCommand.isMLX = true → sameProjection host settings args
  /-- Nothing has to be converted any more. -/
  conversion : preflight host after.inspect settings (unconfirmed args) args.startupCommand = .ok ()

theorem validate_runtime {c : StartupCommand} (h : validateRuntime c = .ok ()) :
    (if c.isMLX then runtimeMLXServer else runtimeLlamaServer) = c.runtime ∧
      (if c.isMLX then "" else c.runtimeVariant) = c.runtimeVariant := by
  have hne : runtimeMLXServer ≠ runtimeLlamaServer := by decide
  unfold validateRuntime at h
  split at h
  · cases h
  · rename_i hr
    split at h
    · cases h
    · rename_i hv
      rw [not_and_or, not_not, not_not] at hr
      unfold StartupCommand.isMLX
      obtain hr | hr := hr
      · simp [hr, hne.symm]
      · rw [hr] at hv ⊢
        simp_all

theorem restart_inv {saved : RuntimeState} {c : StartupCommand}
    (h : restart host settings moment resolveCommand saved = .ok (c, selection)) :
    ∃ state state', load saved = .ok state ∧ resolveCommand state.startupCommandID = .ok c ∧
      start host settings moment (restoreArguments state c) = .ok (selection, state') := by
  unfold restart at h
  obtain ⟨state, hl, h⟩ := bind_ok_inv h
  refine ⟨state, ?_⟩
  unfold restore at h
  split at h
  · cases h
  · split at h
    · cases h
    · rename_i command hc
      split at h
      · cases h
      · split at h
        · cases h
        · obtain ⟨⟨selection', state'⟩, hs, heq⟩ := map_ok_inv h
          obtain ⟨rfl, rfl⟩ := Prod.mk.inj heq
          exact ⟨state', hl, hc, hs⟩

variable {before after : Moment}

theorem Starts.id (h : Starts host settings moment args p q started) :
    (stateOf args q started).startupCommandID = trimSpace args.startupCommand.id := by
  have hid : (stateOf args q started).startupCommandID = trimSpace q.command.id := rfl
  obtain ⟨_, _, _, hc⟩ := h.command
  rw [hid, hc]

/-- A speculative start cannot be repeated without its draft. -/
theorem draftModel_ne (hr : Repeats args args') (hf : args'.dflashEnabled = args.dflashEnabled)
    (hp : Prepares host settings args' embedded) (hne : chosenDraft args embedded ≠ "") : args'.draftModel ≠ "" := by
  intro hblank
  have hdrafts : args'.drafts = args.drafts := by rw [StartArguments.drafts, StartArguments.drafts, hf, hr.command]
  have hdraft := hp.draft
  have hblank' : trimSpace "" = "" := by decide
  unfold chosenDraft at hne hdraft
  rw [hdrafts, hblank, hblank'] at hdraft
  cases embedded <;> cases hd : args.drafts <;> simp_all

/-- Both runtimes of the same files found the same projection. -/
theorem sameProjection_of_launch (hr : Repeats args args') (hc : args.startupCommand.isMLX = true)
    (hl : launch host settings args (preparedWith args embedded) = .ok started)
    (hl' : launch host settings args' (preparedWith args' embedded) = .ok started')
    (hsel : started.selection = started'.selection) : sameProjection host settings args := by
  have hm : (preparedWith args embedded).command.isMLX = true := hc
  have hm' : (preparedWith args' embedded).command.isMLX = true := by
    rw [← hc, ← hr.command]
    rfl
  have hmm := hr.mmproj
  rw [hc, if_pos rfl] at hmm
  rw [launch, if_pos hm] at hl
  rw [launch, if_pos hm'] at hl'
  obtain ⟨_, target, -, -, ht, hs, -⟩ := startMLX_inv hl
  obtain ⟨_, target', -, -, ht', hs', -⟩ := startMLX_inv hl'
  have hstrategy : strategy settings (preparedWith args' embedded).command = strategy settings args.startupCommand := by
    rw [← hr.command]
    rfl
  rw [hstrategy, hr.model, hmm, resolveMLXTargetSelection_trim] at ht'
  obtain ⟨_, _, -, hproj, hmodel, -, -⟩ := startTarget_inv hs
  obtain ⟨_, _, -, hproj', hmodel', -, -⟩ := startTarget_inv hs'
  have hkind := (resolveMLXTargetSelection_inv ht').symm.trans (resolveMLXTargetSelection_inv ht)
  obtain ⟨-, hkind⟩ := Prod.mk.inj (Except.ok.inj hkind)
  have ht : resolveMLXTargetSelection host (strategy settings args.startupCommand) args.model args.mmproj = .ok target := ht
  rw [sameProjection, ht, ht']
  show Except.ok target'.arguments = Except.ok target.arguments
  rw [TargetSelection.arguments, TargetSelection.arguments, hkind, ← hmodel, ← hmodel', ← hproj, ← hproj', hsel]

/-- A request that is restored as it was meets every condition. -/
theorem comesBack_of_restored (hs : Starts host settings before args p q started)
    (hm : EnoughMemory host settings after (restoreArguments (stateOf args q started) args.startupCommand))
    (hv : validateRuntimeState (stateOf args q started) = .ok ())
    (h : Restored host settings after resolveCommand args (stateOf args q started)) :
    ComesBack host settings before after resolveCommand args p := by
  obtain ⟨wanted, hwanted, hrestart⟩ := h
  obtain ⟨p', hp', hwanted⟩ := bind_ok_inv hwanted
  obtain rfl := Except.ok.inj (hp'.symm.trans hs.prepared)
  obtain ⟨loaded, saved, hload, hresolve, hstart⟩ := restart_inv hrestart
  obtain rfl := Except.ok.inj (hload.symm.trans (load_normal hv))
  obtain ⟨p'', q', started', hs', hsel, -, -⟩ := start_inv hstart
  obtain rfl := Except.ok.inj (hs'.protection.symm.trans (hm _ hs'.prepared))
  have hr := hs.repeats
  have hid := hs.id
  have hpressure := hs.draft_of_pressure
  change Starts host settings after (restoreArguments (stateOf args q started) args.startupCommand) q' q' started' at hs'
  change resolveCommand (stateOf args q started).startupCommandID = _ at hresolve
  have hdflash : (restoreArguments (stateOf args q started) args.startupCommand).dflashEnabled =
    (stateOf args q started).dflashEnabled := rfl
  have hdraft : (restoreArguments (stateOf args q started) args.startupCommand).draftModel =
    (stateOf args q started).draftModel := rfl
  generalize restoreArguments (stateOf args q started) args.startupCommand = args' at *
  obtain ⟨embedded, hp, rfl⟩ := prepare_inv hs.prepared
  obtain ⟨embedded', hp'', rfl⟩ := prepare_inv hs'.prepared
  -- Both starts find the same MTP layers, since the target and the command are the same.
  obtain rfl : embedded' = embedded := by
    have ht := hp''.target
    rw [hr.embeddedMTPTarget, hr.command, hp.target] at ht
    exact (Except.ok.inj ht).symm
  have hf : args'.dflashEnabled = args.dflashEnabled := by
    have hwant := (launch_inv hwanted).1
    have hgot := (launch_inv hs'.launched).1
    rw [← hsel, hwant] at hgot
    exact hgot.symm
  -- A draft that the protection gave up would be missing after the restart.
  have hroom (hne : chosenDraft args embedded' ≠ "") :
      underPressure host settings before.memory args.model args.mmproj (preparedWith args embedded') = false := by
    by_contra hu
    apply draftModel_ne hr hf hp'' hne
    rw [hdraft, (hpressure (by simpa using hu)).2]
  refine ⟨hid ▸ hresolve, ⟨wanted, hwanted⟩, hroom, ?_, ?_, ?_⟩
  · intro hne hnot
    by_contra hkind
    apply draftModel_ne hr hf hp'' hne
    have hkept := (protect_inv hs.protection).2 (hroom hne)
    obtain ⟨-, -, hd⟩ := hs.draft_of_keeps hp hkept
    have hsaved : savedKind host args embedded' = "" := by
      have hne : chosenDraft args embedded' ≠ "" := hne
      have hkind : draftDirectoryKind host (chosenDraft args embedded') ≠ "mtp" := hkind
      rw [savedKind, hnot, if_neg hne, if_neg Bool.false_ne_true, if_neg hkind]
    rw [hdraft, hd, if_pos hsaved]
  · intro hc
    exact sameProjection_of_launch hr hc hwanted hs'.launched hsel
  · rw [← hr.preflight]
    exact hs'.conversion

/-- Without a draft there is nothing the protection could give up. -/
theorem GivesUpDraft.keeps {p q : Prepared} (h : GivesUpDraft p q) (hc : p.command.draftModel = "") (hd : p.draftModel = "")
    (hf : p.dflashEnabled = false) : KeepsDraft p q := by
  obtain ⟨⟨contextSize, extraArgs, hcommand⟩, hdraft, hflash⟩ := h
  refine ⟨⟨contextSize, extraArgs, ?_⟩, hdraft.trans hd.symm, hflash.trans hf.symm⟩
  rw [hcommand, ← hc]

/-- The state of the restored runtime is the one that was saved before. -/
theorem stateOf_repeats (hs : Starts host settings before args (preparedWith args embedded) q started)
    (hs' : Starts host settings after args' (preparedWith args' embedded) (preparedWith args' embedded) started')
    (hk : KeepsDraft (preparedWith args embedded) q) (hp : Prepares host settings args embedded)
    (hp' : Prepares host settings args' embedded) (hr : Repeats args args') (hf : args'.dflashEnabled = args.dflashEnabled)
    (hd : args'.draftModel = chosenDraft args embedded) (hmmap : args'.mmapEnabled = args.mmapEnabled)
    (hkv : args'.kvCacheQuantizationEnabled = decide ((stateOf args q started).kvCacheQuantization ≠ "")) :
    stateOf args' (preparedWith args' embedded) started' = stateOf args q started := by
  obtain ⟨hflash, hkind, hdraft⟩ := hs.draft_of_keeps hp hk
  obtain ⟨hflash', hkind', hdraft'⟩ := hs'.draft_of_keeps hp' (KeepsDraft.refl _)
  have hchosen := hr.chosenDraft hf hd
  have hsame : savedKind host args' embedded = savedKind host args embedded := by
    rw [savedKind, savedKind, hchosen, hf]
  have hname : (stateOf args q started).startupCommandName = trimSpace args.startupCommand.name := by
    have hname : (stateOf args q started).startupCommandName = trimSpace q.command.name := rfl
    obtain ⟨_, _, _, hc⟩ := hs.command
    rw [hname, hc]
  ext1
  · rfl
  · rw [hs'.runtime, hs.runtime, hr.command]
  · rw [hs'.variant, hs.variant, hr.command]
  · rw [stateOf_model, stateOf_model, hr.model, trimSpace_trimSpace]
  · rw [hs'.mmproj, hs.mmproj, hr.command, hr.mmproj]
    split <;> simp
  · rw [hdraft', hdraft, hsame, hchosen]
  · rw [hkind', hkind, hsame]
  · rw [hflash', hflash, hf]
  · exact hmmap
  · rw [hs'.switches.1, hs.switches.1, hr.fastGGUF]
  · rw [hs'.switches.2, hs.switches.2, hr.skip]
  · rw [hs'.kv, hkind', hsame, ← hkind, hkv, hr.command]
    -- The quantization is saved as whether there was one, and the kind of the draft decides the rest.
    by_cases hblank : (stateOf args q started).kvCacheQuantization = ""
    · simp [hblank]
    · have hq := hs.kv
      split at hq
      · rename_i hc
        rw [hq] at hblank ⊢
        simp [hblank, hc.1]
      · contradiction
  · rw [hs'.id, hs.id, hr.command]
  · rw [hname, ← hr.command]
    rfl

theorem stateOf_mmapEnabled (args : StartArguments) (q : Prepared) (started : Started) :
    (stateOf args q started).mmapEnabled = args.mmapEnabled := rfl

theorem restoreArguments_mmapEnabled (saved : RuntimeState) (c : StartupCommand) :
    (restoreArguments saved c).mmapEnabled = saved.mmapEnabled := rfl

theorem restoreArguments_kv (saved : RuntimeState) (c : StartupCommand) :
    (restoreArguments saved c).kvCacheQuantizationEnabled = decide (saved.kvCacheQuantization ≠ "") := rfl

theorem restart_of_start {saved state state' : RuntimeState} {c : StartupCommand} (hload : load saved = .ok state)
    (hrun : state.desiredRunning = true) (hresolve : resolveCommand state.startupCommandID = .ok c)
    (hruntime : c.runtime = state.runtime) (hvariant : c.runtimeVariant = state.runtimeVariant)
    (hstart : start host settings moment (restoreArguments state c) = .ok (selection, state')) :
    restart host settings moment resolveCommand saved = .ok (c, selection) := by
  have hrestore : restore host settings moment resolveCommand state = .ok (c, selection) := by
    unfold restore
    rw [hrun, hresolve]
    simp only [hstart, hruntime, hvariant]
    simp [Except.map]
  unfold restart
  rw [hload]
  exact hrestore

/-- A request that meets every condition is restored as it was. -/
theorem restored_of_comesBack (hc : validateRuntime args.startupCommand = .ok ())
    (hs : Starts host settings before args p q started) (hv : validateRuntimeState (stateOf args q started) = .ok ())
    (hm : EnoughMemory host settings after (restoreArguments (stateOf args q started) args.startupCommand))
    (h : ComesBack host settings before after resolveCommand args p) :
    Restored host settings after resolveCommand args (stateOf args q started) := by
  obtain ⟨embedded, hp, rfl⟩ := prepare_inv hs.prepared
  obtain ⟨wanted, hwanted⟩ := h.starts
  -- The protection gave no draft up, or there was none.
  have hk : KeepsDraft (preparedWith args embedded) q := by
    by_cases hne : chosenDraft args embedded = ""
    · cases hu : underPressure host settings before.memory args.model args.mmproj (preparedWith args embedded) with
      | true => exact ((protect_inv hs.protection).1 hu).keeps hne hne (hp.not_dflash hne)
      | false => exact (protect_inv hs.protection).2 hu
    · exact (protect_inv hs.protection).2 (h.room hne)
  have hr := hs.repeats
  obtain ⟨hflash, -, hdraft⟩ := hs.draft_of_keeps hp hk
  have hf : (restoreArguments (stateOf args q started) args.startupCommand).dflashEnabled = args.dflashEnabled := hflash
  have hd : (restoreArguments (stateOf args q started) args.startupCommand).draftModel = chosenDraft args embedded := by
    refine hdraft.trans ?_
    by_cases hne : chosenDraft args embedded = ""
    · rw [hne, ite_self]
    · rw [if_neg]
      unfold savedKind
      rw [if_neg hne]
      cases hdf : args.dflashEnabled with
      | true => simp
      | false => simp [show draftDirectoryKind host (chosenDraft args embedded) = "mtp" from h.kind hne hdf]
  have hp' := hr.prepares hp hf hd
  obtain ⟨started', hlaunched, hsel⟩ := hr.launch hf hd h.projection hwanted
  -- The second start goes as the first one did, with the saved arguments.
  have hs' : Starts host settings after (restoreArguments (stateOf args q started) args.startupCommand)
      (preparedWith (restoreArguments (stateOf args q started) args.startupCommand) embedded)
      (preparedWith (restoreArguments (stateOf args q started) args.startupCommand) embedded) started' := {
    prepared := hp'.prepare
    protection := hm _ hp'.prepare
    conversion := by
      rw [hr.preflight]
      exact h.conversion
    launched := hlaunched }
  have hstate := stateOf_repeats hs hs' hk hp hp' hr hf hd
    ((restoreArguments_mmapEnabled _ _).trans (stateOf_mmapEnabled args q started)) (restoreArguments_kv _ _)
  have hstart := hs'.start (by rw [hstate]; exact hv)
  refine ⟨wanted, ?_, ?_⟩
  · unfold asked
    rw [hs.prepared]
    exact hwanted
  · obtain ⟨hruntime, hvariant⟩ := validate_runtime hc
    rw [← hsel]
    apply restart_of_start (load_normal hv) rfl _ _ _ hstart
    · exact hs.id ▸ h.command
    · exact (hs.runtime.trans hruntime).symm
    · exact (hs.variant.trans hvariant).symm

/-- A successful start comes back as it was asked for exactly when the store has its command, its draft was kept and
is of the kind it is used for, the runtime finds the projection by itself and nothing is left to convert. -/
theorem restored_iff (hc : validateRuntime args.startupCommand = .ok ()) (hp : prepare host settings args = .ok p)
    (h : start host settings before args = .ok (selection, state))
    (hm : EnoughMemory host settings after (restoreArguments state args.startupCommand)) :
    Restored host settings after resolveCommand args state ↔ ComesBack host settings before after resolveCommand args p := by
  obtain ⟨p', q, started, hs, -, hv, rfl⟩ := start_inv h
  obtain rfl := Except.ok.inj (hp.symm.trans hs.prepared)
  constructor
  · intro hr
    exact comesBack_of_restored hs hm hv hr
  · intro hb
    exact restored_of_comesBack hc hs hv hm hb

/-! ## A projection that is lost -/

/-- A machine with GGUF models and no drafts. -/
def smallHost : Host where
  modelFile value := .ok ("/models/" ++ value)
  mlxModel _ := .error "MLX 模型不存在"
  standalonePackage _ := .error "Fast GGUF manifest 無效"
  fallbackManifest _ _ := .error "Fast GGUF manifest 無效"
  isEmbeddedMTPGGUF _ := false
  isGGUFDFlashDraft _ := false
  isSupportedGGUFDFlashTarget _ := false
  isMLXDraftDirectory _ := false
  isSupportedMLXMTPDraftDirectory _ := false
  isSupportedMLXMTPTargetDirectory _ := false
  validateMLXMTPPair _ _ := .ok ()
  isSupportedMLXDFlashDraftDirectory _ := false
  isSupportedMLXDFlashTargetDirectory _ := false
  architecture _ := .ok "gemma3"
  isQwen35 _ := false
  companionMMProj _ := .ok ("", "")
  footprint _ := .ok 4000000000
  serverBinary := .ok "llama-server"
  mlxServer := .ok "mlx-server"
  amdBinary _ := .error "沒有 AMD 裝置"
  isAppleSilicon := true
  prepareGGUFSourceRemoval _ := .ok ()
  executes _ := true

def smallSettings : Settings := ⟨true, false, "compact"⟩

/-- A time at which nothing is known about the memory and every model is converted. -/
def calm : Moment := ⟨none, fun _ _ _ _ => .ok ⟨false, "key"⟩⟩

def mlxCommand : StartupCommand := ⟨"mlx", "MLX", "mlx-server", "", "", 4096, "q4", "", []⟩

/-- A GGUF model of the MLX runtime with a projection. -/
def visionArguments : StartArguments :=
  ⟨"gguf:gemma.gguf", "gguf:mmproj.gguf", "", false, false, false, false, true, "", mlxCommand⟩

def visionSelection : Selection := ⟨"/models/gemma.gguf", "/models/mmproj.gguf", "", "", false, false⟩

def visionState : RuntimeState :=
  ⟨true, "mlx-server", "", "gguf:gemma.gguf", "", "", "", false, false, false, true, "", "mlx", "MLX"⟩

/-- The vision model is started again without its projection. -/
theorem projection_not_restored :
    start smallHost smallSettings calm visionArguments = .ok (visionSelection, visionState) ∧
      EnoughMemory smallHost smallSettings calm (restoreArguments visionState mlxCommand) ∧
      ¬Restored smallHost smallSettings calm (fun _ => .ok mlxCommand) visionArguments visionState := by
  refine ⟨by decide +kernel, fun _ _ => rfl, ?_⟩
  rintro ⟨started, hasked, hrestart⟩
  have hwanted : asked smallHost smallSettings visionArguments = .ok ⟨visionSelection, "gguf:mmproj.gguf"⟩ := by
    decide +kernel
  have hgot : restart smallHost smallSettings calm (fun _ => .ok mlxCommand) visionState =
      .ok (mlxCommand, { visionSelection with mmprojArgument := "" }) := by
    decide +kernel
  obtain rfl := Except.ok.inj (hasked.symm.trans hwanted)
  exact absurd (hrestart.symm.trans hgot) (by decide)

def textArguments : StartArguments := { visionArguments with mmproj := "" }

theorem text_restored_iff :
    Restored smallHost smallSettings calm (fun _ => .ok mlxCommand) textArguments visionState ↔
      ComesBack smallHost smallSettings calm calm (fun _ => .ok mlxCommand) textArguments (preparedWith textArguments false) := by
  have hstart : start smallHost smallSettings calm textArguments =
      .ok ({ visionSelection with mmprojArgument := "" }, visionState) := by
    decide +kernel
  exact restored_iff (by decide) (by decide +kernel) hstart fun _ _ => rfl

end Tanpopo.Models
