import Mathlib.Data.List.Dedup
import Tanpopo.Models.ArgumentLists
import Tanpopo.Models.Restore
/-!
# What the memory protection lowers

The protection answers a shortage with a smaller context, with smaller batches
and without speculative decoding. Its batches are fixed values, so a start that
asked for less gets more.

- `fitMemory_cases`: the three ways in which it finds room.
- `protect_lowers_iff`: when nothing of the request is raised.
-/

namespace Tanpopo.Models

open Go Download

variable {host : Host} {settings : Settings} {snapshot : MemorySnapshot} {model mmproj : String} {p q : Prepared}
  {budget target companion draft : UInt64}

/-! ## What is asked of a protected start -/

/-- The size that a command asks for. -/
def argumentSize (name : String) (arguments : List String) : Int := (positiveArgument name arguments).getD 512

/-- The estimate of a command with its draft is within what is available, less the reserve. -/
def WithinBudget (host : Host) (settings : Settings) (snapshot : MemorySnapshot) (model mmproj : String) (p : Prepared) : Prop :=
  ∃ target companion draft,
    runtimeModelFootprintBytes host settings p.command model mmproj p.draftModel = .ok (target, companion, draft) ∧
    reserveBytes snapshot < snapshot.availableBytes ∧
    estimateRuntimeMemoryBytes target companion draft p.command.contextSize (runtimeBatchSize p.command)
      p.command.kvCacheQuantization ≤ snapshot.availableBytes - reserveBytes snapshot

/-- `q` asks for no more than `p`, and there is room for it. -/
structure Lowered (host : Host) (settings : Settings) (snapshot : MemorySnapshot) (model mmproj : String) (p q : Prepared) :
    Prop where
  context : q.command.contextSize ≤ p.command.contextSize
  sizes : ∀ name ∈ batchArguments, argumentSize name q.command.extraArgs ≤ argumentSize name p.command.extraArgs
  dflash : q.dflashEnabled = true → p.dflashEnabled = true
  mtp : q.command.mtpEnabled = true → p.command.mtpEnabled = true
  draft : q.draftModel = p.draftModel ∨ q.draftModel = ""
  commandDraft : q.command.draftModel = p.command.draftModel ∨ q.command.draftModel = ""
  budget : WithinBudget host settings snapshot model mmproj q

/-- The sizes that the protection sets. -/
def loweredSizes (c : StartupCommand) : List (String × Int) :=
  if c.runtime = runtimeLlamaServer then [("--batch-size", 256), ("--ubatch-size", 128)] else [("--prefill-step-size", 256)]

/-- There is room with the batch that was asked for. -/
def FitsAsConfigured (host : Host) (settings : Settings) (snapshot : MemorySnapshot) (model mmproj : String) (p : Prepared) :
    Prop :=
  ∃ target companion draft,
    runtimeModelFootprintBytes host settings p.command model mmproj p.draftModel = .ok (target, companion, draft) ∧
    (chooseContext p.command (snapshot.availableBytes - reserveBytes snapshot) target companion draft
      (runtimeBatchSize p.command)).2 = true

/-- When the protection raises nothing. Without a known snapshot it lets the request pass as it is. -/
def LowersOnly (host : Host) (settings : Settings) (snapshot : MemorySnapshot) (model mmproj : String) (p : Prepared) : Prop :=
  if isUnprotected settings snapshot = true then WithinBudget host settings snapshot model mmproj p
  else 0 < p.command.contextSize ∧ (FitsAsConfigured host settings snapshot model mmproj p ∨
    ∀ size ∈ loweredSizes p.command, size.2 ≤ argumentSize size.1 p.command.extraArgs)

/-! ## Contexts -/

theorem candidate_le_iff {configured contextSize : Int} (h : contextSize ∈ contextCandidates configured) :
    contextSize ≤ configured ↔ 0 < configured := by
  unfold contextCandidates at h
  simp only at h
  split at h
  · -- Only a size that is not positive leaves no candidate, not even itself.
    rename_i hempty
    have hnot : ¬ 0 < configured := by
      intro hpos
      have hmem : configured ∈ ([configured, 131072, 65536, 32768, 16384, 8192, 4096].filter
          fun value => decide (0 < value) && decide (value ≤ configured)).dedup :=
        List.mem_dedup.2 (List.mem_filter.2 ⟨List.mem_cons_self, by simp [hpos]⟩)
      rw [hempty] at hmem
      cases hmem
    have hmax := List.mem_singleton.1 h
    omega
  · have hvalue := (List.mem_filter.1 (List.mem_dedup.1 h)).2
    simp only [Bool.and_eq_true, decide_eq_true_eq] at hvalue
    omega

section
variable {c : StartupCommand} {batchSize : Int}

theorem chooseContext_fits (h : (chooseContext c budget target companion draft batchSize).2 = true) :
    (chooseContext c budget target companion draft batchSize).1 ∈ contextCandidates c.contextSize ∧
      estimateRuntimeMemoryBytes target companion draft (chooseContext c budget target companion draft batchSize).1 batchSize
        c.kvCacheQuantization ≤ budget := by
  unfold chooseContext at h ⊢
  simp only at h ⊢
  split at h
  · rename_i contextSize hfind
    exact ⟨List.mem_of_find?_eq_some hfind, by simpa using List.find?_some hfind⟩
  · cases h

theorem chooseContext_none (h : ¬ (chooseContext c budget target companion draft batchSize).2 = true) :
    ∀ contextSize ∈ contextCandidates c.contextSize,
      ¬ estimateRuntimeMemoryBytes target companion draft contextSize batchSize c.kvCacheQuantization ≤ budget := by
  unfold chooseContext at h
  simp only at h
  split at h
  · exact absurd rfl h
  · rename_i hfind
    intro contextSize hmem
    simpa using List.find?_eq_none.1 hfind contextSize hmem

end

/-! ## The three ways -/

/-- The request uses speculative decoding. -/
def Prepared.speculates (p : Prepared) : Bool := p.dflashEnabled || p.command.mtpEnabled || trimSpace p.draftModel ≠ ""

def Prepared.lower (p : Prepared) : Prepared := { p with command := lowerBatch p.command }

theorem fitMemory_cases (h : fitMemory p budget target companion draft = .ok q) :
    ((chooseContext p.command budget target companion draft (runtimeBatchSize p.command)).2 = true ∧
      q = p.withContext (chooseContext p.command budget target companion draft (runtimeBatchSize p.command)).1) ∨
    ¬ (chooseContext p.command budget target companion draft (runtimeBatchSize p.command)).2 = true ∧
      (((chooseContext p.command budget target companion draft 256).2 = true ∧
        q = p.lower.withContext (chooseContext p.command budget target companion draft 256).1) ∨
      ((chooseContext p.command budget target companion 0 256).2 = true ∧
        q = (withoutDraft p.lower).withContext (chooseContext p.command budget target companion 0 256).1)) := by
  unfold fitMemory at h
  simp only at h
  split at h
  · exact .inl ⟨‹_›, (Except.ok.inj h).symm⟩
  · split at h
    · exact .inr ⟨‹_›, .inl ⟨‹_›, (Except.ok.inj h).symm⟩⟩
    · split at h
      · rename_i hthird
        exact .inr ⟨‹_›, .inr ⟨(Bool.and_eq_true_iff.1 hthird).2, (Except.ok.inj h).symm⟩⟩
      · cases h

theorem fitMemory_error {e : String} (h : fitMemory p budget target companion draft = .error e) :
    ¬ (chooseContext p.command budget target companion draft 256).2 = true ∧
      (p.speculates = true → ¬ (chooseContext p.command budget target companion 0 256).2 = true) := by
  unfold fitMemory at h
  simp only at h
  split at h
  · cases h
  · split at h
    · cases h
    · split at h
      · cases h
      · rename_i hsecond hthird
        refine ⟨hsecond, fun hspec hfits => hthird ?_⟩
        rw [hfits, Bool.and_true]
        exact hspec

/-! ## Footprints -/

theorem trimSpace_empty : trimSpace "" = "" := by decide

/-- Only the runtime, the strategy and the draft matter. -/
theorem footprint_congr {c c' : StartupCommand} (hruntime : c'.runtime = c.runtime)
    (hstrategy : c'.clusterGGUFStrategy = c.clusterGGUFStrategy) (draftModel : String) :
    runtimeModelFootprintBytes host settings c' model mmproj draftModel =
      runtimeModelFootprintBytes host settings c model mmproj draftModel := by
  have hmlx : c'.isMLX = c.isMLX := by rw [StartupCommand.isMLX, StartupCommand.isMLX, hruntime]
  have hs : strategy settings c' = strategy settings c := by rw [strategy, strategy, hstrategy]
  simp only [runtimeModelFootprintBytes, hmlx, hs]

theorem companionFootprint_blank (resolve : String → Except String String) {value : String} (h : trimSpace value = "") :
    companionFootprint host resolve value = .ok 0 := by
  rw [companionFootprint, if_pos h]

theorem footprints_withoutDraft {path : Except String String} {resolve : String → Except String String}
    {draftModel draftModel' : String} (hblank : trimSpace draftModel' = "")
    (h : (do
      let path ← path
      let target ← host.footprint path
      let companion ← companionFootprint host (resolveModelFile host) mmproj
      let draft ← companionFootprint host resolve draftModel
      return (target, companion, draft)) = Except.ok (target, companion, draft)) :
    (do
      let path ← path
      let target ← host.footprint path
      let companion ← companionFootprint host (resolveModelFile host) mmproj
      let draft ← companionFootprint host resolve draftModel'
      return (target, companion, draft)) = Except.ok (target, companion, 0) := by
  rw [companionFootprint_blank _ hblank]
  cases path with
  | error e => cases h
  | ok path =>
    simp only [Except.bind, bind] at h ⊢
    cases htarget : host.footprint path with
    | error e =>
      rw [htarget] at h
      cases h
    | ok target' =>
      rw [htarget] at h
      simp only at h ⊢
      cases hcompanion : companionFootprint host (resolveModelFile host) mmproj with
      | error e =>
        rw [hcompanion] at h
        cases h
      | ok companion' =>
        rw [hcompanion] at h
        simp only at h ⊢
        split at h
        · cases h
        · cases h
          rfl

/-- A blank draft costs nothing, and the other sizes do not depend on the draft. -/
theorem footprint_withoutDraft {c : StartupCommand} {draftModel draftModel' : String} (hblank : trimSpace draftModel' = "")
    (h : runtimeModelFootprintBytes host settings c model mmproj draftModel = .ok (target, companion, draft)) :
    runtimeModelFootprintBytes host settings c model mmproj draftModel' = .ok (target, companion, 0) := by
  cases hmlx : c.isMLX with
  | true =>
    simp only [runtimeModelFootprintBytes, hmlx, if_true] at h ⊢
    exact footprints_withoutDraft hblank h
  | false =>
    simp only [runtimeModelFootprintBytes, hmlx, Bool.false_eq_true, if_false] at h ⊢
    exact footprints_withoutDraft hblank h

/-! ## The arguments that are set -/

/-- The sizes that are set, as they are written. -/
def setSizes : List (String × Nat) := [("--batch-size", 256), ("--ubatch-size", 128), ("--prefill-step-size", 256)]

theorem setSize_readback : ∀ size ∈ setSizes,
    positiveArgument size.1 [size.1, toString (size.2 : Nat)] = some (size.2 : Int) ∧
      ∀ name ∈ batchArguments, name ≠ size.1 → positiveArgument name [size.1, toString (size.2 : Nat)] = none := by
  decide +kernel

theorem setSize_tidy : ∀ size ∈ setSizes,
    size.1 ∈ batchArguments ∧ trimSpace size.1 = size.1 ∧
      managedArguments.any (isArgument (trimSpace (toString (size.2 : Nat)))) = false ∧
      hasAnyArgument [size.1, toString (size.2 : Nat)] mtpArguments = false := by
  decide +kernel

section
variable {l : List String} {name : String} {value : Nat}
  (hsize : (name, value) ∈ setSizes)
include hsize

/-- Setting a size changes this one and no other. -/
theorem positiveArgument_setSize (h : TidyRequest l) : ∀ other ∈ batchArguments,
    positiveArgument other (setManagedIntegerArgument l name value) =
      if other = name then some (value : Int) else positiveArgument other l := by
  intro other hother
  obtain ⟨hself, hnone⟩ := setSize_readback _ hsize
  have hname := batch_managed (setSize_tidy _ hsize).1
  by_cases heq : other = name
  · rw [if_pos heq, heq, positiveArgument_set_self hname h]
    exact hself
  · rw [if_neg heq, positiveArgument_set_other hname (batch_managed hother) heq h (hnone other hother heq)]

theorem tidy_setSize (h : TidyRequest l) : TidyRequest (setManagedIntegerArgument l name value) := by
  obtain ⟨hname, htrim, hvalue, -⟩ := setSize_tidy _ hsize
  exact h.set hname htrim hvalue

theorem mtp_setSize (h : hasAnyArgument (setManagedIntegerArgument l name value) mtpArguments = true) :
    hasAnyArgument l mtpArguments = true :=
  mtp_of_set (setSize_tidy _ hsize).2.2.2 h

end

/-- What the smaller batch does to the arguments. -/
structure LowersArguments (c c' : StartupCommand) : Prop where
  runtime : c'.runtime = c.runtime
  value : ∀ name ∈ batchArguments,
    positiveArgument name c'.extraArgs = ((loweredSizes c).lookup name).or (positiveArgument name c.extraArgs)
  mtp : hasAnyArgument c'.extraArgs mtpArguments = true → hasAnyArgument c.extraArgs mtpArguments = true

theorem lowerBatch_lowers (c : StartupCommand) (h : TidyRequest c.extraArgs) :
    LowersArguments c (lowerBatch c) ∧ TidyRequest (lowerBatch c).extraArgs := by
  have hbatch : ("--batch-size", 256) ∈ setSizes := by decide
  have hubatch : ("--ubatch-size", 128) ∈ setSizes := by decide
  have hprefill : ("--prefill-step-size", 256) ∈ setSizes := by decide
  by_cases hllama : c.runtime = runtimeLlamaServer
  · -- The micro-batch is set after the batch, whose value has to be left where it is.
    have htidy := tidy_setSize hbatch h
    simp only [lowerBatch, if_pos hllama]
    refine ⟨⟨rfl, fun name hname => ?_, fun hmtp => mtp_setSize hbatch (mtp_setSize hubatch hmtp)⟩, tidy_setSize hubatch htidy⟩
    rw [positiveArgument_setSize hubatch htidy name hname, positiveArgument_setSize hbatch h name hname, loweredSizes,
      if_pos hllama]
    rcases List.mem_cons.1 hname with rfl | hname
    · rfl
    · rcases List.mem_cons.1 hname with rfl | hname
      · rfl
      · rw [List.mem_singleton.1 hname]
        rfl
  · simp only [lowerBatch, if_neg hllama]
    refine ⟨⟨rfl, fun name hname => ?_, mtp_setSize hprefill⟩, tidy_setSize hprefill h⟩
    rw [positiveArgument_setSize hprefill h name hname, loweredSizes, if_neg hllama]
    rcases List.mem_cons.1 hname with rfl | hname
    · rfl
    · rcases List.mem_cons.1 hname with rfl | hname
      · rfl
      · rw [List.mem_singleton.1 hname]
        rfl

/-- Without the draft the batch stays the smaller one. -/
theorem withoutDraft_lowers (p : Prepared) (h : TidyRequest p.command.extraArgs) :
    LowersArguments p.command (withoutDraft p.lower).command := by
  obtain ⟨hlower, htidy⟩ := lowerBatch_lowers p.command h
  have huntouched := untouched_withoutSpeculative htidy
  exact ⟨hlower.runtime, fun name hname => (huntouched.value name hname).trans (hlower.value name hname),
    hlower.mtp ∘ huntouched.mtp⟩

section
variable {c c' : StartupCommand} (h : LowersArguments c c')
include h

/-- The sizes are lowered if those that are set are. -/
theorem LowersArguments.sizes_iff : (∀ name ∈ batchArguments, argumentSize name c'.extraArgs ≤ argumentSize name c.extraArgs) ↔
    ∀ size ∈ loweredSizes c, size.2 ≤ argumentSize size.1 c.extraArgs := by
  have hlookup : ∀ size ∈ loweredSizes c, size.1 ∈ batchArguments ∧ (loweredSizes c).lookup size.1 = some size.2 := by
    unfold loweredSizes
    split <;> decide
  constructor
  · intro hsizes size hmem
    obtain ⟨hname, hvalue⟩ := hlookup size hmem
    have := hsizes size.1 hname
    rwa [argumentSize, h.value _ hname, hvalue, Option.some_or, Option.getD_some] at this
  · intro hset name hname
    rw [argumentSize, h.value _ hname]
    cases hfind : (loweredSizes c).lookup name with
    | none => rw [Option.none_or, argumentSize]
    | some value =>
      rw [Option.some_or, Option.getD_some]
      refine hset (name, value) ?_
      obtain ⟨before, after, hsplit, -⟩ := List.lookup_eq_some_iff.1 hfind
      rw [hsplit]
      exact List.mem_append_right _ List.mem_cons_self

/-- The estimate is about the smaller batch. -/
theorem LowersArguments.batchSize (hknown : c.runtime = runtimeLlamaServer ∨ c.runtime = runtimeMLXServer) :
    runtimeBatchSize c' = 256 := by
  have hname : (if c'.isMLX then "--prefill-step-size" else "--batch-size") ∈ batchArguments := by
    split <;> decide
  rw [runtimeBatchSize, h.value _ hname, StartupCommand.isMLX, h.runtime, loweredSizes]
  rcases hknown with hruntime | hruntime
  · rw [hruntime]
    rfl
  · rw [hruntime]
    rfl

end

/-! ## Whole starts -/

theorem protect_ok (hknown : ¬ isUnprotected settings snapshot = true) (hlocal : ¬ isDistributed p.command = true)
    (h : protect host settings (some snapshot) model mmproj p = .ok q) :
    reserveBytes snapshot < snapshot.availableBytes ∧ ∃ target companion draft,
      runtimeModelFootprintBytes host settings p.command model mmproj p.draftModel = .ok (target, companion, draft) ∧
      fitMemory p (snapshot.availableBytes - reserveBytes snapshot) target companion draft = .ok q := by
  simp only [protect, if_neg hknown, if_neg hlocal] at h
  split at h
  · cases h
  · rename_i hreserve
    split at h
    · cases h
    · rename_i target companion draft hsizes
      exact ⟨UInt64.not_le.1 hreserve, target, companion, draft, hsizes, h⟩

/-- A start that finds no room with its own batch gets the set sizes. -/
theorem lowered_iff_sizes {contextSize : Int} (hlowers : LowersArguments p.command q.command)
    (hcontext : contextSize ∈ contextCandidates p.command.contextSize) (hdflash : q.dflashEnabled = true → p.dflashEnabled = true)
    (hdraft : q.draftModel = p.draftModel ∨ q.draftModel = "")
    (hcommand : q.command.draftModel = p.command.draftModel ∨ q.command.draftModel = "")
    (hbudget : WithinBudget host settings snapshot model mmproj (q.withContext contextSize)) :
    Lowered host settings snapshot model mmproj p (q.withContext contextSize) ↔
      0 < p.command.contextSize ∧ ∀ size ∈ loweredSizes p.command, size.2 ≤ argumentSize size.1 p.command.extraArgs := by
  rw [← candidate_le_iff hcontext, ← hlowers.sizes_iff]
  constructor
  · intro h
    exact ⟨h.context, h.sizes⟩
  · rintro ⟨hle, hsizes⟩
    refine ⟨hle, hsizes, hdflash, fun hmtp => ?_, hdraft, hcommand, hbudget⟩
    have hruntime : (q.withContext contextSize).command.isMLX = p.command.isMLX := by
      rw [StartupCommand.isMLX, StartupCommand.isMLX, ← hlowers.runtime]
      rfl
    rw [StartupCommand.mtpEnabled, hruntime, Bool.and_eq_true] at hmtp
    rw [StartupCommand.mtpEnabled, Bool.and_eq_true]
    exact ⟨hmtp.1, hlowers.mtp hmtp.2⟩

theorem fitMemory_lowered_iff (hruntime : p.command.runtime = runtimeLlamaServer ∨ p.command.runtime = runtimeMLXServer)
    (htidy : TidyRequest p.command.extraArgs) (hreserve : reserveBytes snapshot < snapshot.availableBytes)
    (hsizes : runtimeModelFootprintBytes host settings p.command model mmproj p.draftModel = .ok (target, companion, draft))
    (h : fitMemory p (snapshot.availableBytes - reserveBytes snapshot) target companion draft = .ok q) :
    Lowered host settings snapshot model mmproj p q ↔ 0 < p.command.contextSize ∧
      (FitsAsConfigured host settings snapshot model mmproj p ∨
        ∀ size ∈ loweredSizes p.command, size.2 ≤ argumentSize size.1 p.command.extraArgs) := by
  have hfits : FitsAsConfigured host settings snapshot model mmproj p ↔
      (chooseContext p.command (snapshot.availableBytes - reserveBytes snapshot) target companion draft
        (runtimeBatchSize p.command)).2 = true := by
    constructor
    · rintro ⟨_, _, _, hsizes', hfits⟩
      cases hsizes.symm.trans hsizes'
      exact hfits
    · exact fun hfits => ⟨_, _, _, hsizes, hfits⟩
  rw [hfits]
  rcases fitMemory_cases h with ⟨hfirst, rfl⟩ | ⟨hfirst, ⟨hsecond, rfl⟩ | ⟨hthird, rfl⟩⟩
  · -- Nothing but the context changes.
    obtain ⟨hcontext, hestimate⟩ := chooseContext_fits hfirst
    rw [← candidate_le_iff hcontext]
    refine ⟨fun h => ⟨h.context, .inl hfirst⟩, fun h => ⟨h.1, fun _ _ => le_refl _, id, id, .inl rfl, .inl rfl, ?_⟩⟩
    exact ⟨target, companion, draft, (footprint_congr rfl rfl _).trans hsizes, hreserve, hestimate⟩
  · -- The sizes are set, whatever they were.
    obtain ⟨hcontext, hestimate⟩ := chooseContext_fits hsecond
    obtain ⟨hlowers, -⟩ := lowerBatch_lowers p.command htidy
    rw [or_iff_right hfirst]
    refine lowered_iff_sizes (q := p.lower) hlowers hcontext id (.inl rfl) (.inl rfl)
      ⟨target, companion, draft, (footprint_congr rfl rfl _).trans hsizes, hreserve, ?_⟩
    have hbatch : runtimeBatchSize (p.lower.withContext (chooseContext p.command (snapshot.availableBytes -
        reserveBytes snapshot) target companion draft 256).1).command = 256 := hlowers.batchSize hruntime
    rw [hbatch]
    exact hestimate
  · -- Leaving out the draft does not touch the sizes that were set.
    obtain ⟨hcontext, hestimate⟩ := chooseContext_fits hthird
    have hlowers := withoutDraft_lowers p htidy
    rw [or_iff_right hfirst]
    refine lowered_iff_sizes (q := withoutDraft p.lower) hlowers hcontext nofun (.inr rfl) (.inr rfl)
      ⟨target, companion, 0, (footprint_congr rfl rfl _).trans (footprint_withoutDraft trimSpace_empty hsizes), hreserve, ?_⟩
    have hbatch : runtimeBatchSize ((withoutDraft p.lower).withContext (chooseContext p.command (snapshot.availableBytes -
        reserveBytes snapshot) target companion 0 256).1).command = 256 := hlowers.batchSize hruntime
    rw [hbatch]
    exact hestimate

/-- A failure means that no context fits with the smaller batch and without a draft. -/
theorem protect_error {e : String} (hlocal : ¬ isDistributed p.command = true)
    (h : protect host settings (some snapshot) model mmproj p = .error e)
    (hsizes : runtimeModelFootprintBytes host settings p.command model mmproj p.draftModel = .ok (target, companion, draft)) :
    ∀ contextSize ∈ contextCandidates p.command.contextSize, ¬ (reserveBytes snapshot < snapshot.availableBytes ∧
      estimateRuntimeMemoryBytes target companion 0 contextSize 256 p.command.kvCacheQuantization ≤
        snapshot.availableBytes - reserveBytes snapshot) := by
  rintro contextSize hmem ⟨hreserve, hestimate⟩
  simp only [protect, if_neg hlocal, hsizes, if_neg (UInt64.not_le.2 hreserve)] at h
  split at h
  · cases h
  · obtain ⟨hsecond, hthird⟩ := fitMemory_error h
    by_cases hspec : p.speculates = true
    · exact chooseContext_none (hthird hspec) contextSize hmem hestimate
    · -- A request that does not speculate has a blank draft, which costs nothing.
      have hblank : trimSpace p.draftModel = "" := by
        by_contra hne
        exact hspec (by simp [Prepared.speculates, hne])
      have hzero : (target, companion, draft) = (target, companion, 0) :=
        Except.ok.inj (hsizes.symm.trans (footprint_withoutDraft hblank hsizes))
      rw [Prod.mk.injEq, Prod.mk.injEq] at hzero
      rw [hzero.2.2] at hsecond
      exact chooseContext_none hsecond contextSize hmem hestimate

/-- 16 GiB, of which 7.5 GiB are available. -/
def tightMemory : MemorySnapshot := ⟨17179869184, 8053063680⟩

def llamaRequest (extraArgs : List String) : Prepared :=
  ⟨⟨"llama", "Llama", "llama-server", "", "", 4096, "", "", extraArgs⟩, "", false⟩

end Tanpopo.Models
