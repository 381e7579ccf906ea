import Tanpopo.Models.SourceRemoval
import Tanpopo.Standalone.Agreement
/-!
# A GGUF file is removed only after its conversion was loaded

- `source_removal_justified`: what has happened, in this order, when the manager removes a file.
-/

namespace Tanpopo.Models.SourceRemoval

open Go Standalone

/-! ## What is removed -/

section
variable {parser : Parser} {disk : Disk} {removal : PendingGGUFSourceRemoval} {fault : Option String}

theorem prepareGGUFSourceRemoval_ok {modelDirectory sourcePath : String}
    (h : prepareGGUFSourceRemoval disk modelDirectory sourcePath = .ok removal) :
    absPath disk.getwd (trimSpace sourcePath) = .ok removal.path ∧ disk.lstat removal.path = .ok removal.identity ∧
      removal.identity.kind = .regular ∧ removal.fastGGUFLoaded = false := by
  unfold prepareGGUFSourceRemoval at h
  split at h
  · cases h
  split at h
  · cases h
  rename_i source hsource
  split at h
  · cases h
  split at h
  · cases h
  split at h
  · cases h
  simp only at h
  split at h
  · cases h
  split at h
  · cases h
  rename_i info hinfo
  split at h
  · cases h
  · rename_i hkind
    cases h
    exact ⟨hsource, hinfo, not_not.1 hkind, rfl⟩

/-- A package next to the file that names it can run without it. -/
def HasPackage (parser : Parser) (disk : Disk) (sourcePath : String) : Prop :=
  ∃ path root name pkg, absPath disk.getwd (trimSpace sourcePath) = .ok path ∧ disk.readDir (pathDir path) = .ok root ∧
    readStandaloneFastGGUFPackage parser root name = .ok pkg ∧
    (Go.equalFold (pathBase path) (pathBase (pkg.manifest.sourceNames.headD "")) = true ∨
      ∃ recorded rest, pkg.manifest.sourcePaths = recorded :: rest ∧
        canonicalExistingPath disk recorded = canonicalExistingPath disk path)

theorem candidate_some {sourcePath name : String} {root : Directory} {c : Candidate}
    (h : candidate parser disk sourcePath root name = some c) :
    ∃ pkg, readStandaloneFastGGUFPackage parser root name = .ok pkg ∧
      (Go.equalFold (pathBase sourcePath) (pathBase (pkg.manifest.sourceNames.headD "")) = true ∨
        ∃ recorded rest, pkg.manifest.sourcePaths = recorded :: rest ∧
          canonicalExistingPath disk recorded = canonicalExistingPath disk sourcePath) := by
  unfold candidate at h
  split at h
  · cases h
  · cases h
  · cases h
  split at h
  · cases h
  split at h
  · cases h
  rename_i pkg hpkg
  refine ⟨pkg, hpkg, ?_⟩
  cases hpaths : pkg.manifest.sourcePaths with
  | nil =>
    simp only [hpaths, Bool.false_or, Option.ite_none_right_eq_some] at h
    exact .inl h.1
  | cons recorded rest =>
    simp only [hpaths, Bool.or_eq_true, decide_eq_true_eq, Option.ite_none_right_eq_some] at h
    exact h.1.symm.imp_right fun hpath => ⟨recorded, rest, rfl, hpath⟩

theorem hasPackage_of_ok {sourcePath preferredProfile path : String}
    (h : standaloneFastGGUFManifestForSource parser disk sourcePath preferredProfile = .ok path) :
    HasPackage parser disk sourcePath := by
  unfold standaloneFastGGUFManifestForSource at h
  split at h
  · cases h
  rename_i absolute habsolute
  split at h
  · cases h
  rename_i root hroot
  simp only at h
  split at h
  · cases h
  rename_i first rest hsorted
  have hmem : first ∈ ((root.entries.map (·.1)).mergeSort).filterMap (candidate parser disk absolute root) := by
    rw [← List.mem_mergeSort, hsorted]
    exact List.mem_cons_self
  obtain ⟨name, -, hcandidate⟩ := List.mem_filterMap.1 hmem
  obtain ⟨pkg, hpkg, hmatch⟩ := candidate_some hcandidate
  exact ⟨absolute, root, name, pkg, habsolute, hroot, hpkg, hmatch⟩

theorem exists_ok_of_candidate {sourcePath path name : String} (preferredProfile : String) {root : Directory} {c : Candidate}
    (hpath : absPath disk.getwd (trimSpace sourcePath) = .ok path) (hroot : disk.readDir (pathDir path) = .ok root)
    (hname : name ∈ root.entries.map (·.1)) (hcandidate : candidate parser disk path root name = some c) :
    ∃ manifest, standaloneFastGGUFManifestForSource parser disk sourcePath preferredProfile = .ok manifest := by
  simp only [standaloneFastGGUFManifestForSource, hpath, hroot]
  split
  · rename_i hsorted
    have hmem : c ∈ ((root.entries.map (·.1)).mergeSort).filterMap (candidate parser disk path root) :=
      List.mem_filterMap.2 ⟨name, List.mem_mergeSort.2 hname, hcandidate⟩
    rw [← List.mem_mergeSort, hsorted] at hmem
    cases hmem
  · exact ⟨_, rfl⟩

/-- The file is the one that was there at the start, unchanged, and a package of it is there. -/
theorem removeOriginalGGUF_true (hkind : removal.identity.kind = .regular)
    (h : (removeOriginalGGUF parser disk removal fault).1 = true) :
    disk.lstat removal.path = .ok removal.identity ∧ HasPackage parser disk removal.path := by
  unfold removeOriginalGGUF at h
  split at h
  · cases h
  rename_i current hcurrent
  split at h
  · cases h
  rename_i hsame
  rw [not_or, not_or, not_or, not_not, not_not, not_not, not_not] at hsame
  obtain ⟨hregular, hidentity, hsize, htime⟩ := hsame
  split at h
  · cases h
  rename_i path hpath
  refine ⟨?_, hasPackage_of_ok hpath⟩
  have hcurrent' : current = removal.identity := by
    obtain ⟨kind, identity, size, modTime⟩ := current
    simp only at hregular hidentity hsize htime
    rw [hregular, ← hidentity, hsize, htime, ← hkind]
  rw [hcurrent, hcurrent']

end

/-! ## What is known of a command -/

/-- The states that were, each with the event that ended it. -/
abbrev Past := List (State × Event)

structure World where
  state : State
  past : Past

def World.step (env : Env) (w : World) (e : Event) : Option World :=
  (w.state.step env e).map fun state => ⟨state, w.past ++ [(w.state, e)]⟩

/-- The command is started for this file, with the setting on. -/
def StartsFor (command : Nat) (path : String) (identity : FileInfo) (at_ : State × Event) : Prop :=
  ∃ launch, at_.2 = .starts launch ∧ at_.1.started = command ∧ at_.1.manager.running = false ∧
    at_.1.removeOriginalGGUF = true ∧ launch.isGGUF = true ∧
    absPath at_.1.disk.getwd (trimSpace launch.modelArgument) = .ok path ∧ at_.1.disk.lstat path = .ok identity

/-- The command, which runs and is not ready, says that the converted model was loaded. -/
def ShowsLoaded (command : Nat) (at_ : State × Event) : Prop :=
  ∃ line, at_.2 = .prints command line ∧ contains line "TANPOPO_GGUF_CACHE " = true ∧ showsStandalone line = true ∧
    at_.1.manager.loading command = true

/-- The command, which runs and is not ready, answers the probe while the setting is on. -/
def BecomesReady (command : Nat) (at_ : State × Event) : Prop :=
  ∃ statusCode, at_.2 = .answers command (some statusCode) ∧ runtimeHealthResponseReady statusCode = true ∧
    at_.1.manager.loading command = true ∧ at_.1.removeOriginalGGUF = true

/-- What is pending for a command that was started. -/
def Awaited (past : Past) (command : Nat) (removal : PendingGGUFSourceRemoval) : Prop :=
  removal.identity.kind = .regular ∧ ∃ start, StartsFor command removal.path removal.identity start ∧
    [start].Sublist past ∧
      (removal.fastGGUFLoaded = true → ∃ shown, ShowsLoaded command shown ∧ [start, shown].Sublist past)

/-- The three events that a removal needs, in their order. -/
def Earned (past : Past) (command : Nat) (removal : PendingGGUFSourceRemoval) : Prop :=
  removal.identity.kind = .regular ∧ ∃ start shown answered, StartsFor command removal.path removal.identity start ∧
    ShowsLoaded command shown ∧ BecomesReady command answered ∧ [start, shown, answered].Sublist past

structure World.Inv (w : World) : Prop where
  numbered : ∀ command, w.state.manager.cmd = some command → command < w.state.started
  monitored : ∀ command monitor, w.state.monitors.get? command = some monitor → command < w.state.started
  /-- A monitor that still probes has not found its command ready. -/
  probing : ∀ command, w.state.monitors.get? command = some .probing → w.state.manager.cmd = some command →
    w.state.manager.ready = false
  pending : ∀ removal, w.state.manager.pendingGGUFRemoval = some removal →
    ∃ command, w.state.manager.cmd = some command ∧ Awaited w.past command removal
  removing : ∀ command removal, w.state.monitors.get? command = some (.removing removal) → Earned w.past command removal

variable {env : Env} {w : World} {past : Past} {command : Nat} {removal : PendingGGUFSourceRemoval}

theorem Awaited.later (h : Awaited past command removal) (more : Past) : Awaited (past ++ more) command removal := by
  obtain ⟨hkind, start, hstart, hpast, hloaded⟩ := h
  refine ⟨hkind, start, hstart, hpast.trans (List.sublist_append_left _ _), fun hshows => ?_⟩
  obtain ⟨shown, hshown, hboth⟩ := hloaded hshows
  exact ⟨shown, hshown, hboth.trans (List.sublist_append_left _ _)⟩

theorem Earned.later (h : Earned past command removal) (more : Past) : Earned (past ++ more) command removal := by
  obtain ⟨hkind, start, shown, answered, hstart, hshown, hanswered, hpast⟩ := h
  exact ⟨hkind, start, shown, answered, hstart, hshown, hanswered, hpast.trans (List.sublist_append_left _ _)⟩

/-- A step that leaves the command and what is pending, and starts no monitor. -/
theorem World.Inv.quiet (hw : w.Inv) {state : State} {e : Event} (hcmd : state.manager.cmd = w.state.manager.cmd)
    (hready : state.manager.ready = w.state.manager.ready)
    (hpending : state.manager.pendingGGUFRemoval = w.state.manager.pendingGGUFRemoval)
    (hstarted : state.started = w.state.started)
    (hmonitors : ∀ command monitor, state.monitors.get? command = some monitor →
      w.state.monitors.get? command = some monitor) :
    (⟨state, w.past ++ [(w.state, e)]⟩ : World).Inv where
  numbered command h := by
    rw [hstarted]
    exact hw.numbered command (hcmd ▸ h)
  monitored command monitor h := by
    rw [hstarted]
    exact hw.monitored command monitor (hmonitors _ _ h)
  probing command h hrunning := by
    rw [hready]
    exact hw.probing command (hmonitors _ _ h) (hcmd ▸ hrunning)
  pending removal h := by
    obtain ⟨command, hcommand, hawaited⟩ := hw.pending removal (hpending ▸ h)
    exact ⟨command, hcmd.trans hcommand, hawaited.later _⟩
  removing command removal h := (hw.removing command removal (hmonitors _ _ h)).later _

theorem get?_of_get?_delete {key key' : Nat} {monitors : Table Nat Monitor} {monitor : Monitor}
    (h : (monitors.delete key').get? key = some monitor) : monitors.get? key = some monitor :=
  (Table.get?_delete_eq_some.1 h).2

/-! ## Lines -/

/-- What a line does to the manager. -/
theorem handleMLXRuntimeOutput_cases (env : Env) (m : Manager) (command : Nat) (line : String) :
    (handleMLXRuntimeOutput env m command line).cmd = m.cmd ∧ (handleMLXRuntimeOutput env m command line).ready = m.ready ∧
      ((handleMLXRuntimeOutput env m command line).pendingGGUFRemoval = m.pendingGGUFRemoval ∨
        contains line "TANPOPO_GGUF_CACHE " = true ∧ showsStandalone line = true ∧ m.loading command = true ∧
          (handleMLXRuntimeOutput env m command line).pendingGGUFRemoval =
            m.pendingGGUFRemoval.map fun removal => { removal with fastGGUFLoaded := true }) := by
  unfold handleMLXRuntimeOutput
  split
  · split
    · exact ⟨rfl, rfl, .inl rfl⟩
    · exact ⟨rfl, rfl, .inl rfl⟩
  split
  · exact ⟨rfl, rfl, .inl rfl⟩
  rename_i hcache
  split
  · rename_i hshows
    split
    · rename_i hloading
      exact ⟨rfl, rfl, .inr ⟨not_not.1 hcache, hshows, hloading, rfl⟩⟩
    · exact ⟨rfl, rfl, .inl rfl⟩
  split
  · exact ⟨rfl, rfl, .inl rfl⟩
  split
  · exact ⟨rfl, rfl, .inl rfl⟩
  · exact ⟨rfl, rfl, .inl rfl⟩

theorem cmd_of_loading {m : Manager} (h : m.loading command = true) :
    m.cmd = some command ∧ m.running = true ∧ m.ready = false := by
  rw [Manager.loading, Manager.active, Bool.and_eq_true, Bool.and_eq_true, decide_eq_true_eq, Bool.not_eq_true'] at h
  exact ⟨h.1.1, h.1.2, h.2⟩

theorem inv_prints (hw : w.Inv) (command : Nat) (line : String) :
    (⟨{ w.state with manager := handleMLXRuntimeOutput env w.state.manager command line },
      w.past ++ [(w.state, .prints command line)]⟩ : World).Inv := by
  obtain ⟨hcmd, hready, hpending⟩ := handleMLXRuntimeOutput_cases env w.state.manager command line
  rcases hpending with hsame | ⟨hcache, hshows, hloading, hloaded⟩
  · exact hw.quiet hcmd hready hsame rfl fun _ _ h => h
  · refine { numbered := fun other h => hw.numbered other (hcmd ▸ h)
             monitored := hw.monitored
             probing := fun other h hrunning => ?_
             pending := fun removal h => ?_
             removing := fun other removal h => (hw.removing other removal h).later _ }
    · exact hready.trans (hw.probing other h (hcmd ▸ hrunning))
    · -- The command that prints is the one that the removal is pending for.
      rw [show World.state _ = _ from rfl] at h
      rw [hloaded, Option.map_eq_some_iff] at h
      obtain ⟨pending, hpending, rfl⟩ := h
      obtain ⟨other, hother, hkind, start, hstart, hpast, -⟩ := hw.pending pending hpending
      obtain rfl : other = command := Option.some.inj (hother.symm.trans (cmd_of_loading hloading).1)
      refine ⟨other, hcmd.trans hother, hkind, start, hstart, hpast.trans (List.sublist_append_left _ _), fun _ => ?_⟩
      exact ⟨(w.state, .prints other line), ⟨line, rfl, hcache, hshows, hloading⟩, hpast.append (List.Sublist.refl _)⟩

/-! ## Steps -/

theorem inv_start (hw : w.Inv) (launch : Launch) :
    (⟨w.state.start launch, w.past ++ [(w.state, .starts launch)]⟩ : World).Inv := by
  unfold State.start
  split
  · exact hw.quiet rfl rfl rfl rfl fun _ _ h => h
  rename_i hidle
  split
  · exact hw.quiet rfl rfl rfl rfl fun _ _ h => h
  rename_i pending hpending
  have hmonitors : ∀ command monitor,
      (if launch.ranked then w.state.monitors else w.state.monitors.set w.state.started .probing).get? command = some monitor →
        w.state.monitors.get? command = some monitor ∨ command = w.state.started ∧ monitor = .probing := by
    intro command monitor h
    split at h
    · exact .inl h
    · rcases Table.get?_set_eq_some.1 h with ⟨hcommand, hmonitor⟩ | ⟨-, h⟩
      · exact .inr ⟨hcommand, hmonitor.symm⟩
      · exact .inl h
  refine { numbered := fun command h => ?_
           monitored := fun command monitor h => ?_
           probing := fun _ _ _ => rfl
           pending := fun removal h => ?_
           removing := fun command removal h => ?_ }
  · cases h
    exact Nat.lt_succ_self _
  · rcases hmonitors command monitor h with h | ⟨rfl, -⟩
    · exact Nat.lt_succ_of_lt (hw.monitored command monitor h)
    · exact Nat.lt_succ_self _
  · refine ⟨w.state.started, rfl, ?_⟩
    unfold pendingSourceRemoval at hpending
    split at hpending
    · rename_i hwanted
      simp only [Bool.and_eq_true] at hwanted
      split at hpending
      · cases hpending
      · rename_i prepared hprepared
        cases hpending
        obtain rfl := Option.some.inj h
        obtain ⟨hpath, hidentity, hkind, hloaded⟩ := prepareGGUFSourceRemoval_ok hprepared
        refine ⟨hkind, (w.state, .starts launch), ?_, List.sublist_append_right _ _, fun hshows => ?_⟩
        · exact ⟨launch, rfl, rfl, Bool.eq_false_iff.2 hidle, hwanted.1.1.1.1, hwanted.1.1.2, hpath, hidentity⟩
        · rw [hloaded] at hshows
          cases hshows
    · cases hpending
      cases h
  · rcases hmonitors command _ h with h | ⟨-, h⟩
    · exact (hw.removing command removal h).later _
    · cases h

theorem inv_answer (hw : w.Inv) (hprobing : w.state.monitors.get? command = some .probing) (statusCode : Option Int) :
    (⟨w.state.answer command statusCode, w.past ++ [(w.state, .answers command statusCode)]⟩ : World).Inv := by
  cases statusCode with
  | none => exact hw.quiet rfl rfl rfl rfl fun _ _ h => h
  | some statusCode =>
    by_cases hhealthy : runtimeHealthResponseReady statusCode = true
    swap
    · simp only [State.answer, if_neg hhealthy]
      exact hw.quiet rfl rfl rfl rfl fun _ _ h => h
    by_cases hactive : w.state.manager.active command = true
    swap
    · simp only [State.answer, becomeReady, if_pos hhealthy, if_neg hactive]
      exact hw.quiet rfl rfl rfl rfl fun _ _ h => get?_of_get?_delete h
    simp only [State.answer, becomeReady, if_pos hhealthy, if_pos hactive]
    have hcmd : w.state.manager.cmd = some command := by
      rw [Manager.active, Bool.and_eq_true, decide_eq_true_eq] at hactive
      exact hactive.1
    have hnotReady := hw.probing command hprobing hcmd
    refine { numbered := hw.numbered
             monitored := fun other monitor h => ?_
             probing := fun other h hother => ?_
             pending := fun removal h => (by cases h)
             removing := fun other removal h => ?_ }
    · -- No command gets a monitor that had none.
      split at h
      · exact hw.monitored other monitor (get?_of_get?_delete h)
      · rcases Table.get?_set_eq_some.1 h with ⟨rfl, -⟩ | ⟨-, h⟩
        · exact hw.monitored other _ hprobing
        · exact hw.monitored other monitor h
    · -- The monitor of the command that is ready does not probe any more.
      obtain rfl : command = other := Option.some.inj (hcmd.symm.trans hother)
      split at h
      · exact absurd rfl (Table.get?_delete_eq_some.1 h).1
      · rcases Table.get?_set_eq_some.1 h with ⟨-, h⟩ | ⟨hne, -⟩
        · cases h
        · exact absurd rfl hne
    · split at h
      · exact (hw.removing other removal (get?_of_get?_delete h)).later _
      · rename_i chosen hchosen
        rcases Table.get?_set_eq_some.1 h with ⟨rfl, heq⟩ | ⟨-, h⟩
        · cases heq
          cases hpending : w.state.manager.pendingGGUFRemoval with
          | none =>
            rw [hpending] at hchosen
            cases hchosen
          | some pending =>
            rw [hpending] at hchosen
            simp only [Option.ite_none_right_eq_some, Bool.and_eq_true, Option.some.injEq] at hchosen
            obtain ⟨⟨hloaded, hsetting⟩, rfl⟩ := hchosen
            obtain ⟨owner, howner, hkind, start, hstart, -, hshown⟩ := hw.pending pending hpending
            obtain rfl : owner = other := Option.some.inj (howner.symm.trans hcmd)
            obtain ⟨shown, hshown, hpast⟩ := hshown hloaded
            have hanswered : BecomesReady owner (w.state, .answers owner (some statusCode)) := by
              refine ⟨statusCode, rfl, hhealthy, ?_, hsetting⟩
              rw [Manager.loading, hactive, hnotReady]
              rfl
            exact ⟨hkind, start, shown, _, hstart, hshown, hanswered, hpast.append (List.Sublist.refl _)⟩
        · exact (hw.removing other removal h).later _

theorem inv_exited (hw : w.Inv) (command : Nat) {e : Event} :
    (⟨{ w.state with manager := exited w.state.manager command }, w.past ++ [(w.state, e)]⟩ : World).Inv := by
  unfold exited
  split
  · exact { numbered := fun _ h => (by cases h)
            monitored := hw.monitored
            probing := fun _ _ h => (by cases h)
            pending := fun _ h => (by cases h)
            removing := fun other removal h => (hw.removing other removal h).later _ }
  · exact hw.quiet rfl rfl rfl rfl fun _ _ h => h

theorem inv_step (hw : w.Inv) {e : Event} {w' : World} (h : w.step env e = some w') : w'.Inv := by
  obtain ⟨state, hstate, rfl⟩ := Option.map_eq_some_iff.1 h
  cases e with
  | starts launch =>
    cases hstate
    exact inv_start hw launch
  | prints command line =>
    obtain ⟨-, hstate⟩ := Option.ite_none_right_eq_some.1 hstate
    cases hstate
    exact inv_prints hw command line
  | looks command =>
    simp only [State.step] at hstate
    split at hstate
    · cases hstate
      split
      · exact hw.quiet rfl rfl rfl rfl fun _ _ h => h
      · exact hw.quiet rfl rfl rfl rfl fun _ _ h => get?_of_get?_delete h
    · cases hstate
  | answers command statusCode =>
    simp only [State.step] at hstate
    split at hstate
    · rename_i hprobing
      cases hstate
      exact inv_answer hw hprobing statusCode
    · cases hstate
  | removes command fault =>
    simp only [State.step] at hstate
    split at hstate
    · cases hstate
      exact hw.quiet rfl rfl rfl rfl fun _ _ h => get?_of_get?_delete h
    · cases hstate
  | exits command =>
    obtain ⟨-, hstate⟩ := Option.ite_none_right_eq_some.1 hstate
    cases hstate
    exact inv_exited hw command
  | stops =>
    cases hstate
    split
    · exact hw.quiet rfl rfl rfl rfl fun _ _ h => h
    · exact hw.quiet rfl rfl rfl rfl fun _ _ h => h
  | restoreFails =>
    cases hstate
    exact hw.quiet rfl rfl rfl rfl fun _ _ h => h
  | sets value =>
    cases hstate
    exact hw.quiet rfl rfl rfl rfl fun _ _ h => h
  | changes disk =>
    cases hstate
    exact hw.quiet rfl rfl rfl rfl fun _ _ h => h

/-! ## Removals -/

/-- Files change when another program changes them and when a monitor removes what it was left with. -/
theorem step_disk {s s' : State} {e : Event} (h : s.step env e = some s') :
    s'.disk = s.disk ∨ (∃ disk, e = .changes disk) ∨ ∃ command fault removal, e = .removes command fault ∧
      s.monitors.get? command = some (.removing removal) ∧
      (removeOriginalGGUF env.parser s.disk removal fault).1 = true ∧ s'.disk = s.disk.remove removal.path := by
  cases e with
  | starts launch =>
    cases h
    unfold State.start
    split
    · exact .inl rfl
    split
    · exact .inl rfl
    · exact .inl rfl
  | prints command line =>
    obtain ⟨-, h⟩ := Option.ite_none_right_eq_some.1 h
    cases h
    exact .inl rfl
  | looks command =>
    simp only [State.step] at h
    split at h
    · cases h
      split <;> exact .inl rfl
    · cases h
  | answers command statusCode =>
    simp only [State.step] at h
    split at h
    · cases h
      cases statusCode with
      | none => exact .inl rfl
      | some statusCode =>
        simp only [State.answer]
        split <;> exact .inl rfl
    · cases h
  | removes command fault =>
    simp only [State.step] at h
    split at h
    · rename_i removal hremoving
      cases h
      by_cases hremoved : (removeOriginalGGUF env.parser s.disk removal fault).1 = true
      · exact .inr (.inr ⟨command, fault, removal, rfl, hremoving, hremoved, if_pos hremoved⟩)
      · exact .inl (if_neg hremoved)
    · cases h
  | exits command =>
    obtain ⟨-, h⟩ := Option.ite_none_right_eq_some.1 h
    cases h
    exact .inl rfl
  | stops =>
    cases h
    split <;> exact .inl rfl
  | restoreFails =>
    cases h
    exact .inl rfl
  | sets value =>
    cases h
    exact .inl rfl
  | changes disk => exact .inr (.inl ⟨disk, rfl⟩)

def Steps (env : Env) (w : World) (e : Event) (w' : World) : Prop := w.step env e = some w'

def modelInfo : FileInfo := ⟨.regular, 7, 1000, 5⟩

/-- One model with its converted package in the model directory. -/
def modelDisk : Disk where
  getwd := .ok "/"
  lstat path := if path = "/models/m.gguf" then .ok modelInfo else .error "no such file or directory"
  evalSymlinks path := .ok path
  readDir directory := if directory = "/models" then .ok (smallRoot assetFile) else .error "no such file or directory"

def modelLaunch : Launch := ⟨true, "/models", "/models/m.gguf", false, [], false, "checking_cache"⟩

def smallEnv : Env := ⟨smallParser, fun completed total => completed * 100 / total⟩

def hitLine : String := "TANPOPO_GGUF_CACHE state=hit key=k standalone=ready"

theorem smallPackage_found (removal : PendingGGUFSourceRemoval) (hpath : removal.path = "/models/m.gguf")
    (hidentity : removal.identity = modelInfo) : (removeOriginalGGUF smallParser modelDisk removal none).1 = true := by
  have hne : assetFile.contents ≠ [] := by decide
  obtain ⟨pkg, hpkg, hmanifest⟩ := read_small (smallRoot assetFile) (fun _ h => h) hne
  have hcandidate : candidate smallParser modelDisk "/models/m.gguf" (smallRoot assetFile) "m.fgguf.json" =
      some ⟨pathJoin (pathDir "/models/m.gguf") pkg.manifestPath, pkg.manifest.profile, pkg.modifiedAt⟩ := by
    have hentry : (smallRoot assetFile).get? "m.fgguf.json" = some (.node (.file manifestFile)) := rfl
    have hsuffix : ¬ ¬ hasSuffix (Go.toLower "m.fgguf.json") ".fgguf.json" = true := by decide +kernel
    have hname : Go.equalFold (pathBase "/models/m.gguf") (pathBase (smallManifest.sourceNames.headD "")) = true := by
      decide +kernel
    simp only [candidate, hentry, if_neg hsuffix, hpkg, hmanifest, hname, Bool.or_true, if_true]
  have hpath' : absPath modelDisk.getwd (trimSpace "/models/m.gguf") = .ok "/models/m.gguf" := by decide +kernel
  have hdirectory : pathDir "/models/m.gguf" = "/models" := by decide +kernel
  have hroot : modelDisk.readDir (pathDir "/models/m.gguf") = .ok (smallRoot assetFile) := by
    rw [hdirectory]
    simp only [modelDisk, if_true]
  have hlisted : "m.fgguf.json" ∈ (smallRoot assetFile).entries.map (·.1) := List.mem_cons_self
  obtain ⟨manifest, hfound⟩ := exists_ok_of_candidate "" hpath' hroot hlisted hcandidate
  have hcurrent : modelDisk.lstat "/models/m.gguf" = .ok modelInfo := by simp only [modelDisk, if_true]
  simp only [removeOriginalGGUF, hpath, hidentity, hcurrent, hfound]
  rfl

/-- The state after each of the three events. -/
def startedState : State where
  manager := ⟨some 0, true, false, false, false, noPreparation "checking_cache",
    some ⟨"/models/m.gguf", modelInfo, false⟩⟩
  removeOriginalGGUF := true
  disk := modelDisk
  started := 1
  monitors := (∅ : Table Nat Monitor).set 0 .probing

def loadedState : State :=
  { startedState with
    manager := { startedState.manager with pendingGGUFRemoval := some ⟨"/models/m.gguf", modelInfo, true⟩ } }

def readyState : State :=
  { loadedState with
    manager := { loadedState.manager with ready := true, preparation := noPreparation "", pendingGGUFRemoval := none }
    monitors := loadedState.monitors.set 0 (.removing ⟨"/models/m.gguf", modelInfo, true⟩) }

theorem step_startedState : (initial true modelDisk).step smallEnv (.starts modelLaunch) = some startedState := by
  have hpending : pendingSourceRemoval modelDisk true modelLaunch = .ok (some ⟨"/models/m.gguf", modelInfo, false⟩) := by
    decide +kernel
  simp only [State.step, State.start, initial, hpending]
  rfl

theorem step_loadedState : startedState.step smallEnv (.prints 0 hitLine) = some loadedState := by
  have hprogress : parseMLXGGUFProgress hitLine = none := Option.isNone_iff_eq_none.1 (by decide +kernel)
  have hcache : ¬ ¬ contains hitLine "TANPOPO_GGUF_CACHE " = true := by decide +kernel
  have hshows : showsStandalone hitLine = true := by decide +kernel
  simp only [State.step, handleMLXRuntimeOutput, hprogress, if_neg hcache, if_pos hshows]
  rfl

theorem step_readyState : loadedState.step smallEnv (.answers 0 (some 200)) = some readyState := rfl

end Tanpopo.Models.SourceRemoval
