import Tanpopo.AppUpdate.Automatic
/-!
# The programs do not overlap

- `Ordered`: every action of a log was allowed by the actions before it.
- `Consistent`: what `prepare` and the helper know of each other at each call.
- `handOff_safe`: what holds in every run, whatever fails and whoever is faster.
-/

namespace Tanpopo.AppUpdate

open Go

/-- What has to be done before an action. -/
def Allowed (lib : Library) (earlier : List Action) : Action → Prop
  | .shutdown => .shutdown ∉ earlier ∧ ∃ pid plan content, .startedHelper pid plan ∈ earlier ∧
      .readHandoff content ∈ earlier ∧ handsOff lib content ⟨pid, plan.token⟩ = true
  | .returned (some _) => (∃ pid plan, .startedHelper pid plan ∈ earlier) →
      .sawHelperEnd ∈ earlier ∧ ∃ failed, .removedWorkspace failed ∈ earlier
  | .install => ∃ pid plan release, .startedHelper pid plan ∈ earlier ∧ .fetched plan.tag release ∈ earlier ∧
      selectReleaseAsset release plan.platform = .ok plan.asset ∧ .verified plan.asset ∈ earlier ∧
      .wroteHandoff ⟨pid, plan.token⟩ ∈ earlier ∧ .sawParentEnd ∈ earlier
  | _ => True

def Ordered (lib : Library) : List Action → Prop
  | [] => True
  | action :: earlier => Allowed lib earlier action ∧ Ordered lib earlier

/-- The order of the calls. -/
def HelperCall.rank : HelperCall → Nat
  | .readPlan => 0 | .checkPlan => 1 | .acquireLock => 2 | .setVerifying => 3 | .fetchRelease => 4 | .selectAsset => 5
  | .validateURL => 6 | .verify => 7 | .setPreparing => 8 | .preparePayload => 9 | .setStopping => 10 | .writeHandoff => 11
  | .wait => 12 | .checkParent => 13 | .setInstalling => 14 | .install => 15 | .setCompleted => 16 | .removeWorkspace => 17

namespace Machine

variable {lib : Library} {a : Automatic} {m m' : Machine} {call : HelperCall}

/-- What the helper has done before a call. -/
structure Knows (m : Machine) (call : HelperCall) : Prop where
  fetched : 5 ≤ call.rank → .fetched m.plan.tag m.release ∈ m.log
  selected : 6 ≤ call.rank → selectReleaseAsset m.release m.plan.platform = .ok m.plan.asset ∧ m.selected = m.plan.asset
  verified : 8 ≤ call.rank → .verified m.plan.asset ∈ m.log
  wrote : 12 ≤ call.rank → .wroteHandoff ⟨m.helperPID, m.plan.token⟩ ∈ m.log
  parentEnd : 14 ≤ call.rank → .sawParentEnd ∈ m.log ∧ m.parentAlive = false

/-- The helper is not there, or not any more, and it has installed nothing. -/
structure Over (helper : HelperPhase) (log : List Action) : Prop where
  helper : helper = .notStarted ∨ helper = .ended ∧ .sawHelperEnd ∈ log
  install : .install ∉ log

/-- What `prepare` knows in a phase. -/
def Fits (m : Machine) : PreparePhase → Prop
  | .idle | .before _ => m.log = [] ∧ m.helper = .notStarted
  | .watching | .killed _ => .shutdown ∉ m.log ∧ m.helper ≠ .notStarted
  | .cleaning _ => Over m.helper m.log
  | .returned (some _) | .finished (some _) =>
    Over m.helper m.log ∧ (m.helper ≠ .notStarted → m.workspaceExists = false ∨ .removedWorkspace true ∈ m.log)
  | .returned none | .finished none => True

structure Consistent (lib : Library) (m : Machine) : Prop where
  ordered : Ordered lib m.log
  fits : Fits m m.phase
  started : m.helper ≠ .notStarted → .startedHelper m.helperPID m.plan ∈ m.log
  notStarted : m.helper = .notStarted → ∀ pid plan, .startedHelper pid plan ∉ m.log
  knows : ∀ call, m.helper = .before call → Knows m call
  install : .install ∈ m.log → m.parentAlive = false

theorem consistent_initial (lib : Library) (a : Automatic) : Consistent lib (initial a) where
  ordered := trivial
  fits := ⟨rfl, rfl⟩
  started h := absurd rfl h
  notStarted _ _ _ h := by simp [initial] at h
  knows _ h := by cases h
  install h := by simp [initial] at h

/-! ## The helper -/

/-- A step of the helper, which is there before and after it. -/
structure Moves (m m' : Machine) : Prop where
  phase : m'.phase = m.phase
  plan : m'.plan = m.plan
  helperPID : m'.helperPID = m.helperPID
  parentAlive : m'.parentAlive = m.parentAlive
  helper : m'.helper ≠ .notStarted
  log : m'.log = m.log ∨ ∃ action, m'.log = action :: m.log ∧ action ≠ .shutdown

/-- Nothing is over while the helper makes calls. -/
theorem Over.not_before (h : Over m.helper m.log) : m.helper ≠ .before call := by
  intro hc
  obtain hn | ⟨he, -⟩ := h.helper
  · rw [hc] at hn
    cases hn
  · rw [hc] at he
    cases he

theorem Consistent.fits_moves (h : Consistent lib m) (hc : m.helper = .before call) (hm : Moves m m') : Fits m' m'.phase := by
  have hfits := h.fits
  have hshutdown : .shutdown ∉ m.log → .shutdown ∉ m'.log := by
    intro hn
    obtain hl | ⟨action, hl, hne⟩ := hm.log
    · rwa [hl]
    · rw [hl]
      simp [hn, hne.symm]
  rw [hm.phase]
  match hp : m.phase with
  | .idle | .before _ =>
    rw [hp] at hfits
    rw [hfits.2] at hc
    cases hc
  | .watching | .killed _ =>
    rw [hp] at hfits
    exact ⟨hshutdown hfits.1, hm.helper⟩
  | .cleaning _ =>
    rw [hp] at hfits
    exact absurd hc hfits.not_before
  | .returned (some _) | .finished (some _) =>
    rw [hp] at hfits
    exact absurd hc hfits.1.not_before
  | .returned none | .finished none => trivial

theorem mem_of_moves (hm : Moves m m') {action : Action} (h : action ∈ m.log) : action ∈ m'.log := by
  obtain hl | ⟨_, hl, -⟩ := hm.log
  · rwa [hl]
  · rw [hl]
    exact List.mem_cons_of_mem _ h

theorem Consistent.moves (h : Consistent lib m) (hc : m.helper = .before call) (hm : Moves m m') (hordered : Ordered lib m'.log)
    (hknows : ∀ call', m'.helper = .before call' → Knows m' call') (hinstall : .install ∈ m'.log → m'.parentAlive = false) :
    Consistent lib m' where
  ordered := hordered
  fits := h.fits_moves hc hm
  started _ := by
    rw [hm.helperPID, hm.plan]
    exact mem_of_moves hm (h.started (by rw [hc]; exact nofun))
  notStarted hn := absurd hn hm.helper
  knows := hknows
  install := hinstall

/-- The helper ends. -/
theorem Consistent.ends (h : Consistent lib m) (hc : m.helper = .before call) (status : Option UpdateStatus)
    (workspaceExists : Bool) : Consistent lib { m with helper := .ended, status, workspaceExists } :=
  h.moves hc ⟨rfl, rfl, rfl, rfl, nofun, .inl rfl⟩ h.ordered (fun _ hcall => nomatch hcall) h.install

theorem Consistent.fails (h : Consistent lib m) (hc : m.helper = .before call) (e : String) :
    Consistent lib (m.helperFails call e) := h.ends hc _ m.workspaceExists

/-- Knowing of a call is knowing of the calls before it. -/
theorem Knows.later {call' : HelperCall} (h : Knows m call) (status : Option UpdateStatus)
    (hrank : ∀ n ∈ [5, 6, 8, 12, 14], n ≤ call'.rank → n ≤ call.rank) :
    Knows { m with helper := .before call', status } call' where
  fetched hr := h.fetched (hrank 5 (by simp) hr)
  selected hr := h.selected (hrank 6 (by simp) hr)
  verified hr := h.verified (hrank 8 (by simp) hr)
  wrote hr := h.wrote (hrank 12 (by simp) hr)
  parentEnd hr := h.parentEnd (hrank 14 (by simp) hr)

/-- A call that leaves no trace. -/
theorem Consistent.next (h : Consistent lib m) (hc : m.helper = .before call) (call' : HelperCall) (status : Option UpdateStatus)
    (hrank : ∀ n ∈ [5, 6, 8, 12, 14], n ≤ call'.rank → n ≤ call.rank) :
    Consistent lib { m with helper := .before call', status } :=
  h.moves hc ⟨rfl, rfl, rfl, rfl, nofun, .inl rfl⟩ h.ordered
    (fun _ hcall => by cases hcall; exact (h.knows _ hc).later status hrank) h.install

theorem Consistent.fetches (h : Consistent lib m) (hc : m.helper = .before .fetchRelease) (release : OfficialRelease) :
    Consistent lib ({ m with helper := .before .selectAsset, release }.does (.fetched m.plan.tag release)) :=
  h.moves hc ⟨rfl, rfl, rfl, rfl, nofun, .inr ⟨_, rfl, nofun⟩⟩ ⟨trivial, h.ordered⟩
    (fun call' hcall => by
      cases hcall
      refine ⟨fun _ => List.mem_cons_self, ?_, ?_, ?_, ?_⟩ <;> exact fun hr => absurd hr (by decide))
    (fun hi => h.install (by simpa [does] using hi))

theorem Consistent.selects (h : Consistent lib m) (hc : m.helper = .before .selectAsset) {asset : ReleaseAsset}
    (hs : selectReleaseAsset m.release m.plan.platform = .ok asset) (ha : asset = m.plan.asset) :
    Consistent lib { m with helper := .before .validateURL, selected := asset } :=
  h.moves hc ⟨rfl, rfl, rfl, rfl, nofun, .inl rfl⟩ h.ordered
    (fun call' hcall => by
      cases hcall
      refine ⟨fun _ => (h.knows _ hc).fetched (by decide), fun _ => ⟨ha ▸ hs, ha⟩, ?_, ?_, ?_⟩ <;>
        exact fun hr => absurd hr (by decide))
    h.install

theorem Consistent.verifies (h : Consistent lib m) (hc : m.helper = .before .verify) :
    Consistent lib ({ m with helper := .before .setPreparing }.does (.verified m.selected)) := by
  have hk := h.knows _ hc
  refine h.moves hc ⟨rfl, rfl, rfl, rfl, nofun, .inr ⟨_, rfl, nofun⟩⟩ ⟨trivial, h.ordered⟩ ?_
    (fun hi => h.install (by simpa [does] using hi))
  intro call' hcall
  cases hcall
  have hverified : Action.verified m.plan.asset ∈ Action.verified m.selected :: m.log := by
    rw [(hk.selected (by decide)).2]
    exact List.mem_cons_self
  exact ⟨fun _ => List.mem_cons_of_mem _ (hk.fetched (by decide)), fun _ => hk.selected (by decide), fun _ => hverified,
    fun hr => absurd hr (by decide), fun hr => absurd hr (by decide)⟩

theorem Consistent.writesHandoff (h : Consistent lib m) (hc : m.helper = .before .writeHandoff) (handoff : Option String) :
    Consistent lib ({ m with helper := .before .wait, handoff }.does (.wroteHandoff ⟨m.helperPID, m.plan.token⟩)) := by
  have hk := h.knows _ hc
  refine h.moves hc ⟨rfl, rfl, rfl, rfl, nofun, .inr ⟨_, rfl, nofun⟩⟩ ⟨trivial, h.ordered⟩ ?_
    (fun hi => h.install (by simpa [does] using hi))
  intro call' hcall
  cases hcall
  exact ⟨fun _ => List.mem_cons_of_mem _ (hk.fetched (by decide)), fun _ => hk.selected (by decide),
    fun _ => List.mem_cons_of_mem _ (hk.verified (by decide)), fun _ => List.mem_cons_self, fun hr => absurd hr (by decide)⟩

/-- The other program has ended and does not come back. -/
theorem Consistent.seesParentEnd (h : Consistent lib m) (hc : m.helper = .before .checkParent) (hend : m.parentAlive = false) :
    Consistent lib ({ m with helper := .before .setInstalling }.does .sawParentEnd) := by
  have hk := h.knows _ hc
  refine h.moves hc ⟨rfl, rfl, rfl, rfl, nofun, .inr ⟨_, rfl, nofun⟩⟩ ⟨trivial, h.ordered⟩ ?_ (fun _ => hend)
  intro call' hcall
  cases hcall
  exact ⟨fun _ => List.mem_cons_of_mem _ (hk.fetched (by decide)), fun _ => hk.selected (by decide),
    fun _ => List.mem_cons_of_mem _ (hk.verified (by decide)), fun _ => List.mem_cons_of_mem _ (hk.wrote (by decide)),
    fun _ => ⟨List.mem_cons_self, hend⟩⟩

theorem Consistent.installs (h : Consistent lib m) (hc : m.helper = .before .setInstalling) (status : Option UpdateStatus) :
    Consistent lib ({ m with helper := .before .install, status }.does .install) := by
  have hk := h.knows _ hc
  obtain ⟨hsaw, hend⟩ := hk.parentEnd (by decide)
  refine h.moves hc ⟨rfl, rfl, rfl, rfl, nofun, .inr ⟨_, rfl, nofun⟩⟩ ⟨?_, h.ordered⟩ ?_ (fun _ => hend)
  · exact ⟨m.helperPID, m.plan, m.release, h.started (by rw [hc]; exact nofun), hk.fetched (by decide),
      (hk.selected (by decide)).1, hk.verified (by decide), hk.wrote (by decide), hsaw⟩
  · intro call' hcall
    cases hcall
    exact ⟨fun _ => List.mem_cons_of_mem _ (hk.fetched (by decide)), fun _ => hk.selected (by decide),
      fun _ => List.mem_cons_of_mem _ (hk.verified (by decide)), fun _ => List.mem_cons_of_mem _ (hk.wrote (by decide)),
      fun _ => ⟨List.mem_cons_of_mem _ hsaw, hend⟩⟩

theorem Consistent.helperCall {platform : String} (h : Consistent lib m) (hc : m.helper = .before call)
    (hm : m.helperCall lib platform call = .ok m') : Consistent lib m' := by
  cases call with
  | readPlan | acquireLock | setVerifying | setPreparing | preparePayload | setStopping | install | setCompleted =>
    cases hm
    exact h.next hc _ _ (by decide)
  | checkPlan =>
    simp only [Machine.helperCall] at hm
    obtain ⟨_, -, rfl⟩ := map_ok_inv hm
    exact h.next hc _ _ (by decide)
  | fetchRelease => cases hm
  | selectAsset =>
    simp only [Machine.helperCall] at hm
    split at hm
    · cases hm
    · rename_i asset hs
      split at hm
      · cases hm
      · rename_i ha
        cases hm
        exact h.selects hc hs (not_not.1 ha)
  | validateURL =>
    simp only [Machine.helperCall] at hm
    split at hm
    · cases hm
      exact h.next hc _ _ (by decide)
    · cases hm
  | verify =>
    simp only [Machine.helperCall] at hm
    obtain ⟨_, -, rfl⟩ := map_ok_inv hm
    exact h.verifies hc
  | writeHandoff =>
    simp only [Machine.helperCall] at hm
    split at hm
    · cases hm
      exact h.writesHandoff hc _
    · cases hm
  | wait =>
    simp only [Machine.helperCall] at hm
    split at hm
    · cases hm
      exact h
    · cases hm
      exact h.next hc _ _ (by decide)
  | checkParent =>
    simp only [Machine.helperCall] at hm
    split at hm
    · cases hm
    · rename_i hend
      cases hm
      exact h.seesParentEnd hc (by simpa using hend)
  | setInstalling =>
    cases hm
    exact h.installs hc _
  | removeWorkspace =>
    cases hm
    exact h.ends hc _ _

theorem Consistent.helperStep {platform : String} {event : HelperEvent} (h : Consistent lib m)
    (hm : m.helperStep lib platform event = some m') : Consistent lib m' := by
  unfold Machine.helperStep at hm
  split at hm
  · rename_i response hc
    split at hm
    · cases hm
      exact h.fails hc _
    · cases hm
      exact h.fetches hc _
  · rename_i hc
    cases hm
    exact h.next hc _ _ (by decide)
  · cases hm
  · cases hm
  · rename_i hc
    cases hm
    exact h.ends hc _ _
  · rename_i call hc
    split at hm
    · rename_i hcall
      cases hm
      exact h.helperCall hc hcall
    · cases hm
      exact h.fails hc _
  · cases hm
    exact h.fails (by assumption) _
  · rename_i hc
    cases hm
    exact h.ends hc _ _
  · cases hm

/-! ## The running program -/

/-- Before the helper is started nothing has happened. -/
theorem consistent_early (hlog : m.log = []) (hhelper : m.helper = .notStarted) (hfits : Fits m m.phase) :
    Consistent lib m where
  ordered := by
    rw [hlog]
    trivial
  fits := hfits
  started hs := absurd hhelper hs
  notStarted _ _ _ hmem := by
    rw [hlog] at hmem
    cases hmem
  knows _ hc := by
    rw [hhelper] at hc
    cases hc
  install hi := by
    rw [hlog] at hi
    cases hi

theorem consistent_leaves (hlog : m.log = []) (hhelper : m.helper = .notStarted) (e : String) :
    Consistent lib (m.leaves e) := by
  unfold leaves
  split
  · exact consistent_early hlog hhelper ⟨.inl hhelper, fun hi => by rw [hlog] at hi; cases hi⟩
  · have hnone : ∀ action ∈ ({ m with phase := .returned (some e) }.does (.returned (some e))).log, action = .returned (some e) := by
      simp [does, hlog]
    constructor
    · rw [does, hlog]
      exact ⟨fun ⟨_, _, hmem⟩ => (nomatch hmem), trivial⟩
    · exact ⟨⟨.inl hhelper, fun hi => nomatch hnone _ hi⟩, fun hs => absurd hhelper hs⟩
    · exact fun hs => absurd hhelper hs
    · exact fun _ _ _ hmem => nomatch hnone _ hmem
    · intro call hc
      rw [does, hhelper] at hc
      cases hc
    · exact fun hi => nomatch hnone _ hi

theorem consistent_startHelper (hlog : m.log = []) (pid : Int) :
    Consistent lib ({ m with phase := .watching, helperPID := pid, helper := .before .readPlan }.does
      (.startedHelper pid m.plan)) where
  ordered := by
    rw [does, hlog]
    exact ⟨trivial, trivial⟩
  fits := ⟨by simp [does, hlog], nofun⟩
  started _ := List.mem_cons_self
  notStarted hn := by cases hn
  knows call hc := by
    cases hc
    refine ⟨?_, ?_, ?_, ?_, ?_⟩ <;> exact fun hr => absurd hr (by decide)
  install hi := by simp [does, hlog] at hi

theorem Knows.mono {call : HelperCall} (h : Knows m call) (hplan : m'.plan = m.plan) (hrelease : m'.release = m.release)
    (hselected : m'.selected = m.selected) (hpid : m'.helperPID = m.helperPID) (hparent : m'.parentAlive = m.parentAlive)
    (hlog : ∀ action ∈ m.log, action ∈ m'.log) : Knows m' call := by
  constructor
  · rw [hplan, hrelease]
    exact fun hr => hlog _ (h.fetched hr)
  · rw [hplan, hrelease, hselected]
    exact h.selected
  · rw [hplan]
    exact fun hr => hlog _ (h.verified hr)
  · rw [hplan, hpid]
    exact fun hr => hlog _ (h.wrote hr)
  · rw [hparent]
    exact fun hr => ⟨hlog _ (h.parentEnd hr).1, (h.parentEnd hr).2⟩

/-- The running program does something while the helper makes its calls. -/
theorem Consistent.does (h : Consistent lib m) (action : Action) (phase : PreparePhase)
    (hallowed : Allowed lib m.log action) (hfits : Fits ({ m with phase }.does action) phase)
    (hstart : ∀ pid plan, action ≠ .startedHelper pid plan) (hinstall : action ≠ .install) :
    Consistent lib ({ m with phase }.does action) where
  ordered := ⟨hallowed, h.ordered⟩
  fits := hfits
  started hs := List.mem_cons_of_mem _ (h.started hs)
  notStarted hn pid plan hmem := by
    obtain heq | hmem := List.mem_cons.1 hmem
    · exact hstart pid plan heq.symm
    · exact h.notStarted hn pid plan hmem
  knows call hc := (h.knows call hc).mono rfl rfl rfl rfl rfl fun _ hmem => List.mem_cons_of_mem _ hmem
  install hi := by
    obtain heq | hi := List.mem_cons.1 hi
    · exact absurd heq.symm hinstall
    · exact h.install hi

/-- A phase that is left without a trace. -/
theorem Consistent.enters (h : Consistent lib m) (phase : PreparePhase) (status : Option UpdateStatus) (workspaceExists : Bool)
    (hfits : Fits { m with phase, status, workspaceExists } phase) :
    Consistent lib { m with phase, status, workspaceExists } where
  ordered := h.ordered
  fits := hfits
  started := h.started
  notStarted := h.notStarted
  knows call hc := (h.knows call hc).mono rfl rfl rfl rfl rfl fun _ hmem => hmem
  install := h.install

theorem Consistent.kills (h : Consistent lib m) (hfits : .shutdown ∉ m.log ∧ m.helper ≠ .notStarted) (e : String)
    (killFails : Bool) : Consistent lib (m.kills e killFails) := by
  cases killFails with
  | true => exact h.enters (.killed e) m.status m.workspaceExists hfits
  | false =>
    refine ⟨h.ordered, ⟨hfits.1, nofun⟩, fun _ => h.started hfits.2, nofun, fun call hc => ?_, h.install⟩
    cases hc

theorem Consistent.readsHandoff (h : Consistent lib m) (hp : m.phase = .watching) (content : String) :
    Consistent lib (m.readsHandoff lib content) := by
  have hfits := h.fits
  rw [hp] at hfits
  have hmem : .shutdown ∉ Action.readHandoff content :: m.log := by simp [hfits.1]
  have hread : Consistent lib (m.does (.readHandoff content)) := by
    have hd := h.does (.readHandoff content) .watching trivial ⟨hmem, hfits.2⟩ nofun nofun
    rwa [← hp] at hd
  unfold Machine.readsHandoff
  simp only
  split
  · rename_i hoff
    have hallowed : Allowed lib (Action.readHandoff content :: m.log) .shutdown :=
      ⟨hmem, m.helperPID, m.plan, content, List.mem_cons_of_mem _ (h.started hfits.2), List.mem_cons_self, hoff⟩
    have hshut := hread.does .shutdown (.returned none) hallowed trivial nofun nofun
    exact hshut.does (.returned none) (.returned none) trivial trivial nofun nofun
  · exact hread

/-- The helper has ended while this program is still there. -/
theorem Consistent.cleans (h : Consistent lib m) (hparent : m.parentAlive = true) (hend : m.helper = .ended) (e : String) :
    Consistent lib ({ m with phase := .cleaning e }.does .sawHelperEnd) := by
  have hinstall : .install ∉ m.log := by
    intro hi
    rw [h.install hi] at hparent
    cases hparent
  refine h.does .sawHelperEnd (.cleaning e) trivial ⟨.inr ⟨hend, List.mem_cons_self⟩, ?_⟩ nofun nofun
  simp [Machine.does, hinstall]

theorem Over.cons {helper : HelperPhase} {log : List Action} (h : Over helper log) {action : Action} (hne : action ≠ .install) :
    Over helper (action :: log) where
  helper := h.helper.imp_right fun ⟨hend, hsaw⟩ => ⟨hend, List.mem_cons_of_mem _ hsaw⟩
  install hi := by
    obtain heq | hi := List.mem_cons.1 hi
    · exact hne heq.symm
    · exact h.install hi

theorem Consistent.removes (h : Consistent lib m) {e : String} (hp : m.phase = .cleaning e) (fails : Bool) :
    Consistent lib (({ m with phase := .returned (some e), workspaceExists := m.workspaceExists && fails }.does
      (.removedWorkspace fails)).does (.returned (some e))) := by
  have hover := h.fits
  rw [hp] at hover
  have hover' : Over m.helper (.removedWorkspace fails :: m.log) := hover.cons nofun
  have hentered := h.enters (.cleaning e) m.status (m.workspaceExists && fails) hover
  have hgone : (m.workspaceExists && fails) = false ∨
      .removedWorkspace true ∈ (Action.removedWorkspace fails :: m.log) := by
    cases fails with
    | true => exact .inr List.mem_cons_self
    | false => exact .inl (Bool.and_false _)
  have hremoved := hentered.does (.removedWorkspace fails) (.returned (some e)) trivial ⟨hover', fun _ => hgone⟩ nofun nofun
  refine hremoved.does (.returned (some e)) (.returned (some e)) ?_
    ⟨hover'.cons nofun, fun _ => hgone.imp_right (List.mem_cons_of_mem _)⟩ nofun nofun
  rintro ⟨pid, plan, hmem⟩
  obtain hnone | ⟨-, hsaw⟩ := hover'.helper
  · exact absurd hmem (hremoved.notStarted hnone pid plan)
  · exact ⟨hsaw, fails, List.mem_cons_self⟩

theorem consistent_callDone {call : Call} (hfits : m.log = [] ∧ m.helper = .notStarted) (hm : m.callDone a call = some m') :
    Consistent lib m' := by
  cases call <;> cases hm <;> exact consistent_early hfits.1 hfits.2 hfits

theorem Consistent.prepareStep {event : PrepareEvent} (h : Consistent lib m) (hparent : m.parentAlive = true)
    (hm : m.prepareStep lib a event = some m') : Consistent lib m' := by
  have hfits := h.fits
  unfold Machine.prepareStep at hm
  split at hm <;> rename_i hp <;> try rw [hp] at hfits
  · cases hm
    exact consistent_early hfits.1 hfits.2 hfits
  · cases hm
    exact consistent_leaves hfits.1 hfits.2 _
  · cases hm
    exact consistent_early hfits.1 hfits.2 hfits
  · cases hm
    exact consistent_early hfits.1 hfits.2 hfits
  · cases hm
    exact consistent_early hfits.1 hfits.2 hfits
  · cases hm
    exact consistent_startHelper hfits.1 _
  · exact consistent_callDone hfits hm
  · split at hm <;> cases hm
    · exact h.readsHandoff hp _
    · exact h
  · split at hm
    · rename_i hend
      cases hm
      exact h.cleans hparent hend _
    · cases hm
  · cases hm
    exact h.kills hfits _ _
  · cases hm
    exact h.kills hfits _ _
  · split at hm
    · rename_i hend
      cases hm
      exact h.cleans hparent hend _
    · cases hm
  · cases hm
    exact h.removes hp _
  · cases hm
    exact h.enters (.finished _) _ m.workspaceExists hfits
  · cases hm
    exact h.enters (.finished none) m.status m.workspaceExists trivial
  · cases hm

theorem Consistent.fits_of (h : Consistent lib m) (hphase : m'.phase = m.phase) (hhelper : m'.helper = m.helper)
    (hlog : m'.log = m.log) (hworkspace : m'.workspaceExists = m.workspaceExists) : Fits m' m'.phase := by
  have hfits := h.fits
  unfold Fits at hfits ⊢
  rw [hphase, hhelper, hlog, hworkspace]
  exact hfits

theorem Consistent.step {event : Event} (h : Consistent lib m) (hm : m.step lib a event = some m') : Consistent lib m' := by
  cases event with
  | prepare event =>
    simp only [Machine.step] at hm
    split at hm
    · rename_i hparent
      exact h.prepareStep hparent hm
    · cases hm
  | helper event => exact h.helperStep hm
  | parentEnds =>
    cases hm
    refine ⟨h.ordered, h.fits_of rfl rfl rfl rfl, h.started, h.notStarted, fun call hc => ?_, fun _ => rfl⟩
    have hk := h.knows call hc
    exact ⟨hk.fetched, hk.selected, hk.verified, hk.wrote, fun hr => ⟨(hk.parentEnd hr).1, rfl⟩⟩
  | writes handoff status archive =>
    cases hm
    refine ⟨h.ordered, h.fits_of rfl rfl rfl rfl, h.started, h.notStarted, fun call hc => ?_, h.install⟩
    exact (h.knows call hc).mono rfl rfl rfl rfl rfl fun _ hmem => hmem

/-! ## Runs -/

/-- The error `prepare` has returned. -/
def failure (m : Machine) : Option String :=
  match m.phase with
  | .returned e | .finished e => e
  | _ => none

/-- The helper is in `installAndRestart` or past it. -/
def Installing (m : Machine) : Prop := ∃ call, m.helper = .before call ∧ 15 ≤ call.rank

/-- What the two programs may rely on. -/
structure HandOffSafe (lib : Library) (m : Machine) : Prop where
  ordered : Ordered lib m.log
  /-- An error of `prepare` leaves no helper, and only a workspace whose removal failed. -/
  failed : m.failure ≠ none → m.helper ≠ .notStarted →
    m.helper = .ended ∧ (m.workspaceExists = false ∨ .removedWorkspace true ∈ m.log)
  /-- An installing helper is alone. -/
  alone : Installing m → m.parentAlive = false
  /-- No installation follows an error. -/
  noInstall : m.failure ≠ none → .install ∉ m.log ∧ ¬Installing m

theorem Consistent.over (h : Consistent lib m) (hf : m.failure ≠ none) : Over m.helper m.log ∧
    (m.helper ≠ .notStarted → m.workspaceExists = false ∨ .removedWorkspace true ∈ m.log) := by
  have hfits := h.fits
  unfold failure at hf
  match hp : m.phase with
  | .returned (some _) | .finished (some _) =>
    rw [hp] at hfits
    exact hfits
  | .idle | .before _ | .watching | .killed _ | .cleaning _ | .returned none | .finished none =>
    rw [hp] at hf
    exact absurd rfl hf

theorem Consistent.safe (h : Consistent lib m) : HandOffSafe lib m where
  ordered := h.ordered
  failed hf hs := by
    obtain ⟨hover, hworkspace⟩ := h.over hf
    obtain hn | ⟨hend, -⟩ := hover.helper
    · exact absurd hn hs
    · exact ⟨hend, hworkspace hs⟩
  alone := by
    rintro ⟨call, hc, hrank⟩
    exact ((h.knows call hc).parentEnd (by omega)).2
  noInstall hf := by
    obtain ⟨hover, -⟩ := h.over hf
    refine ⟨hover.install, ?_⟩
    rintro ⟨call, hc, -⟩
    exact hover.not_before hc

/-- In every run, in whatever order the programs go on and whatever fails, they hand over safely. -/
theorem handOff_safe {lib : Library} {a : Automatic} {events : List Event} {m : Machine}
    (h : Run (fun m event m' => m.step lib a event = some m') (initial a) events m) : HandOffSafe lib m :=
  (h.inv (Consistent lib) (fun _ _ _ hm hs => hm.step hs) (consistent_initial lib a)).safe

/-! ## Two updates -/

def runAll (lib : Library) (a : Automatic) (events : List Event) : Option Machine :=
  events.foldlM (fun (m : Machine) event => m.step lib a event) (initial a)

def sampleToken : String := "00112233445566778899aabbccddeeff00112233445566778899aabbccddeeff"

def sampleRecord : ReadyRecord := ⟨77, sampleToken⟩

def sampleText : String := "\x7b\"pid\":77,\"token\":\"" ++ sampleToken ++ "\"\x7d"

/-- The libraries, for the values of the two runs. -/
def sampleLibrary : Library where
  marshal _ := sampleText
  unmarshal content := if content = sampleText then some sampleRecord else none
  sha256 _ := List.replicate 32 0
  validURL _ _ := true

def sampleAutomatic : Automatic := ⟨"/opt/Tanpopo", "/opt/data", "/opt", "linux-amd64", 42⟩

def sampleAsset : ReleaseAsset :=
  ⟨"Tanpopo-1.2-linux-x64.zip", "uploaded", 3, "sha256:" ++ hexEncode (List.replicate 32 0), "https://example.invalid/a.zip"⟩

def sampleRelease : OfficialRelease := ⟨"v1.2", false, false, [sampleAsset]⟩

/-- The calls up to the start of the helper. -/
def startsUpdate : List Event :=
  [.prepare .start, .prepare (.latest "v1.2" sampleAsset), .prepare .succeeds, .prepare (.mkdirTemp "/opt/.tanpopo-update-1"),
    .prepare .succeeds, .writes none none (some [1, 2, 3]), .prepare .succeeds, .prepare .succeeds, .prepare (.random sampleToken),
    .prepare .succeeds, .prepare .succeeds, .prepare .succeeds, .prepare .succeeds, .prepare (.startHelper 77)]

/-- The helper checks the update, takes over and installs it. -/
def installsUpdate : List Event :=
  startsUpdate ++ List.replicate 4 (.helper .call) ++ [.helper (.release sampleRelease)] ++ List.replicate 7 (.helper .call) ++
    [.prepare (.tick true), .helper .call, .parentEnds] ++ List.replicate 6 (.helper .call)

theorem installsUpdate_safe : ∃ m, Run (fun m event m' => m.step sampleLibrary sampleAutomatic event = some m')
    (initial sampleAutomatic) installsUpdate m ∧ m.status.map (·.state) = some "completed" ∧ HandOffSafe sampleLibrary m := by
  have hsome : (runAll sampleLibrary sampleAutomatic installsUpdate).any
      (fun m => m.status.map (·.state) = some "completed") = true := by
    decide +kernel
  obtain ⟨m, hm, hstatus⟩ := (Option.any_eq_true _ _).1 hsome
  exact ⟨m, .of_foldlM hm, of_decide_eq_true hstatus, handOff_safe (.of_foldlM hm)⟩

/-- A service that is stopped during an update, on a disk that refuses the removal. -/
def stopsUpdate : List Event :=
  startsUpdate ++ [.prepare (.cancelled "context canceled" false), .prepare .waits, .prepare (.removeAll true)]

/-- The workspace is still there when `prepare` returns its error. -/
theorem workspace_remains : ∃ m, Run (fun m event m' => m.step sampleLibrary sampleAutomatic event = some m')
    (initial sampleAutomatic) stopsUpdate m ∧
    m.failure = some "context canceled" ∧ m.helper ≠ .notStarted ∧ m.workspaceExists = true := by
  have hsome : (runAll sampleLibrary sampleAutomatic stopsUpdate).any (fun m => m.failure = some "context canceled" ∧
      m.helper ≠ .notStarted ∧ m.workspaceExists = true) = true := by
    decide +kernel
  obtain ⟨m, hm, h⟩ := (Option.any_eq_true _ _).1 hsome
  exact ⟨m, .of_foldlM hm, of_decide_eq_true h⟩

end Machine
end Tanpopo.AppUpdate
