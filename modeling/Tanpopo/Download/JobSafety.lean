import Tanpopo.Download.Jobs
/-!
# Jobs, destinations and cancel functions agree

- `Consistent`: the reserved destinations are those of the goroutines that have
  not given theirs up, and each live job has such a goroutine.
- `job_tables`: what holds of the tables in every run.
-/

namespace Tanpopo.Download

namespace Manager
variable {m m' : Manager} {id : String} {r : Runner} {e : Event} {oldest : Option String}

structure Consistent (m : Manager) : Prop where
  targets : ∀ destination id, m.activeTargets.get? destination = some id ↔
    ∃ r, m.runners.get? id = some r ∧ r.destination = destination ∧ r.stage.holds = true
  live : ∀ id job, m.jobs.get? id = some job → job.live = true → ∃ r, m.runners.get? id = some r ∧ r.stage.running = true
  destinations : ∀ id job r, m.jobs.get? id = some job → m.runners.get? id = some r → r.destination = job.destination
  cancellations : ∀ id r, m.runners.get? id = some r → (m.cancellations.get? id).isSome
  jobs_issued : ∀ id job, m.jobs.get? id = some job → id ∈ m.issued
  runners_issued : ∀ id r, m.runners.get? id = some r → id ∈ m.issued

theorem consistent_new (slots : Nat) : Consistent (new slots) := by
  constructor <;> simp [new]

/-! ## What each section keeps -/

/-- Jobs can be forgotten. -/
theorem Consistent.forgetJob (h : Consistent m) (id : String) : Consistent { m with jobs := m.jobs.delete id } where
  targets := h.targets
  live id' job hjob := h.live id' job (Table.get?_delete_eq_some.1 hjob).2
  destinations id' job r hjob := h.destinations id' job r (Table.get?_delete_eq_some.1 hjob).2
  cancellations := h.cancellations
  jobs_issued id' job hjob := h.jobs_issued id' job (Table.get?_delete_eq_some.1 hjob).2
  runners_issued := h.runners_issued

/-- A job that does not come alive can be changed. -/
theorem Consistent.setJob {job job' : DownloadJob} (h : Consistent m) (hjob : m.jobs.get? id = some job)
    (hdestination : job'.destination = job.destination)
    (hlive : job'.live = true → ∃ r, m.runners.get? id = some r ∧ r.stage.running = true) :
    Consistent { m with jobs := m.jobs.set id job' } where
  targets := h.targets
  live id' job'' hjob'' := by
    rcases Table.get?_set_eq_some.1 hjob'' with ⟨rfl, rfl⟩ | ⟨-, hold⟩
    · exact hlive
    · exact h.live id' job'' hold
  destinations id' job'' r hjob'' hr := by
    rcases Table.get?_set_eq_some.1 hjob'' with ⟨rfl, rfl⟩ | ⟨-, hold⟩
    · rw [hdestination]
      exact h.destinations id' job r hjob hr
    · exact h.destinations id' job'' r hold hr
  cancellations := h.cancellations
  jobs_issued id' job'' hjob'' := by
    rcases Table.get?_set_eq_some.1 hjob'' with ⟨rfl, -⟩ | ⟨-, hold⟩
    · exact h.jobs_issued id' job hjob
    · exact h.jobs_issued id' job'' hold
  runners_issued := h.runners_issued

theorem Consistent.update {mutate : DownloadJob → DownloadJob} (h : Consistent m)
    (hdestination : ∀ job, (mutate job).destination = job.destination)
    (hlive : ∀ job, (mutate job).live = true → ∃ r, m.runners.get? id = some r ∧ r.stage.running = true) :
    Consistent (m.update id mutate) := by
  unfold Manager.update
  split
  · exact h
  · rename_i job hjob
    exact h.setJob hjob (hdestination job) (hlive job)

theorem Consistent.pruneLocked (h : Consistent m) : Consistent (m.pruneLocked oldest) := by
  unfold Manager.pruneLocked
  split
  · exact h
  · cases oldest with
    | none => exact h
    | some id => exact h.forgetJob id

/-- A goroutine may go on as long as it reserves what it did and a live job keeps its goroutine. -/
theorem Consistent.move {r' : Runner} {taken : Nat} (h : Consistent m) (hr : m.runners.get? id = some r)
    (hdestination : r'.destination = r.destination) (hholds : r'.stage.holds = r.stage.holds)
    (hlive : ∀ job, m.jobs.get? id = some job → job.live = true → r'.stage.running = true) :
    Consistent { m.move id r' with taken := taken } where
  targets destination id' := by
    rw [show (m.move id r').activeTargets = m.activeTargets from rfl, h.targets]
    by_cases hid : id' = id
    · subst hid
      simp [Manager.move, Table.get?_set, hr, hdestination, hholds]
    · simp [Manager.move, Table.get?_set, hid]
  live id' job hjob hjoblive := by
    obtain ⟨r'', hr'', hrun⟩ := h.live id' job hjob hjoblive
    by_cases hid : id' = id
    · subst hid
      exact ⟨r', by simp [Manager.move, Table.get?_set], hlive job hjob hjoblive⟩
    · exact ⟨r'', by simp [Manager.move, Table.get?_set, hid, hr''], hrun⟩
  destinations id' job r'' hjob hr'' := by
    rcases Table.get?_set_eq_some.1 hr'' with ⟨rfl, rfl⟩ | ⟨-, hold⟩
    · exact hdestination.trans (h.destinations id' job r hjob hr)
    · exact h.destinations id' job r'' hjob hold
  cancellations id' r'' hr'' := by
    rcases Table.get?_set_eq_some.1 hr'' with ⟨rfl, -⟩ | ⟨-, hold⟩
    · exact h.cancellations id' r hr
    · exact h.cancellations id' r'' hold
  jobs_issued := h.jobs_issued
  runners_issued id' r'' hr'' := by
    rcases Table.get?_set_eq_some.1 hr'' with ⟨rfl, -⟩ | ⟨-, hold⟩
    · exact h.runners_issued id' r hr
    · exact h.runners_issued id' r'' hold

/-- The destination of a goroutine that reserves it is given up. -/
theorem Consistent.giveUp {r' : Runner} (h : Consistent m) (hr : m.runners.get? id = some r)
    (hdestination : r'.destination = r.destination) (hholds : r'.stage.holds = false)
    (hlive : ∀ job, m.jobs.get? id = some job → job.live = false) :
    Consistent ((m.releaseDestination r.destination id).move id r') := by
  -- Only the target of this goroutine is released, and only where it is its own.
  have htargets : ∀ destination id', (m.releaseDestination r.destination id).activeTargets.get? destination = some id' ↔
      m.activeTargets.get? destination = some id' ∧ id' ≠ id := by
    intro destination id'
    unfold Manager.releaseDestination
    split
    · rename_i hactive
      rw [Table.get?_delete_eq_some]
      constructor
      · rintro ⟨hne, hget⟩
        refine ⟨hget, fun heq => hne ?_⟩
        obtain ⟨r₁, hr₁, hd₁, -⟩ := (h.targets destination id').1 hget
        subst heq
        cases Option.some.inj (hr.symm.trans hr₁)
        exact hd₁.symm
      · rintro ⟨hget, hne⟩
        refine ⟨fun heq => hne ?_, hget⟩
        rw [heq, hactive] at hget
        exact (Option.some.inj hget).symm
    · rename_i hactive
      refine ⟨fun hget => ⟨hget, fun heq => hactive ?_⟩, And.left⟩
      subst heq
      obtain ⟨r₁, hr₁, hd₁, -⟩ := (h.targets destination id').1 hget
      cases Option.some.inj (hr.symm.trans hr₁)
      rw [hd₁]
      exact hget
  have hother : ∀ m' : Manager, m' = m.releaseDestination r.destination id →
      m'.jobs = m.jobs ∧ m'.runners = m.runners ∧ m'.cancellations = m.cancellations ∧ m'.issued = m.issued := by
    rintro m' rfl
    unfold Manager.releaseDestination
    split <;> exact ⟨rfl, rfl, rfl, rfl⟩
  obtain ⟨hjobs, hrunners, hcancellations, hissued⟩ := hother _ rfl
  constructor
  · -- The targets are those of the goroutines that hold one, and this one holds none any more.
    intro destination id'
    rw [show ((m.releaseDestination r.destination id).move id r').activeTargets =
      (m.releaseDestination r.destination id).activeTargets from rfl, htargets, h.targets]
    by_cases hid : id' = id
    · subst hid
      simp [Manager.move, Table.get?_set, hholds]
    · simp [Manager.move, Table.get?_set, hid, hrunners]
  · intro id' job hjob hjoblive
    simp only [Manager.move, hjobs, hrunners] at hjob ⊢
    obtain ⟨r'', hr'', hrun⟩ := h.live id' job hjob hjoblive
    have hid : id' ≠ id := by
      rintro rfl
      rw [hlive job hjob] at hjoblive
      cases hjoblive
    exact ⟨r'', by simp [Table.get?_set, hid, hr''], hrun⟩
  · intro id' job r'' hjob hr''
    simp only [Manager.move, hjobs, hrunners] at hjob hr''
    rcases Table.get?_set_eq_some.1 hr'' with ⟨rfl, rfl⟩ | ⟨-, hold⟩
    · exact hdestination.trans (h.destinations id' job r hjob hr)
    · exact h.destinations id' job r'' hjob hold
  · intro id' r'' hr''
    simp only [Manager.move, hrunners, hcancellations] at hr'' ⊢
    rcases Table.get?_set_eq_some.1 hr'' with ⟨rfl, -⟩ | ⟨-, hold⟩
    · exact h.cancellations id' r hr
    · exact h.cancellations id' r'' hold
  · intro id' job hjob
    simp only [Manager.move, hjobs, hissued] at hjob ⊢
    exact h.jobs_issued id' job hjob
  · intro id' r'' hr''
    simp only [Manager.move, hrunners, hissued] at hr'' ⊢
    rcases Table.get?_set_eq_some.1 hr'' with ⟨rfl, -⟩ | ⟨-, hold⟩
    · exact h.runners_issued id' r hr
    · exact h.runners_issued id' r'' hold

theorem Consistent.settle {r' : Runner} (h : Consistent m) (hr : m.runners.get? id = some r)
    (hdestination : r'.destination = r.destination) (hholds : r'.stage.holds = false) :
    Consistent ((m.settle id r.destination).move id r') :=
  (h.forgetJob id).giveUp hr hdestination hholds fun _ hjob => absurd rfl (Table.get?_delete_eq_some.1 hjob).1

/-- A goroutine that has given up its destination may end. -/
theorem Consistent.forget (h : Consistent m) (hr : m.runners.get? id = some r) (hstage : r.stage = .released) :
    Consistent { m with cancellations := m.cancellations.delete id, runners := m.runners.delete id } where
  targets destination id' := by
    rw [h.targets]
    by_cases hid : id' = id
    · subst hid
      simp [Table.get?_delete, hr, hstage, Stage.holds, Stage.running]
    · simp [Table.get?_delete, hid]
  live id' job hjob hjoblive := by
    obtain ⟨r', hr', hrun⟩ := h.live id' job hjob hjoblive
    have hid : id' ≠ id := by
      rintro rfl
      cases Option.some.inj (hr.symm.trans hr')
      rw [hstage] at hrun
      cases hrun
    exact ⟨r', by simp [Table.get?_delete, hid, hr'], hrun⟩
  destinations id' job r' hjob hr' := h.destinations id' job r' hjob (Table.get?_delete_eq_some.1 hr').2
  cancellations id' r' hr' := by
    obtain ⟨hid, hold⟩ := Table.get?_delete_eq_some.1 hr'
    simpa [Table.get?_delete, hid] using h.cancellations id' r' hold
  jobs_issued := h.jobs_issued
  runners_issued id' r' hr' := h.runners_issued id' r' (Table.get?_delete_eq_some.1 hr').2

theorem Consistent.enter {now : Int} {destination : String} (h : Consistent m) (hid : id ∉ m.issued)
    (hfree : m.activeTargets.get? destination = none) : Consistent (m.enter id now destination) where
  targets destination' id' := by
    have hnone : m.runners.get? id = none := by
      cases hr : m.runners.get? id with
      | none => rfl
      | some r => exact absurd (h.runners_issued id r hr) hid
    by_cases hd : destination' = destination
    · subst hd
      by_cases heq : id' = id
      · subst heq
        simp [Manager.enter, Table.get?_set, Stage.holds, Stage.running]
      · have hold := h.targets destination' id'
        rw [hfree] at hold
        simp only [reduceCtorEq, false_iff] at hold
        simp only [Manager.enter, Table.get?_set, if_true, heq, if_false, Option.some.injEq]
        exact ⟨fun h => absurd h.symm heq, fun h => absurd h hold⟩
    · by_cases heq : id' = id
      · subst heq
        have hold := h.targets destination' id'
        rw [hnone] at hold
        simp [Manager.enter, Table.get?_set, hd, hold, Ne.symm hd]
      · simp [Manager.enter, Table.get?_set, hd, heq, h.targets]
  live id' job hjob hjoblive := by
    rcases Table.get?_set_eq_some.1 hjob with ⟨rfl, rfl⟩ | ⟨heq, hold⟩
    · exact ⟨⟨destination, .waiting, false⟩, by simp [Manager.enter, Table.get?_set], rfl⟩
    · obtain ⟨r, hr, hrun⟩ := h.live id' job hold hjoblive
      exact ⟨r, by simp [Manager.enter, Table.get?_set, heq, hr], hrun⟩
  destinations id' job r hjob hr := by
    rcases Table.get?_set_eq_some.1 hjob with ⟨rfl, rfl⟩ | ⟨heq, hold⟩
    · rcases Table.get?_set_eq_some.1 hr with ⟨-, rfl⟩ | ⟨hne, -⟩
      · rfl
      · exact absurd rfl hne
    · rcases Table.get?_set_eq_some.1 hr with ⟨rfl, -⟩ | ⟨-, hrold⟩
      · exact absurd rfl heq
      · exact h.destinations id' job r hold hrold
  cancellations id' r hr := by
    rcases Table.get?_set_eq_some.1 hr with ⟨rfl, -⟩ | ⟨heq, hold⟩
    · simp [Manager.enter, Table.get?_set]
    · simpa [Manager.enter, Table.get?_set, heq] using h.cancellations id' r hold
  jobs_issued id' job hjob := by
    rcases Table.get?_set_eq_some.1 hjob with ⟨rfl, -⟩ | ⟨-, hold⟩
    · exact List.mem_cons_self
    · exact List.mem_cons_of_mem _ (h.jobs_issued id' job hold)
  runners_issued id' r hr := by
    rcases Table.get?_set_eq_some.1 hr with ⟨rfl, -⟩ | ⟨-, hold⟩
    · exact List.mem_cons_self
    · exact List.mem_cons_of_mem _ (h.runners_issued id' r hold)

/-! ## Steps -/

theorem runner_update (hr : m.runners.get? id = some r) (id' : String) (mutate : DownloadJob → DownloadJob) :
    (m.update id' mutate).runners.get? id = some r := by
  unfold Manager.update
  split <;> exact hr

theorem update_get? (mutate : DownloadJob → DownloadJob) :
    (m.update id mutate).jobs.get? id = (m.jobs.get? id).map mutate := by
  unfold Manager.update
  split
  · rename_i hjob
    rw [hjob]
    rfl
  · rename_i job hjob
    simp [Table.get?_set, hjob]

/-- Each stage of a goroutine keeps the tables consistent. -/
theorem Consistent.runnerStep (h : Consistent m) (hr : m.runners.get? id = some r) (hs : m.runnerStep id r e = some m') :
    Consistent m' := by
  cases e with
  | start | cancel => cases hs
  | reserve =>
    obtain ⟨hstage, hs⟩ := Option.ite_none_right_eq_some.1 hs
    cases hs
    exact h.move hr rfl (by rw [hstage.1]; rfl) fun _ _ _ => rfl
  | begin =>
    obtain ⟨hstage, hs⟩ := Option.ite_none_right_eq_some.1 hs
    cases hs
    have hupdate : Consistent (m.update id fun job => { job with state := .downloading }) :=
      h.update (fun _ => rfl) fun _ _ => ⟨r, hr, by rw [hstage]; rfl⟩
    exact hupdate.move (runner_update hr id _) rfl (by rw [hstage]; rfl) fun _ _ _ => rfl
  | fail _ message =>
    obtain ⟨hstage, hs⟩ := Option.ite_none_right_eq_some.1 hs
    cases hs
    have hupdate : Consistent (m.fail id message) := h.update (fun _ => rfl) fun _ hlive => by cases hlive
    refine hupdate.move (runner_update hr id _) rfl (by rw [hstage]; rfl) fun job hjob hlive => ?_
    rw [Manager.fail, update_get?] at hjob
    obtain ⟨_, -, rfl⟩ := Option.map_eq_some_iff.1 hjob
    cases hlive
  | complete =>
    obtain ⟨-, hs⟩ := Option.ite_none_right_eq_some.1 hs
    cases hs
    exact h.settle hr rfl rfl
  | cancelled =>
    obtain ⟨-, hs⟩ := Option.ite_none_right_eq_some.1 hs
    cases hs
    exact h.settle hr rfl rfl
  | releaseSlot =>
    obtain ⟨hstage, hs⟩ := Option.ite_none_right_eq_some.1 hs
    cases hs
    refine h.move hr rfl rfl fun job hjob hlive => ?_
    obtain ⟨r', hr', hrun⟩ := h.live id job hjob hlive
    cases Option.some.inj (hr.symm.trans hr')
    exact hrun
  | releaseDestination =>
    obtain ⟨hstage, hs⟩ := Option.ite_none_right_eq_some.1 hs
    cases hs
    refine h.giveUp hr rfl rfl fun job hjob => ?_
    -- A goroutine that gives its destination up no longer runs for its job.
    by_contra hlive
    obtain ⟨r', hr', hrun⟩ := h.live id job hjob (by simpa using hlive)
    cases Option.some.inj (hr.symm.trans hr')
    rcases hstage.1 with hfailed | hsettled
    · rw [hfailed] at hrun
      cases hrun
    · rw [hsettled] at hrun
      cases hrun
  | forget =>
    obtain ⟨hstage, hs⟩ := Option.ite_none_right_eq_some.1 hs
    cases hs
    exact h.forget hr hstage

/-- What a step does: a new job, a job marked for cancellation, or a stage of a goroutine. -/
theorem step_cases (hs : m.step e = some m') :
    m' = m ∨
    (∃ found overwrite id now destination oldest, e = .start found overwrite (.ok id) now destination oldest ∧
      id ∉ m.issued ∧ m.oldestRemembered oldest = true ∧ m.activeTargets.get? destination = none ∧
      m' = (m.pruneLocked oldest).enter id now destination) ∨
    (∃ id job, e = .cancel id ∧ m.jobs.get? id = some job ∧ job.live = true ∧
      m' = { m with jobs := m.jobs.set id { job with state := .cancelling } }) ∨
    ∃ id r, m.runners.get? id = some r ∧ m.runnerStep id r e = some m' := by
  cases e with
  | start found overwrite randomID now destination oldest =>
    obtain ⟨⟨hid, holdest⟩, hs⟩ := Option.ite_none_right_eq_some.1 hs
    unfold startValidated at hs
    cases hfound : checkDestination overwrite found with
    | error e =>
      rw [hfound] at hs
      exact .inl (Option.some.inj hs).symm
    | ok =>
      cases randomID with
      | error e =>
        rw [hfound] at hs
        exact .inl (Option.some.inj hs).symm
      | ok id =>
        rw [hfound] at hs
        simp only at hs
        split_ifs at hs with hactive
        · exact .inl (Option.some.inj hs).symm
        · refine .inr (.inl ⟨found, overwrite, id, now, destination, oldest, rfl, hid id rfl, holdest, ?_, ?_⟩)
          · simpa using hactive
          · exact (Option.some.inj hs).symm
  | cancel id =>
    simp only [Manager.step, Manager.cancel] at hs
    cases hjob : m.jobs.get? id with
    | none =>
      rw [hjob] at hs
      exact .inl (Option.some.inj hs).symm
    | some job =>
      rw [hjob] at hs
      simp only at hs
      split_ifs at hs with hlive
      · exact .inl (Option.some.inj hs).symm
      · rw [Bool.or_eq_true, not_or] at hlive
        exact .inr (.inr (.inl ⟨id, job, rfl, hjob, by simpa using hlive.1, (Option.some.inj hs).symm⟩))
  | reserve id | begin id | fail id _ | complete id | cancelled id | releaseSlot id | releaseDestination id | forget id =>
    obtain ⟨r, hr, hs⟩ := Option.bind_eq_some_iff.1 hs
    exact .inr (.inr (.inr ⟨id, r, hr, hs⟩))

theorem pruneLocked_issued : (m.pruneLocked oldest).issued = m.issued := by
  unfold Manager.pruneLocked
  split
  · rfl
  · cases oldest <;> rfl

theorem pruneLocked_activeTargets : (m.pruneLocked oldest).activeTargets = m.activeTargets := by
  unfold Manager.pruneLocked
  split
  · rfl
  · cases oldest <;> rfl

/-- Every step keeps the tables consistent. -/
theorem Consistent.step (h : Consistent m) (hs : m.step e = some m') : Consistent m' := by
  rcases step_cases hs with rfl | ⟨_, _, id, now, destination, oldest, -, hid, -, hfree, rfl⟩ | ⟨id, job, -, hjob, hlive, rfl⟩ |
    ⟨id, r, hr, hs⟩
  · exact h
  · exact h.pruneLocked.enter (by rw [pruneLocked_issued]; exact hid) (by rw [pruneLocked_activeTargets]; exact hfree)
  · exact h.setJob hjob rfl fun hlive => by cases hlive
  · exact h.runnerStep hr hs

/-! ## Jobs that are gone -/

/-- The job was in the table and is no longer. -/
def Gone (m : Manager) (id : String) : Prop := id ∈ m.issued ∧ m.jobs.get? id = none

/-- The jobs and ids that a section leaves are those it found, or fewer. -/
structure Keeps (m m' : Manager) : Prop where
  issued : m'.issued = m.issued
  jobs : ∀ id, m.jobs.get? id = none → m'.jobs.get? id = none
  length : m'.jobs.length ≤ m.jobs.length

theorem keeps_update (id : String) (mutate : DownloadJob → DownloadJob) : Keeps m (m.update id mutate) := by
  unfold Manager.update
  split
  · exact ⟨rfl, fun _ h => h, Nat.le_refl _⟩
  · rename_i job hjob
    refine ⟨rfl, fun id' hnone => ?_, Table.length_set_le_of_get? hjob⟩
    rw [Table.get?_set, if_neg, hnone]
    rintro rfl
    rw [hjob] at hnone
    cases hnone

theorem keeps_settle (id destination : String) : Keeps m (m.settle id destination) := by
  have hjobs : ∀ id', m.jobs.get? id' = none → (m.jobs.delete id).get? id' = none := by
    intro id' hnone
    rw [Table.get?_delete, hnone, ite_self]
  unfold Manager.settle releaseDestination
  split <;> exact ⟨rfl, hjobs, Table.length_filter_le _⟩

theorem keeps_runnerStep (hs : m.runnerStep id r e = some m') : Keeps m m' := by
  cases e with
  | start | cancel => cases hs
  | reserve | releaseSlot | forget =>
    obtain ⟨-, hs⟩ := Option.ite_none_right_eq_some.1 hs
    cases hs
    exact ⟨rfl, fun _ h => h, Nat.le_refl _⟩
  | begin =>
    obtain ⟨-, hs⟩ := Option.ite_none_right_eq_some.1 hs
    cases hs
    exact ⟨(keeps_update id _).issued, (keeps_update id _).jobs, (keeps_update id _).length⟩
  | fail =>
    obtain ⟨-, hs⟩ := Option.ite_none_right_eq_some.1 hs
    cases hs
    exact ⟨(keeps_update id _).issued, (keeps_update id _).jobs, (keeps_update id _).length⟩
  | complete =>
    obtain ⟨-, hs⟩ := Option.ite_none_right_eq_some.1 hs
    cases hs
    exact ⟨(keeps_settle id _).issued, (keeps_settle id _).jobs, (keeps_settle id _).length⟩
  | cancelled =>
    obtain ⟨-, hs⟩ := Option.ite_none_right_eq_some.1 hs
    cases hs
    exact ⟨(keeps_settle id _).issued, (keeps_settle id _).jobs, (keeps_settle id _).length⟩
  | releaseDestination =>
    obtain ⟨-, hs⟩ := Option.ite_none_right_eq_some.1 hs
    cases hs
    unfold Manager.releaseDestination Manager.move
    split <;> exact ⟨rfl, fun _ h => h, Nat.le_refl _⟩

theorem pruneLocked_get? {id : String} (h : m.jobs.get? id = none) : (m.pruneLocked oldest).jobs.get? id = none := by
  unfold Manager.pruneLocked
  split
  · exact h
  · cases oldest with
    | none => exact h
    | some id' =>
      rw [Table.get?_delete, h, ite_self]

theorem Gone.step (h : m.Gone id) (hs : m.step e = some m') : m'.Gone id := by
  obtain ⟨hissued, hnone⟩ := h
  rcases step_cases hs with rfl | ⟨_, _, id', now, destination, oldest, -, hid, -, -, rfl⟩ | ⟨id', job, -, hjob, -, rfl⟩ |
    ⟨id', r, -, hs⟩
  · exact ⟨hissued, hnone⟩
  · refine ⟨List.mem_cons_of_mem _ (by rw [pruneLocked_issued]; exact hissued), ?_⟩
    have hne : id ≠ id' := fun heq => hid (heq ▸ hissued)
    rw [enter, Table.get?_set, if_neg hne]
    exact pruneLocked_get? hnone
  · refine ⟨hissued, ?_⟩
    rw [Table.get?_set, if_neg, hnone]
    rintro rfl
    rw [hjob] at hnone
    cases hnone
  · have hkeeps := keeps_runnerStep hs
    exact ⟨hkeeps.issued ▸ hissued, hkeeps.jobs id hnone⟩

/-! ## How many jobs are remembered -/

def liveCount (m : Manager) : Nat := (m.jobs.entries.filter fun e => e.2.live).length

/-- Pruning makes room unless every job is live. -/
theorem length_pruneLocked (holdest : m.oldestRemembered oldest = true) (hlength : m.jobs.length ≤ maxRememberedJobs)
    (hlive : m.liveCount < maxRememberedJobs) : (m.pruneLocked oldest).jobs.length < maxRememberedJobs := by
  unfold Manager.pruneLocked
  split
  · assumption
  · rename_i hfull
    cases oldest with
    | none =>
      have hall : m.liveCount = m.jobs.length := by
        rw [liveCount, List.filter_eq_self.2 (List.all_eq_true.1 holdest)]
        rfl
      omega
    | some id =>
      cases hjob : m.jobs.get? id with
      | none =>
        simp only [oldestRemembered, hjob] at holdest
        cases holdest
      | some job =>
        have hdelete : (m.jobs.delete id).length < m.jobs.length :=
          List.length_filter_lt_length_iff_exists.2 ⟨(id, job), Table.get?_eq_some.1 hjob, by simp⟩
        exact Nat.lt_of_lt_of_le hdelete hlength

/-- A download is started only while fewer jobs than are remembered are live. -/
def Paced (m : Manager) : Event → Prop
  | .start .. => m.liveCount < maxRememberedJobs
  | _ => True

theorem length_step (hlength : m.jobs.length ≤ maxRememberedJobs) (hpaced : m.Paced e) (hs : m.step e = some m') :
    m'.jobs.length ≤ maxRememberedJobs := by
  rcases step_cases hs with rfl | ⟨_, _, id, now, destination, oldest, rfl, -, holdest, -, rfl⟩ | ⟨id, job, -, hjob, -, rfl⟩ |
    ⟨id, r, -, hs⟩
  · exact hlength
  · have hprune := length_pruneLocked holdest hlength hpaced
    exact Nat.le_trans (Table.length_set_le _ _) hprune
  · exact Nat.le_trans (Table.length_set_le_of_get? hjob) hlength
  · exact Nat.le_trans (keeps_runnerStep hs).length hlength

/-! ## Runs -/

/-- The tables agree. -/
structure Agree (m : Manager) : Prop where
  oneLive : ∀ id id' job job', m.jobs.get? id = some job → m.jobs.get? id' = some job' → job.live = true → job'.live = true →
    job.destination = job'.destination → id = id'
  reserved : ∀ id job, m.jobs.get? id = some job → job.live = true → m.activeTargets.get? job.destination = some id
  targets : ∀ destination id, m.activeTargets.get? destination = some id ↔
    ∃ r, m.runners.get? id = some r ∧ r.destination = destination ∧ r.stage.holds = true
  cancellable : ∀ id job, m.jobs.get? id = some job → job.live = true → (m.cancellations.get? id).isSome

theorem Consistent.reserved {job : DownloadJob} (h : Consistent m) (hjob : m.jobs.get? id = some job) (hlive : job.live = true) :
    m.activeTargets.get? job.destination = some id := by
  obtain ⟨r, hr, hrun⟩ := h.live id job hjob hlive
  rw [h.targets]
  exact ⟨r, hr, h.destinations id job r hjob hr, by rw [Stage.holds, hrun]; rfl⟩

theorem Consistent.agree (h : Consistent m) : Agree m where
  oneLive id id' job job' hjob hjob' hlive hlive' hdestination := by
    have hid := h.reserved hjob hlive
    have hid' := h.reserved hjob' hlive'
    rw [hdestination] at hid
    exact Option.some.inj (hid.symm.trans hid')
  reserved _ _ hjob hlive := h.reserved hjob hlive
  targets := h.targets
  cancellable id job hjob hlive := by
    obtain ⟨r, hr, -⟩ := h.live id job hjob hlive
    exact h.cancellations id r hr

/-- In every run the tables agree, a job that is gone stays away, and the table is bounded if the starts are paced. -/
theorem job_tables {slots : Nat} {events : List Event} {m : Manager}
    (h : Run (fun m e m' => m.step e = some m') (new slots) events m) :
    Agree m ∧
      (∀ id more m', m.Gone id → Run (fun m e m' => m.step e = some m') m more m' → m'.Gone id) ∧
      (Run (fun m e m' => m.step e = some m' ∧ m.Paced e) (new slots) events m → m.jobs.length ≤ maxRememberedJobs) := by
  refine ⟨?_, fun id more m' hgone hmore => ?_, fun hpaced => ?_⟩
  · exact (h.inv Consistent (fun _ _ _ hm hs => hm.step hs) (consistent_new slots)).agree
  · exact hmore.inv (·.Gone id) (fun _ _ _ hm hs => hm.step hs) hgone
  · exact hpaced.inv (fun m => m.jobs.length ≤ maxRememberedJobs) (fun _ _ _ hm hs => length_step hm hs.2 hs.1) (Nat.zero_le _)

/-- A download that is started and cancelled. -/
def startAndCancel : List Event := [.start .missing false (.ok "0a1b") 0 "/models/a/a.gguf" none, .cancel "0a1b"]

theorem startAndCancel_run : ∃ m, Run (fun m e m' => m.step e = some m') (new 2) startAndCancel m :=
  ⟨_, .cons rfl (.cons rfl .nil)⟩

theorem startAndCancel_agree : ∃ m, Run (fun m e m' => m.step e = some m') (new 2) startAndCancel m ∧ Agree m := by
  obtain ⟨m, h⟩ := startAndCancel_run
  exact ⟨m, h, (job_tables h).1⟩

/-- A job that is being cancelled is not live, and still reserves its destination. -/
theorem cancelling_reserves : ∃ m, Run (fun m e m' => m.step e = some m') (new 2) startAndCancel m ∧
    m.activeTargets.get? "/models/a/a.gguf" = some "0a1b" ∧ ∀ job, m.jobs.get? "0a1b" = some job → job.live = false := by
  refine ⟨_, .cons rfl (.cons rfl .nil), by decide +kernel, fun job hjob => ?_⟩
  rw [Table.get?_set, if_pos rfl] at hjob
  cases hjob
  rfl

end Manager
end Tanpopo.Download
