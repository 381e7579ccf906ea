import Tanpopo.Download.TransferSafety
/-!
# A transfer comes to an end

- `Job.remaining`: what a job has left to do, in moves.
- `transfer_ends`: every run has only so many moves, and a job that has not
  ended can make one.
-/

namespace Tanpopo.Download.Transfer

variable {c : Source} {cancelled : Bool}

/-! ## The pool -/

/-- The bytes of a range. -/
def size (r : ByteRange) : ℕ := (r.last - r.first + 1).toNat

def Worker.remaining : Worker → ℕ
  | .idle => 1
  | .asking range => size range + 4
  | .copying range written => size range - written + 3
  | .gone => 0

def PoolEvent.moves : PoolEvent → Bool
  | .copies _ count => 0 < count
  | _ => true

def PoolEvent.fault : PoolEvent → Bool
  | .breaks _ _ => true
  | _ => false

namespace Pool
variable {p p' : Pool} {i : ℕ} {w w' : Worker} {r : ByteRange}

/-- Each byte that is not yet planned may be a range of its own. -/
def remaining (p : Pool) : ℕ :=
  6 * (p.total - p.start).toNat + (p.queue.map fun r => size r + 4).sum + (p.workers.map Worker.remaining).sum +
    if p.closed then 0 else 1

/-- Another worker in the place of one. -/
theorem remaining_put (hw : p.workers[i]? = some w) (w' : Worker) :
    (p.put i w').remaining + w.remaining = p.remaining + w'.remaining := by
  obtain ⟨before, after, hworkers, hput⟩ := workers_split hw
  have hsum : ((p.put i w').workers.map Worker.remaining).sum + w.remaining =
      (p.workers.map Worker.remaining).sum + w'.remaining := by
    rw [hworkers, hput]
    simp only [List.map_append, List.map_cons, List.sum_append, List.sum_cons]
    omega
  rw [remaining, remaining]
  change 6 * (p.total - p.start).toNat + (p.queue.map fun r => size r + 4).sum + _ + (if p.closed then 0 else 1) + _ = _
  omega

/-- A range less in the queue. -/
theorem remaining_queue {rest : List ByteRange} (hqueue : p.queue = r :: rest) :
    ({ p with queue := rest } : Pool).remaining + (size r + 4) = p.remaining := by
  simp only [remaining, hqueue, List.map_cons, List.sum_cons]
  omega

theorem size_eq (h : p.Inv c cancelled) (hr : r ∈ p.accepted) : (size r : ℤ) = expected r := by
  have hbounds := h.accepted_bounds hr
  rw [h.expected_eq hr, size]
  omega

/-- Every event of the pool but an empty read is a move. -/
theorem Inv.decreases {e : PoolEvent} (h : p.Inv c cancelled) (hstep : p.step c cancelled e = some p') :
    p'.remaining + (if e.moves then 1 else 0) ≤ p.remaining := by
  have hfail : ∀ {i : ℕ} {w : Worker} {err : Error}, p.workers[i]? = some w → 1 ≤ w.remaining →
      (p.fail i err).remaining + 1 ≤ p.remaining := by
    intro i w err hw hpos
    have hput := remaining_put hw .gone
    rw [show Worker.gone.remaining = 0 from rfl] at hput
    change (p.put i .gone).remaining + 1 ≤ p.remaining
    omega
  cases e with
  | produces =>
    simp only [Pool.step] at hstep
    split at hstep
    next hguard =>
      cases hstep
      obtain ⟨hfirst, hle, hlast, hnext⟩ := planDownloadRange_spec h.tiles.le hguard.2.1 h.total_lt h.chunkSize
      simp only [remaining, PoolEvent.moves, if_true, List.map_append, List.map_cons, List.map_nil, List.sum_append,
        List.sum_cons, List.sum_nil, size, hnext, hfirst]
      omega
    next => cases hstep
  | closes =>
    simp only [Pool.step] at hstep
    split at hstep
    next hguard =>
      cases hstep
      simp only [remaining, PoolEvent.moves, if_true, if_neg hguard.1]
      omega
    next => cases hstep
  | takes i =>
    simp only [Pool.step] at hstep
    split at hstep
    next range rest hw hqueue =>
      cases hstep
      have hput := remaining_put hw (.asking range)
      have hless := remaining_queue (p := p.put i (.asking range)) hqueue
      simp only [Worker.remaining] at hput
      simp only [PoolEvent.moves, if_true]
      omega
    next => cases hstep
  | leaves i =>
    simp only [Pool.step] at hstep
    split at hstep
    next hguard =>
      cases hstep
      have hput := remaining_put hguard.1 .gone
      simp only [Worker.remaining] at hput
      simp only [PoolEvent.moves, if_true]
      omega
    next => cases hstep
  | responds i answer =>
    simp only [Pool.step] at hstep
    split at hstep
    next range hw =>
      split at hstep
      · cases hstep
      · split at hstep
        · cases hstep
          exact hfail hw (by simp [Worker.remaining])
        · split at hstep
          · cases hstep
            have hput := remaining_put hw (.copying range 0)
            simp only [Worker.remaining] at hput
            simp only [PoolEvent.moves, if_true]
            change (p.put i (.copying range 0)).remaining + 1 ≤ p.remaining
            omega
          · cases hstep
            exact hfail hw (by simp [Worker.remaining])
    next => cases hstep
  | copies i count =>
    simp only [Pool.step] at hstep
    split at hstep
    next range written hw =>
      split at hstep
      next hle =>
        cases hstep
        have hsize := size_eq h (h.copying range written (List.mem_of_getElem? hw))
        have hput := remaining_put hw (.copying range (written + count))
        simp only [Worker.remaining] at hput
        change (p.put i (.copying range (written + count))).remaining +
          (if decide (0 < count) = true then 1 else 0) ≤ p.remaining
        simp only [decide_eq_true_eq]
        split
        · omega
        · omega
      next => cases hstep
    next => cases hstep
  | finishes i =>
    simp only [Pool.step] at hstep
    split at hstep
    next range written hw =>
      split at hstep
      next =>
        cases hstep
        have hput := remaining_put hw .idle
        simp only [Worker.remaining] at hput
        simp only [PoolEvent.moves, if_true]
        omega
      next => cases hstep
    next => cases hstep
  | breaks i err =>
    simp only [Pool.step] at hstep
    split at hstep
    next hw =>
      cases hstep
      exact hfail hw (by simp [Worker.remaining])
    next hw =>
      cases hstep
      exact hfail hw (by simp [Worker.remaining])
    next => cases hstep

/-- No worker copies more than its range. -/
def Within (p : Pool) : Prop := ∀ (r : ByteRange) (n : ℕ), .copying r n ∈ p.workers → (n : ℤ) ≤ expected r

theorem Within.put (h : p.Within) (hw : ∀ (r : ByteRange) (n : ℕ), w' = .copying r n → (n : ℤ) ≤ expected r) :
    (p.put i w').Within := by
  intro r n hmem
  obtain hold | hnew := List.mem_or_eq_of_mem_set hmem
  · exact h r n hold
  · exact hw r n hnew.symm

theorem within_step {e : PoolEvent} (h : p.Inv c cancelled) (hwithin : p.Within) (hstep : p.step c cancelled e = some p') :
    p'.Within := by
  cases e with
  | produces =>
    simp only [Pool.step] at hstep
    split at hstep
    · cases hstep
      exact hwithin
    · cases hstep
  | closes =>
    simp only [Pool.step] at hstep
    split at hstep
    · cases hstep
      exact hwithin
    · cases hstep
  | takes i =>
    simp only [Pool.step] at hstep
    split at hstep
    · cases hstep
      exact hwithin.put (i := i) (by simp)
    · cases hstep
  | leaves i =>
    simp only [Pool.step] at hstep
    split at hstep
    · cases hstep
      exact hwithin.put (by simp)
    · cases hstep
  | responds i answer =>
    have hnext := h.step hstep
    simp only [Pool.step] at hstep
    split at hstep
    next range hw =>
      split at hstep
      · cases hstep
      · split at hstep
        · cases hstep
          exact hwithin.put (i := i) (by simp)
        · split at hstep
          · cases hstep
            have hmem : range ∈ p.accepted ++ [range] := by simp
            have hbounds := hnext.accepted_bounds hmem
            have hexpected := hnext.expected_eq hmem
            refine hwithin.put (i := i) fun r n heq => ?_
            cases heq
            omega
          · cases hstep
            exact hwithin.put (i := i) (by simp)
    next => cases hstep
  | copies i count =>
    simp only [Pool.step] at hstep
    split at hstep
    next range written hw =>
      split at hstep
      next hle =>
        cases hstep
        refine hwithin.put (i := i) fun r n heq => ?_
        cases heq
        exact_mod_cast hle
      next => cases hstep
    next => cases hstep
  | finishes i =>
    simp only [Pool.step] at hstep
    split at hstep
    · split at hstep
      · cases hstep
        exact hwithin.put (by simp)
      · cases hstep
    · cases hstep
  | breaks i err =>
    simp only [Pool.step] at hstep
    split at hstep
    · cases hstep
      exact hwithin.put (i := i) (by simp)
    · cases hstep
      exact hwithin.put (i := i) (by simp)
    · cases hstep

/-- Until it is closed and its workers have returned, the pool can move, and without a fault. -/
theorem Inv.moves (h : p.Inv c cancelled) (hwithin : p.Within)
    (hbusy : ¬ (p.closed = true ∧ p.workers.all (· = .gone) = true)) :
    ∃ e, e.moves = true ∧ e.fault = false ∧ (p.step c cancelled e).isSome = true := by
  by_cases hall : p.workers.all (· = .gone) = true
  · -- every worker has returned, and the producer is left
    have hclosed : ¬ p.closed = true := fun hp => hbusy ⟨hp, hall⟩
    obtain ⟨w, hw⟩ := List.exists_mem_of_ne_nil _ h.workers
    have hgone : w = .gone := of_decide_eq_true (List.all_eq_true.1 hall w hw)
    have hstopped : p.stopped cancelled = true := by
      by_contra hrunning
      exact hclosed (h.gone (hgone ▸ hw) (Bool.eq_false_iff.2 hrunning)).1
    exact ⟨.closes, rfl, rfl, by simp [Pool.step, hclosed, hstopped]⟩
  · obtain ⟨w, hw, hne⟩ : ∃ w ∈ p.workers, w ≠ .gone := by
      simpa [List.all_eq_true] using hall
    obtain ⟨i, hi⟩ := List.mem_iff_getElem?.1 hw
    cases w with
    | gone => exact absurd rfl hne
    | asking range => exact ⟨.responds i ⟨200, "", 0, ""⟩, rfl, rfl, by simp [Pool.step, hi, Source.Honest]⟩
    | copying range written =>
      obtain hlt | heq := lt_or_eq_of_le (hwithin range written hw)
      · have hle : ((written + 1 : ℕ) : ℤ) ≤ expected range := by
          push_cast
          omega
        refine ⟨.copies i 1, rfl, rfl, ?_⟩
        simp only [Pool.step, hi]
        rw [if_pos (by exact_mod_cast hle)]
        rfl
      · exact ⟨.finishes i, rfl, rfl, by simp [Pool.step, hi, heq]⟩
    | idle =>
      cases hqueue : p.queue with
      | cons range rest => exact ⟨.takes i, rfl, rfl, by simp [Pool.step, hi, hqueue]⟩
      | nil =>
        by_cases hclosed : p.closed = true
        · exact ⟨.leaves i, rfl, rfl, by simp [Pool.step, hi, hqueue, hclosed]⟩
        · by_cases hstart : p.start < p.total
          · refine ⟨.produces, rfl, rfl, ?_⟩
            have hlength := List.length_pos_of_mem hw
            simp [Pool.step, hclosed, hstart, hqueue, hlength]
          · exact ⟨.closes, rfl, rfl, by simp [Pool.step, hclosed, not_lt.1 hstart]⟩

end Pool

/-! ## The job -/

/-- An empty read is not a move, and to cancel is the user's. -/
def Event.moves : Event → Bool
  | .cancels => false
  | .receives count => 0 < count
  | .pool e => e.moves
  | _ => true

def Event.fault : Event → Bool
  | .fails _ => true
  | .pool e => e.fault
  | _ => false

/-- The moves that are left, at most. -/
def Stage.remaining (c : Source) : Stage → ℕ
  | .waiting => 7 * c.content.length + 26
  | .opening => 7 * c.content.length + 25
  | .inspecting => 7 * c.content.length + 24
  | .truncating _ => 7 * c.content.length + 23
  | .requesting => 7 * c.content.length + 23
  | .sequential written => c.content.length - written + 13
  | .chunked p => p.remaining + 13
  | .fetched => 12
  | .syncing => 11
  | .closing => 10
  | .closed => 9
  | .looking => 8
  | .backingUp => 7
  | .placing _ => 6
  | .restoring => 5
  | .clearing => 5
  | .leaving _ => 1
  | .ended _ => 0

namespace Job
variable {j j' : Job} {previous : Option Entry} {e : Event}

def remaining (c : Source) (j : Job) : ℕ := j.stage.remaining c

theorem remaining_open {total : Int} (file : Bytes) (htotal : total = c.content.length) (hlt : total < 2 ^ 63)
    (hpos : 1 ≤ total) (hchunk : 1 ≤ c.chunkSize) : (Pool.open_ c total file).remaining ≤ 7 * c.content.length + 1 := by
  have hworkers : workerCount c total ≤ total := by
    have hless : int64 (total - 1) = total - 1 := int64_of_bounds (by omega) (by omega)
    have hdiv : 0 ≤ (total - 1) / c.chunkSize := Int.ediv_nonneg (by omega) (by omega)
    have hle : (total - 1) / c.chunkSize ≤ total - 1 := Int.ediv_le_self _ (by omega)
    have hsegments : int64 ((total - 1) / c.chunkSize + 1) = (total - 1) / c.chunkSize + 1 :=
      int64_of_bounds (by omega) (by omega)
    simp only [workerCount, hless, hsegments]
    split <;> omega
  simp only [Pool.remaining, Pool.open_, List.map_nil, List.sum_nil, List.map_replicate, List.sum_replicate, Worker.remaining,
    smul_eq_mul, Bool.false_eq_true, if_false]
  omega

theorem remaining_leave {err : Error} (c : Source) (j : Job) : (j.leave err).remaining c = 1 := rfl

theorem remaining_giveUp (c : Source) (j : Job) : j.giveUp.remaining c = 1 := rfl

theorem remaining_setStage (c : Source) (j : Job) (stage : Stage) : (j.setStage stage).remaining c = stage.remaining c := rfl

theorem goes_decreases (h : j.Holds c previous) (hstep : j.goes c = some j') : j'.remaining c + 1 ≤ j.remaining c := by
  cases hstage : j.stage with
  | truncating total =>
    simp only [Holds, hstage] at h
    simp only [Job.goes, hstage] at hstep
    have hremaining : j.remaining c = 7 * c.content.length + 23 := by simp only [remaining, hstage, Stage.remaining]
    obtain ⟨-, -, -, htotal, hlt⟩ := h
    split at hstep
    · cases hstep
      rw [remaining_leave, hremaining]
      omega
    · split at hstep
      · cases hstep
        rw [remaining_leave, hremaining]
        omega
      next hvalid =>
        cases hstep
        have hopen := remaining_open (List.replicate total.toNat 0) htotal hlt (by omega) (by omega)
        rw [hremaining]
        change (Pool.open_ c total (List.replicate total.toNat 0)).remaining + 13 + 1 ≤ _
        omega
  | chunked p =>
    simp only [Job.goes, hstage] at hstep
    have hremaining : j.remaining c = p.remaining + 13 := by simp only [remaining, hstage, Stage.remaining]
    split at hstep
    · split at hstep
      · cases hstep
        rw [remaining_leave, hremaining]
        omega
      · cases hstep
        split
        · rw [remaining_leave, hremaining]
          omega
        · rw [hremaining]
          change 12 + 1 ≤ _
          omega
    · cases hstep
  | fetched | closed =>
    simp only [Job.goes, hstage, Option.some.injEq] at hstep
    subst hstep
    unfold unlessCancelled
    split
    · simp [remaining, hstage, setStage, Stage.remaining]
    · simp [remaining, hstage, setStage, Stage.remaining]
  | waiting | opening | syncing | closing | backingUp | restoring | clearing | leaving outcome =>
    simp only [Job.goes, hstage, Option.some.injEq] at hstep
    subst hstep
    simp [remaining, hstage, setStage, Stage.remaining]
  | looking =>
    simp only [Job.goes, hstage] at hstep
    have hremaining : j.remaining c = 8 := by simp only [remaining, hstage, Stage.remaining]
    split at hstep
    · cases hstep
      simp [remaining, hstage, setStage, Stage.remaining]
    · cases hstep
      rw [remaining_giveUp, hremaining]
      omega
    · cases hstep
      split
      · simp [remaining, hstage, setStage, Stage.remaining]
      · rw [remaining_giveUp, hremaining]
        omega
  | placing backed =>
    simp only [Job.goes, hstage, Option.some.injEq] at hstep
    subst hstep
    cases backed with
    | false | true => simp [remaining, hstage, Stage.remaining]
  | inspecting | requesting | sequential written | ended outcome =>
    simp only [Job.goes, hstage] at hstep
    cases hstep

theorem fails_decreases {err : Error} (hstep : j.fails err = some j') : j'.remaining c + 1 ≤ j.remaining c := by
  cases hstage : j.stage with
  | waiting =>
    simp only [Job.fails, hstage] at hstep
    split at hstep
    · cases hstep
      simp [remaining, hstage, setStage, Stage.remaining]
    · cases hstep
  | placing backed =>
    simp only [Job.fails, hstage, Option.some.injEq] at hstep
    subst hstep
    cases backed with
    | false | true => simp [remaining, hstage, setStage, Stage.remaining]
  | opening | leaving outcome =>
    simp only [Job.fails, hstage, Option.some.injEq] at hstep
    subst hstep
    simp [remaining, hstage, setStage, Stage.remaining]
  | truncating total | requesting | sequential written =>
    simp only [Job.fails, hstage, Option.some.injEq] at hstep
    subst hstep
    rw [remaining_leave]
    simp only [remaining, hstage, Stage.remaining]
    omega
  | inspecting | syncing | closing | looking | backingUp | restoring | clearing =>
    simp only [Job.fails, hstage, Option.some.injEq] at hstep
    subst hstep
    rw [remaining_giveUp]
    simp only [remaining, hstage, Stage.remaining]
    omega
  | chunked p | fetched | closed | ended outcome =>
    simp only [Job.fails, hstage] at hstep
    cases hstep

theorem decreases (h : j.Holds c previous) (hstep : Steps c j e j') :
    j'.remaining c + (if e.moves then 1 else 0) ≤ j.remaining c := by
  cases e with
  | goes => exact goes_decreases h hstep
  | fails err => exact fails_decreases hstep
  | cancels =>
    simp only [Steps, Job.step, Option.some.injEq] at hstep
    subst hstep
    exact le_refl _
  | inspected head probe =>
    simp only [Steps, Job.step] at hstep
    split at hstep
    next hstage =>
      have hremaining : j.remaining c = 7 * c.content.length + 24 := by simp only [remaining, hstage, Stage.remaining]
      split at hstep
      · cases hstep
      · cases hstep
        rw [remaining_setStage, hremaining]
        split
        · exact le_refl _
        · exact le_refl _
    next => cases hstep
  | pool e =>
    simp only [Steps, Job.step] at hstep
    split at hstep
    next p hstage =>
      simp only [Holds, hstage] at h
      obtain ⟨p', hp', rfl⟩ := Option.map_eq_some_iff.1 hstep
      have hless := h.2.1.decreases hp'
      have hremaining : j.remaining c = p.remaining + 13 := by simp only [remaining, hstage, Stage.remaining]
      rw [hremaining]
      change p'.remaining + 13 + (if e.moves then 1 else 0) ≤ p.remaining + 13
      omega
    next => cases hstep
  | responds answer =>
    simp only [Steps, Job.step] at hstep
    split at hstep
    next hstage =>
      have hremaining : j.remaining c = 7 * c.content.length + 23 := by simp only [remaining, hstage, Stage.remaining]
      cases hstep
      rw [hremaining]
      split
      · change c.content.length - 0 + 13 + 1 ≤ _
        omega
      · rw [remaining_leave]
        change 1 + 1 ≤ _
        omega
    next => cases hstep
  | receives count =>
    simp only [Steps, Job.step] at hstep
    split at hstep
    next written hstage =>
      have hremaining : j.remaining c = c.content.length - written + 13 := by simp only [remaining, hstage, Stage.remaining]
      split at hstep
      next hle =>
        cases hstep
        rw [hremaining]
        change c.content.length - (written + count) + 13 + (if decide (0 < count) = true then 1 else 0) ≤ _
        simp only [decide_eq_true_eq]
        split
        · omega
        · omega
      next => cases hstep
    next => cases hstep
  | bodyEnds =>
    simp only [Steps, Job.step] at hstep
    split at hstep
    next written hstage =>
      have hremaining : j.remaining c = c.content.length - written + 13 := by simp only [remaining, hstage, Stage.remaining]
      split at hstep
      · cases hstep
        rw [remaining_setStage, hremaining]
        change 12 + 1 ≤ _
        omega
      · cases hstep
    next => cases hstep

/-- No body is longer than the file. -/
def Within (c : Source) (j : Job) : Prop :=
  match j.stage with
  | .chunked p => p.Within
  | .sequential written => written ≤ c.content.length
  | _ => True

theorem within_leave {err : Error} (c : Source) (j : Job) : (j.leave err).Within c := True.intro

theorem within_goes (hstep : j.goes c = some j') : j'.Within c := by
  cases hstage : j.stage with
  | truncating total =>
    simp only [Job.goes, hstage] at hstep
    split at hstep
    · cases hstep
      exact within_leave c j
    · split at hstep
      · cases hstep
        exact within_leave c j
      · cases hstep
        intro r n hmem
        cases (List.mem_replicate.1 hmem).2
  | chunked p =>
    simp only [Job.goes, hstage] at hstep
    split at hstep
    · split at hstep
      · cases hstep
        exact within_leave c j
      · cases hstep
        split
        · exact within_leave c j
        · exact True.intro
    · cases hstep
  | fetched | closed =>
    simp only [Job.goes, hstage, Option.some.injEq] at hstep
    subst hstep
    unfold unlessCancelled
    split
    · exact True.intro
    · exact True.intro
  | waiting | opening | syncing | closing | backingUp | restoring | clearing | leaving outcome =>
    simp only [Job.goes, hstage, Option.some.injEq] at hstep
    subst hstep
    exact True.intro
  | looking =>
    simp only [Job.goes, hstage] at hstep
    split at hstep
    · cases hstep
      exact True.intro
    · cases hstep
      exact True.intro
    · cases hstep
      split
      · exact True.intro
      · exact True.intro
  | placing backed =>
    simp only [Job.goes, hstage, Option.some.injEq] at hstep
    subst hstep
    cases backed with
    | false | true => exact True.intro
  | inspecting | requesting | sequential written | ended outcome =>
    simp only [Job.goes, hstage] at hstep
    cases hstep

theorem within_fails {err : Error} (hstep : j.fails err = some j') : j'.Within c := by
  cases hstage : j.stage with
  | waiting =>
    simp only [Job.fails, hstage] at hstep
    split at hstep
    · cases hstep
      exact True.intro
    · cases hstep
  | placing backed =>
    simp only [Job.fails, hstage, Option.some.injEq] at hstep
    subst hstep
    cases backed with
    | false | true => exact True.intro
  | opening | leaving outcome | truncating total | requesting | sequential written | inspecting | syncing | closing | looking
  | backingUp | restoring | clearing =>
    simp only [Job.fails, hstage, Option.some.injEq] at hstep
    subst hstep
    exact True.intro
  | chunked p | fetched | closed | ended outcome =>
    simp only [Job.fails, hstage] at hstep
    cases hstep

theorem Within.step (h : j.Holds c previous) (hwithin : j.Within c) (hstep : Steps c j e j') : j'.Within c := by
  cases e with
  | goes => exact within_goes hstep
  | fails err => exact within_fails hstep
  | cancels =>
    simp only [Steps, Job.step, Option.some.injEq] at hstep
    subst hstep
    exact hwithin
  | inspected head probe =>
    simp only [Steps, Job.step] at hstep
    split at hstep
    · split at hstep
      · cases hstep
      · cases hstep
        by_cases hranges : (inspectRemote c.chunkSize head probe).rangeSupported = true ∧
            c.chunkSize < (inspectRemote c.chunkSize head probe).size
        · simp only [hranges, and_self, if_true]
          exact True.intro
        · simp only [if_neg hranges]
          exact True.intro
    · cases hstep
  | pool e =>
    simp only [Steps, Job.step] at hstep
    split at hstep
    next p hstage =>
      simp only [Holds, hstage] at h
      simp only [Within, hstage] at hwithin
      obtain ⟨p', hp', rfl⟩ := Option.map_eq_some_iff.1 hstep
      exact Pool.within_step h.2.1 hwithin hp'
    next => cases hstep
  | responds answer =>
    simp only [Steps, Job.step] at hstep
    split at hstep
    · cases hstep
      split
      · exact Nat.zero_le _
      · exact within_leave c j
    · cases hstep
  | receives count =>
    simp only [Steps, Job.step] at hstep
    split at hstep
    · split at hstep
      next hle =>
        cases hstep
        exact hle
      next => cases hstep
    · cases hstep
  | bodyEnds =>
    simp only [Steps, Job.step] at hstep
    split at hstep
    · split at hstep
      · cases hstep
        exact True.intro
      · cases hstep
    · cases hstep

/-- A job that has not ended can move, and without a fault. -/
theorem Holds.moves (h : j.Holds c previous) (hwithin : j.Within c) (hended : ∀ outcome, j.stage ≠ .ended outcome) :
    ∃ e, e.moves = true ∧ e.fault = false ∧ (j.step c e).isSome = true := by
  cases hstage : j.stage with
  | ended outcome => exact absurd hstage (hended outcome)
  | inspecting => exact ⟨.inspected none none, rfl, rfl, by simp [Job.step, hstage]⟩
  | requesting => exact ⟨.responds ⟨200, "", 0, ""⟩, rfl, rfl, by simp [Job.step, hstage]⟩
  | sequential written =>
    simp only [Within, hstage] at hwithin
    obtain hlt | heq := Nat.lt_or_eq_of_le hwithin
    · exact ⟨.receives 1, rfl, rfl, by simpa [Job.step, hstage] using hlt⟩
    · exact ⟨.bodyEnds, rfl, rfl, by simp [Job.step, hstage, heq]⟩
  | chunked p =>
    simp only [Holds, hstage] at h
    simp only [Within, hstage] at hwithin
    by_cases hdone : p.closed = true ∧ p.workers.all (· = .gone) = true
    · refine ⟨.goes, rfl, rfl, ?_⟩
      simp only [Job.step, Job.goes, hstage]
      rw [if_pos hdone]
      split <;> rfl
    · obtain ⟨e, hmoves, hfault, hstep⟩ := h.2.1.moves hwithin hdone
      exact ⟨.pool e, hmoves, hfault, by simpa [Job.step, hstage] using hstep⟩
  | truncating total =>
    refine ⟨.goes, rfl, rfl, ?_⟩
    simp only [Job.step, Job.goes, hstage]
    split
    · rfl
    · split <;> rfl
  | looking =>
    refine ⟨.goes, rfl, rfl, ?_⟩
    simp only [Job.step, Job.goes, hstage]
    split <;> rfl
  | waiting | opening | fetched | syncing | closing | closed | backingUp | placing backed | restoring | clearing
  | leaving outcome => exact ⟨.goes, rfl, rfl, by simp [Job.step, Job.goes, hstage]⟩

end Job

/-- A transfer has only so many moves, and stops moving at its end only: whatever the order of
its events, its producer and its workers never wait for one another. -/
theorem transfer_ends {previous : Option Entry} {events : List Event} {j : Job}
    (h : Run (Steps c) (Job.start previous) events j) :
    (events.filter Event.moves).length ≤ 7 * c.content.length + 26 ∧
      ((∀ e, e.moves = true → e.fault = false → j.step c e = none) → ∃ outcome, j.stage = .ended outcome) := by
  have hstart : (Job.start previous).Holds c previous := ⟨⟨rfl, rfl⟩, rfl, rfl, rfl⟩
  constructor
  · have hbound := h.bounded (fun j => j.Holds c previous) (Job.remaining c) Event.moves
      (fun j e j' hj hstep => ⟨hj.step hstep, Job.decreases hj hstep⟩) hstart
    exact (Nat.le_add_right _ _).trans hbound
  · intro hstuck
    obtain ⟨hholds, hwithin⟩ := h.inv (fun j => j.Holds c previous ∧ j.Within c)
      (fun j e j' hj hstep => ⟨hj.1.step hstep, hj.2.step hj.1 hstep⟩) ⟨hstart, True.intro⟩
    by_contra hended
    obtain ⟨e, hmoves, hfault, hstep⟩ := hholds.moves hwithin fun outcome hstage => hended ⟨outcome, hstage⟩
    rw [hstuck e hmoves hfault] at hstep
    cases hstep

theorem replacing_ends : (replacing.filter Event.moves).length ≤ 7 * 5 + 26 := (transfer_ends replaced_run).1

end Tanpopo.Download.Transfer
