import Tanpopo.Download.Transfer
/-!
# What a transfer leaves at its destination

- `Pool.Inv`: ranges are planned one after another, each is fetched at most
  once, and what is fetched is what the remote has.
- `Job.Holds`: what each stage of a job knows of the files.
- `download_integrity`: what holds of the destination in every run.
-/

namespace Tanpopo.Download.Transfer

open Go

variable {c : Source} {cancelled : Bool}

/-! ## Arithmetic -/

theorem int64_of_bounds {n : Int} (hlow : -2 ^ 63 ≤ n) (hhigh : n < 2 ^ 63) : int64 n = n :=
  Int.bmod_eq_of_le (by omega) (by omega)

/-- A range is planned without leaving `int64`. -/
theorem planDownloadRange_spec {total chunkSize start : Int} (hstart : 0 ≤ start) (hlt : start < total)
    (htotal : total < 2 ^ 63) (hpos : 1 ≤ chunkSize) :
    let planned := planDownloadRange total chunkSize start
    planned.1.first = start ∧ start ≤ planned.1.last ∧ planned.1.last < total ∧ planned.2 = planned.1.last + 1 := by
  have hsize : int64 (total - start) = total - start := int64_of_bounds (by omega) (by omega)
  obtain ⟨size, hsize_eq⟩ : ∃ size, min chunkSize (total - start) = size := ⟨_, rfl⟩
  have hmin : size ≤ total - start := hsize_eq ▸ min_le_right _ _
  have hone : 1 ≤ size := hsize_eq ▸ le_min hpos (by omega)
  have hsum : int64 (start + size) = start + size := int64_of_bounds (by omega) (by omega)
  have hlast : int64 (start + size - 1) = start + size - 1 := int64_of_bounds (by omega) (by omega)
  have hnext : int64 (start + size - 1 + 1) = start + size := by
    rw [sub_add_cancel, hsum]
  simp only [planDownloadRange, hsize, hsize_eq, hsum, hlast, hnext, true_and]
  omega

theorem expected_eq {r : ByteRange} (hfirst : 0 ≤ r.first) (hle : r.first ≤ r.last) (hlast : r.last + 1 < 2 ^ 63) :
    expected r = r.last - r.first + 1 := by
  rw [expected, int64_of_bounds (n := r.last - r.first) (by omega) (by omega), int64_of_bounds (by omega) (by omega)]

theorem workerCount_pos {total : Int} (hpos : 1 ≤ total) (htotal : total < 2 ^ 63) (hchunk : 1 ≤ c.chunkSize) :
    1 ≤ workerCount c total := by
  have hless : int64 (total - 1) = total - 1 := int64_of_bounds (by omega) (by omega)
  have hdiv : 0 ≤ (total - 1) / c.chunkSize := Int.ediv_nonneg (by omega) (by omega)
  have hle : (total - 1) / c.chunkSize ≤ total - 1 := Int.ediv_le_self _ (by omega)
  have hsegments : int64 ((total - 1) / c.chunkSize + 1) = (total - 1) / c.chunkSize + 1 :=
    int64_of_bounds (by omega) (by omega)
  simp only [workerCount, hless, hsegments]
  split <;> omega

/-! ## Answers -/

theorem parseInt_lt {text : String} {n : Int} (h : parseInt text = some n) : n < 2 ^ 63 := by
  have hbounds : ∀ {found : Option Int}, (found.bind fun m => if -2 ^ 63 ≤ m ∧ m < 2 ^ 63 then some m else none) = some n →
      n < 2 ^ 63 := by
    intro found hfound
    obtain ⟨m, -, hm⟩ := Option.bind_eq_some_iff.1 hfound
    split at hm
    next hm' =>
      cases hm
      exact hm'.2
    next => cases hm
  simp only [parseInt] at h
  split at h <;> exact hbounds h

theorem parseContentRange_lt {value : String} {first last total : Int}
    (h : parseContentRange value = some (first, last, total)) : total < 2 ^ 63 := by
  simp only [parseContentRange] at h
  split at h
  · cases h
  · split at h
    · split at h
      · simp only [Option.bind_eq_bind, Option.bind_eq_some_iff] at h
        obtain ⟨_, _, _, _, _, _, _, _, _, _, _, htotal, h⟩ := h
        split at h
        · cases h
        · cases h
          exact parseInt_lt htotal
      · cases h
    · cases h

theorem Source.Honest.total_eq {answer : Answer} {first last total : Int} (h : c.Honest answer = true)
    (hstatus : answer.status = 206) (hrange : parseContentRange answer.contentRange = some (first, last, total)) :
    total = c.content.length := by
  simpa [Source.Honest, hstatus, hrange] using h

/-- Where ranges are supported, the size is that of the file. -/
theorem inspectRemote_size {head probe : Option Answer} (hprobe : probe.all c.Honest = true)
    (h : (inspectRemote c.chunkSize head probe).rangeSupported = true) :
    (inspectRemote c.chunkSize head probe).size = c.content.length ∧
      (inspectRemote c.chunkSize head probe).size < 2 ^ 63 := by
  revert h
  simp only [inspectRemote]
  generalize announcedSize head = size
  split
  · simp
  · cases probe with
    | none => simp
    | some answer =>
      simp only
      split
      · simp
      · next hstatus =>
        cases hrange : parseContentRange answer.contentRange with
        | none => simp
        | some found =>
          obtain ⟨first, last, total⟩ := found
          simp only
          split
          · simp
          · intro _
            exact ⟨Source.Honest.total_eq hprobe (not_not.1 hstatus) hrange, parseContentRange_lt hrange⟩

/-! ## Writing -/

theorem writeAt_length {file bytes : Bytes} {offset : Nat} (h : offset + bytes.length ≤ file.length) :
    (writeAt file offset bytes).length = file.length := by
  simp only [writeAt, List.length_append, List.length_take, List.length_replicate, List.length_drop]
  omega

theorem writeAt_getElem? {file bytes : Bytes} {offset i : Nat} (h : offset + bytes.length ≤ file.length) :
    (writeAt file offset bytes)[i]? =
      if offset ≤ i ∧ i < offset + bytes.length then bytes[i - offset]? else file[i]? := by
  have hoffset : (file.take offset).length = offset := by
    rw [List.length_take]
    omega
  simp only [writeAt, Nat.sub_eq_zero_of_le (show offset ≤ file.length by omega), List.replicate_zero, List.append_nil]
  rw [List.append_assoc, List.getElem?_append, hoffset]
  split
  · rw [if_neg (by omega), List.getElem?_take_of_lt (by assumption)]
  · rw [List.getElem?_append]
    split
    · rw [if_pos (by omega)]
    · rw [if_neg (by omega), List.getElem?_drop]
      congr 1
      omega

theorem Source.slice_length {offset count : Nat} (h : offset + count ≤ c.content.length) :
    (c.slice offset count).length = count := by
  rw [Source.slice, List.length_take, List.length_drop]
  omega

/-- Bytes of the file are put where they belong, and the others stay. -/
theorem writeAt_slice {file : Bytes} {offset count i : Nat} (h : offset + count ≤ c.content.length)
    (hfile : file.length = c.content.length) :
    (writeAt file offset (c.slice offset count))[i]? =
      if offset ≤ i ∧ i < offset + count then c.content[i]? else file[i]? := by
  rw [writeAt_getElem? (by rw [Source.slice_length h]; omega), Source.slice_length h]
  split
  next hi =>
    rw [Source.slice, List.getElem?_take_of_lt (by omega), List.getElem?_drop]
    congr 1
    omega
  next => rfl

theorem writeAt_take {written count : Nat} (h : written + count ≤ c.content.length) :
    writeAt (c.content.take written) written (c.slice written count) = c.content.take (written + count) := by
  have hlength : (c.content.take written).length = written := by
    rw [List.length_take]
    omega
  have hrest : (c.content.take written).drop (written + (c.slice written count).length) = [] :=
    List.drop_eq_nil_of_le (by omega)
  rw [writeAt, hrest, hlength, Nat.sub_self, List.replicate_zero, List.append_nil, List.append_nil, List.take_take,
    min_self, Source.slice, List.take_add]

/-! ## The pool -/

/-- The range a worker has asked for without an answer. -/
def Worker.asked : Worker → Option ByteRange
  | .asking range => some range
  | _ => none

namespace Pool
variable {p p' : Pool} {i : Nat} {w w' : Worker} {r : ByteRange}

/-- Ranges that are planned and not answered. -/
def pending (p : Pool) : List ByteRange := p.queue ++ p.workers.filterMap Worker.asked

/-- The byte is still to be copied. -/
def Coming (p : Pool) (r : ByteRange) (i : Nat) : Prop := ∃ n : Nat, .copying r n ∈ p.workers ∧ r.first + n ≤ i

structure Inv (c : Source) (cancelled : Bool) (p : Pool) : Prop where
  total : p.total = c.content.length
  total_lt : p.total < 2 ^ 63
  chunkSize : 1 ≤ c.chunkSize
  workers : p.workers ≠ []
  start : p.start ≤ p.total
  tiles : Interval.Tiles 0 p.planned p.start
  issued : (p.pending ++ p.accepted).Subperm p.planned
  copying : ∀ r n, .copying r n ∈ p.workers → r ∈ p.accepted
  length : p.file.length = c.content.length
  cover : p.stopped cancelled = false → ∀ i : Nat, (i : Int) < p.start →
    (∃ r ∈ p.pending, r.Contains i) ∨ ∃ r ∈ p.accepted, r.Contains i ∧ (p.file[i]? = c.content[i]? ∨ p.Coming r i)
  closed : p.closed = true → p.stopped cancelled = false → p.total ≤ p.start
  gone : .gone ∈ p.workers → p.stopped cancelled = false → p.closed = true ∧ p.queue = []

/-- Where a worker stands among the others. -/
theorem workers_split (h : p.workers[i]? = some w) :
    ∃ before after, p.workers = before ++ w :: after ∧ ∀ w', (p.put i w').workers = before ++ w' :: after := by
  obtain ⟨hlt, hget⟩ := List.getElem?_eq_some_iff.1 h
  refine ⟨p.workers.take i, p.workers.drop (i + 1), ?_, fun w' => List.set_eq_take_append_cons_drop.trans (if_pos hlt)⟩
  rw [← hget, List.cons_getElem_drop_succ, List.take_append_drop]

theorem Inv.planned_bounds (h : p.Inv c cancelled) (hr : r ∈ p.planned) :
    0 ≤ r.first ∧ r.first ≤ r.last ∧ r.last < p.total := by
  obtain ⟨hlow, hle, hhigh⟩ := h.tiles.bounds hr
  have := h.start
  omega

theorem Inv.accepted_bounds (h : p.Inv c cancelled) (hr : r ∈ p.accepted) :
    0 ≤ r.first ∧ r.first ≤ r.last ∧ r.last < p.total :=
  h.planned_bounds (h.issued.subset (List.mem_append_right _ hr))

theorem Inv.expected_eq (h : p.Inv c cancelled) (hr : r ∈ p.accepted) : expected r = r.last - r.first + 1 := by
  obtain ⟨hfirst, hle, hlast⟩ := h.accepted_bounds hr
  have := h.total_lt
  exact Transfer.expected_eq hfirst hle (by omega)

theorem inv_open {total : Int} (htotal : total = c.content.length) (hlt : total < 2 ^ 63) (hpos : 1 ≤ total)
    (hchunk : 1 ≤ c.chunkSize) : (open_ c total (List.replicate total.toNat 0)).Inv c cancelled where
  total := htotal
  total_lt := hlt
  chunkSize := hchunk
  workers := by
    have := workerCount_pos hpos hlt hchunk
    simp only [open_, ne_eq, List.replicate_eq_nil_iff]
    omega
  start := by
    change 0 ≤ total
    omega
  tiles := rfl
  issued := by
    have hnone : (open_ c total (List.replicate total.toNat 0)).pending = [] := by
      simp [pending, open_, List.filterMap_replicate, Worker.asked]
    rw [hnone]
    exact List.Subperm.refl _
  copying r n hmem := by cases List.eq_of_mem_replicate hmem
  length := by
    simp only [open_, List.length_replicate]
    omega
  cover _ i hi := by
    change (i : Int) < 0 at hi
    omega
  closed h := by cases h
  gone hmem := by cases List.eq_of_mem_replicate hmem

/-- Once the context is done nothing more is promised. -/
theorem Inv.cancel (h : p.Inv c cancelled) : p.Inv c true :=
  { h with
    cover := fun hstopped => by cases hstopped
    closed := fun _ hstopped => by cases hstopped
    gone := fun _ hstopped => by cases hstopped }

/-- A worker fails: its range is given up. -/
theorem Inv.fail {err : Error} (h : p.Inv c cancelled) (hw : p.workers[i]? = some w) : (p.fail i err).Inv c cancelled := by
  obtain ⟨before, after, hworkers, hput⟩ := workers_split hw
  have hstopped : (p.fail i err).stopped cancelled = true := by
    cases hfailure : p.failure <;> simp [Pool.fail, stopped, hfailure]
  have hpending : (p.fail i err).pending.Sublist p.pending := by
    change (p.queue ++ (p.put i .gone).workers.filterMap Worker.asked).Sublist _
    rw [pending, hput, hworkers, List.filterMap_append, List.filterMap_append]
    exact (((List.sublist_cons_self w after).filterMap _).append_left _).append_left _
  refine { h with
    workers := ?_, issued := ?_, copying := fun r n hmem => ?_
    cover := ?_, closed := ?_, gone := ?_ }
  · change (p.put i .gone).workers ≠ []
    simp [hput]
  · exact (hpending.append_right _).subperm.trans h.issued
  · change .copying r n ∈ (p.put i .gone).workers at hmem
    rw [hput] at hmem
    refine h.copying r n ?_
    rw [hworkers]
    simp only [List.mem_append, List.mem_cons, reduceCtorEq, false_or] at hmem ⊢
    exact hmem.imp_right .inr
  · simp [hstopped]
  · simp [hstopped]
  · simp [hstopped]

theorem filterMap_put (hw : p.workers[i]? = some w) (w' : Worker) :
    ∃ before after, p.workers.filterMap Worker.asked = before ++ (w.asked.toList ++ after) ∧
      (p.put i w').workers.filterMap Worker.asked = before ++ (w'.asked.toList ++ after) := by
  obtain ⟨before, after, hworkers, hput⟩ := workers_split hw
  have hcons : ∀ x : Worker, (x :: after).filterMap Worker.asked = x.asked.toList ++ after.filterMap Worker.asked := by
    intro x
    cases hx : x.asked <;> simp [hx]
  refine ⟨before.filterMap Worker.asked, after.filterMap Worker.asked, ?_, ?_⟩
  · rw [hworkers, List.filterMap_append, hcons]
  · rw [hput, List.filterMap_append, hcons]

/-- A worker that neither gets a range nor loses one. -/
theorem pending_put (hw : p.workers[i]? = some w) (h : w.asked = w'.asked) : (p.put i w').pending = p.pending := by
  obtain ⟨before, after, hold, hnew⟩ := filterMap_put hw w'
  rw [pending, pending, hold, hnew, h]
  rfl

theorem mem_put (h : w ∈ (p.put i w').workers) : w ∈ p.workers ∨ w = w' := List.mem_or_eq_of_mem_set h

theorem mem_put_self (hw : p.workers[i]? = some w) : w' ∈ (p.put i w').workers := by
  obtain ⟨before, after, -, hput⟩ := workers_split hw
  rw [hput]
  exact List.mem_append_right _ List.mem_cons_self

theorem mem_put_of_ne {x : Worker} (hw : p.workers[i]? = some w) (hx : x ∈ p.workers) (hne : x ≠ w) :
    x ∈ (p.put i w').workers := by
  obtain ⟨before, after, hworkers, hput⟩ := workers_split hw
  rw [hworkers, List.mem_append, List.mem_cons] at hx
  rw [hput, List.mem_append, List.mem_cons]
  exact hx.imp_right fun hx => .inr (hx.resolve_left hne)

theorem put_ne_nil (h : p.workers ≠ []) : (p.put i w).workers ≠ [] := by
  simpa [put] using h

/-! ## Steps of the pool -/

theorem Inv.produces (h : p.Inv c cancelled) (hclosed : ¬ p.closed = true) (hlt : p.start < p.total) :
    ({ p with
        start := (planDownloadRange p.total c.chunkSize p.start).2
        queue := p.queue ++ [(planDownloadRange p.total c.chunkSize p.start).1]
        planned := p.planned ++ [(planDownloadRange p.total c.chunkSize p.start).1] } : Pool).Inv c cancelled := by
  obtain ⟨hfirst, hle, hlast, hnext⟩ := planDownloadRange_spec h.tiles.le hlt h.total_lt h.chunkSize
  generalize planDownloadRange p.total c.chunkSize p.start = found at hfirst hle hlast hnext ⊢
  obtain ⟨range, next⟩ := found
  dsimp only at hfirst hle hlast hnext ⊢
  subst hnext
  refine { h with
    start := ?_, tiles := h.tiles.concat hfirst (by omega), issued := ?_
    cover := fun hstopped j hj => ?_, closed := fun hp => absurd hp hclosed
    gone := fun hmem hstopped => absurd (h.gone hmem hstopped).1 hclosed }
  · change range.last + 1 ≤ p.total
    omega
  · have hperm : (p.queue ++ [range] ++ p.workers.filterMap Worker.asked ++ p.accepted).Perm
        (range :: (p.pending ++ p.accepted)) := by
      rw [pending]
      simp only [List.append_assoc, List.singleton_append]
      exact List.perm_middle
    have hplanned : (p.planned ++ [range]).Perm (range :: p.planned) := List.perm_append_singleton _ _
    exact hperm.subperm.trans (((List.subperm_cons range).2 h.issued).trans hplanned.symm.subperm)
  · have hold : ∀ r ∈ p.pending, r ∈ p.queue ++ [range] ++ p.workers.filterMap Worker.asked := by
      intro r hr
      rw [pending, List.mem_append] at hr
      simp only [List.mem_append, List.mem_singleton]
      tauto
    by_cases hbelow : (j : Int) < p.start
    · rcases h.cover hstopped j hbelow with ⟨r, hr, hcontains⟩ | haccepted
      · exact .inl ⟨r, hold r hr, hcontains⟩
      · exact .inr haccepted
    · refine .inl ⟨range, ?_, ?_, ?_⟩
      · change range ∈ p.queue ++ [range] ++ p.workers.filterMap Worker.asked
        simp
      · omega
      · change (j : Int) < range.last + 1 at hj
        omega

theorem Inv.closes (h : p.Inv c cancelled) (hdone : p.total ≤ p.start ∨ p.stopped cancelled = true) :
    ({ p with closed := true } : Pool).Inv c cancelled :=
  { h with
    closed := fun _ hstopped => hdone.resolve_right fun hp => by
      change p.stopped cancelled = false at hstopped
      simp [hp] at hstopped
    gone := fun hmem hstopped => ⟨rfl, (h.gone hmem hstopped).2⟩ }

theorem Inv.takes {rest : List ByteRange} (h : p.Inv c cancelled) (hw : p.workers[i]? = some .idle)
    (hqueue : p.queue = r :: rest) : ({ p.put i (.asking r) with queue := rest } : Pool).Inv c cancelled := by
  have hperm : (rest ++ (p.put i (.asking r)).workers.filterMap Worker.asked).Perm p.pending := by
    obtain ⟨before, after, hold, hnew⟩ := filterMap_put hw (.asking r)
    rw [pending, hold, hnew, hqueue]
    simp only [Worker.asked, Option.toList, List.nil_append, List.cons_append, ← List.append_assoc]
    exact List.perm_middle
  refine { h with
    workers := put_ne_nil h.workers, issued := (hperm.append_right _).subperm.trans h.issued
    copying := fun r' n hmem => h.copying r' n ((mem_put hmem).resolve_right (by simp))
    cover := fun hstopped j hj => ?_, gone := fun hmem hstopped => ?_ }
  · rcases h.cover hstopped j hj with ⟨r', hr', hcontains⟩ | ⟨r', hr', hcontains, hcorrect⟩
    · exact .inl ⟨r', hperm.mem_iff.2 hr', hcontains⟩
    · exact .inr ⟨r', hr', hcontains, hcorrect.imp_right fun ⟨n, hmem, hn⟩ => ⟨n, mem_put_of_ne hw hmem (by simp), hn⟩⟩
  · obtain ⟨-, hempty⟩ := h.gone ((mem_put hmem).resolve_right (by simp)) hstopped
    rw [hqueue] at hempty
    cases hempty

/-- A worker that is done with its range, or with all. -/
theorem Inv.rests (h : p.Inv c cancelled) (hw : p.workers[i]? = some w) (hasked : w.asked = none) (hasked' : w'.asked = none)
    (hnone : ∀ r n, w' ≠ .copying r n) (hdone : ∀ r n, w = .copying r n → (n : Int) = expected r)
    (hgone : w' = .gone → p.stopped cancelled = false → p.closed = true ∧ p.queue = []) : (p.put i w').Inv c cancelled := by
  have hpending : (p.put i w').pending = p.pending := pending_put hw (hasked.trans hasked'.symm)
  refine { h with
    workers := put_ne_nil h.workers, issued := hpending ▸ h.issued
    copying := fun r n hmem => h.copying r n ((mem_put hmem).resolve_right (hnone r n).symm)
    cover := fun hstopped j hj => ?_, gone := fun hmem hstopped => ?_ }
  · rcases h.cover hstopped j hj with ⟨r, hr, hcontains⟩ | ⟨r, hr, hcontains, hcorrect⟩
    · exact .inl ⟨r, hpending ▸ hr, hcontains⟩
    · refine .inr ⟨r, hr, hcontains, hcorrect.imp_right fun ⟨n, hmem, hn⟩ => ⟨n, mem_put_of_ne hw hmem ?_, hn⟩⟩
      rintro rfl
      have hn' := hdone r n rfl
      rw [h.expected_eq hr] at hn'
      have := hcontains.2
      omega
  · rcases mem_put hmem with hmem | heq
    · exact h.gone hmem hstopped
    · exact hgone heq.symm hstopped

theorem Inv.accepts (h : p.Inv c cancelled) (hw : p.workers[i]? = some (.asking r)) :
    ({ p.put i (.copying r 0) with accepted := p.accepted ++ [r] } : Pool).Inv c cancelled := by
  have hperm : p.pending.Perm (r :: (p.put i (.copying r 0)).pending) := by
    obtain ⟨before, after, hold, hnew⟩ := filterMap_put hw (.copying r 0)
    rw [pending, pending, hold, hnew]
    simp only [Worker.asked, Option.toList, List.nil_append, List.singleton_append, ← List.append_assoc]
    exact List.perm_middle
  have hissued : ((p.put i (.copying r 0)).pending ++ (p.accepted ++ [r])).Perm (p.pending ++ p.accepted) := by
    rw [← List.append_assoc]
    exact (List.perm_append_singleton r _).trans (hperm.append_right p.accepted).symm
  refine { h with
    workers := put_ne_nil h.workers, issued := hissued.subperm.trans h.issued
    copying := fun r' n hmem => ?_, cover := fun hstopped j hj => ?_
    gone := fun hmem hstopped => h.gone ((mem_put hmem).resolve_right (by simp)) hstopped }
  · rcases mem_put hmem with hmem | heq
    · exact List.mem_append_left _ (h.copying r' n hmem)
    · cases heq
      exact List.mem_append_right _ (List.mem_singleton_self _)
  · rcases h.cover hstopped j hj with ⟨r', hr', hcontains⟩ | ⟨r', hr', hcontains, hcorrect⟩
    · rcases List.mem_cons.1 (hperm.mem_iff.1 hr') with rfl | hr'
      · refine .inr ⟨r', List.mem_append_right _ (List.mem_singleton_self _), hcontains, .inr ⟨0, mem_put_self hw, ?_⟩⟩
        have := hcontains.1
        omega
      · exact .inl ⟨r', hr', hcontains⟩
    · exact .inr ⟨r', List.mem_append_left _ hr', hcontains,
        hcorrect.imp_right fun ⟨n, hmem, hn⟩ => ⟨n, mem_put_of_ne hw hmem (by simp), hn⟩⟩

theorem Inv.copies {written count : Nat} (h : p.Inv c cancelled) (hw : p.workers[i]? = some (.copying r written))
    (hle : (written + count : Int) ≤ expected r) :
    ({ p.put i (.copying r (written + count)) with
        file := writeAt p.file (r.first.toNat + written) (c.slice (r.first.toNat + written) count) } : Pool).Inv c
      cancelled := by
  have hr : r ∈ p.accepted := h.copying r written (List.mem_of_getElem? hw)
  obtain ⟨hfirst, -, hlast⟩ := h.accepted_bounds hr
  rw [h.expected_eq hr] at hle
  have hwithin : r.first.toNat + written + count ≤ c.content.length := by
    have := h.total
    omega
  have hpending : (p.put i (.copying r (written + count))).pending = p.pending := pending_put hw rfl
  refine { h with
    workers := put_ne_nil h.workers, issued := hpending ▸ h.issued
    copying := fun r' n hmem => ?_
    length := ?_, cover := fun hstopped j hj => ?_
    gone := fun hmem hstopped => h.gone ((mem_put hmem).resolve_right (by simp)) hstopped }
  · rcases mem_put hmem with hmem | heq
    · exact h.copying r' n hmem
    · cases heq
      exact hr
  · exact (writeAt_length (by rw [Source.slice_length hwithin, h.length]; exact hwithin)).trans h.length
  · rcases h.cover hstopped j hj with ⟨r', hr', hcontains⟩ | ⟨r', hr', hcontains, hcorrect⟩
    · exact .inl ⟨r', hpending ▸ hr', hcontains⟩
    · refine .inr ⟨r', hr', hcontains, ?_⟩
      change (writeAt p.file _ _)[j]? = _ ∨ _
      rw [writeAt_slice hwithin h.length]
      split
      · exact .inl rfl
      next hout =>
        refine hcorrect.imp_right fun ⟨n, hmem, hn⟩ => ?_
        by_cases heq : Worker.copying r' n = .copying r written
        · cases heq
          refine ⟨written + count, mem_put_self hw, ?_⟩
          omega
        · exact ⟨n, mem_put_of_ne hw hmem heq, hn⟩

theorem Inv.step {e : PoolEvent} (h : p.Inv c cancelled) (hstep : p.step c cancelled e = some p') : p'.Inv c cancelled := by
  cases e with
  | produces =>
    simp only [Pool.step] at hstep
    split at hstep
    next hguard =>
      cases hstep
      exact h.produces hguard.1 hguard.2.1
    next => cases hstep
  | closes =>
    simp only [Pool.step] at hstep
    split at hstep
    next hguard =>
      cases hstep
      exact h.closes hguard.2
    next => cases hstep
  | takes i =>
    simp only [Pool.step] at hstep
    split at hstep
    next hw hqueue =>
      cases hstep
      exact h.takes hw hqueue
    next => cases hstep
  | leaves i =>
    simp only [Pool.step] at hstep
    split at hstep
    next hguard =>
      cases hstep
      refine h.rests hguard.1 rfl rfl (by simp) (by simp) fun _ hstopped => hguard.2.resolve_left ?_
      simp [hstopped]
    next => cases hstep
  | responds i answer =>
    simp only [Pool.step] at hstep
    split at hstep
    next hw =>
      split at hstep
      · cases hstep
      · split at hstep
        · cases hstep
          exact h.fail hw
        · split at hstep
          · cases hstep
            exact h.accepts hw
          · cases hstep
            exact h.fail hw
    next => cases hstep
  | copies i count =>
    simp only [Pool.step] at hstep
    split at hstep
    next hw =>
      split at hstep
      next hle =>
        cases hstep
        exact h.copies hw hle
      next => cases hstep
    next => cases hstep
  | finishes i =>
    simp only [Pool.step] at hstep
    split at hstep
    next hw =>
      split at hstep
      next hwritten =>
        cases hstep
        refine h.rests hw rfl rfl (by simp) (fun r n heq => ?_) (by simp)
        cases heq
        exact hwritten
      next => cases hstep
    next => cases hstep
  | breaks i err =>
    simp only [Pool.step] at hstep
    split at hstep
    next hw =>
      cases hstep
      exact h.fail hw
    next hw =>
      cases hstep
      exact h.fail hw
    next => cases hstep

/-- Once every worker has returned without a failure, the file is that of the remote. -/
theorem Inv.joined (h : p.Inv c cancelled) (hgone : p.workers.all (· = .gone) = true) (hstopped : p.stopped cancelled = false) :
    p.file = c.content ∧ ∀ i : Nat, i < c.content.length → ∃ r ∈ p.accepted, r.Contains i := by
  have hall : ∀ w ∈ p.workers, w = .gone := fun w hw => of_decide_eq_true (List.all_eq_true.1 hgone w hw)
  obtain ⟨w, hw⟩ := List.exists_mem_of_ne_nil _ h.workers
  obtain ⟨hclosed, hqueue⟩ := h.gone (hall w hw ▸ hw) hstopped
  have hpending : p.pending = [] := by
    rw [pending, hqueue, List.nil_append, List.filterMap_eq_nil_iff]
    intro w hw
    rw [hall w hw]
    rfl
  have hcover : ∀ i : Nat, i < c.content.length → ∃ r ∈ p.accepted, r.Contains i ∧ p.file[i]? = c.content[i]? := by
    intro i hi
    have hstart := h.closed hclosed hstopped
    rw [h.total] at hstart
    rcases h.cover hstopped i (by omega) with ⟨r, hr, -⟩ | ⟨r, hr, hcontains, hcorrect⟩
    · rw [hpending] at hr
      cases hr
    · refine ⟨r, hr, hcontains, hcorrect.resolve_right ?_⟩
      rintro ⟨n, hmem, -⟩
      cases hall _ hmem
  refine ⟨List.ext_getElem? fun i => ?_, fun i hi => ?_⟩
  · rcases Nat.lt_or_ge i c.content.length with hi | hi
    · obtain ⟨r, -, -, hcorrect⟩ := hcover i hi
      exact hcorrect
    · rw [List.getElem?_eq_none hi, List.getElem?_eq_none (h.length.trans_le hi)]
  · obtain ⟨r, hr, hcontains, -⟩ := hcover i hi
    exact ⟨r, hr, hcontains⟩

end Pool

/-! ## The job -/

namespace Job
variable {j j' : Job} {previous : Option Entry} {e : Event}

/-- The destination has not been touched. -/
def Untouched (previous : Option Entry) (j : Job) : Prop := j.destination = previous ∧ j.backup = none

/-- Every byte is in a range that was accepted, unless there was one stream. -/
def Covered (c : Source) (j : Job) : Prop :=
  j.accepted = [] ∨ ∀ i : Nat, i < c.content.length → ∃ r ∈ j.accepted, r.Contains i

/-- The part file is complete. -/
def Fetched (c : Source) (j : Job) : Prop := j.part = some c.content ∧ j.Covered c

/-- The old file is kept aside. -/
def Aside (previous : Option Entry) (j : Job) : Prop := j.backup = previous ∧ ∃ bytes, previous = some (.file bytes)

/-- What a job leaves that does not complete. -/
def Left (c : Source) (previous : Option Entry) (j : Job) : Prop :=
  j.Untouched previous ∨
  (j.destination = none ∧ j.Aside previous ∧ .place ∈ j.faults ∧ .restore ∈ j.faults) ∨
  (j.destination = some (.file c.content) ∧ j.part = none ∧ j.Aside previous ∧ .clear ∈ j.faults)

/-- What is known at each stage. -/
def Holds (c : Source) (previous : Option Entry) (j : Job) : Prop :=
  match j.stage with
  | .waiting | .opening => j.Untouched previous ∧ j.part = none ∧ j.accepted = [] ∧ j.planned = []
  | .inspecting | .requesting => j.Untouched previous ∧ j.part = some [] ∧ j.accepted = [] ∧ j.planned = []
  | .truncating total => j.Untouched previous ∧ j.accepted = [] ∧ j.planned = [] ∧ total = c.content.length ∧ total < 2 ^ 63
  | .sequential written =>
    j.Untouched previous ∧ j.part = some (c.content.take written) ∧ j.accepted = [] ∧ j.planned = []
  | .chunked p =>
    j.Untouched previous ∧ p.Inv c j.cancelled ∧ j.part = some p.file ∧ j.accepted = p.accepted ∧ j.planned = p.planned
  | .fetched | .syncing | .closing | .closed | .looking => j.Untouched previous ∧ j.Fetched c
  | .backingUp => j.Untouched previous ∧ j.Fetched c ∧ ∃ bytes, previous = some (.file bytes)
  | .placing false => j.Untouched previous ∧ j.Fetched c ∧ previous = none
  | .placing true => j.destination = none ∧ j.Aside previous ∧ j.Fetched c
  | .restoring => j.destination = none ∧ j.Aside previous ∧ .place ∈ j.faults
  | .clearing => j.destination = some (.file c.content) ∧ j.part = none ∧ j.Aside previous ∧ j.Covered c
  | .leaving outcome => outcome ≠ .completed ∧ j.Left c previous
  | .ended .completed => j.destination = some (.file c.content) ∧ j.part = none ∧ j.backup = none ∧ j.Covered c
  | .ended _ => j.Left c previous ∧ (j.part = none ∨ .removePart ∈ j.faults)

/-- Ranges are planned one after another, and each is accepted at most once. -/
def Planned (c : Source) (j : Job) : Prop :=
  ∃ next ≤ (c.content.length : Int), Interval.Tiles 0 j.planned next ∧ j.accepted.Subperm j.planned

theorem holds_leaving {outcome : Outcome} (hne : outcome ≠ .completed) (h : j.Left c previous) :
    (j.setStage (.leaving outcome)).Holds c previous := ⟨hne, h⟩

theorem holds_giveUp (h : j.Left c previous) : j.giveUp.Holds c previous := holds_leaving (by simp) h

theorem holds_leave {err : Error} (h : j.Untouched previous) : (j.leave err).Holds c previous := by
  unfold leave
  refine holds_leaving ?_ (.inl h)
  split <;> simp

/-- A stage that is reached with a complete part file, unless the context is done. -/
theorem holds_unlessCancelled {stage : Stage} (h : j.Untouched previous) (hnext : (j.setStage stage).Holds c previous) :
    (j.unlessCancelled stage).Holds c previous := by
  unfold unlessCancelled
  split
  · exact holds_leaving (by simp) (.inl h)
  · exact hnext

theorem Holds.joined {p : Pool} (huntouched : j.Untouched previous) (hinv : p.Inv c j.cancelled) (hpart : j.part = some p.file)
    (haccepted : j.accepted = p.accepted) (hgone : p.workers.all (· = .gone) = true) (hfailure : p.failure = none)
    (hcancelled : ¬ j.cancelled = true) : (j.setStage .fetched).Holds c previous := by
  obtain ⟨hfile, hcovered⟩ := hinv.joined hgone (by simp [Pool.stopped, hfailure, hcancelled])
  refine ⟨huntouched, hpart.trans (congrArg some hfile), .inr fun i hi => ?_⟩
  obtain ⟨r, hr, hcontains⟩ := hcovered i hi
  exact ⟨r, haccepted ▸ hr, hcontains⟩

theorem Holds.goes (h : j.Holds c previous) (hstep : j.goes c = some j') : j'.Holds c previous := by
  cases hstage : j.stage with
  | waiting =>
    simp only [Holds, hstage] at h
    simp only [Job.goes, hstage, Option.some.injEq] at hstep
    exact hstep ▸ h
  | opening =>
    simp only [Holds, hstage] at h
    simp only [Job.goes, hstage, Option.some.injEq] at hstep
    exact hstep ▸ ⟨h.1, rfl, h.2.2⟩
  | truncating total =>
    simp only [Holds, hstage] at h
    simp only [Job.goes, hstage] at hstep
    obtain ⟨huntouched, -, -, htotal, hlt⟩ := h
    split at hstep
    · cases hstep
      exact holds_leave huntouched
    · split at hstep
      · cases hstep
        exact holds_leave huntouched
      next hvalid =>
        cases hstep
        exact ⟨huntouched, Pool.inv_open htotal hlt (by omega) (by omega), rfl, rfl, rfl⟩
  | chunked p =>
    simp only [Holds, hstage] at h
    simp only [Job.goes, hstage] at hstep
    obtain ⟨huntouched, hinv, hpart, haccepted, -⟩ := h
    split at hstep
    next hdone =>
      split at hstep
      next =>
        cases hstep
        exact holds_leave huntouched
      next hfailure =>
        cases hstep
        split
        · exact holds_leave huntouched
        next hcancelled => exact Holds.joined huntouched hinv hpart haccepted hdone.2 hfailure hcancelled
    next => cases hstep
  | fetched | closed =>
    simp only [Holds, hstage] at h
    simp only [Job.goes, hstage, Option.some.injEq] at hstep
    exact hstep ▸ holds_unlessCancelled h.1 h
  | syncing | closing =>
    simp only [Holds, hstage] at h
    simp only [Job.goes, hstage, Option.some.injEq] at hstep
    exact hstep ▸ h
  | looking =>
    simp only [Holds, hstage] at h
    simp only [Job.goes, hstage] at hstep
    obtain ⟨huntouched, hfetched⟩ := h
    split at hstep
    next hnone =>
      cases hstep
      exact ⟨huntouched, hfetched, huntouched.1.symm.trans hnone⟩
    next =>
      cases hstep
      exact holds_giveUp (.inl huntouched)
    next bytes hfile =>
      cases hstep
      split
      · exact ⟨huntouched, hfetched, bytes, huntouched.1.symm.trans hfile⟩
      · exact holds_giveUp (.inl huntouched)
  | backingUp =>
    simp only [Holds, hstage] at h
    simp only [Job.goes, hstage, Option.some.injEq] at hstep
    obtain ⟨huntouched, hfetched, hfile⟩ := h
    exact hstep ▸ ⟨rfl, ⟨huntouched.1, hfile⟩, hfetched⟩
  | placing backed =>
    simp only [Job.goes, hstage, Option.some.injEq] at hstep
    cases backed with
    | false =>
      simp only [Holds, hstage] at h
      obtain ⟨huntouched, ⟨hpart, hcovered⟩, -⟩ := h
      exact hstep ▸ ⟨congrArg (Option.map Entry.file) hpart, rfl, huntouched.2, hcovered⟩
    | true =>
      simp only [Holds, hstage] at h
      obtain ⟨-, haside, hpart, hcovered⟩ := h
      exact hstep ▸ ⟨congrArg (Option.map Entry.file) hpart, rfl, haside, hcovered⟩
  | restoring =>
    simp only [Holds, hstage] at h
    simp only [Job.goes, hstage, Option.some.injEq] at hstep
    exact hstep ▸ ⟨by simp, .inl ⟨h.2.1.1, rfl⟩⟩
  | clearing =>
    simp only [Holds, hstage] at h
    simp only [Job.goes, hstage, Option.some.injEq] at hstep
    exact hstep ▸ ⟨h.1, h.2.1, rfl, h.2.2.2⟩
  | leaving outcome =>
    simp only [Holds, hstage] at h
    simp only [Job.goes, hstage, Option.some.injEq] at hstep
    obtain ⟨hne, hleft⟩ := h
    have hleft' : j'.Left c previous := by
      rcases hleft with huntouched | hlost | ⟨hdestination, -, haside, hclear⟩
      · exact .inl (hstep ▸ huntouched)
      · exact .inr (.inl (hstep ▸ hlost))
      · exact .inr (.inr (hstep ▸ ⟨hdestination, rfl, haside, hclear⟩))
    subst hstep
    cases outcome with
    | completed => exact absurd rfl hne
    | cancelled | failed => exact ⟨hleft', .inl rfl⟩
  | inspecting | requesting | sequential written | ended outcome =>
    simp only [Job.goes, hstage] at hstep
    cases hstep

theorem Holds.fails {err : Error} (h : j.Holds c previous) (hstep : j.fails err = some j') : j'.Holds c previous := by
  cases hstage : j.stage with
  | waiting =>
    simp only [Holds, hstage] at h
    simp only [Job.fails, hstage] at hstep
    split at hstep
    · cases hstep
      exact ⟨.inl h.1, .inl h.2.1⟩
    · cases hstep
  | opening =>
    simp only [Holds, hstage] at h
    simp only [Job.fails, hstage, Option.some.injEq] at hstep
    exact hstep ▸ ⟨.inl h.1, .inl h.2.1⟩
  | truncating total | requesting | sequential written =>
    simp only [Holds, hstage] at h
    simp only [Job.fails, hstage, Option.some.injEq] at hstep
    exact hstep ▸ holds_leave h.1
  | inspecting | syncing | closing | looking | backingUp =>
    simp only [Holds, hstage] at h
    simp only [Job.fails, hstage, Option.some.injEq] at hstep
    exact hstep ▸ holds_giveUp (.inl h.1)
  | placing backed =>
    simp only [Job.fails, hstage, Option.some.injEq] at hstep
    cases backed with
    | false =>
      simp only [Holds, hstage] at h
      exact hstep ▸ ⟨by simp, .inl h.1⟩
    | true =>
      simp only [Holds, hstage] at h
      exact hstep ▸ ⟨h.1, h.2.1, List.mem_cons_self⟩
  | restoring =>
    simp only [Holds, hstage] at h
    simp only [Job.fails, hstage, Option.some.injEq] at hstep
    exact hstep ▸ ⟨by simp, .inr (.inl ⟨h.1, h.2.1, List.mem_cons_of_mem _ h.2.2, List.mem_cons_self⟩)⟩
  | clearing =>
    simp only [Holds, hstage] at h
    simp only [Job.fails, hstage, Option.some.injEq] at hstep
    exact hstep ▸ ⟨by simp, .inr (.inr ⟨h.1, h.2.1, h.2.2.1, List.mem_cons_self⟩)⟩
  | leaving outcome =>
    simp only [Holds, hstage] at h
    simp only [Job.fails, hstage, Option.some.injEq] at hstep
    obtain ⟨hne, hleft⟩ := h
    have hleft' : j'.Left c previous := by
      rcases hleft with huntouched | ⟨hdestination, haside, hplace, hrestore⟩ | ⟨hdestination, hpart, haside, hclear⟩
      · exact .inl (hstep ▸ huntouched)
      · exact .inr (.inl (hstep ▸ ⟨hdestination, haside, List.mem_cons_of_mem _ hplace, List.mem_cons_of_mem _ hrestore⟩))
      · exact .inr (.inr (hstep ▸ ⟨hdestination, hpart, haside, List.mem_cons_of_mem _ hclear⟩))
    subst hstep
    cases outcome with
    | completed => exact absurd rfl hne
    | cancelled | failed => exact ⟨hleft', .inr List.mem_cons_self⟩
  | chunked p | fetched | closed | ended outcome =>
    simp only [Job.fails, hstage] at hstep
    cases hstep

theorem Holds.cancels (h : j.Holds c previous) : ({ j with cancelled := true } : Job).Holds c previous := by
  cases hstage : j.stage with
  | chunked p =>
    simp only [Holds, hstage] at h ⊢
    exact ⟨h.1, h.2.1.cancel, h.2.2⟩
  | placing backed =>
    cases backed with
    | false | true =>
      simp only [Holds, hstage] at h ⊢
      exact h
  | ended outcome =>
    cases outcome with
    | completed | cancelled | failed =>
      simp only [Holds, hstage] at h ⊢
      exact h
  | waiting | opening | inspecting | truncating total | requesting | sequential written | fetched | syncing | closing | closed |
    looking | backingUp | restoring | clearing | leaving outcome =>
    simp only [Holds, hstage] at h ⊢
    exact h

theorem Holds.step (h : j.Holds c previous) (hstep : Steps c j e j') : j'.Holds c previous := by
  cases e with
  | goes => exact h.goes hstep
  | fails err => exact h.fails hstep
  | cancels =>
    simp only [Steps, Job.step, Option.some.injEq] at hstep
    exact hstep ▸ h.cancels
  | inspected head probe =>
    simp only [Steps, Job.step] at hstep
    split at hstep
    next hstage =>
      simp only [Holds, hstage] at h
      obtain ⟨huntouched, hpart, haccepted, hplanned⟩ := h
      split at hstep
      · cases hstep
      next hhonest =>
        cases hstep
        split
        next hranges =>
          obtain ⟨hsize, hlt⟩ := inspectRemote_size (not_not.1 hhonest).2 hranges.1
          exact ⟨huntouched, haccepted, hplanned, hsize, hlt⟩
        next => exact ⟨huntouched, hpart, haccepted, hplanned⟩
    next => cases hstep
  | pool e =>
    simp only [Steps, Job.step] at hstep
    split at hstep
    next p hstage =>
      simp only [Holds, hstage] at h
      obtain ⟨p', hp', rfl⟩ := Option.map_eq_some_iff.1 hstep
      exact ⟨h.1, h.2.1.step hp', rfl, rfl, rfl⟩
    next => cases hstep
  | responds answer =>
    simp only [Steps, Job.step] at hstep
    split at hstep
    next hstage =>
      simp only [Holds, hstage] at h
      cases hstep
      split
      · exact h
      · exact holds_leave h.1
    next => cases hstep
  | receives count =>
    simp only [Steps, Job.step] at hstep
    split at hstep
    next written hstage =>
      simp only [Holds, hstage] at h
      split at hstep
      next hle =>
        cases hstep
        obtain ⟨huntouched, hpart, haccepted, hplanned⟩ := h
        refine ⟨huntouched, ?_, haccepted, hplanned⟩
        rw [hpart]
        exact congrArg some (writeAt_take hle)
      next => cases hstep
    next => cases hstep
  | bodyEnds =>
    simp only [Steps, Job.step] at hstep
    split at hstep
    next written hstage =>
      simp only [Holds, hstage] at h
      split at hstep
      next hall =>
        cases hstep
        obtain ⟨huntouched, hpart, haccepted, -⟩ := h
        refine ⟨huntouched, hpart.trans (congrArg some ?_), .inl haccepted⟩
        rw [hall, List.take_length]
      next => cases hstep
    next => cases hstep

theorem planned_nil (hplanned : j.planned = []) (haccepted : j.accepted = []) : j.Planned c := by
  refine ⟨0, by omega, ?_, ?_⟩
  · rw [hplanned]
    exact rfl
  · rw [haccepted]
    exact List.nil_subperm

theorem goes_ranges (hstep : j.goes c = some j') :
    (j'.planned = j.planned ∧ j'.accepted = j.accepted) ∨ (j'.planned = [] ∧ j'.accepted = []) := by
  unfold Job.goes at hstep
  split at hstep
  all_goals repeat' split at hstep
  all_goals simp only [Option.some.injEq, reduceCtorEq] at hstep
  all_goals subst hstep
  all_goals first | exact .inl ⟨rfl, rfl⟩ | exact .inr ⟨rfl, rfl⟩

theorem fails_ranges {err : Error} (hstep : j.fails err = some j') : j'.planned = j.planned ∧ j'.accepted = j.accepted := by
  unfold Job.fails at hstep
  split at hstep
  all_goals repeat' split at hstep
  all_goals simp only [Option.some.injEq, reduceCtorEq] at hstep
  all_goals subst hstep
  all_goals exact ⟨rfl, rfl⟩

theorem Planned.step (h : j.Planned c) (hholds : j.Holds c previous) (hstep : Steps c j e j') : j'.Planned c := by
  have hsame : j'.planned = j.planned ∧ j'.accepted = j.accepted → j'.Planned c := by
    rintro ⟨hplanned, haccepted⟩
    rwa [Planned, hplanned, haccepted]
  cases e with
  | goes =>
    rcases goes_ranges hstep with hranges | hnone
    · exact hsame hranges
    · exact planned_nil hnone.1 hnone.2
  | fails err => exact hsame (fails_ranges hstep)
  | cancels =>
    simp only [Steps, Job.step, Option.some.injEq] at hstep
    exact hsame (hstep ▸ ⟨rfl, rfl⟩)
  | pool e =>
    simp only [Steps, Job.step] at hstep
    split at hstep
    next p hstage =>
      simp only [Holds, hstage] at hholds
      obtain ⟨p', hp', rfl⟩ := Option.map_eq_some_iff.1 hstep
      have hinv := hholds.2.1.step hp'
      refine ⟨p'.start, ?_, hinv.tiles, ?_⟩
      · exact hinv.start.trans_eq hinv.total
      · exact (List.sublist_append_right _ _).subperm.trans hinv.issued
    next => cases hstep
  | inspected head probe | responds answer | receives count | bodyEnds =>
    simp only [Steps, Job.step] at hstep
    repeat' split at hstep
    all_goals simp only [Option.some.injEq, reduceCtorEq] at hstep
    all_goals subst hstep
    all_goals exact hsame ⟨rfl, rfl⟩

theorem holds_run {events : List Event} (h : Run (Steps c) (start previous) events j) :
    j.Holds c previous ∧ j.Planned c := by
  refine h.inv (fun j => j.Holds c previous ∧ j.Planned c) (fun j e j' hj hstep => ?_) ⟨⟨⟨rfl, rfl⟩, rfl, rfl, rfl⟩, ?_⟩
  · exact ⟨hj.1.step hstep, hj.2.step hj.1 hstep⟩
  · exact planned_nil rfl rfl

/-- What a job puts at its destination, at any moment. -/
def Intact (c : Source) (previous : Option Entry) (j : Job) : Prop :=
  j.destination = previous ∨ j.destination = some (.file c.content) ∨
    j.destination = none ∧ j.Aside previous ∧
      (j.stage = .placing true ∨ j.stage = .restoring ∨ .place ∈ j.faults ∧ .restore ∈ j.faults)

theorem Left.intact (h : j.Left c previous) : j.Intact c previous := by
  rcases h with huntouched | ⟨hdestination, haside, hplace, hrestore⟩ | ⟨hdestination, -⟩
  · exact .inl huntouched.1
  · exact .inr (.inr ⟨hdestination, haside, .inr (.inr ⟨hplace, hrestore⟩)⟩)
  · exact .inr (.inl hdestination)

theorem Holds.intact (h : j.Holds c previous) : j.Intact c previous := by
  cases hstage : j.stage with
  | waiting | opening | inspecting | requesting | truncating total | sequential written | chunked p | fetched | syncing |
    closing | closed | looking | backingUp =>
    simp only [Holds, hstage] at h
    exact .inl h.1.1
  | placing backed =>
    cases backed with
    | false =>
      simp only [Holds, hstage] at h
      exact .inl h.1.1
    | true =>
      simp only [Holds, hstage] at h
      exact .inr (.inr ⟨h.1, h.2.1, .inl hstage⟩)
  | restoring =>
    simp only [Holds, hstage] at h
    exact .inr (.inr ⟨h.1, h.2.1, .inr (.inl hstage)⟩)
  | clearing =>
    simp only [Holds, hstage] at h
    exact .inr (.inl h.1)
  | leaving outcome =>
    simp only [Holds, hstage] at h
    exact h.2.intact
  | ended outcome =>
    cases outcome with
    | completed =>
      simp only [Holds, hstage] at h
      exact .inr (.inl h.1)
    | cancelled | failed =>
      simp only [Holds, hstage] at h
      exact h.1.intact

theorem Left.unfaulted (h : j.Left c previous) (hpart : j.part = none ∨ .removePart ∈ j.faults) (hrestore : .restore ∉ j.faults)
    (hclear : .clear ∉ j.faults) (hremove : .removePart ∉ j.faults) : j.Untouched previous ∧ j.part = none := by
  rcases h with huntouched | ⟨-, -, -, hfault⟩ | ⟨-, -, -, hfault⟩
  · exact ⟨huntouched, hpart.resolve_right hremove⟩
  · exact absurd hfault hrestore
  · exact absurd hfault hclear

theorem Planned.apart (h : j.Planned c) : j.accepted.Pairwise Interval.Apart := by
  obtain ⟨next, -, htiles, l, hperm, hsub⟩ := h
  exact (hperm.pairwise_iff fun h => h.symm).1 (htiles.apart.sublist hsub)

end Job

end Tanpopo.Download.Transfer
