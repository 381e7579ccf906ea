import Tanpopo.Cluster.Preparation
/-!
# The reservation of the manager and the session of a node

The manager is reserved for the active session and for nothing else, whatever
happens at the node, and a goroutine whose session has ended changes nothing.
-/

namespace Tanpopo.Cluster.Ring

/-- How far a session is. -/
def Phase.order : Phase → Nat
  | .verifying => 0
  | .synchronizing => 1
  | .prepared => 2
  | .starting => 3
  | .armed => 4
  | .loading => 5
  | .running => 6

/-- `opMu` is held between two steps. -/
def Work.holds : Work → Bool
  | .awaitArm _ _ | .awaitCommit _ _ => true
  | _ => false

namespace ActiveSession

def Coordinating (session : ActiveSession) (phase : Phase) : Prop :=
  session.role = .coordinator ∧ session.starting = true ∧ session.phase = phase

def Preparing (session : ActiveSession) : Prop :=
  session.role = .worker ∧ session.phase = .synchronizing ∧ session.listener = none

/-- How a session stands while its goroutine is there. -/
def Doing (session : ActiveSession) : Work → Prop
  | .stopPrevious => session.Coordinating .verifying ∨ session.Preparing
  | .verify => session.Coordinating .verifying
  | .awaitPrepare _ _ | .poll _ _ | .awaitLease _ _ _ | .lock _ _ => session.Coordinating .synchronizing
  | .awaitArm _ _ => session.Coordinating .starting
  | .awaitCommit _ _ => session.Coordinating .starting ∧ session.listener = none
  | .fail _ => session.role = .coordinator ∧ session.starting = true
  | .fetch | .reserve _ | .note _ => session.Preparing

/-- A listener is held until the ring is armed, and `starting` says that the goroutine is not done. -/
structure Sound (session : ActiveSession) : Prop where
  listener : session.listener ≠ none → session.phase.order ≤ 3
  started : session.role = .coordinator → session.starting = false → 5 ≤ session.phase.order
  worker : session.role = .worker → session.phase = .synchronizing → session.listener = none

variable {session : ActiveSession} {work : Work}

theorem Doing.of_worker (h : session.Doing work) (hrole : session.role = .worker) : session.phase = .synchronizing := by
  cases work <;> simp_all [Doing, Coordinating, Preparing]

theorem Doing.of_coordinator (h : session.Doing work) (hrole : session.role = .coordinator) :
    session.starting = true := by
  cases work <;> simp_all [Doing, Coordinating, Preparing]

end ActiveSession

namespace Node

structure Inv (n : Node) : Prop where
  owned : n.distributedOwner = (n.current.map (·.id)).getD ""
  active : ∀ k, n.active = some k → ∃ session, n.sessions[k]? = some session ∧ session.id ≠ "" ∧
    session.cancelled = false
  ended : ∀ (k : Nat) (session : ActiveSession), n.sessions[k]? = some session → n.active ≠ some k →
    session.cancelled = true
  listened : ∀ handle ∈ n.listeners, ∃ session listener, n.current = some session ∧
    session.listener = some listener ∧ listener.handle = handle
  sound : ∀ (k : Nat) (session : ActiveSession), n.sessions[k]? = some session → session.Sound
  jobs : ∀ job ∈ n.jobs, ∃ session, n.sessions[job.session]? = some session ∧ session.Doing job.work
  locked : ∀ k, n.opMu = some k → n.active = some k
  holding : ∀ job ∈ n.jobs, job.work.holds = true → n.opMu = some job.session

variable {n n' : Node} {k : Nat} {session : ActiveSession} {f : ActiveSession → ActiveSession}

theorem Fresh.inv (h : n.Fresh) : n.Inv where
  owned := by
    rw [h.owner, current, h.active]
    rfl
  active := by simp [h.active]
  ended := by simp [h.sessions]
  listened := by simp [h.listeners]
  sound := by simp [h.sessions]
  jobs := by simp [h.jobs]
  locked := by simp [h.opMu]
  holding := by simp [h.jobs]

theorem Inv.current_of_active (h : n.Inv) (hk : n.active = some k) : ∃ session, n.current = some session ∧
    n.sessions[k]? = some session ∧ session.id ≠ "" ∧ session.cancelled = false := by
  obtain ⟨session, hsession, hid, hcancelled⟩ := h.active k hk
  exact ⟨session, by rw [current_eq hk, hsession], hsession, hid, hcancelled⟩

/-- Nothing of this changes. -/
structure Quiet (n n' : Node) : Prop where
  sessions : n'.sessions = n.sessions
  active : n'.active = n.active
  owner : n'.distributedOwner = n.distributedOwner
  opMu : n'.opMu = n.opMu
  jobs : n'.jobs = n.jobs
  listeners : n'.listeners = n.listeners

theorem Inv.quiet (h : n.Inv) (hq : Quiet n n') : n'.Inv := by
  have hcurrent : n'.current = n.current := by rw [current, current, hq.active, hq.sessions]
  constructor
  · rw [hq.owner, hcurrent]
    exact h.owned
  · rw [hq.active, hq.sessions]
    exact h.active
  · rw [hq.active, hq.sessions]
    exact h.ended
  · rw [hq.listeners, hcurrent]
    exact h.listened
  · rw [hq.sessions]
    exact h.sound
  · rw [hq.jobs, hq.sessions]
    exact h.jobs
  · rw [hq.opMu, hq.active]
    exact h.locked
  · rw [hq.jobs, hq.opMu]
    exact h.holding

/-! ## One session is changed -/

/-- What a change of one session, of the jobs and of the lock has to keep. -/
structure Writes (n : Node) (k : Nat) (f : ActiveSession → ActiveSession) (n' : Node) : Prop where
  sessions : n'.sessions = n.sessions.modify k f
  active : n'.active = n.active
  owner : n'.distributedOwner = n.distributedOwner
  jobs : ∀ job ∈ n'.jobs, (job ∈ n.jobs ∧ job.session ≠ k) ∨
    (job.session = k ∧ ∀ session, n.sessions[k]? = some session → (f session).Doing job.work)
  locked : ∀ j, n'.opMu = some j → n.active = some j
  holding : ∀ job ∈ n'.jobs, job.work.holds = true → n'.opMu = some job.session

theorem Writes.get? (hw : Writes n k f n') (hsession : n.sessions[k]? = some session) :
    n'.sessions[k]? = some (f session) := by
  rw [hw.sessions, List.getElem?_modify, hsession]
  simp

theorem Writes.get?_ne (hw : Writes n k f n') {j : Nat} (hj : k ≠ j) : n'.sessions[j]? = n.sessions[j]? := by
  rw [hw.sessions, List.getElem?_modify]
  simp [hj]

theorem Inv.writes (h : n.Inv) (hw : Writes n k f n') (hsession : n.sessions[k]? = some session)
    (hid : (f session).id = session.id) (hcancelled : (f session).cancelled = session.cancelled)
    (hsound : (f session).Sound)
    (hlistened : ∀ handle ∈ n'.listeners, ∃ session listener, n'.current = some session ∧
      session.listener = some listener ∧ listener.handle = handle) : n'.Inv := by
  have hget := hw.get? hsession
  have hcases : ∀ j session', n'.sessions[j]? = some session' →
      (j = k ∧ session' = f session) ∨ (j ≠ k ∧ n.sessions[j]? = some session') := by
    intro j session' hj
    by_cases hjk : k = j
    · subst hjk
      exact .inl ⟨rfl, Option.some.inj (hj.symm.trans hget)⟩
    · exact .inr ⟨Ne.symm hjk, (hw.get?_ne hjk).symm.trans hj⟩
  have hcurrent : (n'.current.map (·.id)).getD "" = (n.current.map (·.id)).getD "" := by
    cases hactive : n.active with
    | none => rw [current, current, hw.active, hactive]; rfl
    | some j =>
      rw [current_eq hactive, current_eq (hw.active.trans hactive)]
      by_cases hjk : k = j
      · subst hjk
        rw [hget, hsession, Option.map_some, Option.map_some, hid]
      · rw [hw.get?_ne hjk]
  constructor
  · rw [hw.owner, hcurrent]
    exact h.owned
  · intro j hj
    rw [hw.active] at hj
    obtain ⟨session', hsession', hid', hc'⟩ := h.active j hj
    by_cases hjk : k = j
    · subst hjk
      obtain rfl := Option.some.inj (hsession.symm.trans hsession')
      exact ⟨f session, hget, by rwa [hid], by rwa [hcancelled]⟩
    · exact ⟨session', (hw.get?_ne hjk).trans hsession', hid', hc'⟩
  · intro j session' hj hne
    rw [hw.active] at hne
    rcases hcases j session' hj with ⟨rfl, rfl⟩ | ⟨-, hold⟩
    · rw [hcancelled]
      exact h.ended _ _ hsession hne
    · exact h.ended j _ hold hne
  · exact hlistened
  · intro j session' hj
    rcases hcases j session' hj with ⟨rfl, rfl⟩ | ⟨-, hold⟩
    · exact hsound
    · exact h.sound j _ hold
  · intro job hjob
    rcases hw.jobs job hjob with ⟨hold, hne⟩ | ⟨rfl, hdoing⟩
    · obtain ⟨session', hsession', hdoing⟩ := h.jobs job hold
      exact ⟨session', (hw.get?_ne (Ne.symm hne)).trans hsession', hdoing⟩
    · exact ⟨f session, hget, hdoing session hsession⟩
  · intro j hj
    rw [hw.active]
    exact hw.locked j hj
  · exact hw.holding

/-- The listener of the session stays as it is. -/
theorem Inv.writes_quietly (h : n.Inv) (hw : Writes n k f n') (hsession : n.sessions[k]? = some session)
    (hlisteners : n'.listeners = n.listeners) (hid : (f session).id = session.id)
    (hcancelled : (f session).cancelled = session.cancelled) (hlistener : (f session).listener = session.listener)
    (hsound : (f session).Sound) : n'.Inv := by
  refine h.writes hw hsession hid hcancelled hsound fun handle hhandle => ?_
  rw [hlisteners] at hhandle
  obtain ⟨session', listener, hcurrent, hsome, hsame⟩ := h.listened handle hhandle
  obtain ⟨j, hj, hget⟩ := exists_of_current hcurrent
  rw [current_eq (hw.active.trans hj)]
  by_cases hjk : k = j
  · subst hjk
    obtain rfl := Option.some.inj (hsession.symm.trans hget)
    exact ⟨f session, listener, hw.get? hsession, hlistener.trans hsome, hsame⟩
  · exact ⟨session', listener, (hw.get?_ne hjk).trans hget, hsome, hsame⟩

/-- The only listener is that of the active session. -/
theorem Inv.close_nil (h : n.Inv) (hk : n.active = some k) (hsession : n.sessions[k]? = some session) :
    (n.close session.listener).listeners = [] := by
  rw [close, List.filter_eq_nil_iff]
  intro handle hhandle
  obtain ⟨session', listener, hcurrent, hsome, rfl⟩ := h.listened handle hhandle
  rw [current_eq hk, hsession] at hcurrent
  obtain rfl := Option.some.inj hcurrent
  simp [hsome]

/-- A listener is opened for a worker that held none. -/
theorem Inv.opens (h : n.Inv) (hw : Writes n k f n') (hk : n.active = some k)
    (hsession : n.sessions[k]? = some session) (hnone : session.listener = none) {address : String}
    (hlisteners : n'.listeners = n.handles :: n.listeners) (hid : (f session).id = session.id)
    (hcancelled : (f session).cancelled = session.cancelled)
    (hlistener : (f session).listener = some ⟨n.handles, address⟩) (hrole : (f session).role = .worker)
    (hphase : (f session).phase = .prepared) : n'.Inv := by
  refine h.writes hw hsession hid hcancelled ⟨fun _ => ?_, fun hco => ?_, fun _ hsync => ?_⟩ fun handle hhandle => ?_
  · rw [hphase]
    decide
  · exact absurd (hrole.symm.trans hco) (by decide)
  · exact absurd (hphase.symm.trans hsync) (by decide)
  · have hempty : n.listeners = [] := by
      refine List.eq_nil_iff_forall_not_mem.2 fun handle hhandle => ?_
      obtain ⟨session', listener, hcurrent, hsome, -⟩ := h.listened handle hhandle
      rw [current_eq hk, hsession] at hcurrent
      obtain rfl := Option.some.inj hcurrent
      rw [hnone] at hsome
      cases hsome
    rw [hlisteners, hempty, List.mem_singleton] at hhandle
    exact ⟨f session, _, (current_eq (hw.active.trans hk)).trans (hw.get? hsession), hlistener, hhandle.symm⟩

/-! ## The goroutines -/

theorem mem_setWork {work : Work} {job : Job} (h : job ∈ (n.setWork k work).jobs) :
    (job ∈ n.jobs ∧ job.session ≠ k) ∨ job = ⟨k, work⟩ := by
  obtain ⟨old, hold, rfl⟩ := List.mem_map.1 h
  split
  · exact .inr rfl
  · next hne => exact .inl ⟨hold, hne⟩

theorem mem_finish {job : Job} (h : job ∈ (n.finish k).jobs) : job ∈ n.jobs ∧ job.session ≠ k := by
  simpa [finish] using h

/-- The goroutine goes to work that does not hold the lock, and the listener stays. -/
theorem Inv.works (h : n.Inv) (hsession : n.sessions[k]? = some session) {work : Work}
    (hsessions : n'.sessions = n.sessions.modify k f) (hactive : n'.active = n.active)
    (howner : n'.distributedOwner = n.distributedOwner) (hlisteners : n'.listeners = n.listeners)
    (hopMu : n'.opMu = n.opMu) (hjobs : n'.jobs = (n.setWork k work).jobs) (hid : (f session).id = session.id)
    (hcancelled : (f session).cancelled = session.cancelled) (hlistener : (f session).listener = session.listener)
    (hsound : (f session).Sound) (hdoing : (f session).Doing work) (hholds : work.holds = false) : n'.Inv := by
  refine h.writes_quietly (k := k) (f := f)
    ⟨hsessions, hactive, howner, fun job hjob => ?_, ?_, fun job hjob hjobHolds => ?_⟩ hsession
    hlisteners hid hcancelled hlistener hsound
  · rw [hjobs] at hjob
    rcases mem_setWork hjob with hold | rfl
    · exact .inl hold
    · refine .inr ⟨rfl, fun session' hsession' => ?_⟩
      obtain rfl := Option.some.inj (hsession.symm.trans hsession')
      exact hdoing
  · rw [hopMu]
    exact h.locked
  · rw [hjobs] at hjob
    rw [hopMu]
    rcases mem_setWork hjob with ⟨hold, -⟩ | rfl
    · exact h.holding job hold hjobHolds
    · rw [hholds] at hjobHolds
      cases hjobHolds

theorem Inv.setWork (h : n.Inv) (hsession : n.sessions[k]? = some session) {work : Work} (hdoing : session.Doing work)
    (hholds : work.holds = false) : (n.setWork k work).Inv :=
  h.works (f := id) hsession (List.modify_id k n.sessions).symm rfl rfl rfl rfl rfl rfl rfl rfl (h.sound k _ hsession)
    hdoing hholds

/-- The lock is given back by the goroutine that holds it. -/
theorem Inv.setWork_unlock (h : n.Inv) (hsession : n.sessions[k]? = some session) {work : Work}
    (hdoing : session.Doing work) (hholds : work.holds = false) (hopMu : n.opMu = some k) :
    (n.setWork k work).unlock.Inv := by
  refine h.writes_quietly (k := k) (f := id) ⟨(List.modify_id k n.sessions).symm, rfl, rfl, fun job hjob => ?_, ?_,
    fun job hjob hjobHolds => ?_⟩ hsession rfl rfl rfl rfl (h.sound k _ hsession)
  · rcases mem_setWork hjob with hold | rfl
    · exact .inl hold
    · refine .inr ⟨rfl, fun session' hsession' => ?_⟩
      obtain rfl := Option.some.inj (hsession.symm.trans hsession')
      exact hdoing
  · rintro j ⟨⟩
  · exfalso
    rcases mem_setWork hjob with ⟨hold, hne⟩ | rfl
    · exact hne (Option.some.inj ((h.holding job hold hjobHolds).symm.trans hopMu))
    · rw [hholds] at hjobHolds
      cases hjobHolds

theorem Inv.finish (h : n.Inv) : (n.finish k).Inv where
  owned := h.owned
  active := h.active
  ended := h.ended
  listened := h.listened
  sound := h.sound
  jobs job hjob := h.jobs job (mem_finish hjob).1
  locked := h.locked
  holding job hjob := h.holding job (mem_finish hjob).1

/-! ## Sessions begin and end -/

theorem Inv.stopSession (h : n.Inv) (hfree : n.opMu = none) (hk : n.active = some k)
    (hsession : n.sessions[k]? = some session) (answers : Answers) (reason : String) (notify : Bool)
    (except : Option String) : (n.stopSession answers k session reason notify except).Inv := by
  have hsessions : (n.stopSession answers k session reason notify except).sessions =
      n.sessions.modify k fun session => { session with cancelled := true } := by
    cases notify <;> rfl
  have howner : (n.stopSession answers k session reason notify except).distributedOwner =
      if n.distributedOwner = session.id then "" else n.distributedOwner := by
    cases notify <;> rfl
  have hlisteners : (n.stopSession answers k session reason notify except).listeners = [] := by
    rw [← h.close_nil hk hsession]
    cases notify <;> rfl
  have hjobs : (n.stopSession answers k session reason notify except).jobs = n.jobs := by cases notify <;> rfl
  have hopMu : (n.stopSession answers k session reason notify except).opMu = none := by
    rw [← hfree]
    cases notify <;> rfl
  have hactive : (n.stopSession answers k session reason notify except).active = none := rfl
  have hcases : ∀ j session', (n.stopSession answers k session reason notify except).sessions[j]? = some session' →
      (j = k ∧ session' = { session with cancelled := true }) ∨ (j ≠ k ∧ n.sessions[j]? = some session') := by
    intro j session' hj
    rw [hsessions, List.getElem?_modify] at hj
    by_cases hjk : k = j
    · subst hjk
      rw [hsession] at hj
      exact .inl ⟨rfl, by simpa using hj.symm⟩
    · exact .inr ⟨Ne.symm hjk, by simpa [hjk] using hj⟩
  constructor
  · have howned := h.owned
    rw [current_eq hk, hsession, Option.map_some, Option.getD_some] at howned
    rw [howner, if_pos howned]
    rfl
  · rintro j ⟨⟩
  · rintro j session' hj -
    rcases hcases j session' hj with ⟨-, rfl⟩ | ⟨hjk, hold⟩
    · rfl
    · exact h.ended j _ hold (by rw [hk]; simpa using Ne.symm hjk)
  · rw [hlisteners]
    simp
  · intro j session' hj
    rcases hcases j session' hj with ⟨-, rfl⟩ | ⟨-, hold⟩
    · have hsound := h.sound k _ hsession
      exact ⟨hsound.listener, hsound.started, hsound.worker⟩
    · exact h.sound j _ hold
  · intro job hjob
    rw [hjobs] at hjob
    obtain ⟨session', hsession', hdoing⟩ := h.jobs job hjob
    rw [hsessions, List.getElem?_modify, hsession']
    refine ⟨_, rfl, ?_⟩
    split
    · cases hwork : job.work <;> rw [hwork] at hdoing <;> exact hdoing
    · exact hdoing
  · rw [hopMu]
    rintro j ⟨⟩
  · intro job hjob hholds
    rw [hjobs] at hjob
    rw [hopMu, ← hfree]
    exact h.holding job hjob hholds

/-- A session begins, with the listener that is held for it, if any. -/
theorem Inv.activated (h : n.Inv) (session : ActiveSession) (hfree : n.opMu = none) (hnone : n.active = none)
    (hsessions : n'.sessions = n.sessions ++ [session]) (hactive : n'.active = some n.sessions.length)
    (howner : n'.distributedOwner = session.id) (hopMu : n'.opMu = n.opMu)
    (hjobs : n'.jobs = n.jobs ++ [⟨n.sessions.length, .stopPrevious⟩])
    (hlisteners : n'.listeners = session.listener.toList.map (·.handle) ++ n.listeners) (hid : session.id ≠ "")
    (hcancelled : session.cancelled = false) (hsound : session.Sound) (hdoing : session.Doing .stopPrevious) :
    n'.Inv := by
  have hnew : n'.sessions[n.sessions.length]? = some session := by rw [hsessions]; simp
  have hcurrent : n'.current = some session := (current_eq hactive).trans hnew
  have hold : ∀ {j : Nat} {session' : ActiveSession}, n.sessions[j]? = some session' →
      n'.sessions[j]? = some session' := by
    intro j session' hj
    rw [hsessions, List.getElem?_append_left (List.getElem?_eq_some_iff.1 hj).1]
    exact hj
  have hcases : ∀ {j : Nat} {session' : ActiveSession}, n'.sessions[j]? = some session' →
      n.sessions[j]? = some session' ∨ (j = n.sessions.length ∧ session' = session) := by
    intro j session' hj
    rw [hsessions, List.getElem?_append] at hj
    split at hj
    · exact .inl hj
    · next hlt =>
      obtain ⟨hj0, rfl⟩ := List.getElem?_eq_some_iff.1 hj
      rw [List.length_singleton] at hj0
      exact .inr ⟨by omega, by simp⟩
  constructor
  · rw [howner, hcurrent]
    rfl
  · intro j hj
    obtain rfl := Option.some.inj (hactive.symm.trans hj)
    exact ⟨session, hnew, hid, hcancelled⟩
  · intro j session' hj hne
    rcases hcases hj with hj | ⟨rfl, -⟩
    · exact h.ended j _ hj (by rw [hnone]; simp)
    · exact absurd hactive hne
  · intro handle hhandle
    have hempty : n.listeners = [] := by
      refine List.eq_nil_iff_forall_not_mem.2 fun handle hhandle => ?_
      obtain ⟨_, _, hcurrent, -⟩ := h.listened handle hhandle
      rw [current, hnone] at hcurrent
      cases hcurrent
    rw [hlisteners, hempty, List.append_nil, List.mem_map] at hhandle
    obtain ⟨listener, hlistener, rfl⟩ := hhandle
    exact ⟨session, listener, hcurrent, Option.mem_toList.1 hlistener, rfl⟩
  · intro j session' hj
    rcases hcases hj with hj | ⟨-, rfl⟩
    · exact h.sound j _ hj
    · exact hsound
  · intro job hjob
    rw [hjobs, List.mem_append, List.mem_singleton] at hjob
    rcases hjob with hjob | rfl
    · obtain ⟨session', hsession', hdoing'⟩ := h.jobs job hjob
      exact ⟨session', hold hsession', hdoing'⟩
    · exact ⟨session, hnew, hdoing⟩
  · rw [hopMu, hfree]
    rintro j ⟨⟩
  · intro job hjob hholds
    rw [hjobs, List.mem_append, List.mem_singleton] at hjob
    rw [hopMu]
    rcases hjob with hjob | rfl
    · exact h.holding job hjob hholds
    · cases hholds

theorem Inv.stopLocked (h : n.Inv) (hfree : n.opMu = none) (answers : Answers) (reason : String) (notify : Bool)
    (except : Option String) : (n.stopLocked answers reason notify except).1.Inv := by
  rcases stopLocked_cases answers n reason notify except with heq | ⟨k, session, text, hk, hsession, heq⟩
  · rwa [heq]
  · rw [heq]
    exact h.stopSession hfree hk hsession answers text notify except

/-! ## Requests and `Begin` -/

variable {env : NetEnv} {answers : Answers}

theorem Inv.control (h : n.Inv) (hfree : n.opMu = none) {sender sourceIP : String} {kind : Kind}
    {request : ControlRequest} {result : Except String ControlResponse}
    (hc : Controls env answers n sender sourceIP request kind result n') : n'.Inv := by
  cases hc with
  | refused | nothing => exact h
  | prepared peer rank session _ hnone hid howner _ _ hsame _ _ hrole hphase _ _ hlistener hcancelled =>
    refine h.activated session hfree hnone rfl rfl hsame.symm rfl rfl (by rw [hlistener]; rfl)
      (by rwa [hsame]) hcancelled ⟨fun hsome => absurd hlistener hsome, fun hco => ?_, fun _ _ => hlistener⟩
      (.inr ⟨hrole, hphase, hlistener⟩)
    rw [hrole] at hco
    cases hco
  | armed k session hk hsession hid _ hrole hphase hlength _ =>
    refine h.writes (k := k) ⟨rfl, rfl, rfl, fun job hjob => .inl ⟨hjob, ?_⟩, h.locked, h.holding⟩ hsession rfl rfl
      ⟨fun hsome => absurd rfl hsome, fun hco => ?_, fun _ _ => rfl⟩ ?_
    · -- the goroutine of a worker is gone once it is prepared
      rintro rfl
      obtain ⟨session', hsession', hdoing⟩ := h.jobs job hjob
      obtain rfl := Option.some.inj (hsession.symm.trans hsession')
      exact absurd (hphase.symm.trans (hdoing.of_worker hrole)) (by decide)
    · rw [show session.role = .coordinator from hco] at hrole
      cases hrole
    · have hnil := h.close_nil hk hsession
      rintro handle hhandle
      change handle ∈ (n.close session.listener).listeners at hhandle
      rw [hnil] at hhandle
      cases hhandle
  | committed k session hk hsession hid _ hrole hphase haddresses =>
    have hnone : session.listener = none := by
      by_contra hsome
      have := (h.sound k _ hsession).listener hsome
      rw [hphase] at this
      exact absurd this (by decide)
    refine h.writes_quietly (k := k) ⟨rfl, rfl, rfl, fun job hjob => .inl ⟨hjob, ?_⟩, h.locked, h.holding⟩ hsession rfl
      rfl rfl hnone.symm ⟨fun hsome => absurd rfl hsome, fun hco => ?_, fun _ _ => rfl⟩
    · rintro rfl
      obtain ⟨session', hsession', hdoing⟩ := h.jobs job hjob
      obtain rfl := Option.some.inj (hsession.symm.trans hsession')
      exact absurd (hphase.symm.trans (hdoing.of_worker hrole)) (by decide)
    · rw [show session.role = .coordinator from hco] at hrole
      cases hrole
  | notStarted k session err reason hk hsession =>
    have hcalled : (n.observe (.startRing session.id session.rank session.addresses)).Inv :=
      h.quiet ⟨rfl, rfl, rfl, rfl, rfl, rfl⟩
    exact hcalled.stopSession hfree hk hsession _ _ _ _
  | leased k session _ phase hk hsession hrole hphase =>
    have hsound := h.sound k _ hsession
    refine h.writes_quietly (k := k) ⟨rfl, rfl, rfl, fun job hjob => ?_, h.locked, h.holding⟩ hsession rfl
      rfl rfl rfl ⟨fun hsome => ?_, fun hco => ?_, fun hworker hsync => ?_⟩
    · by_cases hjk : job.session = k
      · refine .inr ⟨hjk, fun session' hsession' => ?_⟩
        subst hjk
        obtain ⟨session'', hsession'', hdoing⟩ := h.jobs job hjob
        obtain rfl := Option.some.inj (hsession.symm.trans hsession')
        obtain rfl := Option.some.inj (hsession.symm.trans hsession'')
        rcases hphase with rfl | ⟨rfl, hphase⟩
        · cases hwork : job.work <;> rw [hwork] at hdoing <;> exact hdoing
        · exfalso
          have hsync := hdoing.of_worker hrole
          rcases hphase with hphase | hphase <;> exact absurd (hphase.symm.trans hsync) (by decide)
      · exact .inl ⟨hjob, hjk⟩
    · have hle := hsound.listener hsome
      rcases hphase with rfl | ⟨rfl, hphase | hphase⟩
      · exact hle
      · rw [hphase] at hle
        exact absurd hle (by decide)
      · rw [hphase] at hle
        exact absurd hle (by decide)
    · rw [show session.role = .coordinator from hco] at hrole
      cases hrole
    · rcases hphase with rfl | ⟨rfl, -⟩
      · exact hsound.worker hworker hsync
      · cases hsync
  | stopped k session _ reason notify hk hsession => exact h.stopSession hfree hk hsession _ _ _ _

theorem Inv.begin (h : n.Inv) (hfree : n.opMu = none) {owner : String} (hbegins : Begins n owner n') : n'.Inv := by
  cases hbegins with
  | intro session address _ hid hnone hsame hrole hrank hphase hstarting hcancelled hlistener =>
    refine h.activated session hfree hnone rfl rfl hsame.symm rfl rfl (by rw [hlistener]; rfl)
      (by rwa [hsame]) hcancelled ⟨fun _ => ?_, fun _ hstarted => ?_, fun hworker => ?_⟩
      (.inl ⟨hrole, hstarting, hphase⟩)
    · rw [hphase]
      exact Nat.zero_le _
    · exact absurd (hstarting.symm.trans hstarted) (by decide)
    · exact absurd (hrole.symm.trans hworker) (by decide)

/-! ## The goroutine of a session goes on -/

section Job
variable {replies : List (Except String ControlResponse)} {request : ControlRequest} {work : Work}

theorem Inv.doing (h : n.Inv) (hjob : ⟨k, work⟩ ∈ n.jobs) (hsession : n.sessions[k]? = some session) :
    session.Doing work := by
  obtain ⟨session', hsession', hdoing⟩ := h.jobs _ hjob
  obtain rfl := Option.some.inj (hsession.symm.trans hsession')
  exact hdoing

theorem Inv.prepareAll (h : n.Inv) (hsession : n.sessions[k]? = some session)
    (hdoing : session.Coordinating .verifying) : (n.prepareAll answers k session).Inv := by
  simp only [Node.prepareAll]
  split
  · exact h.setWork hsession ⟨hdoing.1, hdoing.2.1⟩ rfl
  · split
    · exact h.setWork hsession ⟨hdoing.1, hdoing.2.1⟩ rfl
    · refine h.works hsession rfl rfl rfl rfl rfl rfl rfl rfl rfl ⟨fun _ => ?_, fun _ hstarted => ?_, fun hworker => ?_⟩
        ⟨hdoing.1, hdoing.2.1, rfl⟩ rfl
      · change Phase.order .synchronizing ≤ 3
        decide
      · exact absurd (hdoing.2.1.symm.trans hstarted) (by decide)
      · exact absurd (hdoing.1.symm.trans hworker) (by decide)

theorem Inv.leased (h : n.Inv) (hsession : n.sessions[k]? = some session)
    (hdoing : session.Coordinating .synchronizing) (lastSuccess : Int) :
    (n.leased answers k session request lastSuccess replies).Inv := by
  simp only [Node.leased]
  split
  · exact h.setWork hsession ⟨hdoing.1, hdoing.2.1⟩ rfl
  · split
    · split
      · exact h.setWork hsession hdoing rfl
      · exact h.setWork hsession hdoing rfl
    · split
      · exact h.setWork hsession ⟨hdoing.1, hdoing.2.1⟩ rfl
      · exact h.setWork hsession hdoing rfl

theorem Inv.armAll (h : n.Inv) (hfree : n.opMu = none) (hsession : n.sessions[k]? = some session)
    (hdoing : session.Coordinating .synchronizing) (prepared : List ControlResponse) :
    (n.armAll env k session request prepared).Inv := by
  simp only [Node.armAll]
  split
  · exact h.setWork hsession ⟨hdoing.1, hdoing.2.1⟩ rfl
  · next hcurrent =>
    have hk : n.active = some k := by
      rw [not_or, not_not] at hcurrent
      simpa [isCurrent] using hcurrent.1
    split
    · exact h.setWork hsession ⟨hdoing.1, hdoing.2.1⟩ rfl
    · refine h.writes_quietly (k := k) ⟨rfl, rfl, rfl, fun job hjob => ?_, ?_, fun job hjob hholds => ?_⟩ hsession rfl rfl
        rfl rfl ⟨fun _ => ?_, fun _ hstarted => ?_, fun hworker => ?_⟩
      · rcases mem_setWork hjob with hold | rfl
        · exact .inl hold
        · refine .inr ⟨rfl, fun session' hsession' => ?_⟩
          obtain rfl := Option.some.inj (hsession.symm.trans hsession')
          exact ⟨hdoing.1, hdoing.2.1, rfl⟩
      · rintro j ⟨⟩
        exact hk
      · rcases mem_setWork hjob with ⟨hold, -⟩ | rfl
        · rw [h.holding job hold hholds] at hfree
          cases hfree
        · rfl
      · change Phase.order .starting ≤ 3
        decide
      · exact absurd (hdoing.2.1.symm.trans hstarted) (by decide)
      · exact absurd (hdoing.1.symm.trans hworker) (by decide)

theorem Inv.commitAll (h : n.Inv) (hopMu : n.opMu = some k) (hsession : n.sessions[k]? = some session)
    (hdoing : session.Coordinating .starting) : (n.commitAll k session request replies).Inv := by
  simp only [Node.commitAll]
  split
  · refine h.writes (k := k) ⟨rfl, rfl, rfl, fun job hjob => ?_, h.locked, fun job hjob hholds => ?_⟩ hsession rfl rfl
      ⟨fun hsome => absurd rfl hsome, fun _ hstarted => ?_, fun _ _ => rfl⟩ ?_
    · rcases mem_setWork hjob with hold | rfl
      · exact .inl hold
      · refine .inr ⟨rfl, fun session' hsession' => ?_⟩
        obtain rfl := Option.some.inj (hsession.symm.trans hsession')
        exact ⟨hdoing, rfl⟩
    · rcases mem_setWork hjob with ⟨hold, -⟩ | rfl
      · exact h.holding job hold hholds
      · exact hopMu
    · exact absurd (hdoing.2.1.symm.trans hstarted) (by decide)
    · rintro handle hhandle
      change handle ∈ (n.close session.listener).listeners at hhandle
      rw [h.close_nil (h.locked k hopMu) hsession] at hhandle
      cases hhandle
  · exact h.setWork_unlock hsession ⟨hdoing.1, hdoing.2.1⟩ rfl hopMu

theorem Inv.startAll (h : n.Inv) (hopMu : n.opMu = some k) (hsession : n.sessions[k]? = some session)
    (hdoing : session.Coordinating .starting) (hlistener : session.listener = none) :
    (n.startAll env answers k session request replies).Inv := by
  have hobserved : (n.observe (.startRing session.id 0 request.addresses)).Inv :=
    h.quiet ⟨rfl, rfl, rfl, rfl, rfl, rfl⟩
  simp only [Node.startAll]
  split
  · split
    · exact hobserved.setWork_unlock hsession ⟨hdoing.1, hdoing.2.1⟩ rfl hopMu
    · refine h.writes_quietly (k := k)
        ⟨rfl, rfl, rfl, fun job hjob => .inl (mem_finish hjob), ?_, fun job hjob hholds => ?_⟩ hsession rfl rfl rfl rfl
        ⟨fun hsome => absurd hlistener hsome, fun _ _ => ?_, fun hworker => ?_⟩
      · rintro j ⟨⟩
      · obtain ⟨hold, hne⟩ := mem_finish hjob
        exact absurd (Option.some.inj ((h.holding job hold hholds).symm.trans hopMu)) hne
      · change 5 ≤ Phase.order .loading
        decide
      · exact absurd (hdoing.1.symm.trans hworker) (by decide)
  · exact h.setWork_unlock hsession ⟨hdoing.1, hdoing.2.1⟩ rfl hopMu

theorem Inv.fetch (h : n.Inv) (hsession : n.sessions[k]? = some session) (hdoing : session.Preparing) :
    (n.fetch answers k session).Inv := by
  have hsound := h.sound k _ hsession
  -- the options change, whatever the next work is
  have hworks : ∀ (copied : String) (work : Work), session.Doing work → work.holds = false →
      ((n.update k fun session => session.withProjection copied).setWork k work).Inv := by
    intro copied work hdoing hholds
    refine h.works hsession rfl rfl rfl rfl rfl rfl rfl rfl rfl ⟨hsound.listener, hsound.started, hsound.worker⟩ ?_ hholds
    cases work <;> exact hdoing
  simp only [Node.fetch]
  split
  · exact h.setWork hsession hdoing rfl
  · split
    · exact h.setWork hsession hdoing rfl
    · split
      · exact h.setWork hsession hdoing rfl
      · split
        · exact hworks _ _ hdoing rfl
        · split
          · exact hworks _ _ hdoing rfl
          · exact hworks _ _ hdoing rfl

theorem Inv.reserve (h : n.Inv) (hsession : n.sessions[k]? = some session)
    (hdoing : session.Preparing) (model : String) : (n.reserve env answers k session model).Inv := by
  simp only [Node.reserve]
  split
  · exact h.setWork hsession hdoing rfl
  · next hcurrent =>
    have hk : n.active = some k := by
      rw [not_or, not_not] at hcurrent
      simpa [isCurrent] using hcurrent.1
    split
    · exact h.setWork hsession hdoing rfl
    · split
      · have hnoted := h.setWork hsession (show session.Doing (.note "節點使用不同網路路徑") from hdoing) rfl
        exact hnoted.quiet ⟨rfl, rfl, rfl, rfl, rfl, rfl⟩
      · exact h.opens (k := k) ⟨rfl, rfl, rfl, fun job hjob => .inl (mem_finish hjob), h.locked,
          fun job hjob => h.holding job (mem_finish hjob).1⟩ hk hsession hdoing.2.2 rfl rfl rfl rfl hdoing.1 rfl

theorem Inv.note (h : n.Inv) (hsession : n.sessions[k]? = some session) (reason : String) : (n.note k reason).Inv := by
  have hsound := h.sound k _ hsession
  simp only [Node.note]
  split
  · refine Inv.finish (h.writes_quietly (k := k) ⟨rfl, rfl, rfl, fun job hjob => ?_, h.locked, h.holding⟩ hsession rfl rfl
      rfl rfl ⟨hsound.listener, hsound.started, hsound.worker⟩)
    by_cases hjk : job.session = k
    · refine .inr ⟨hjk, fun session' hsession' => ?_⟩
      subst hjk
      obtain ⟨session'', hsession'', hdoing⟩ := h.jobs job hjob
      obtain rfl := Option.some.inj (hsession'.symm.trans hsession'')
      cases hwork : job.work <;> rw [hwork] at hdoing <;> exact hdoing
    · exact .inl ⟨hjob, hjk⟩
  · exact h.finish

theorem Inv.failPreparation (h : n.Inv) (hfree : n.opMu = none) (k : Nat) (reason : String) :
    (n.failPreparation answers k reason).Inv := by
  simp only [Node.failPreparation]
  split
  · exact h.stopLocked hfree answers reason true none
  · exact h

/-- One step of the goroutine. -/
theorem Inv.proceed (h : n.Inv) (hjob : ⟨k, work⟩ ∈ n.jobs) (hsession : n.sessions[k]? = some session)
    (hfree : work.locks = true → n.opMu = none) : (n.proceed env answers k session replies work).Inv := by
  have hdoing := h.doing hjob hsession
  have hholding := h.holding _ hjob
  cases work with
  | stopPrevious =>
    simp only [Node.proceed]
    rcases hdoing with hdoing | hdoing
    · rw [hdoing.1]
      split
      · exact h.setWork hsession hdoing rfl
      · exact h.setWork hsession ⟨hdoing.1, hdoing.2.1⟩ rfl
      · next heq => cases heq
      · next heq => cases heq
    · rw [hdoing.1]
      split
      · next heq => cases heq
      · next heq => cases heq
      · exact h.setWork hsession hdoing rfl
      · exact h.setWork hsession hdoing rfl
  | verify => exact h.prepareAll hsession hdoing
  | awaitPrepare request first =>
    simp only [Node.proceed]
    split
    · exact h.setWork hsession hdoing rfl
    · exact h.setWork hsession ⟨hdoing.1, hdoing.2.1⟩ rfl
  | poll request lastSuccess =>
    simp only [Node.proceed]
    split
    · exact h.setWork hsession ⟨hdoing.1, hdoing.2.1⟩ rfl
    · have hsent : (n.send session.peers .lease (leaseRequest session)).Inv := h.quiet ⟨rfl, rfl, rfl, rfl, rfl, rfl⟩
      exact hsent.setWork hsession hdoing rfl
  | awaitLease request lastSuccess first => exact h.leased hsession hdoing lastSuccess
  | lock request prepared => exact h.armAll (hfree rfl) hsession hdoing prepared
  | awaitArm request first => exact h.commitAll (hholding rfl) hsession hdoing
  | awaitCommit request first => exact h.startAll (hholding rfl) hsession hdoing.1 hdoing.2
  | fail reason => exact (h.failPreparation (hfree rfl) k reason).finish
  | fetch => exact h.fetch hsession hdoing
  | reserve model => exact h.reserve hsession hdoing model
  | note reason => exact h.note hsession reason

end Job

/-! ## `maintain` and the rest -/

theorem Inv.maintain (h : n.Inv) (hfree : n.opMu = none) : (n.maintain answers).Inv := by
  simp only [Node.maintain]
  split
  · next k session hk hcurrent =>
    have hsession : n.sessions[k]? = some session := by rwa [← current_eq hk]
    have hsent : ∀ request, (n.send session.peers .lease request).Inv := fun _ =>
      h.quiet ⟨rfl, rfl, rfl, rfl, rfl, rfl⟩
    split
    · exact h
    · next hstarting =>
      split
      · exact h.stopLocked hfree answers _ true none
      · split
        · exact h.stopLocked hfree answers _ true none
        · split
          · next hrole =>
            have hstarted : session.starting = false := by simpa [hrole] using hstarting
            have hsound := h.sound k _ hsession
            have horder := hsound.started hrole hstarted
            split
            · refine (hsent _).writes_quietly (k := k)
                ⟨rfl, rfl, rfl, fun job hjob => .inl ⟨hjob, ?_⟩, h.locked, h.holding⟩ hsession rfl rfl rfl rfl
                ⟨fun hsome => ?_, fun _ _ => ?_, fun hworker => ?_⟩
              · rintro rfl
                obtain ⟨session', hsession', hdoing⟩ := h.jobs job hjob
                obtain rfl := Option.some.inj (hsession.symm.trans hsession')
                exact absurd ((hdoing.of_coordinator hrole).symm.trans hstarted) (by decide)
              · have := hsound.listener hsome
                omega
              · change 5 ≤ Phase.order (if answers.ready then .running else session.phase)
                split
                · decide
                · exact horder
              · exact absurd (hrole.symm.trans hworker) (by decide)
            · split
              · exact Inv.stopLocked (hsent _) hfree answers _ true none
              · exact hsent _
          · exact h
  · exact h

theorem Inv.configure (h : n.Inv) (enabled : Bool) (capability : Option RingCapabilities) :
    (n.configure enabled capability).Inv := by
  simp only [Node.configure]
  split
  · exact h
  · exact h.quiet ⟨rfl, rfl, rfl, rfl, rfl, rfl⟩

theorem Inv.discovered (h : n.Inv) (peer : Peer) : (n.discovered peer).Inv := by
  simp only [Node.discovered]
  split
  · exact h
  · exact h.quiet ⟨rfl, rfl, rfl, rfl, rfl, rfl⟩

theorem Inv.announce (h : n.Inv) (now : Int) : (n.announce now).Inv := by
  simp only [Node.announce]
  split
  · exact h
  · exact h.quiet ⟨rfl, rfl, rfl, rfl, rfl, rfl⟩

theorem inv_restarted (n : Node) : n.restarted.Inv where
  owned := rfl
  active := by rintro k ⟨⟩
  ended := by simp [restarted]
  listened := by simp [restarted]
  sound := by simp [restarted]
  jobs := by simp [restarted]
  locked := by rintro k ⟨⟩
  holding := by simp [restarted]

theorem free_iff : n.free = true ↔ n.opMu = none := Option.isNone_iff_eq_none

end Node

theorem act_proceed {env : NetEnv} {s : System} {n n' : Node} {answers : Answers} {k : Nat}
    {replies : List (Except String ControlResponse)}
    (hact : s.act env n answers (.proceed k replies) = some n') :
    ∃ work session, ⟨k, work⟩ ∈ n.jobs ∧ n.sessions[k]? = some session ∧
      (work.locks = true → n.opMu = none) ∧ s.answered n session replies work = true ∧
      n' = n.proceed env answers k session replies work := by
  simp only [System.act] at hact
  split at hact
  · next job session hjob hsession =>
    simp only [Option.ite_none_right_eq_some, Option.some.injEq] at hact
    obtain ⟨⟨hfree, hanswered⟩, rfl⟩ := hact
    have hmem := List.mem_of_find?_eq_some hjob
    have hk : job.session = k := by simpa using List.find?_some hjob
    subst hk
    exact ⟨job.work, session, hmem, hsession,
      fun hlocks => Node.free_iff.1 (hfree.resolve_right fun hnot => hnot hlocks), hanswered, rfl⟩
  · cases hact

theorem act_inv {env : NetEnv} {s : System} {n n' : Node} {answers : Answers} {action : Action} (h : n.Inv)
    (hact : s.act env n answers action = some n') : n'.Inv := by
  cases action with
  | configure enabled capability =>
    simp only [System.act, Option.ite_none_right_eq_some, Option.some.injEq] at hact
    exact hact.2 ▸ h.configure enabled capability
  | discovered peer =>
    obtain rfl := Option.some.inj hact
    exact h.discovered peer
  | announce =>
    obtain rfl := Option.some.inj hact
    exact h.announce _
  | begin owner request =>
    simp only [System.act, Option.ite_none_right_eq_some] at hact
    obtain ⟨⟨hfree, -⟩, hact⟩ := hact
    split at hact
    · obtain rfl := Option.some.inj hact
      exact h
    · next hbegin =>
      obtain rfl := Option.some.inj hact
      exact h.begin (Node.free_iff.1 hfree) (Node.begin_ok hbegin)
  | arrives sender index sourceIP =>
    simp only [System.act] at hact
    split at hact
    · cases hact
    · next message _ =>
      simp only [Option.ite_none_right_eq_some, Option.some.injEq] at hact
      obtain ⟨⟨hfree, -⟩, rfl⟩ := hact
      obtain ⟨result, hcontrols, -⟩ :=
        Node.handle_controls env answers n sender sourceIP message.kind message.request
      exact (h.control (Node.free_iff.1 hfree) hcontrols).quiet ⟨rfl, rfl, rfl, rfl, rfl, rfl⟩
  | proceed k replies =>
    obtain ⟨work, session, hjob, hsession, hfree, -, rfl⟩ := act_proceed hact
    exact h.proceed hjob hsession hfree
  | stop =>
    simp only [System.act, Option.ite_none_right_eq_some, Option.some.injEq] at hact
    exact hact.2 ▸ h.stopLocked (Node.free_iff.1 hact.1) answers _ _ _
  | abandon k reason =>
    simp only [System.act, Option.ite_none_right_eq_some, Option.some.injEq] at hact
    exact hact.2 ▸ h.failPreparation (Node.free_iff.1 hact.1) k reason
  | maintain =>
    simp only [System.act, Option.ite_none_right_eq_some, Option.some.injEq] at hact
    exact hact.2 ▸ h.maintain (Node.free_iff.1 hact.1)
  | shutdown =>
    simp only [System.act, Option.ite_none_right_eq_some, Option.some.injEq] at hact
    have hclosed : Node.Inv { n with closed := true } := h.quiet ⟨rfl, rfl, rfl, rfl, rfl, rfl⟩
    exact hact.2 ▸ hclosed.stopLocked (Node.free_iff.1 hact.1) answers _ _ _
  | ends =>
    obtain rfl := Option.some.inj hact
    exact h.quiet ⟨rfl, rfl, rfl, rfl, rfl, rfl⟩
  | restarts =>
    obtain rfl := Option.some.inj hact
    exact Node.inv_restarted n

/-! ## Sessions go forward -/

namespace Node

variable {env : NetEnv} {answers : Answers} {n n' : Node} {k : Nat} {session : ActiveSession}
  {f : ActiveSession → ActiveSession}

/-- Every session stays, its phase does not go back, and a session that has ended stays as it was. -/
structure Advances (n n' : Node) : Prop where
  sessions : ∀ (k : Nat) (session : ActiveSession), n.sessions[k]? = some session →
    ∃ session', n'.sessions[k]? = some session' ∧ session'.id = session.id ∧
      session.phase.order ≤ session'.phase.order ∧ (n.active ≠ some k → session'.phase = session.phase)
  active : n'.active = n.active ∨ n'.active = none ∨ n'.active = some n.sessions.length

theorem Advances.quiet (hsessions : n'.sessions = n.sessions) (hactive : n'.active = n.active) : Advances n n' :=
  ⟨fun _ session hk => ⟨session, hsessions ▸ hk, rfl, le_rfl, fun _ => rfl⟩, .inl hactive⟩

theorem Advances.modify (hsession : n.sessions[k]? = some session) (hsessions : n'.sessions = n.sessions.modify k f)
    (hactive : n'.active = n.active ∨ n'.active = none) (hid : (f session).id = session.id)
    (horder : session.phase.order ≤ (f session).phase.order)
    (hended : n.active ≠ some k → (f session).phase = session.phase) : Advances n n' := by
  refine ⟨fun j session' hj => ?_, hactive.imp_right .inl⟩
  rw [hsessions, List.getElem?_modify, hj]
  by_cases hjk : k = j
  · subst hjk
    obtain rfl := Option.some.inj (hsession.symm.trans hj)
    exact ⟨f session, by simp, hid, horder, hended⟩
  · exact ⟨session', by simp [hjk], rfl, le_rfl, fun _ => rfl⟩

theorem Advances.begins (session : ActiveSession) (hsessions : n'.sessions = n.sessions ++ [session])
    (hactive : n'.active = some n.sessions.length) : Advances n n' := by
  refine ⟨fun j session' hj => ⟨session', ?_, rfl, le_rfl, fun _ => rfl⟩, .inr (.inr hactive)⟩
  rw [hsessions, List.getElem?_append_left (List.getElem?_eq_some_iff.1 hj).1]
  exact hj

theorem Advances.stopSession (hsession : n.sessions[k]? = some session) (answers : Answers) (reason : String)
    (notify : Bool) (except : Option String) : Advances n (n.stopSession answers k session reason notify except) := by
  refine .modify (f := fun session => { session with cancelled := true }) hsession ?_ (.inr rfl) rfl le_rfl fun _ => rfl
  cases notify <;> rfl

theorem Advances.stopLocked (answers : Answers) (n : Node) (reason : String) (notify : Bool) (except : Option String) :
    Advances n (n.stopLocked answers reason notify except).1 := by
  rcases stopLocked_cases answers n reason notify except with heq | ⟨k, session, text, -, hsession, heq⟩
  · rw [heq]
    exact .quiet rfl rfl
  · rw [heq]
    exact .stopSession hsession _ _ _ _

theorem Advances.failPreparation (answers : Answers) (n : Node) (k : Nat) (reason : String) :
    Advances n (n.failPreparation answers k reason) := by
  simp only [Node.failPreparation]
  split
  · exact .stopLocked _ _ _ _ _
  · exact .quiet rfl rfl

theorem Advances.control {sender sourceIP : String} {kind : Kind} {request : ControlRequest}
    {result : Except String ControlResponse} (hc : Controls env answers n sender sourceIP request kind result n') :
    Advances n n' := by
  cases hc with
  | refused | nothing => exact .quiet rfl rfl
  | prepared peer rank session => exact .begins session rfl rfl
  | armed k session hk hsession hid _ hrole hphase =>
    refine .modify hsession rfl (.inl rfl) rfl ?_ fun hne => absurd hk hne
    rw [hphase]
    exact Nat.le_of_ble_eq_true rfl
  | committed k session hk hsession hid _ hrole hphase =>
    refine .modify hsession rfl (.inl rfl) rfl ?_ fun hne => absurd hk hne
    rw [hphase]
    exact Nat.le_of_ble_eq_true rfl
  | notStarted k session err reason hk hsession =>
    have hstop := Advances.stopSession (n := n.observe (.startRing session.id session.rank session.addresses)) hsession
      answers reason false none
    exact ⟨hstop.sessions, hstop.active⟩
  | leased k session _ phase hk hsession hrole hphase =>
    refine .modify hsession rfl (.inl rfl) rfl ?_ fun hne => absurd hk hne
    rcases hphase with rfl | ⟨rfl, hphase | hphase⟩
    · exact le_rfl
    · rw [hphase]
      exact Nat.le_of_ble_eq_true rfl
    · rw [hphase]
  | stopped k session _ reason notify hk hsession => exact .stopSession hsession _ _ _ _

theorem Advances.begin {owner : String} (hbegins : Begins n owner n') : Advances n n' := by
  cases hbegins with
  | intro session => exact .begins session rfl rfl

theorem Advances.maintain (answers : Answers) (h : n.Inv) : Advances n (n.maintain answers) := by
  simp only [Node.maintain]
  split
  · next k session hk hcurrent =>
    have hsession : n.sessions[k]? = some session := by rwa [← current_eq hk]
    have hafter : ∀ {sent : Node}, Advances (n.send session.peers .lease { leaseRequest session with
        ready := answers.ready }) sent → Advances n sent := fun h => ⟨h.sessions, h.active⟩
    split
    · exact .quiet rfl rfl
    · next hstarting =>
      split
      · exact .stopLocked _ _ _ _ _
      · split
        · exact .stopLocked _ _ _ _ _
        · split
          · next hrole =>
            have hstarted : session.starting = false := by simpa [hrole] using hstarting
            have horder := (h.sound k _ hsession).started hrole hstarted
            have hphase : session.phase.order ≤ 6 := by cases session.phase <;> decide
            split
            · refine .modify hsession rfl (.inl rfl) rfl ?_ fun hne => absurd hk hne
              change session.phase.order ≤ (if answers.ready then Phase.running else session.phase).order
              split
              · exact hphase
              · exact le_rfl
            · split
              · exact hafter (.stopLocked _ _ _ _ _)
              · exact .quiet rfl rfl
          · exact .quiet rfl rfl
  · exact .quiet rfl rfl

/-! ## A goroutine goes on -/

section Job
variable {replies : List (Except String ControlResponse)} {request : ControlRequest} {work : Work}

/-- Every session stays where it is but for the goroutine's own, which goes forward. -/
theorem Advances.proceed (h : n.Inv) (hjob : ⟨k, work⟩ ∈ n.jobs) (hsession : n.sessions[k]? = some session) :
    Advances n (n.proceed env answers k session replies work) := by
  have hdoing := h.doing hjob hsession
  have hholding := h.holding _ hjob
  have hsame : ∀ {work : Work}, Advances n (n.setWork k work) := .quiet rfl rfl
  have hgiven : ∀ {work : Work}, Advances n (n.setWork k work).unlock := .quiet rfl rfl
  cases work with
  | stopPrevious =>
    simp only [Node.proceed]
    split <;> exact hsame
  | verify =>
    simp only [Node.proceed, Node.prepareAll]
    split
    · exact hsame
    · split
      · exact hsame
      · next hcurrent =>
        refine .modify hsession rfl (.inl rfl) rfl ?_ fun hne => absurd (by simpa [isCurrent] using hcurrent) hne
        rw [hdoing.2.2]
        exact Nat.zero_le _
  | awaitPrepare request first =>
    simp only [Node.proceed]
    split <;> exact hsame
  | poll request lastSuccess =>
    simp only [Node.proceed]
    split
    · exact hsame
    · exact .quiet rfl rfl
  | awaitLease request lastSuccess first =>
    simp only [Node.proceed, Node.leased]
    split
    · exact hsame
    · split <;> split <;> exact hsame
  | lock request prepared =>
    simp only [Node.proceed, Node.armAll]
    split
    · exact hsame
    · next hcurrent =>
      rw [not_or, not_not] at hcurrent
      split
      · exact hsame
      · refine .modify hsession rfl (.inl rfl) rfl ?_ fun hne => absurd (by simpa [isCurrent] using hcurrent.1) hne
        rw [hdoing.2.2]
        exact Nat.le_of_ble_eq_true rfl
  | awaitArm request first =>
    have hk := h.locked k (hholding rfl)
    simp only [Node.proceed, Node.commitAll]
    split
    · exact .modify hsession rfl (.inl rfl) rfl le_rfl fun _ => rfl
    · exact hgiven
  | awaitCommit request first =>
    have hk := h.locked k (hholding rfl)
    simp only [Node.proceed, Node.startAll]
    split
    · split
      · exact .quiet rfl rfl
      · refine .modify hsession rfl (.inl rfl) rfl ?_ fun hne => absurd hk hne
        rw [hdoing.1.2.2]
        exact Nat.le_of_ble_eq_true rfl
    · exact hgiven
  | fail reason =>
    have hfail := Advances.failPreparation answers n k reason
    exact ⟨hfail.sessions, hfail.active⟩
  | fetch =>
    have hworks : ∀ {copied : String} {work : Work},
        Advances n ((n.update k fun session => session.withProjection copied).setWork k work) :=
      .modify hsession rfl (.inl rfl) rfl le_rfl fun _ => rfl
    simp only [Node.proceed, Node.fetch]
    split
    · exact hsame
    · split
      · exact hsame
      · split
        · exact hsame
        · split
          · exact hworks
          · split <;> exact hworks
  | reserve model =>
    simp only [Node.proceed, Node.reserve]
    split
    · exact hsame
    · next hcurrent =>
      rw [not_or, not_not] at hcurrent
      split
      · exact hsame
      · split
        · exact .quiet rfl rfl
        · refine .modify hsession rfl (.inl rfl) rfl ?_ fun hne => absurd (by simpa [isCurrent] using hcurrent.1) hne
          rw [hdoing.2.1]
          exact Nat.le_of_ble_eq_true rfl
  | note reason =>
    simp only [Node.proceed, Node.note]
    split
    · exact .modify hsession rfl (.inl rfl) rfl le_rfl fun _ => rfl
    · exact .quiet rfl rfl

/-- Everything stays but the goroutines and one session. -/
structure Unmoved (n : Node) (k : Nat) (n' : Node) : Prop where
  active : n'.active = n.active
  owner : n'.distributedOwner = n.distributedOwner
  listeners : n'.listeners = n.listeners
  opMu : n'.opMu = n.opMu
  lastError : n'.lastError = n.lastError
  sent : n'.sent = n.sent
  log : n'.log = n.log
  sessions : ∀ j, j ≠ k → n'.sessions[j]? = n.sessions[j]?

/-- A goroutine of a session that has ended changes nothing of the node. -/
theorem late_proceed (h : n.Inv) (hjob : ⟨k, work⟩ ∈ n.jobs) (hsession : n.sessions[k]? = some session)
    (hended : n.active ≠ some k) : Unmoved n k (n.proceed env answers k session replies work) := by
  have hcancelled := h.ended k _ hsession hended
  have hdone : n.done session = true := by rw [done, hcancelled, Bool.true_or]
  have hcurrent : n.isCurrent k = false := decide_eq_false hended
  have hholding := h.holding _ hjob
  have hsame : ∀ {work : Work}, Unmoved n k (n.setWork k work) := ⟨rfl, rfl, rfl, rfl, rfl, rfl, rfl, fun _ _ => rfl⟩
  have hfinished : Unmoved n k (n.finish k) := ⟨rfl, rfl, rfl, rfl, rfl, rfl, rfl, fun _ _ => rfl⟩
  cases work with
  | stopPrevious =>
    simp only [Node.proceed]
    split <;> exact hsame
  | verify =>
    simp only [Node.proceed, Node.prepareAll, hcurrent]
    split <;> exact hsame
  | awaitPrepare request first =>
    simp only [Node.proceed]
    split <;> exact hsame
  | poll request lastSuccess =>
    simp only [Node.proceed, hdone]
    exact hsame
  | awaitLease request lastSuccess first =>
    simp only [Node.proceed, Node.leased]
    split
    · exact hsame
    · split <;> split <;> exact hsame
  | lock request prepared =>
    simp only [Node.proceed, Node.armAll, hcurrent]
    exact hsame
  | awaitArm request first => exact absurd (h.locked k (hholding rfl)) hended
  | awaitCommit request first => exact absurd (h.locked k (hholding rfl)) hended
  | fail reason =>
    simp only [Node.proceed, Node.failPreparation, hcurrent]
    exact hfinished
  | fetch =>
    have hworks : ∀ {copied : String} {work : Work},
        Unmoved n k ((n.update k fun session => session.withProjection copied).setWork k work) :=
      ⟨rfl, rfl, rfl, rfl, rfl, rfl, rfl, fun j hj => by
        change (n.sessions.modify k _)[j]? = _
        rw [List.getElem?_modify]
        simp [Ne.symm hj]⟩
    simp only [Node.proceed, Node.fetch]
    split
    · exact hsame
    · split
      · exact hsame
      · split
        · exact hsame
        · split
          · exact hworks
          · split <;> exact hworks
  | reserve model =>
    simp only [Node.proceed, Node.reserve, hcurrent]
    exact hsame
  | note reason =>
    simp only [Node.proceed, Node.note, hcurrent]
    exact hfinished

end Job

end Node

/-! ## Runs -/

variable {env : NetEnv} {s s' : System} {e : Event} {events : List Event}

theorem act_advances {n n' : Node} {answers : Answers} {action : Action} (h : n.Inv) (haction : action ≠ .restarts)
    (hact : s.act env n answers action = some n') : n.Advances n' := by
  cases action with
  | configure enabled capability =>
    simp only [System.act, Option.ite_none_right_eq_some, Option.some.injEq] at hact
    obtain ⟨-, rfl⟩ := hact
    simp only [Node.configure]
    split <;> exact .quiet rfl rfl
  | discovered peer =>
    obtain rfl := Option.some.inj hact
    simp only [Node.discovered]
    split <;> exact .quiet rfl rfl
  | announce =>
    obtain rfl := Option.some.inj hact
    simp only [Node.announce]
    split <;> exact .quiet rfl rfl
  | begin owner request =>
    simp only [System.act, Option.ite_none_right_eq_some] at hact
    obtain ⟨-, hact⟩ := hact
    split at hact
    · obtain rfl := Option.some.inj hact
      exact .quiet rfl rfl
    · next hbegin =>
      obtain rfl := Option.some.inj hact
      exact .begin (Node.begin_ok hbegin)
  | arrives sender index sourceIP =>
    simp only [System.act] at hact
    split at hact
    · cases hact
    · next message _ =>
      simp only [Option.ite_none_right_eq_some, Option.some.injEq] at hact
      obtain ⟨-, rfl⟩ := hact
      obtain ⟨result, hcontrols, -⟩ :=
        Node.handle_controls env answers n sender sourceIP message.kind message.request
      have hcontrol := Node.Advances.control hcontrols
      exact ⟨hcontrol.sessions, hcontrol.active⟩
  | proceed k replies =>
    obtain ⟨work, session, hjob, hsession, -, -, rfl⟩ := act_proceed hact
    exact .proceed h hjob hsession
  | stop =>
    simp only [System.act, Option.ite_none_right_eq_some, Option.some.injEq] at hact
    exact hact.2 ▸ .stopLocked _ _ _ _ _
  | abandon k reason =>
    simp only [System.act, Option.ite_none_right_eq_some, Option.some.injEq] at hact
    exact hact.2 ▸ .failPreparation _ _ _ _
  | maintain =>
    simp only [System.act, Option.ite_none_right_eq_some, Option.some.injEq] at hact
    exact hact.2 ▸ .maintain _ h
  | shutdown =>
    simp only [System.act, Option.ite_none_right_eq_some, Option.some.injEq] at hact
    obtain ⟨-, rfl⟩ := hact
    have hstop := Node.Advances.stopLocked answers { n with closed := true } "" true none
    exact ⟨hstop.sessions, hstop.active⟩
  | ends =>
    obtain rfl := Option.some.inj hact
    exact .quiet rfl rfl
  | restarts => exact absurd rfl haction

theorem step_nodes (h : Steps env s e s') : ∃ n, s.act env (s.nodes e.node) e.answers e.action = some n ∧
    s'.nodes = Function.update s.nodes e.node n := by
  obtain ⟨n, hact, rfl⟩ := Option.map_eq_some_iff.1 h
  exact ⟨n, hact, rfl⟩

theorem step_inv (h : ∀ c, (s.nodes c).Inv) (hstep : Steps env s e s') (c : String) : (s'.nodes c).Inv := by
  obtain ⟨n, hact, hnodes⟩ := step_nodes hstep
  rw [hnodes]
  by_cases hc : c = e.node
  · subst hc
    rw [Function.update_self]
    exact act_inv (h _) hact
  · rw [Function.update_of_ne hc]
    exact h c

/-- In every run of a network, at every node: the manager is reserved for the active session, and for none where
there is none; the only listener that is open is that of the active session; and in the next step, unless the node
is started again, every session stays, its phase does not go back, one that has ended does not become active or
change its phase, and the goroutine of one that has ended changes nothing but itself. -/
theorem session_reservation (hfresh : s.Fresh) (hrun : Run (Steps env) s events s') (c : String) :
    (s'.nodes c).distributedOwner = ((s'.nodes c).current.map (·.id)).getD "" ∧
    (∀ k, (s'.nodes c).active = some k → ∃ session, (s'.nodes c).current = some session ∧ session.id ≠ "") ∧
    (∀ handle ∈ (s'.nodes c).listeners, ∃ session listener, (s'.nodes c).current = some session ∧
      session.listener = some listener ∧ listener.handle = handle) ∧
    ∀ e s'', Steps env s' e s'' → (e.node = c → e.action ≠ .restarts) →
      (s'.nodes c).Advances (s''.nodes c) ∧
      ∀ k replies, e.node = c → e.action = .proceed k replies → (s'.nodes c).active ≠ some k →
        (s'.nodes c).Unmoved k (s''.nodes c) := by
  have hinv := hrun.inv (fun s => ∀ c, (s.nodes c).Inv) (fun _ _ _ h hstep => step_inv h hstep)
    fun c => (hfresh.nodes c).inv
  refine ⟨(hinv c).owned, fun k hk => ?_, (hinv c).listened, fun e s'' hstep hrestarts => ?_⟩
  · obtain ⟨session, hcurrent, -, hid, -⟩ := (hinv c).current_of_active hk
    exact ⟨session, hcurrent, hid⟩
  · obtain ⟨n, hact, hnodes⟩ := step_nodes hstep
    rw [hnodes]
    by_cases hc : c = e.node
    · subst hc
      rw [Function.update_self]
      refine ⟨act_advances (hinv _) (hrestarts rfl) hact, fun k replies _ haction hended => ?_⟩
      rw [haction] at hact
      obtain ⟨work, session, hjob, hsession, -, -, rfl⟩ := act_proceed hact
      exact Node.late_proceed (hinv _) hjob hsession hended
    · rw [Function.update_of_ne hc]
      exact ⟨.quiet rfl rfl, fun k replies he => absurd he.symm hc⟩

/-- The worker of two nodes is running: its manager is reserved for the session, and its listener is closed. -/
theorem pair_reserved : (pairEnd.nodes nodeB).distributedOwner = pairID ∧ (pairEnd.nodes nodeB).listeners = [] := by
  obtain ⟨howner, -, hlisteners, -⟩ := session_reservation pair_fresh pair_run nodeB
  have hcurrent : ((pairEnd.nodes nodeB).current.map (·.id)).getD "" = pairID := by decide +kernel
  have hlistener : (pairEnd.nodes nodeB).current.bind (·.listener) = none := by decide +kernel
  refine ⟨howner.trans hcurrent, List.eq_nil_iff_forall_not_mem.2 fun handle hhandle => ?_⟩
  obtain ⟨session, listener, hsession, hsome, -⟩ := hlisteners handle hhandle
  rw [hsession, Option.bind_some, hsome] at hlistener
  cases hlistener

end Tanpopo.Cluster.Ring
