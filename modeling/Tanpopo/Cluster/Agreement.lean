import Tanpopo.Cluster.Reservation
/-!
# Nodes of one ring agree

All nodes that start for a session do so with one list of addresses, each with
its own place in the list of members, and not before all workers are armed. The
reason is a chain: a coordinator draws one list, only it sends the list, and it
sends `commit` when each worker has answered `arm`.
-/

namespace Tanpopo.Cluster.Ring

/-- The request carries the list of addresses. -/
def Message.Lists (m : Message) : Prop := m.kind = .arm ∨ m.kind = .commit

def System.Saw (s : System) (c : String) (o : Observation) : Prop := o ∈ (s.nodes c).log

/-! ## The invariant -/

/-- What a request that was sent says of the run. -/
structure MessageOK (s : System) (c : String) (m : Message) : Prop where
  begun : m.kind = .prepare ∨ m.Lists → s.Saw c (.began m.request.sessionID m.request.members)
  length : m.Lists → m.request.addresses.length = m.request.members.length
  armed : m.kind = .commit → ∀ member ∈ m.request.members.tail,
    s.Saw member.id (.armed m.request.sessionID m.request.addresses)

/-- The place of a node among the addresses is a listener of its own. -/
def OwnPlace (s : System) (c id : String) (rank : Nat) (addresses : List String) : Prop :=
  ∃ address, addresses[rank]? = some address ∧ s.Saw c (.reserved id address)

def PlaceOf (c : String) (rank : Nat) (members : List Member) : Prop := members[rank]?.map (·.id) = some c

/-- A session of a coordinator, and one of a worker. -/
structure Leads (s : System) (c : String) (session : ActiveSession) : Prop where
  begun : s.Saw c (.began session.id session.members)
  place : PlaceOf c 0 session.members
  peers : session.members.tail.map (·.id) = session.peers.map (·.id)
  nonempty : session.peers ≠ []
  length : session.addresses.length = session.members.length
  own : OwnPlace s c session.id 0 session.addresses

structure Follows (s : System) (c : String) (session : ActiveSession) : Prop where
  begun : ∃ coordinator, s.Saw coordinator (.began session.id session.members)
  place : PlaceOf c session.rank session.members
  length : session.addresses.length = session.members.length
  own : 2 ≤ session.phase.order → OwnPlace s c session.id session.rank session.addresses
  armed : 4 ≤ session.phase.order → s.Saw c (.armed session.id session.addresses)

structure SessionOK (s : System) (c : String) (session : ActiveSession) : Prop where
  leads : session.role = .coordinator → Leads s c session
  follows : session.role = .worker → Follows s c session

/-- No list was sent for the session yet. -/
def Unlisted (sent : List Message) (id : String) : Prop := ∀ m ∈ sent, m.Lists → m.request.sessionID ≠ id

/-- The list that was sent for a session, and no other. -/
structure Listed (s : System) (c : String) (sent : List Message) (session : ActiveSession) (request : ControlRequest) :
    Prop where
  id : request.sessionID = session.id
  members : request.members = session.members
  length : request.addresses.length = session.members.length
  own : OwnPlace s c session.id 0 request.addresses
  only : ∀ m ∈ sent, m.Lists → m.request.sessionID = session.id → m.request.addresses = request.addresses

/-- What the goroutine of a coordinator has sent so far. -/
def JobOK (s : System) (c : String) (sent : List Message) (session : ActiveSession) : Work → Prop
  | .stopPrevious | .verify => Unlisted sent session.id
  | .awaitPrepare request _ | .poll request _ | .awaitLease request _ _ =>
    Unlisted sent session.id ∧ request.sessionID = session.id ∧ request.members = session.members
  | .lock request prepared =>
    Unlisted sent session.id ∧ request.sessionID = session.id ∧ request.members = session.members ∧
      prepared.length = session.peers.length
  | .awaitArm request first =>
    Listed s c sent session request ∧ ∀ (i : Nat) (peer : Peer), session.peers[i]? = some peer →
      sent[first + i]? = some ⟨peer.id, .arm, request⟩
  | .awaitCommit request _ =>
    Listed s c sent session request ∧ ∃ m ∈ sent, m.kind = .commit ∧ m.request = request
  | .fail _ | .fetch | .reserve _ | .note _ => True

def ObservationOK (s : System) (c : String) : Observation → Prop
  | .began _ members => (members.map (·.id)).Nodup ∧ PlaceOf c 0 members
  | .startRing id rank addresses =>
    (∃ coordinator, ∃ m ∈ (s.nodes coordinator).sent, m.kind = .commit ∧ m.request.sessionID = id ∧
      m.request.addresses = addresses ∧ PlaceOf c rank m.request.members) ∧ OwnPlace s c id rank addresses
  | .reserved _ _ | .armed _ _ => True

/-- What holds of the content `n` of node `c` in a system. -/
structure Holds (s : System) (c : String) (n : Node) : Prop where
  named : n.nodeID = c
  peers : ∀ peer ∈ n.peers, peer.id ≠ c
  sessions : ∀ (k : Nat) (session : ActiveSession), n.sessions[k]? = some session → SessionOK s c session
  apart : ∀ (k j : Nat) (session other : ActiveSession), n.sessions[k]? = some session → n.sessions[j]? = some other →
    session.role = .coordinator → other.role = .coordinator → session.id = other.id → k = j
  sent : ∀ m ∈ n.sent, MessageOK s c m
  same : ∀ m ∈ n.sent, ∀ m' ∈ n.sent, m.Lists → m'.Lists → m.request.sessionID = m'.request.sessionID →
    m.request.addresses = m'.request.addresses
  replies : ∀ sender index response, (sender, index, response) ∈ n.replies → response.error = "" →
    ∃ m, (s.nodes sender).sent[index]? = some m ∧
      (m.kind = .arm → s.Saw c (.armed m.request.sessionID m.request.addresses))
  jobs : ∀ job ∈ n.jobs, ∀ session, n.sessions[job.session]? = some session →
    session.role = .coordinator → JobOK s c n.sent session job.work
  log : ∀ o ∈ n.log, ObservationOK s c o

/-- A session has one coordinator and one list of members. -/
structure System.Inv (s : System) : Prop where
  owners : ∀ c id members, s.Saw c (.began id members) → id ∈ s.owners
  unique : ∀ c c' id members members', s.Saw c (.began id members) → s.Saw c' (.began id members') →
    c = c' ∧ members = members'
  holds : ∀ c, Holds s c (s.nodes c)

/-! ## What was said and seen stays -/

structure Node.Grows (n n' : Node) : Prop where
  sent : n.sent <+: n'.sent
  log : n.log ⊆ n'.log

def System.Grows (s s' : System) : Prop := ∀ c, (s.nodes c).Grows (s'.nodes c)

variable {s s' : System} {c : String} {n n' : Node} {session : ActiveSession}

theorem getElem?_of_prefix {α : Type} {l l' : List α} {i : Nat} {a : α} (h : l <+: l') (hi : l[i]? = some a) :
    l'[i]? = some a := by
  obtain ⟨more, rfl⟩ := h
  rw [List.getElem?_append_left (List.getElem?_eq_some_iff.1 hi).1]
  exact hi

theorem System.Saw.mono (hs : s.Grows s') {o : Observation} (h : s.Saw c o) : s'.Saw c o := (hs c).log h

theorem OwnPlace.mono (hs : s.Grows s') {id : String} {rank : Nat} {addresses : List String}
    (h : OwnPlace s c id rank addresses) : OwnPlace s' c id rank addresses :=
  h.imp fun _ h => ⟨h.1, h.2.mono hs⟩

theorem MessageOK.mono (hs : s.Grows s') {m : Message} (h : MessageOK s c m) : MessageOK s' c m where
  begun hkind := (h.begun hkind).mono hs
  length := h.length
  armed hkind member hmember := (h.armed hkind member hmember).mono hs

theorem SessionOK.mono (hs : s.Grows s') (h : SessionOK s c session) : SessionOK s' c session where
  leads hrole := { h.leads hrole with begun := (h.leads hrole).begun.mono hs, own := (h.leads hrole).own.mono hs }
  follows hrole := ⟨(h.follows hrole).begun.imp fun _ h => h.mono hs, (h.follows hrole).place, (h.follows hrole).length,
    fun hphase => ((h.follows hrole).own hphase).mono hs, fun hphase => ((h.follows hrole).armed hphase).mono hs⟩

theorem Listed.mono (hs : s.Grows s') {sent : List Message} {request : ControlRequest}
    (h : Listed s c sent session request) : Listed s' c sent session request :=
  { h with own := h.own.mono hs }

theorem JobOK.mono (hs : s.Grows s') {sent : List Message} {work : Work} (h : JobOK s c sent session work) :
    JobOK s' c sent session work := by
  cases work with
  | awaitArm request first => exact ⟨h.1.mono hs, h.2⟩
  | awaitCommit request first => exact ⟨h.1.mono hs, h.2⟩
  | _ => exact h

theorem ObservationOK.mono (hs : s.Grows s') {o : Observation} (h : ObservationOK s c o) : ObservationOK s' c o := by
  cases o with
  | startRing id rank addresses =>
    obtain ⟨⟨coordinator, m, hm, hrest⟩, hown⟩ := h
    exact ⟨⟨coordinator, m, (hs coordinator).sent.subset hm, hrest⟩, hown.mono hs⟩
  | _ => exact h

theorem Holds.mono (hs : s.Grows s') (h : Holds s c n) : Holds s' c n where
  named := h.named
  peers := h.peers
  sessions k session hk := (h.sessions k session hk).mono hs
  apart := h.apart
  sent m hm := (h.sent m hm).mono hs
  same := h.same
  replies sender index response hreply herror := by
    obtain ⟨m, hm, harmed⟩ := h.replies sender index response hreply herror
    exact ⟨m, getElem?_of_prefix (hs sender).sent hm, fun hkind => (harmed hkind).mono hs⟩
  jobs job hjob session hsession hrole := (h.jobs job hjob session hsession hrole).mono hs
  log o ho := (h.log o ho).mono hs

/-! ## One session is changed, and something is sent -/

/-- What a step does to the part of a node that `Holds` reads. -/
structure Moves (n : Node) (k : Nat) (f : ActiveSession → ActiveSession) (more : List Message) (seen : List Observation)
    (n' : Node) : Prop where
  nodeID : n'.nodeID = n.nodeID
  peers : n'.peers = n.peers
  sessions : n'.sessions = n.sessions.modify k f
  sent : n'.sent = n.sent ++ more
  replies : n'.replies = n.replies
  log : n'.log = n.log ++ seen

variable {k : Nat} {f : ActiveSession → ActiveSession} {more : List Message} {seen : List Observation}

theorem Moves.grows (hm : Moves n k f more seen n') : n.Grows n' :=
  ⟨hm.sent ▸ List.prefix_append _ _, hm.log ▸ List.subset_append_left _ _⟩

theorem Moves.get?_ne (hm : Moves n k f more seen n') {j : Nat} (hj : k ≠ j) : n'.sessions[j]? = n.sessions[j]? := by
  rw [hm.sessions, List.getElem?_modify]
  simp [hj]

theorem Moves.get? (hm : Moves n k f more seen n') (hsession : n.sessions[k]? = some session) :
    n'.sessions[k]? = some (f session) := by
  rw [hm.sessions, List.getElem?_modify, hsession]
  simp

theorem Unlisted.append {sent : List Message} {id : String} (h : Unlisted sent id)
    (hmore : ∀ m ∈ more, m.Lists → m.request.sessionID ≠ id) : Unlisted (sent ++ more) id := fun m hm hlists =>
  (List.mem_append.1 hm).elim (fun hm => h m hm hlists) fun hm => hmore m hm hlists

theorem Listed.append {sent : List Message} {request : ControlRequest} (h : Listed s c sent session request)
    (hmore : ∀ m ∈ more, m.Lists → m.request.sessionID ≠ session.id) : Listed s c (sent ++ more) session request :=
  { h with
    only := fun m hm hlists hid =>
      (List.mem_append.1 hm).elim (fun hm => h.only m hm hlists hid) fun hm => absurd hid (hmore m hm hlists) }

/-- Messages without a list for the session do not matter to its goroutine. -/
theorem JobOK.append {sent : List Message} {work : Work} (h : JobOK s c sent session work)
    (hmore : ∀ m ∈ more, m.Lists → m.request.sessionID ≠ session.id) : JobOK s c (sent ++ more) session work := by
  cases work with
  | stopPrevious | verify => exact Unlisted.append h hmore
  | awaitPrepare _ _ | poll _ _ | awaitLease _ _ _ | lock _ _ => exact ⟨h.1.append hmore, h.2⟩
  | awaitArm request first =>
    exact ⟨h.1.append hmore, fun i peer hi => getElem?_of_prefix (List.prefix_append _ _) (h.2 i peer hi)⟩
  | awaitCommit request first =>
    exact ⟨h.1.append hmore, h.2.imp fun _ hm => ⟨List.mem_append_left _ hm.1, hm.2⟩⟩
  | _ => trivial

/-- Only the fields of a session that say who takes part matter to its goroutine. -/
theorem JobOK.congr {sent : List Message} {work : Work} {other : ActiveSession} (h : JobOK s c sent session work)
    (hid : other.id = session.id) (hmembers : other.members = session.members) (hpeers : other.peers = session.peers) :
    JobOK s c sent other work := by
  have hlisted : ∀ {request : ControlRequest}, Listed s c sent session request → Listed s c sent other request :=
    fun h => ⟨h.id.trans hid.symm, h.members.trans hmembers.symm, hmembers ▸ h.length, hid ▸ h.own, hid ▸ h.only⟩
  cases work with
  | stopPrevious | verify | awaitPrepare _ _ | poll _ _ | awaitLease _ _ _ | lock _ _ =>
    simp only [JobOK, hid, hmembers, hpeers]
    exact h
  | awaitArm request first => exact ⟨hlisted h.1, hpeers ▸ h.2⟩
  | awaitCommit request first => exact ⟨hlisted h.1, h.2⟩
  | _ => trivial

theorem Holds.moves (h : Holds s c n) (more : List Message) (seen : List Observation)
    (hm : Moves n k f more seen n') (hsession : n.sessions[k]? = some session)
    (hid : (f session).id = session.id) (hrole : (f session).role = session.role)
    (hok : SessionOK s c (f session)) (hmore : ∀ m ∈ more, MessageOK s c m)
    (hlists : ∀ m ∈ more, m.Lists → session.role = .coordinator ∧ m.request.sessionID = session.id ∧
      ∀ m' ∈ n.sent ++ more, m'.Lists → m'.request.sessionID = session.id → m'.request.addresses = m.request.addresses)
    (hseen : ∀ o ∈ seen, ObservationOK s c o)
    (hjobs : ∀ job ∈ n'.jobs, (job ∈ n.jobs ∧ job.session ≠ k) ∨
      (job.session = k ∧ (session.role = .coordinator → JobOK s c (n.sent ++ more) (f session) job.work))) :
    Holds s c n' := by
  have hget := hm.get? hsession
  -- every session is an old one, changed where it is that of the step
  have hcases : ∀ {j : Nat} {session' : ActiveSession}, n'.sessions[j]? = some session' →
      ∃ old, n.sessions[j]? = some old ∧ session'.id = old.id ∧ session'.role = old.role ∧ SessionOK s c session' := by
    intro j session' hj
    by_cases hjk : k = j
    · subst hjk
      obtain rfl := Option.some.inj (hget.symm.trans hj)
      exact ⟨session, hsession, hid, hrole, hok⟩
    · rw [hm.get?_ne hjk] at hj
      exact ⟨session', hj, rfl, rfl, h.sessions j _ hj⟩
  constructor
  · rw [hm.nodeID]
    exact h.named
  · rw [hm.peers]
    exact h.peers
  · intro j session' hj
    obtain ⟨-, -, -, -, hok'⟩ := hcases hj
    exact hok'
  · intro i j one other hi hj hone hother hsame
    obtain ⟨old, hold, hidOld, hroleOld, -⟩ := hcases hi
    obtain ⟨old', hold', hidOld', hroleOld', -⟩ := hcases hj
    exact h.apart i j old old' hold hold' (hroleOld ▸ hone) (hroleOld' ▸ hother) (hidOld ▸ hidOld' ▸ hsame)
  · rw [hm.sent]
    exact fun m hmem => (List.mem_append.1 hmem).elim (h.sent m) (hmore m)
  · rw [hm.sent]
    intro m hmem m' hmem' hl hl' hsame
    rcases List.mem_append.1 hmem with hold | hnew
    · rcases List.mem_append.1 hmem' with hold' | hnew'
      · exact h.same m hold m' hold' hl hl' hsame
      · obtain ⟨-, hid', hall⟩ := hlists m' hnew' hl'
        exact hall m hmem hl (hsame.trans hid')
    · obtain ⟨-, hid', hall⟩ := hlists m hnew hl
      exact (hall m' hmem' hl' (hsame.symm.trans hid')).symm
  · rw [hm.replies]
    exact h.replies
  · intro job hjob session' hsession' hco
    rw [hm.sent]
    rcases hjobs job hjob with ⟨hold, hne⟩ | ⟨rfl, hjobOK⟩
    · rw [hm.get?_ne (Ne.symm hne)] at hsession'
      refine (h.jobs job hold session' hsession' hco).append fun m hmem hl hsame => hne ?_
      obtain ⟨hleads, hid', -⟩ := hlists m hmem hl
      exact h.apart _ _ _ _ hsession' hsession hco hleads (hsame.symm.trans hid')
    · obtain rfl := Option.some.inj (hget.symm.trans hsession')
      exact hjobOK (hrole ▸ hco)
  · rw [hm.log]
    exact fun o ho => (List.mem_append.1 ho).elim (h.log o) (hseen o)

/-- Nothing of this changes, and the peers are still others. -/
theorem Holds.quiet (h : Holds s c n) (hnodeID : n'.nodeID = n.nodeID) (hpeers : ∀ peer ∈ n'.peers, peer.id ≠ c)
    (hsessions : n'.sessions = n.sessions) (hsent : n'.sent = n.sent) (hreplies : n'.replies = n.replies)
    (hjobs : ∀ job ∈ n'.jobs, job ∈ n.jobs) (hlog : n'.log = n.log) : Holds s c n' := by
  constructor
  · rw [hnodeID]
    exact h.named
  · exact hpeers
  · rw [hsessions]
    exact h.sessions
  · rw [hsessions]
    exact h.apart
  · rw [hsent]
    exact h.sent
  · rw [hsent]
    exact h.same
  · rw [hreplies]
    exact h.replies
  · rw [hsessions, hsent]
    exact fun job hjob => h.jobs job (hjobs job hjob)
  · rw [hlog]
    exact h.log

/-- A step that sends no list: the goroutine of the session may go to other work. -/
theorem Holds.changes (h : Holds s c n) (more : List Message) (seen : List Observation)
    (hm : Moves n k f more seen n') (hsession : n.sessions[k]? = some session)
    (hid : (f session).id = session.id) (hmembers : (f session).members = session.members)
    (hrole : (f session).role = session.role) (hpeers : (f session).peers = session.peers)
    (hok : SessionOK s c (f session)) (hmore : ∀ m ∈ more, MessageOK s c m ∧ ¬ m.Lists)
    (hseen : ∀ o ∈ seen, ObservationOK s c o)
    (hjobs : ∀ job ∈ n'.jobs, job ∈ n.jobs ∨
      (job.session = k ∧ (session.role = .coordinator → JobOK s c n.sent session job.work))) : Holds s c n' := by
  have hnot : ∀ m ∈ more, m.Lists → m.request.sessionID ≠ session.id := fun m hmem hl =>
    absurd hl (hmore m hmem).2
  refine h.moves more seen hm hsession hid hrole hok (fun m hmem => (hmore m hmem).1)
    (fun m hmem hl => absurd hl (hmore m hmem).2)
    hseen fun job hjob => ?_
  rcases hjobs job hjob with hold | ⟨hk, hjobOK⟩
  · by_cases hk : job.session = k
    · refine .inr ⟨hk, fun hco => ?_⟩
      subst hk
      exact ((h.jobs job hold session hsession hco).append hnot).congr hid hmembers hpeers
    · exact .inl ⟨hold, hk⟩
  · exact .inr ⟨hk, fun hco => ((hjobOK hco).append hnot).congr hid hmembers hpeers⟩

/-- The places of a session, and where it is in the protocol. -/
theorem SessionOK.congr {other : ActiveSession} (h : SessionOK s c session) (hid : other.id = session.id)
    (hmembers : other.members = session.members) (hrank : other.rank = session.rank)
    (hrole : other.role = session.role) (hpeers : other.peers = session.peers)
    (haddresses : other.addresses = session.addresses)
    (hphase : session.role = .worker → (2 ≤ other.phase.order → 2 ≤ session.phase.order) ∧
      (4 ≤ other.phase.order → 4 ≤ session.phase.order)) : SessionOK s c other where
  leads hco := by
    have hleads := h.leads (hrole ▸ hco)
    exact ⟨by rw [hid, hmembers]; exact hleads.begun, by rw [hmembers]; exact hleads.place,
      by rw [hmembers, hpeers]; exact hleads.peers, by rw [hpeers]; exact hleads.nonempty,
      by rw [haddresses, hmembers]; exact hleads.length, by rw [hid, haddresses]; exact hleads.own⟩
  follows hworker := by
    have hfollows := h.follows (hrole ▸ hworker)
    obtain ⟨hfirst, hsecond⟩ := hphase (hrole ▸ hworker)
    refine ⟨by rw [hid, hmembers]; exact hfollows.begun, by rw [hrank, hmembers]; exact hfollows.place,
      by rw [haddresses, hmembers]; exact hfollows.length, fun hle => ?_, fun hle => ?_⟩
    · rw [hid, hrank, haddresses]
      exact hfollows.own (hfirst hle)
    · rw [hid, haddresses]
      exact hfollows.armed (hsecond hle)

/-- A request that neither prepares nor carries a list. -/
theorem plain_message {kind : Kind} {peers : List Peer} {request : ControlRequest} (hkind : kind = .lease ∨ kind = .stop)
    (s : System) (c : String) :
    ∀ m ∈ peers.map (fun peer => (⟨peer.id, kind, request⟩ : Message)), MessageOK s c m ∧ ¬ m.Lists := by
  intro m hm
  obtain ⟨peer, -, rfl⟩ := List.mem_map.1 hm
  have hnot : ¬ (⟨peer.id, kind, request⟩ : Message).Lists := by
    rcases hkind with rfl | rfl <;> rintro (h | h) <;> cases h
  refine ⟨⟨fun h => ?_, fun h => absurd h hnot, fun h => absurd (.inr h) hnot⟩, hnot⟩
  rcases h with h | h
  · rcases hkind with rfl | rfl <;> cases h
  · exact absurd h hnot

/-- A new session, with its goroutine. -/
theorem Holds.adds (h : Holds s c n) (session : ActiveSession) (seen : List Observation)
    (hnodeID : n'.nodeID = n.nodeID) (hpeers : n'.peers = n.peers)
    (hsessions : n'.sessions = n.sessions ++ [session]) (hsent : n'.sent = n.sent) (hreplies : n'.replies = n.replies)
    (hlog : n'.log = n.log ++ seen) (hjobs : n'.jobs = n.jobs ++ [⟨n.sessions.length, .stopPrevious⟩])
    (hvalid : ∀ job ∈ n.jobs, job.session < n.sessions.length) (hok : SessionOK s c session)
    (hseen : ∀ o ∈ seen, ObservationOK s c o) (hnew : session.role = .coordinator → Unlisted n.sent session.id ∧
      ∀ (j : Nat) (other : ActiveSession), n.sessions[j]? = some other → other.role = .coordinator →
        other.id ≠ session.id) : Holds s c n' := by
  have hcases : ∀ {j : Nat} {session' : ActiveSession}, n'.sessions[j]? = some session' →
      n.sessions[j]? = some session' ∨ (j = n.sessions.length ∧ session' = session) := by
    intro j session' hj
    rw [hsessions, List.getElem?_append] at hj
    split at hj
    · exact .inl hj
    · next hlt =>
      obtain ⟨hj0, rfl⟩ := List.getElem?_eq_some_iff.1 hj
      rw [List.length_singleton] at hj0
      exact .inr ⟨by omega, by simp⟩
  constructor
  · rw [hnodeID]
    exact h.named
  · rw [hpeers]
    exact h.peers
  · intro j session' hj
    rcases hcases hj with hj | ⟨-, rfl⟩
    · exact h.sessions j _ hj
    · exact hok
  · intro i j one other hi hj hone hother hsame
    rcases hcases hi with hi | ⟨rfl, rfl⟩
    · rcases hcases hj with hj | ⟨rfl, rfl⟩
      · exact h.apart i j _ _ hi hj hone hother hsame
      · exact absurd hsame ((hnew hother).2 i _ hi hone)
    · rcases hcases hj with hj | ⟨rfl, rfl⟩
      · exact absurd hsame.symm ((hnew hone).2 j _ hj hother)
      · rfl
  · rw [hsent]
    exact h.sent
  · rw [hsent]
    exact h.same
  · rw [hreplies]
    exact h.replies
  · intro job hjob session' hsession' hco
    rw [hsent]
    rw [hjobs, List.mem_append, List.mem_singleton] at hjob
    rcases hcases hsession' with hold | ⟨hlength, rfl⟩
    · rcases hjob with hjob | rfl
      · exact h.jobs job hjob session' hold hco
      · exact absurd (List.getElem?_eq_some_iff.1 hold).1 (lt_irrefl _)
    · rcases hjob with hjob | rfl
      · exact absurd (hlength ▸ hvalid job hjob) (lt_irrefl _)
      · exact (hnew hco).1
  · rw [hlog]
    exact fun o ho => (List.mem_append.1 ho).elim (h.log o) (hseen o)

theorem moves_id {more : List Message} {seen : List Observation} (hnodeID : n'.nodeID = n.nodeID)
    (hpeers : n'.peers = n.peers) (hsessions : n'.sessions = n.sessions) (hsent : n'.sent = n.sent ++ more)
    (hreplies : n'.replies = n.replies) (hlog : n'.log = n.log ++ seen) : Moves n k id more seen n' :=
  ⟨hnodeID, hpeers, hsessions.trans (List.modify_id k n.sessions).symm, hsent, hreplies, hlog⟩

/-! ## Stopping and requests -/

theorem Holds.stopSession (h : Holds s c n) (hsession : n.sessions[k]? = some session) (answers : Answers)
    (reason : String) (notify : Bool) (except : Option String) :
    Holds s c (n.stopSession answers k session reason notify except) := by
  have hok : SessionOK s c { session with cancelled := true } :=
    (h.sessions k _ hsession).congr rfl rfl rfl rfl rfl rfl fun _ => ⟨fun h => h, fun h => h⟩
  cases notify with
  | true =>
    exact h.changes _ [] (f := fun session => { session with cancelled := true })
      ⟨rfl, rfl, rfl, rfl, rfl, (List.append_nil _).symm⟩ hsession rfl rfl rfl rfl hok
      (plain_message (.inr rfl) s c) (by simp) fun job hjob => .inl hjob
  | false =>
    exact h.changes [] [] (f := fun session => { session with cancelled := true })
      ⟨rfl, rfl, rfl, (List.append_nil _).symm, rfl, (List.append_nil _).symm⟩ hsession rfl rfl rfl rfl hok
      (by simp) (by simp) fun job hjob => .inl hjob

theorem Holds.stopLocked (h : Holds s c n) (answers : Answers) (reason : String) (notify : Bool)
    (except : Option String) : Holds s c (n.stopLocked answers reason notify except).1 := by
  rcases n.stopLocked_cases answers reason notify except with heq | ⟨k, session, text, -, hsession, heq⟩
  · rwa [heq]
  · rw [heq]
    exact h.stopSession hsession _ _ _ _

theorem Holds.failPreparation (h : Holds s c n) (answers : Answers) (k : Nat) (reason : String) :
    Holds s c (n.failPreparation answers k reason) := by
  simp only [Node.failPreparation]
  split
  · exact h.stopLocked _ _ _ _
  · exact h

/-- `memberRank` gives the place of the node itself. -/
theorem rankFrom_spec {env : NetEnv} {now : Int} {members : List Member} {i : Nat} {seen : List String}
    {rank result : Option Nat} (h : n.rankFrom env now i seen rank members = .ok result) :
    result = rank ∨ ∃ j, result = some (i + j) ∧ PlaceOf n.nodeID j members := by
  induction members generalizing i seen rank with
  | nil => exact .inl (Except.ok.inj h).symm
  | cons member rest ih =>
    have hlater : ∀ {seen rank'}, n.rankFrom env now (i + 1) seen rank' rest = .ok result →
        result = rank' ∨ ∃ j, result = some (i + j) ∧ PlaceOf n.nodeID j (member :: rest) := by
      intro seen rank' hrest
      refine (ih hrest).imp_right ?_
      rintro ⟨j, rfl, hplace⟩
      exact ⟨j + 1, by rw [Nat.add_assoc, Nat.add_comm 1 j], hplace⟩
    simp only [Node.rankFrom] at h
    split at h
    · cases h
    · split at h
      · next hself =>
        split at h
        · cases h
        · rcases hlater h with rfl | hfound
          · exact .inr ⟨0, rfl, congrArg some hself⟩
          · exact .inr hfound
      · split at h
        · cases h
        · split at h
          · cases h
          · exact hlater h

theorem memberRank_spec {env : NetEnv} {now : Int} {members : List Member} {sender sourceIP : String} {rank : Nat}
    (h : n.memberRank env now members sender sourceIP = .ok rank) : PlaceOf n.nodeID rank members := by
  simp only [Node.memberRank] at h
  split at h
  · cases h
  · split at h
    · cases h
    · split at h
      · cases h
      · cases h
      · next found hfound =>
        split at h
        · cases h
        · obtain rfl := Except.ok.inj h
          rcases rankFrom_spec hfound with hnone | ⟨j, hj, hplace⟩
          · cases hnone
          · obtain rfl := Option.some.inj hj
            rwa [Nat.zero_add]

/-- The own address of a list that `arm` accepts is the one that was reserved. -/
theorem addressesMatch_spec {env : NetEnv} {addresses : List String} {i j : Nat} {seen : List String} {address : String}
    (h : Node.addressesMatch env session i seen addresses = true) (haddress : addresses[j]? = some address)
    (hj : i + j = session.rank) : session.addresses[session.rank]? = some address := by
  induction addresses generalizing i j seen with
  | nil => simp at haddress
  | cons first rest ih =>
    simp only [Node.addressesMatch] at h
    split at h
    · cases h
    · next hgood =>
      simp only [not_or, not_and, not_not] at hgood
      cases j with
      | zero =>
        obtain rfl := Option.some.inj haddress
        have hi : i = session.rank := by omega
        rw [← hi]
        exact (hgood.2.2 hi).symm
      | succ j => exact ih h haddress (by omega)

/-- A session has one coordinator and one list of members. -/
def System.Unique (s : System) : Prop := ∀ c c' id members members', s.Saw c (.began id members) →
  s.Saw c' (.began id members') → c = c' ∧ members = members'

theorem PlaceOf.lt {rank : Nat} {members : List Member} (h : PlaceOf c rank members) : rank < members.length := by
  obtain ⟨member, hmember, -⟩ := Option.map_eq_some_iff.1 h
  exact (List.getElem?_eq_some_iff.1 hmember).1

section Request
variable {env : NetEnv} {answers : Answers} {sender sourceIP : String} {m : Message}
  {result : Except String ControlResponse}

/-- A worker that commits uses the list of the request, at its own place. -/
theorem start_of_commit (h : SessionOK s c session) (hunique : s.Unique) (hm : m ∈ (s.nodes sender).sent)
    (hok : MessageOK s sender m) (hkind : m.kind = .commit) (hid : session.id = m.request.sessionID)
    (hrole : session.role = .worker) (hphase : session.phase = .armed)
    (haddresses : m.request.addresses = session.addresses) :
    ObservationOK s c (.startRing session.id session.rank session.addresses) := by
  have hfollows := h.follows hrole
  obtain ⟨coordinator, hbegun⟩ := hfollows.begun
  obtain ⟨-, hmembers⟩ := hunique _ _ _ _ _ hbegun (hid ▸ hok.begun (.inr (.inr hkind)))
  exact ⟨⟨sender, m, hm, hkind, hid.symm, haddresses, hmembers ▸ hfollows.place⟩,
    hfollows.own (by rw [hphase]; decide)⟩

theorem Holds.control (h : Holds s c n) (hinv : n.Inv) (hunique : s.Unique) (hm : m ∈ (s.nodes sender).sent)
    (hok : MessageOK s sender m) (hlog : n'.log ⊆ (s.nodes c).log)
    (hc : Node.Controls env answers n sender sourceIP m.request m.kind result n') : Holds s c n' := by
  obtain ⟨target, kind, request⟩ := m
  cases hc with
  | refused | nothing => exact h
  | prepared peer rank session _ hnone hid howner hpeer hrank hsame hmembers hrankSame hrole hphase haddresses =>
    refine h.adds session [] rfl rfl rfl rfl rfl (List.append_nil _).symm rfl ?_ ?_ (by simp) ?_
    · intro job hjob
      obtain ⟨session', hsession', -⟩ := hinv.jobs job hjob
      exact (List.getElem?_eq_some_iff.1 hsession').1
    · refine ⟨fun hco => absurd (hrole.symm.trans hco) (by decide), fun _ => ?_⟩
      refine ⟨⟨sender, ?_⟩, ?_, ?_, fun hle => ?_, fun hle => ?_⟩
      · rw [hsame, hmembers]
        exact hok.begun (.inl rfl)
      · rw [hrankSame, hmembers, ← h.named]
        exact memberRank_spec hrank
      · rw [haddresses, hmembers, List.length_replicate]
      · rw [hphase] at hle
        exact absurd hle (by decide)
      · rw [hphase] at hle
        exact absurd hle (by decide)
    · exact fun hco => absurd (hrole.symm.trans hco) (by decide)
  | armed k session hk hsession hid _ hrole hphase hlength hmatch =>
    have hfollows := (h.sessions k _ hsession).follows hrole
    refine h.changes [] [.armed session.id request.addresses]
      ⟨rfl, rfl, rfl, (List.append_nil _).symm, rfl, rfl⟩ hsession rfl rfl rfl rfl
      ⟨fun hco => absurd (hrole.symm.trans hco) (by decide), fun _ => ?_⟩ (by simp) (by simp [ObservationOK])
      fun job hjob => .inl hjob
    refine ⟨hfollows.begun, hfollows.place, hlength, fun _ => ?_,
      fun _ => hlog (List.mem_append_right _ List.mem_cons_self)⟩
    obtain ⟨address, haddress, hreserved⟩ := hfollows.own (by rw [hphase]; decide)
    refine ⟨address, ?_, hreserved⟩
    have hlt : session.rank < request.addresses.length := hlength ▸ hfollows.place.lt
    have hown := addressesMatch_spec hmatch (List.getElem?_eq_getElem hlt) (Nat.zero_add _)
    rw [haddress] at hown
    exact (List.getElem?_eq_getElem hlt).trans hown.symm
  | committed k session hk hsession hid _ hrole hphase haddresses =>
    have hfollows := (h.sessions k _ hsession).follows hrole
    have hstart := start_of_commit (h.sessions k _ hsession) hunique hm hok rfl hid hrole hphase haddresses
    refine h.changes [] [.startRing session.id session.rank session.addresses]
      ⟨rfl, rfl, rfl, (List.append_nil _).symm, rfl, rfl⟩ hsession rfl rfl rfl rfl
      ((h.sessions k _ hsession).congr rfl rfl rfl rfl rfl haddresses fun _ => ?_) (by simp)
      (by simpa using hstart) fun job hjob => .inl hjob
    rw [hphase]
    exact ⟨fun _ => by decide, fun _ => by decide⟩
  | notStarted k session err reason hk hsession hid _ hrole hphase haddresses =>
    have hstart := start_of_commit (h.sessions k _ hsession) hunique hm hok rfl hid hrole hphase haddresses
    have hcalled : Holds s c (n.observe (.startRing session.id session.rank session.addresses)) :=
      h.changes [] _ (f := id) (moves_id rfl rfl rfl (List.append_nil _).symm rfl rfl) hsession rfl rfl rfl rfl
        (h.sessions k _ hsession) (by simp) (by simpa using hstart) fun job hjob => .inl hjob
    exact hcalled.stopSession hsession _ _ _ _
  | leased k session _ phase hk hsession hrole hphase =>
    refine h.changes [] [] ⟨rfl, rfl, rfl, (List.append_nil _).symm, rfl, (List.append_nil _).symm⟩
      hsession rfl rfl rfl rfl ((h.sessions k _ hsession).congr rfl rfl rfl rfl rfl rfl fun _ => ?_) (by simp) (by simp)
      fun job hjob => .inl hjob
    rcases hphase with rfl | ⟨rfl, hphase | hphase⟩
    · exact ⟨fun h => h, fun h => h⟩
    · rw [hphase]
      exact ⟨fun _ => by decide, fun _ => by decide⟩
    · rw [hphase]
      exact ⟨fun _ => by decide, fun _ => by decide⟩
  | stopped k session _ reason notify hk hsession => exact h.stopSession hsession _ _ _ _

/-- Who answers `arm` without an error has armed. -/
theorem armed_of_answer (hc : Node.Controls env answers n sender sourceIP m.request m.kind result n')
    (hkind : m.kind = .arm) (hresult : result = .error "" ∨ ∃ response, result = .ok response) :
    .armed m.request.sessionID m.request.addresses ∈ n'.log := by
  obtain ⟨target, kind, request⟩ := m
  obtain rfl : kind = .arm := hkind
  cases hc with
  | refused err hnot =>
    rcases hresult with hresult | ⟨response, hresult⟩
    · exact absurd (Except.error.inj hresult) (hnot rfl)
    · cases hresult
  | armed k session hk hsession hid =>
    rw [← hid]
    exact List.mem_append_right _ List.mem_cons_self

end Request

/-! ## `Begin` -/

theorem Holds.begin {owner : String} (h : Holds s c n) (hinv : n.Inv) (hlog : n'.log ⊆ (s.nodes c).log)
    (hnew : Unlisted n.sent owner ∧ ∀ (j : Nat) (other : ActiveSession), n.sessions[j]? = some other →
      other.role = .coordinator → other.id ≠ owner)
    (hbegins : Node.Begins n owner n') : Holds s c n' := by
  cases hbegins with
  | intro session address localIP _ hnone hid hrole hrank hphase _ _ hlistener haddresses hmembers hpeers hnodup hmem =>
    have hbegan : s.Saw c (.began owner session.members) :=
      hlog (List.mem_append_left _ (List.mem_append_right _ List.mem_cons_self))
    have hreserved : s.Saw c (.reserved owner address) := hlog (List.mem_append_right _ List.mem_cons_self)
    have hids : session.members.map (·.id) = c :: session.peers.map (·.id) := by
      rw [hmembers, List.map_cons, List.map_map, h.named]
      rfl
    have hplace : PlaceOf c 0 session.members := by
      rw [PlaceOf, hmembers, ← h.named]
      rfl
    refine h.adds session [.began owner session.members, .reserved owner address] rfl rfl rfl rfl
      rfl (by simp [Node.observe, Node.activate, Node.listen]) rfl ?_ ?_ ?_ fun _ => ?_
    · intro job hjob
      obtain ⟨session', hsession', -⟩ := hinv.jobs job hjob
      exact (List.getElem?_eq_some_iff.1 hsession').1
    · refine ⟨fun _ => ⟨by rwa [hid], hplace, ?_, hpeers, ?_, address, ?_, by rwa [hid]⟩, fun hworker => ?_⟩
      · rw [hmembers, List.tail_cons, List.map_map]
        rfl
      · rw [haddresses, hmembers]
        simp
      · rw [haddresses]
        rfl
      · exact absurd (hrole.symm.trans hworker) (by decide)
    · simp only [List.mem_cons, List.not_mem_nil, or_false, forall_eq_or_imp, forall_eq]
      refine ⟨⟨?_, hplace⟩, trivial⟩
      rw [hids, List.nodup_cons]
      refine ⟨fun hself => ?_, hnodup⟩
      obtain ⟨peer, hpeer, hsame⟩ := List.mem_map.1 hself
      exact h.peers peer (hmem peer hpeer) hsame
    · rw [hid]
      exact hnew

/-! ## The goroutine of a session -/

section Job
variable {env : NetEnv} {answers : Answers} {replies : List (Except String ControlResponse)} {request : ControlRequest}
  {work : Work}

theorem length_collect {peers : List Peer} {responses : List ControlResponse} {rest : List String}
    (h : Node.collect env peers responses = .ok rest) (hlength : responses.length = peers.length) :
    rest.length = peers.length := by
  induction peers generalizing responses rest with
  | nil =>
    obtain rfl := Except.ok.inj (show Except.ok [] = Except.ok rest from h)
    rfl
  | cons peer peers ih =>
    cases responses with
    | nil => cases hlength
    | cons response responses =>
      simp only [Node.collect] at h
      split at h
      · cases h
      · cases hrest : Node.collect env peers responses with
        | error err =>
          rw [hrest] at h
          cases h
        | ok tail =>
          rw [hrest] at h
          obtain rfl := Except.ok.inj h
          simp [ih hrest (Nat.succ.inj hlength)]

/-- The goroutine goes to other work, and nothing else happens. -/
theorem Holds.works (h : Holds s c n) (hsession : n.sessions[k]? = some session)
    (hnodeID : n'.nodeID = n.nodeID) (hpeers : n'.peers = n.peers) (hsessions : n'.sessions = n.sessions)
    (hsent : n'.sent = n.sent) (hreplies : n'.replies = n.replies) (hlog : n'.log = n.log)
    (hjobs : n'.jobs = (n.setWork k work).jobs) (hok : session.role = .coordinator → JobOK s c n.sent session work) :
    Holds s c n' := by
  refine h.changes [] [] (f := id) (moves_id hnodeID hpeers hsessions (by simpa using hsent) hreplies
    (by simpa using hlog)) hsession rfl rfl rfl rfl (h.sessions k _ hsession) (by simp) (by simp) fun job hjob => ?_
  rw [hjobs] at hjob
  rcases Node.mem_setWork hjob with ⟨hold, -⟩ | rfl
  · exact .inl hold
  · exact .inr ⟨rfl, hok⟩

theorem Holds.setWork (h : Holds s c n) (hsession : n.sessions[k]? = some session)
    (hok : session.role = .coordinator → JobOK s c n.sent session work) : Holds s c (n.setWork k work) :=
  h.works hsession rfl rfl rfl rfl rfl rfl rfl hok

theorem Holds.unlock (h : Holds s c n) : Holds s c n.unlock :=
  h.quiet rfl h.peers rfl rfl rfl (fun _ hjob => hjob) rfl

theorem Holds.finish (h : Holds s c n) : Holds s c (n.finish k) :=
  h.quiet rfl h.peers rfl rfl rfl (fun _ hjob => (Node.mem_finish hjob).1) rfl

theorem Holds.prepareAll (h : Holds s c n) (hsession : n.sessions[k]? = some session)
    (hco : session.role = .coordinator) (hjob : Unlisted n.sent session.id) :
    Holds s c (n.prepareAll answers k session) := by
  have hleads := (h.sessions k _ hsession).leads hco
  simp only [Node.prepareAll]
  split
  · exact h.setWork hsession fun _ => trivial
  · split
    · exact h.setWork hsession fun _ => trivial
    · refine h.changes _ [] ⟨rfl, rfl, rfl, rfl, rfl, (List.append_nil _).symm⟩ hsession rfl rfl rfl rfl
        ((h.sessions k _ hsession).congr rfl rfl rfl rfl rfl rfl fun hworker => absurd (hco.symm.trans hworker) (by decide))
        (fun m hm => ?_) (by simp) fun job hmem => ?_
      · obtain ⟨peer, -, rfl⟩ := List.mem_map.1 hm
        have hnot : ∀ request, ¬ (⟨peer.id, .prepare, request⟩ : Message).Lists := by
          rintro request (hl | hl) <;> cases hl
        exact ⟨⟨fun _ => hleads.begun, fun hl => absurd hl (hnot _), fun hl => absurd (.inr hl) (hnot _)⟩, hnot _⟩
      · rcases Node.mem_setWork hmem with ⟨hold, -⟩ | rfl
        · exact .inl hold
        · exact .inr ⟨rfl, fun _ => ⟨hjob, rfl, rfl⟩⟩

theorem Holds.leased (h : Holds s c n) (hsession : n.sessions[k]? = some session)
    (hjob : Unlisted n.sent session.id ∧ request.sessionID = session.id ∧ request.members = session.members)
    (hlength : replies.length = session.peers.length) (lastSuccess : Int) :
    Holds s c (n.leased answers k session request lastSuccess replies) := by
  simp only [Node.leased]
  split
  · exact h.setWork hsession fun _ => trivial
  · split
    · split
      · exact h.setWork hsession fun _ => ⟨hjob.1, hjob.2.1, hjob.2.2, by rw [List.length_map, hlength]⟩
      · exact h.setWork hsession fun _ => hjob
    · split
      · exact h.setWork hsession fun _ => trivial
      · exact h.setWork hsession fun _ => hjob

theorem Holds.armAll (h : Holds s c n) (hsession : n.sessions[k]? = some session) (hco : session.role = .coordinator)
    {prepared : List ControlResponse} (hjob : Unlisted n.sent session.id ∧ request.sessionID = session.id ∧
      request.members = session.members ∧ prepared.length = session.peers.length) :
    Holds s c (n.armAll env k session request prepared) := by
  have hleads := (h.sessions k _ hsession).leads hco
  obtain ⟨hunlisted, hid, hmembers, hlength⟩ := hjob
  simp only [Node.armAll]
  split
  · exact h.setWork hsession fun _ => trivial
  · split
    · exact h.setWork hsession fun _ => trivial
    · next rest hrest =>
      obtain ⟨address, haddress, hreserved⟩ := hleads.own
      obtain ⟨tail, htail⟩ : ∃ tail, session.addresses = address :: tail := by
        cases haddresses : session.addresses with
        | nil => rw [haddresses] at haddress; cases haddress
        | cons first tail =>
          rw [haddresses] at haddress
          exact ⟨tail, by rw [Option.some.inj haddress]⟩
      have htake : session.addresses.take 1 ++ rest = address :: rest := by rw [htail]; rfl
      have hfull : (address :: rest).length = session.members.length := by
        have htails := congrArg List.length hleads.peers
        rw [List.length_map, List.length_map, List.length_tail] at htails
        have hplace := hleads.place.lt
        rw [List.length_cons, length_collect hrest hlength]
        omega
      rw [htake]
      have hown : OwnPlace s c session.id 0 (address :: rest) := ⟨address, rfl, hreserved⟩
      refine h.moves _ [] ⟨rfl, rfl, rfl, rfl, rfl, (List.append_nil _).symm⟩ hsession rfl rfl
        ⟨fun _ => ⟨hleads.begun, hleads.place, hleads.peers, hleads.nonempty, hfull, hown⟩,
          fun hworker => absurd (hco.symm.trans hworker) (by decide)⟩ (fun m hm => ?_) (fun m hm hl => ?_) (by simp)
        fun job hmem => ?_
      · obtain ⟨peer, -, rfl⟩ := List.mem_map.1 hm
        refine ⟨fun _ => ?_, fun _ => ?_, fun hkind => by cases hkind⟩
        · change s.Saw c (.began request.sessionID request.members)
          rw [hid, hmembers]
          exact hleads.begun
        · exact hfull.trans (congrArg List.length hmembers.symm)
      · obtain ⟨peer, -, rfl⟩ := List.mem_map.1 hm
        refine ⟨hco, hid, fun m' hm' hl' hid' => ?_⟩
        rcases List.mem_append.1 hm' with hold | hnew
        · exact absurd hid' (hunlisted m' hold hl')
        · obtain ⟨peer', -, rfl⟩ := List.mem_map.1 hnew
          rfl
      · rcases Node.mem_setWork hmem with hold | rfl
        · exact .inl hold
        · refine .inr ⟨rfl, fun _ => ⟨⟨hid, hmembers, hfull, hown, fun m hm hl hidm => ?_⟩, fun i peer hi => ?_⟩⟩
          · rcases List.mem_append.1 hm with hold | hnew
            · exact absurd hidm (hunlisted m hold hl)
            · obtain ⟨peer', -, rfl⟩ := List.mem_map.1 hnew
              rfl
          · change (n.sent ++ session.peers.map _)[n.sent.length + i]? = _
            rw [List.getElem?_append_right (by omega), List.getElem?_map, Nat.add_sub_cancel_left]
            exact congrArg (Option.map _) hi

theorem Holds.commitAll (h : Holds s c n) (hsession : n.sessions[k]? = some session) (hco : session.role = .coordinator)
    (hlisted : Listed s c n.sent session request)
    (harmed : Node.failures session.peers replies = [] → ∀ peer ∈ session.peers,
      s.Saw peer.id (.armed request.sessionID request.addresses)) :
    Holds s c (n.commitAll k session request replies) := by
  have hleads := (h.sessions k _ hsession).leads hco
  simp only [Node.commitAll]
  split
  · next hnone =>
    refine h.moves _ [] ⟨rfl, rfl, rfl, rfl, rfl, (List.append_nil _).symm⟩ hsession rfl rfl
      ((h.sessions k _ hsession).congr rfl rfl rfl rfl rfl rfl fun hworker => absurd (hco.symm.trans hworker) (by decide))
      (fun m hm => ?_) (fun m hm hl => ?_) (by simp) fun job hmem => ?_
    · obtain ⟨peer, -, rfl⟩ := List.mem_map.1 hm
      refine ⟨fun _ => ?_, fun _ => ?_, fun _ member hmember => ?_⟩
      · change s.Saw c (.began request.sessionID request.members)
        rw [hlisted.id, hlisted.members]
        exact hleads.begun
      · exact hlisted.length.trans (congrArg List.length hlisted.members.symm)
      · change member ∈ request.members.tail at hmember
        rw [hlisted.members] at hmember
        have hid := List.mem_map_of_mem (f := (·.id)) hmember
        rw [hleads.peers] at hid
        obtain ⟨other, hother, hsame⟩ := List.mem_map.1 hid
        change s.Saw member.id _
        rw [← hsame]
        exact harmed hnone other hother
    · obtain ⟨peer, -, rfl⟩ := List.mem_map.1 hm
      refine ⟨hco, hlisted.id, fun m' hm' hl' hid' => ?_⟩
      rcases List.mem_append.1 hm' with hold | hnew
      · exact hlisted.only m' hold hl' hid'
      · obtain ⟨peer', -, rfl⟩ := List.mem_map.1 hnew
        rfl
    · rcases Node.mem_setWork hmem with hold | rfl
      · exact .inl hold
      · refine .inr ⟨rfl, fun _ =>
          ⟨⟨hlisted.id, hlisted.members, hlisted.length, hlisted.own, fun m hm hl hidm => ?_⟩, ?_⟩⟩
        · rcases List.mem_append.1 hm with hold | hnew
          · exact hlisted.only m hold hl hidm
          · obtain ⟨peer', -, rfl⟩ := List.mem_map.1 hnew
            rfl
        · obtain ⟨peer, hpeer⟩ := List.exists_mem_of_ne_nil _ hleads.nonempty
          exact ⟨_, List.mem_append_right _ (List.mem_map_of_mem hpeer), rfl, rfl⟩
  · exact Holds.unlock (h.setWork hsession fun _ => trivial)

theorem Holds.startAll (h : Holds s c n) (hsession : n.sessions[k]? = some session) (hco : session.role = .coordinator)
    (hlisted : Listed s c n.sent session request) (hcommit : ∃ m ∈ n.sent, m.kind = .commit ∧ m.request = request)
    (hsent : n.sent ⊆ (s.nodes c).sent) : Holds s c (n.startAll env answers k session request replies) := by
  have hok := h.sessions k _ hsession
  have hleads := hok.leads hco
  have hstart : ObservationOK s c (.startRing session.id 0 request.addresses) := by
    obtain ⟨m, hm, hkind, rfl⟩ := hcommit
    exact ⟨⟨c, m, hsent hm, hkind, hlisted.id, rfl, hlisted.members ▸ hleads.place⟩, hlisted.own⟩
  have hcalled : Holds s c (n.observe (.startRing session.id 0 request.addresses)) :=
    h.changes [] _ (f := id) (moves_id rfl rfl rfl (List.append_nil _).symm rfl rfl) hsession rfl rfl rfl rfl hok
      (by simp) (by simpa using hstart) fun job hjob => .inl hjob
  simp only [Node.startAll]
  split
  · split
    · exact Holds.unlock (hcalled.setWork hsession fun _ => trivial)
    · refine Holds.unlock (Holds.finish (hcalled.changes [] []
        ⟨rfl, rfl, rfl, (List.append_nil _).symm, rfl, (List.append_nil _).symm⟩ hsession rfl rfl rfl rfl ?_ (by simp)
        (by simp) fun job hjob => .inl hjob))
      exact hok.congr rfl rfl rfl rfl rfl rfl fun hworker => absurd (hco.symm.trans hworker) (by decide)
  · exact Holds.unlock (h.setWork hsession fun _ => trivial)

theorem Holds.fetch (h : Holds s c n) (hsession : n.sessions[k]? = some session) (hworker : session.role = .worker) :
    Holds s c (n.fetch answers k session) := by
  have hnot : ∀ {P : Prop}, session.role = .coordinator → P := fun hco => absurd (hworker.symm.trans hco) (by decide)
  have hplaced : ∀ copied, Holds s c (n.update k fun session => session.withProjection copied) := fun copied =>
    h.changes [] [] ⟨rfl, rfl, rfl, (List.append_nil _).symm, rfl, (List.append_nil _).symm⟩ hsession
      rfl rfl rfl rfl ((h.sessions k _ hsession).congr rfl rfl rfl rfl rfl rfl fun _ => ⟨fun h => h, fun h => h⟩) (by simp)
      (by simp) fun job hjob => .inl hjob
  have hget : ∀ copied, (n.update k fun session => session.withProjection copied).sessions[k]? =
      some (session.withProjection copied) := by
    intro copied
    change (n.sessions.modify k _)[k]? = _
    rw [List.getElem?_modify, hsession]
    simp
  simp only [Node.fetch]
  split
  · exact h.setWork hsession hnot
  · split
    · exact h.setWork hsession hnot
    · split
      · exact h.setWork hsession hnot
      · split
        · exact (hplaced _).setWork (hget _) hnot
        · split
          · exact (hplaced _).setWork (hget _) hnot
          · exact (hplaced _).setWork (hget _) hnot

theorem Holds.reserve (h : Holds s c n) (hsession : n.sessions[k]? = some session) (hworker : session.role = .worker)
    {model : String} (hlog : (n.reserve env answers k session model).log ⊆ (s.nodes c).log) :
    Holds s c (n.reserve env answers k session model) := by
  have hnot : ∀ {P : Prop}, session.role = .coordinator → P := fun hco => absurd (hworker.symm.trans hco) (by decide)
  have hfollows := (h.sessions k _ hsession).follows hworker
  revert hlog
  simp only [Node.reserve]
  split
  · exact fun _ => h.setWork hsession hnot
  · split
    · exact fun _ => h.setWork hsession hnot
    · split
      · exact fun _ => h.works hsession rfl rfl rfl rfl rfl rfl rfl hnot
      · next address _ _ =>
        intro hlog
        refine Holds.finish (h.changes [] _ ⟨rfl, rfl, rfl, (List.append_nil _).symm, rfl, rfl⟩ hsession rfl rfl rfl
          rfl ⟨hnot, fun _ =>
            ⟨hfollows.begun, hfollows.place, ?_, fun _ => ⟨address, ?_, ?_⟩, fun hle => ?_⟩⟩ (by simp)
          (by simp [ObservationOK]) fun job hjob => .inl hjob)
        · exact (List.length_set ..).trans hfollows.length
        · refine List.getElem?_set_self ?_
          rw [hfollows.length]
          exact hfollows.place.lt
        · exact hlog (List.mem_append_right _ List.mem_cons_self)
        · exact absurd hle (by change ¬ 4 ≤ Phase.order .prepared; decide)

theorem Holds.note (h : Holds s c n) (hsession : n.sessions[k]? = some session) (reason : String) :
    Holds s c (n.note k reason) := by
  simp only [Node.note]
  split
  · exact Holds.finish (h.changes [] []
      ⟨rfl, rfl, rfl, (List.append_nil _).symm, rfl, (List.append_nil _).symm⟩ hsession rfl rfl rfl rfl
      ((h.sessions k _ hsession).congr rfl rfl rfl rfl rfl rfl fun _ => ⟨fun h => h, fun h => h⟩) (by simp) (by simp)
      fun job hjob => .inl hjob)
  · exact h.finish

/-- One step of the goroutine. What its peers answered is given as what it means. -/
theorem Holds.proceed (h : Holds s c n) (hinv : n.Inv) (hjob : ⟨k, work⟩ ∈ n.jobs)
    (hsession : n.sessions[k]? = some session) (hsent : n.sent ⊆ (s.nodes c).sent)
    (hlog : (n.proceed env answers k session replies work).log ⊆ (s.nodes c).log)
    (hlength : work.first?.isSome → replies.length = session.peers.length)
    (harmed : ∀ request first, work = .awaitArm request first → Node.failures session.peers replies = [] →
      ∀ peer ∈ session.peers, s.Saw peer.id (.armed request.sessionID request.addresses)) :
    Holds s c (n.proceed env answers k session replies work) := by
  have hdoing := hinv.doing hjob hsession
  have hok := h.jobs _ hjob session hsession
  cases work with
  | stopPrevious =>
    simp only [Node.proceed]
    split
    · exact h.setWork hsession hok
    · exact h.setWork hsession fun _ => trivial
    · exact h.setWork hsession fun _ => trivial
    · exact h.setWork hsession fun _ => trivial
  | verify => exact h.prepareAll hsession hdoing.1 (hok hdoing.1)
  | awaitPrepare request first =>
    simp only [Node.proceed]
    split
    · exact h.setWork hsession hok
    · exact h.setWork hsession fun _ => trivial
  | poll request lastSuccess =>
    simp only [Node.proceed]
    split
    · exact h.setWork hsession fun _ => trivial
    · refine h.changes _ [] (f := id) (moves_id rfl rfl rfl rfl rfl (List.append_nil _).symm) hsession rfl rfl rfl
        rfl (h.sessions k _ hsession) (plain_message (.inl rfl) s c) (by simp) fun job hmem => ?_
      rcases Node.mem_setWork hmem with ⟨hold, -⟩ | rfl
      · exact .inl hold
      · exact .inr ⟨rfl, hok⟩
  | awaitLease request lastSuccess first => exact h.leased hsession (hok hdoing.1) (hlength rfl) lastSuccess
  | lock request prepared => exact h.armAll hsession hdoing.1 (hok hdoing.1)
  | awaitArm request first => exact h.commitAll hsession hdoing.1 (hok hdoing.1).1 (harmed request first rfl)
  | awaitCommit request first =>
    exact h.startAll hsession hdoing.1.1 (hok hdoing.1.1).1 (hok hdoing.1.1).2 hsent
  | fail reason => exact (h.failPreparation answers k reason).finish
  | fetch => exact h.fetch hsession hdoing.1
  | reserve model => exact h.reserve hsession hdoing.1 hlog
  | note reason => exact h.note hsession reason

end Job

/-! ## `maintain` -/

theorem Holds.maintain (h : Holds s c n) (answers : Answers) : Holds s c (n.maintain answers) := by
  simp only [Node.maintain]
  split
  · next k session hk hcurrent =>
    have hsession : n.sessions[k]? = some session := by rwa [← Node.current_eq hk]
    have hsent : ∀ request, Holds s c (n.send session.peers .lease request) := fun request =>
      h.changes _ [] (f := id) (moves_id rfl rfl rfl rfl rfl (List.append_nil _).symm) hsession rfl rfl rfl
        rfl (h.sessions k _ hsession) (plain_message (.inl rfl) s c) (by simp) fun job hmem => .inl hmem
    split
    · exact h
    · split
      · exact h.stopLocked _ _ _ _
      · split
        · exact h.stopLocked _ _ _ _
        · split
          · next hco =>
            split
            · exact (hsent _).changes [] []
                ⟨rfl, rfl, rfl, (List.append_nil _).symm, rfl, (List.append_nil _).symm⟩ hsession rfl rfl rfl rfl
                ((h.sessions k _ hsession).congr rfl rfl rfl rfl rfl rfl fun hworker =>
                  absurd (hco.symm.trans hworker) (by decide)) (by simp) (by simp) fun job hmem => .inl hmem
            · split
              · exact (hsent _).stopLocked _ _ _ _
              · exact hsent _
          · exact h
  · exact h

/-! ## Growth -/

namespace Node

/-- A node says and sees more, and begins no session. -/
structure Continues (n n' : Node) : Prop extends n.Grows n' where
  began : ∀ id members, .began id members ∈ n'.log → .began id members ∈ n.log

theorem Continues.same (hsent : n'.sent = n.sent) (hlog : n'.log = n.log) : n.Continues n' :=
  ⟨⟨hsent ▸ List.prefix_rfl, hlog ▸ fun _ h => h⟩, fun _ _ h => hlog ▸ h⟩

theorem Continues.sends {more : List Message} (hsent : n'.sent = n.sent ++ more) (hlog : n'.log = n.log) :
    n.Continues n' :=
  ⟨⟨hsent ▸ List.prefix_append _ _, hlog ▸ fun _ h => h⟩, fun _ _ h => hlog ▸ h⟩

theorem Continues.sees {o : Observation} (hsent : n'.sent = n.sent) (hlog : n'.log = n.log ++ [o])
    (ho : ∀ id members, o ≠ .began id members) : n.Continues n' := by
  refine ⟨⟨hsent ▸ List.prefix_rfl, hlog ▸ List.subset_append_left _ _⟩, fun id members h => ?_⟩
  rw [hlog, List.mem_append, List.mem_singleton] at h
  exact h.resolve_right fun h => ho id members h.symm

theorem Continues.trans {n'' : Node} (h : n.Continues n') (h' : n'.Continues n'') : n.Continues n'' :=
  ⟨⟨h.sent.trans h'.sent, fun _ ho => h'.log (h.log ho)⟩,
    fun id members hb => h.began id members (h'.began id members hb)⟩

theorem Continues.stopSession (answers : Answers) (n : Node) (k : Nat) (session : ActiveSession) (reason : String)
    (notify : Bool) (except : Option String) : n.Continues (n.stopSession answers k session reason notify except) := by
  cases notify with
  | true => exact .sends rfl rfl
  | false => exact .same rfl rfl

theorem Continues.stopLocked (answers : Answers) (n : Node) (reason : String) (notify : Bool) (except : Option String) :
    n.Continues (n.stopLocked answers reason notify except).1 := by
  rcases n.stopLocked_cases answers reason notify except with heq | ⟨k, session, text, -, -, heq⟩
  · rw [heq]
    exact .same rfl rfl
  · rw [heq]
    exact .stopSession _ _ _ _ _ _ _

theorem Continues.failPreparation (answers : Answers) (n : Node) (k : Nat) (reason : String) :
    n.Continues (n.failPreparation answers k reason) := by
  simp only [Node.failPreparation]
  split
  · exact .stopLocked _ _ _ _ _
  · exact .same rfl rfl

variable {env : NetEnv} {answers : Answers}

theorem Continues.control {sender sourceIP : String} {kind : Kind} {request : ControlRequest}
    {result : Except String ControlResponse} (hc : Controls env answers n sender sourceIP request kind result n') :
    n.Continues n' := by
  cases hc with
  | refused | nothing | prepared | leased => exact .same rfl rfl
  | armed | committed => exact .sees rfl rfl (by simp)
  | notStarted k session =>
    have hcalled : n.Continues (n.observe (.startRing session.id session.rank session.addresses)) :=
      .sees rfl rfl (by simp)
    exact hcalled.trans (.stopSession _ _ _ _ _ _ _)
  | stopped => exact .stopSession _ _ _ _ _ _ _

theorem Continues.proceed (env : NetEnv) (answers : Answers) (n : Node) (k : Nat) (session : ActiveSession)
    (replies : List (Except String ControlResponse)) (work : Work) :
    n.Continues (n.proceed env answers k session replies work) := by
  cases work with
  | stopPrevious | awaitPrepare =>
    simp only [Node.proceed]
    split <;> exact .same rfl rfl
  | verify =>
    simp only [Node.proceed, Node.prepareAll]
    split
    · exact .same rfl rfl
    · split
      · exact .same rfl rfl
      · exact .sends rfl rfl
  | poll =>
    simp only [Node.proceed]
    split
    · exact .same rfl rfl
    · exact .sends rfl rfl
  | awaitLease =>
    simp only [Node.proceed, Node.leased]
    split
    · exact .same rfl rfl
    · split <;> split <;> exact .same rfl rfl
  | lock =>
    simp only [Node.proceed, Node.armAll]
    split
    · exact .same rfl rfl
    · split
      · exact .same rfl rfl
      · exact .sends rfl rfl
  | awaitArm =>
    simp only [Node.proceed, Node.commitAll]
    split
    · exact .sends rfl rfl
    · exact .same rfl rfl
  | awaitCommit =>
    simp only [Node.proceed, Node.startAll]
    split
    · split <;> exact .sees rfl rfl (by simp)
    · exact .same rfl rfl
  | fail reason => exact (Continues.failPreparation answers n k reason).trans (.same rfl rfl)
  | fetch =>
    simp only [Node.proceed, Node.fetch]
    split
    · exact .same rfl rfl
    · split
      · exact .same rfl rfl
      · split
        · exact .same rfl rfl
        · split
          · exact .same rfl rfl
          · split <;> exact .same rfl rfl
  | reserve =>
    simp only [Node.proceed, Node.reserve]
    split
    · exact .same rfl rfl
    · split
      · exact .same rfl rfl
      · split
        · exact .same rfl rfl
        · exact .sees rfl rfl (by simp)
  | note =>
    simp only [Node.proceed, Node.note]
    split <;> exact .same rfl rfl

theorem Continues.maintain (answers : Answers) (n : Node) : n.Continues (n.maintain answers) := by
  have hsent : ∀ peers request, n.Continues (n.send peers .lease request) := fun _ _ => .sends rfl rfl
  simp only [Node.maintain]
  split
  · split
    · exact .same rfl rfl
    · split
      · exact .stopLocked _ _ _ _ _
      · split
        · exact .stopLocked _ _ _ _ _
        · split
          · split
            · exact .sends rfl rfl
            · split
              · exact (hsent _ _).trans (.stopLocked _ _ _ _ _)
              · exact .sends rfl rfl
          · exact .same rfl rfl
  · exact .same rfl rfl

end Node

theorem act_continues {env : NetEnv} {answers : Answers} {action : Action} (hact : s.act env n answers action = some n')
    (haction : ∀ owner request, action = .begin owner request → n' = n) : n.Continues n' := by
  cases action with
  | configure enabled capability =>
    simp only [System.act, Option.ite_none_right_eq_some, Option.some.injEq] at hact
    obtain ⟨-, rfl⟩ := hact
    simp only [Node.configure]
    split <;> exact .same rfl rfl
  | discovered peer =>
    obtain rfl := Option.some.inj hact
    simp only [Node.discovered]
    split <;> exact .same rfl rfl
  | announce =>
    obtain rfl := Option.some.inj hact
    simp only [Node.announce]
    split <;> exact .same rfl rfl
  | begin owner request =>
    obtain rfl := haction owner request rfl
    exact .same rfl rfl
  | arrives sender index sourceIP =>
    simp only [System.act] at hact
    split at hact
    · cases hact
    · next message _ =>
      simp only [Option.ite_none_right_eq_some, Option.some.injEq] at hact
      obtain ⟨-, rfl⟩ := hact
      obtain ⟨result, hcontrols, -⟩ :=
        Node.handle_controls env answers n sender sourceIP message.kind message.request
      exact (Node.Continues.control hcontrols).trans (.same rfl rfl)
  | proceed k replies =>
    obtain ⟨work, session, -, -, -, -, rfl⟩ := act_proceed hact
    exact .proceed _ _ _ _ _ _ _
  | stop =>
    simp only [System.act, Option.ite_none_right_eq_some, Option.some.injEq] at hact
    exact hact.2 ▸ .stopLocked _ _ _ _ _
  | abandon k reason =>
    simp only [System.act, Option.ite_none_right_eq_some, Option.some.injEq] at hact
    exact hact.2 ▸ .failPreparation _ _ _ _
  | maintain =>
    simp only [System.act, Option.ite_none_right_eq_some, Option.some.injEq] at hact
    exact hact.2 ▸ .maintain _ _
  | shutdown =>
    simp only [System.act, Option.ite_none_right_eq_some, Option.some.injEq] at hact
    obtain ⟨-, rfl⟩ := hact
    have hclosed : n.Continues { n with closed := true } := .same rfl rfl
    exact hclosed.trans (.stopLocked _ _ _ _ _)
  | ends | restarts =>
    obtain rfl := Option.some.inj hact
    exact .same rfl rfl

/-- A `Begin` draws a new identifier, and does nothing where it fails. -/
theorem act_begin {env : NetEnv} {answers : Answers} {owner : String} {request : Node.BeginRequest}
    (hact : s.act env n answers (.begin owner request) = some n') :
    owner ∉ s.owners ∧ (n' = n ∨ Node.Begins n owner n') := by
  simp only [System.act, Option.ite_none_right_eq_some] at hact
  obtain ⟨⟨-, -, hfresh⟩, hact⟩ := hact
  refine ⟨hfresh, ?_⟩
  split at hact
  · exact .inl (Option.some.inj hact).symm
  · next hbegin => exact .inr (Option.some.inj hact ▸ Node.begin_ok hbegin)

/-- A step continues, or begins a session with a new identifier. -/
theorem act_cases {env : NetEnv} {answers : Answers} {action : Action} (hact : s.act env n answers action = some n') :
    n.Continues n' ∨ ∃ owner request, action = .begin owner request ∧ owner ∉ s.owners ∧ Node.Begins n owner n' := by
  cases action with
  | begin owner request =>
    obtain ⟨hfresh, rfl | hbegins⟩ := act_begin hact
    · exact .inl (.same rfl rfl)
    · exact .inr ⟨owner, request, rfl, hfresh, hbegins⟩
  | _ => exact .inl (act_continues hact fun _ _ h => by cases h)

theorem log_of_begins {owner : String} (h : Node.Begins n owner n') :
    n'.sent = n.sent ∧ ∃ members address, n'.log = n.log ++ [.began owner members, .reserved owner address] := by
  cases h with
  | intro session address =>
    exact ⟨rfl, session.members, address, by simp [Node.observe, Node.activate, Node.listen]⟩

theorem act_grows {env : NetEnv} {answers : Answers} {action : Action} (hact : s.act env n answers action = some n') :
    n.Grows n' := by
  rcases act_cases hact with h | ⟨owner, request, -, -, hbegins⟩
  · exact h.toGrows
  · obtain ⟨hsent, members, address, hlog⟩ := log_of_begins hbegins
    exact ⟨hsent ▸ List.prefix_rfl, hlog ▸ List.subset_append_left _ _⟩

/-! ## Runs -/

variable {env : NetEnv} {e : Event} {events : List Event}

theorem step_grows (h : Steps env s e s') : s.Grows s' := by
  obtain ⟨n, hact, hnodes⟩ := step_nodes h
  intro c
  rw [hnodes]
  by_cases hc : c = e.node
  · subst hc
    rw [Function.update_self]
    exact act_grows hact
  · rw [Function.update_of_ne hc]
    exact ⟨List.prefix_rfl, fun _ h => h⟩

/-- The peers whose answers were awaited did answer. -/
theorem received_spec {sender : String} {first : Nat} {peers : List Peer} {replies : List (Except String ControlResponse)}
    (h : s.received sender first peers replies = true) : replies.length = peers.length ∧
      (Node.failures peers replies = [] → ∀ (i : Nat) (peer : Peer), peers[i]? = some peer →
        ∃ response, response.error = "" ∧ (sender, first + i, response) ∈ (s.nodes peer.id).replies) := by
  induction peers generalizing first replies with
  | nil =>
    cases replies with
    | nil => exact ⟨rfl, fun _ i peer hi => by simp at hi⟩
    | cons => cases h
  | cons peer peers ih =>
    cases replies with
    | nil => cases h
    | cons reply replies =>
      simp only [System.received, Bool.and_eq_true] at h
      obtain ⟨hlength, hrest⟩ := ih h.2
      refine ⟨by rw [List.length_cons, List.length_cons, hlength], fun hnone i other hi => ?_⟩
      cases reply with
      | error err => simp [Node.failures] at hnone
      | ok response =>
        have herror : response.error = "" := by
          by_contra hne
          simp [Node.failures, hne] at hnone
        have htail : Node.failures peers replies = [] := by simpa [Node.failures, herror] using hnone
        cases i with
        | zero =>
          obtain rfl := Option.some.inj hi
          exact ⟨response, herror, of_decide_eq_true h.1⟩
        | succ i =>
          obtain ⟨found, hfound, hmem⟩ := hrest htail i other hi
          exact ⟨found, hfound, by rwa [show first + (i + 1) = first + 1 + i by omega]⟩

/-- The content of the node that acts, in the system after the step. -/
theorem act_holds {answers : Answers} {action : Action} (hs : ∀ c, (s.nodes c).Inv) (hinv : s.Inv)
    (hact : s.act env (s.nodes c) answers action = some n') (hgrows : s.Grows s') (hnode : s'.nodes c = n')
    (hunique : s'.Unique) : Holds s' c n' := by
  have h := (hinv.holds c).mono hgrows
  have hsent : (s.nodes c).sent ⊆ (s'.nodes c).sent := (hgrows c).sent.subset
  have hlog : n'.log ⊆ (s'.nodes c).log := by rw [hnode]; exact fun _ h => h
  cases action with
  | configure enabled capability =>
    simp only [System.act, Option.ite_none_right_eq_some, Option.some.injEq] at hact
    obtain ⟨-, rfl⟩ := hact
    simp only [Node.configure]
    split
    · exact h
    · exact h.quiet rfl (by simp) rfl rfl rfl (fun _ hjob => hjob) rfl
  | discovered peer =>
    obtain rfl := Option.some.inj hact
    simp only [Node.discovered]
    split
    · exact h
    · next hgood =>
      simp only [not_or] at hgood
      refine h.quiet rfl (fun other hother => ?_) rfl rfl rfl (fun _ hjob => hjob) rfl
      rcases List.mem_cons.1 hother with rfl | hother
      · rw [← h.named]
        exact hgood.2.2.1
      · exact h.peers other (List.mem_filter.1 hother).1
  | announce =>
    obtain rfl := Option.some.inj hact
    simp only [Node.announce]
    split
    · exact h
    · exact h.quiet rfl (fun other hother => h.peers other (List.mem_filter.1 hother).1) rfl rfl rfl
        (fun _ hjob => hjob) rfl
  | begin owner request =>
    obtain ⟨hfresh, rfl | hbegins⟩ := act_begin hact
    · exact h
    · -- the identifier is new: nothing of it was begun, so nothing was sent for it
      have hnone : ∀ c members, ¬ s.Saw c (.began owner members) := fun c members hsaw =>
        hfresh (hinv.owners c owner members hsaw)
      refine h.begin (hs c) hlog ⟨fun m hm hl hid => ?_, fun j other hother hco hid => ?_⟩ hbegins
      · exact hnone c _ (hid ▸ ((hinv.holds c).sent m hm).begun (.inr hl))
      · exact hnone c _ (hid ▸ (((hinv.holds c).sessions j other hother).leads hco).begun)
  | arrives sender index sourceIP =>
    simp only [System.act] at hact
    split at hact
    · cases hact
    · next message hmessage =>
      simp only [Option.ite_none_right_eq_some, Option.some.injEq] at hact
      obtain ⟨-, rfl⟩ := hact
      obtain ⟨result, hcontrols, hresult⟩ :=
        Node.handle_controls env answers (s.nodes c) sender sourceIP message.kind message.request
      have hmem := List.mem_of_getElem? hmessage
      have hok := ((hinv.holds sender).sent message hmem).mono hgrows
      have hhandled : (Node.handle env answers (s.nodes c) sender sourceIP message.kind message.request).2.log ⊆
        (s'.nodes c).log := hlog
      have hcontrol := h.control (hs c) hunique ((hgrows sender).sent.subset hmem) hok hhandled hcontrols
      refine { hcontrol with replies := fun from_ i response hreply herror => ?_ }
      rcases List.mem_append.1 hreply with hold | hnew
      · exact hcontrol.replies from_ i response hold herror
      · obtain ⟨rfl, rfl, rfl⟩ : from_ = sender ∧ i = index ∧ _ := by simpa using hnew
        have harmed := fun hkind => armed_of_answer hcontrols hkind (hresult herror)
        exact ⟨message, getElem?_of_prefix (hgrows _).sent hmessage, fun hkind => hlog (harmed hkind)⟩
  | proceed k replies =>
    obtain ⟨work, session, hjob, hsession, -, hanswered, rfl⟩ := act_proceed hact
    have hreceived : ∀ first, work.first? = some first →
        s.received c first session.peers replies = true := by
      intro first hfirst
      rw [System.answered, hfirst, (hinv.holds c).named] at hanswered
      exact hanswered
    refine h.proceed (hs c) hjob hsession hsent hlog (fun hawaits => ?_) fun request first hwork hnone peer hpeer => ?_
    · obtain ⟨first, hfirst⟩ := Option.isSome_iff_exists.1 hawaits
      exact (received_spec (hreceived first hfirst)).1
    · subst hwork
      obtain ⟨i, hi⟩ := List.getElem?_of_mem hpeer
      obtain ⟨response, herror, hreply⟩ := (received_spec (hreceived first rfl)).2 hnone i peer hi
      obtain ⟨m, hm, harmed⟩ := (hinv.holds peer.id).replies c _ response hreply herror
      have hdoing := (hs c).doing hjob hsession
      rw [((hinv.holds c).jobs _ hjob session hsession hdoing.1).2 i peer hi] at hm
      obtain rfl := Option.some.inj hm
      exact (harmed rfl).mono hgrows
  | stop =>
    simp only [System.act, Option.ite_none_right_eq_some, Option.some.injEq] at hact
    exact hact.2 ▸ h.stopLocked _ _ _ _
  | abandon k reason =>
    simp only [System.act, Option.ite_none_right_eq_some, Option.some.injEq] at hact
    exact hact.2 ▸ h.failPreparation _ _ _
  | maintain =>
    simp only [System.act, Option.ite_none_right_eq_some, Option.some.injEq] at hact
    exact hact.2 ▸ h.maintain _
  | shutdown =>
    simp only [System.act, Option.ite_none_right_eq_some, Option.some.injEq] at hact
    obtain ⟨-, rfl⟩ := hact
    have hclosed : Holds s' c { s.nodes c with closed := true } :=
      h.quiet rfl h.peers rfl rfl rfl (fun _ hjob => hjob) rfl
    exact hclosed.stopLocked _ _ _ _
  | ends =>
    obtain rfl := Option.some.inj hact
    exact h.quiet rfl h.peers rfl rfl rfl (fun _ hjob => hjob) rfl
  | restarts =>
    obtain rfl := Option.some.inj hact
    exact { h with
      peers := by simp [Node.restarted]
      sessions := by simp [Node.restarted]
      apart := by simp [Node.restarted]
      jobs := by simp [Node.restarted] }

/-- The sessions that are begun after a step were begun before it, or with the identifier that was drawn. -/
theorem step_began {id : String} {members : List Member} (hstep : Steps env s e s') (h : s'.Saw c (.began id members)) :
    s.Saw c (.began id members) ∨ c = e.node ∧ id ∉ s.owners ∧ id ∈ s'.owners ∧
      ∀ members', s'.Saw c (.began id members') → s.Saw c (.began id members') ∨ members' = members := by
  obtain ⟨n, hact, hstep⟩ := Option.map_eq_some_iff.1 hstep
  subst hstep
  by_cases hc : c = e.node
  · subst hc
    simp only [System.Saw, Function.update_self] at h ⊢
    rcases act_cases hact with hcontinues | ⟨owner, request, haction, hfresh, hbegins⟩
    · exact .inl (hcontinues.began id members h)
    · obtain ⟨-, begun, address, hlog⟩ := log_of_begins hbegins
      rw [hlog] at h ⊢
      rcases List.mem_append.1 h with hold | hnew
      · exact .inl hold
      · obtain ⟨rfl, rfl⟩ : id = owner ∧ members = begun := by simpa using hnew
        refine .inr ⟨trivial, hfresh, by rw [haction]; exact List.mem_cons_self, fun members' hmem => ?_⟩
        rcases List.mem_append.1 hmem with hold' | hnew'
        · exact .inl hold'
        · exact .inr (by simpa using hnew')
  · simp only [System.Saw, Function.update_of_ne hc] at h ⊢
    exact .inl h

theorem owners_subset (hstep : Steps env s e s') : s.owners ⊆ s'.owners := by
  obtain ⟨n, -, rfl⟩ := Option.map_eq_some_iff.1 hstep
  intro owner howner
  dsimp only
  split
  · exact List.mem_cons_of_mem _ howner
  · exact howner

theorem System.Inv.step (hs : ∀ c, (s.nodes c).Inv) (hinv : s.Inv) (hstep : Steps env s e s') : s'.Inv := by
  have hgrows := step_grows hstep
  have hunique : s'.Unique := by
    intro c c' id members members' h h'
    rcases step_began hstep h with hold | ⟨rfl, hfresh, -, honly⟩
    · rcases step_began hstep h' with hold' | ⟨-, hfresh, -⟩
      · exact hinv.unique c c' id members members' hold hold'
      · exact absurd (hinv.owners c id members hold) hfresh
    · rcases step_began hstep h' with hold' | ⟨rfl, -, -, -⟩
      · exact absurd (hinv.owners c' id members' hold') hfresh
      · refine ⟨rfl, ?_⟩
        rcases honly members' h' with hold | hsame
        · exact absurd (hinv.owners _ id members' hold) hfresh
        · exact hsame.symm
  refine ⟨fun c id members h => ?_, hunique, fun c => ?_⟩
  · rcases step_began hstep h with hold | ⟨-, -, howners, -⟩
    · exact owners_subset hstep (hinv.owners c id members hold)
    · exact howners
  · obtain ⟨n, hact, hnodes⟩ := step_nodes hstep
    by_cases hc : c = e.node
    · subst hc
      have hnode : s'.nodes e.node = n := by rw [hnodes, Function.update_self]
      rw [hnode]
      exact act_holds hs hinv hact hgrows hnode hunique
    · rw [hnodes, Function.update_of_ne hc]
      exact (hinv.holds c).mono hgrows

theorem System.Fresh.inv (h : s.Fresh) : s.Inv where
  owners c id members hsaw := by
    rw [System.Saw, (h.nodes c).log] at hsaw
    cases hsaw
  unique c c' id members members' hsaw := by
    rw [System.Saw, (h.nodes c).log] at hsaw
    cases hsaw
  holds c :=
    { named := h.named c
      peers := by simp [(h.nodes c).peers]
      sessions := by simp [(h.nodes c).sessions]
      apart := by simp [(h.nodes c).sessions]
      sent := by simp [(h.nodes c).sent]
      same := by simp [(h.nodes c).sent]
      replies := by simp [(h.nodes c).replies]
      jobs := by simp [(h.nodes c).jobs]
      log := by simp [(h.nodes c).log] }

/-- In every run of a network, whatever is lost, late, repeated or fails: when a node calls `StartRing` for a session,
every worker of the session has armed with the very list of addresses of the call; the caller is the member at its rank
(rank 0 is the coordinator, the members are different nodes), and the address at its rank is a listener of its own;
and every node that calls it for the session uses the same list, and different nodes use different ranks. -/
theorem ring_agreement (hfresh : s.Fresh) (hrun : Run (Steps env) s events s') {id node : String} {rank : Nat}
    {addresses : List String} (hstart : s'.Saw node (.startRing id rank addresses)) :
    (∃ coordinator members, s'.Saw coordinator (.began id members) ∧ (members.map (·.id)).Nodup ∧
      PlaceOf coordinator 0 members ∧ PlaceOf node rank members ∧ addresses.length = members.length ∧
      ∀ member ∈ members.tail, s'.Saw member.id (.armed id addresses)) ∧
    OwnPlace s' node id rank addresses ∧
    ∀ node' rank' addresses', s'.Saw node' (.startRing id rank' addresses') →
      addresses = addresses' ∧ (node = node' ↔ rank = rank') := by
  have hinv := hrun.inv (fun s => (∀ c, (s.nodes c).Inv) ∧ s.Inv)
    (fun _ _ _ h hstep => ⟨step_inv h.1 hstep, h.2.step h.1 hstep⟩) ⟨fun c => (hfresh.nodes c).inv, hfresh.inv⟩
  obtain ⟨⟨coordinator, m, hm, hkind, hid, hlist, hplace⟩, hown⟩ := (hinv.2.holds node).log _ hstart
  have hok := (hinv.2.holds coordinator).sent m hm
  have hbegan := hok.begun (.inr (.inr hkind))
  subst hid hlist
  obtain ⟨hnodup, hhead⟩ := (hinv.2.holds coordinator).log _ hbegan
  refine ⟨⟨coordinator, _, hbegan, hnodup, hhead, hplace, hok.length (.inr hkind), hok.armed hkind⟩, hown,
    fun node' rank' addresses' hstart' => ?_⟩
  obtain ⟨⟨coordinator', m', hm', hkind', hid', rfl, hplace'⟩, -⟩ := (hinv.2.holds node').log _ hstart'
  have hbegan' := ((hinv.2.holds coordinator').sent m' hm').begun (.inr (.inr hkind'))
  rw [hid'] at hbegan'
  obtain ⟨rfl, hmembers⟩ := hinv.2.unique _ _ _ _ _ hbegan hbegan'
  rw [← hmembers] at hplace'
  refine ⟨(hinv.2.holds coordinator).same m hm m' hm' (.inr hkind) (.inr hkind') hid'.symm, ?_, ?_⟩
  · -- the members are different nodes
    rintro rfl
    refine (List.getElem?_inj (by rw [List.length_map]; exact hplace.lt) hnodup).1 ?_
    rw [List.getElem?_map, List.getElem?_map]
    exact hplace.trans hplace'.symm
  · rintro rfl
    exact Option.some.inj (hplace.symm.trans hplace')

/-- The coordinator of two nodes has called `StartRing`: the other has armed with its list. -/
theorem pair_agrees : ∃ coordinator members, pairEnd.Saw coordinator (.began pairID members) ∧
    (members.map (·.id)).Nodup ∧ PlaceOf coordinator 0 members ∧ PlaceOf nodeA 0 members ∧
    ["10.0.0.1:5001", "10.0.0.2:5002"].length = members.length ∧
    ∀ member ∈ members.tail, pairEnd.Saw member.id (.armed pairID ["10.0.0.1:5001", "10.0.0.2:5002"]) := by
  have hstart : (pairEnd.nodes nodeA).log.contains (.startRing pairID 0 ["10.0.0.1:5001", "10.0.0.2:5002"]) = true := by
    decide +kernel
  exact (ring_agreement pair_fresh pair_run (List.contains_iff_mem.1 hstart)).1

end Tanpopo.Cluster.Ring
