import Tanpopo.Cluster.Ring
import Tanpopo.Lib.Runs
/-!
# Preparing a ring, and a network of nodes

`coordinate` and `prepareWorker` run beside the operations on a session. Each
of their steps is one critical section, or the wait for the network between two
of them; `coordinate` keeps `opMu` from the addresses on. Requests that were
sent may arrive at any time, more than once or never.
-/

namespace Tanpopo.Cluster.Ring

open Go

/-- Whether a step of the goroutine needs `opMu`, which it does not hold yet. -/
def Work.locks : Work → Bool
  | .stopPrevious | .lock _ _ | .fail _ | .reserve _ => true
  | _ => false

/-- The projection beside the copied model. -/
def ActiveSession.withProjection (session : ActiveSession) (copied : String) : ActiveSession :=
  { session with options := { session.options with
    mmproj := if session.descriptor.mmproj = "" then session.options.mmproj
      else pathJoin (pathDir copied) session.descriptor.mmproj } }

namespace Node

/-! ## `Begin` -/

/-- The peers of the request that are online, each once. -/
def selectedPeers (n : Node) (now : Int) (seen : List String) : List String → List Peer
  | [] => []
  | id :: rest =>
    match n.peers.find? (·.id = id) with
    | none => selectedPeers n now seen rest
    | some peer =>
      if id ∈ seen ∨ peerLifetime ≤ now - peer.lastSeen then selectedPeers n now seen rest
      else peer :: selectedPeers n now (id :: seen) rest

/-- A peer that cannot take part. -/
def unfit (n : Node) (peers : List Peer) (peer : Peer) : Bool :=
  peer.clustered || peer.modelSyncVersion ≠ 2 || !peer.capabilities.available ||
    !peer.capabilities.managedParentStdin || peer.capabilities.version ≠ n.capability.version ||
    decide (peer.capabilities.maxNodes < peers.length + 1)

structure BeginRequest where
  peerIDs : List String
  model : String
  profile : Profile
  options : RingOptions

def begin (env : NetEnv) (answers : Answers) (n : Node) (owner : String) (request : BeginRequest) :
    Except String Node :=
  let options := { request.options with
    textOnly := request.options.textOnly || request.options.dflashEnabled,
    draftModel := if request.options.draftModel = "" then request.profile.draftModel else request.options.draftModel }
  let peers := n.selectedPeers answers.now [] request.peerIDs
  if answers.cancelled then .error "context canceled"
  else if ¬ n.enabled ∨ n.closed ∨ n.active.isSome ∨ peers.length ≠ request.peerIDs.length ∨ peers.length < 1 ∨
      maxRingNodes < peers.length + 1 ∨ n.capability.maxNodes < peers.length + 1 then
    .error "請啟用探索、選擇 1–7 個不同的在線節點，並先停止目前叢集"
  else match peers.find? (n.unfit peers) with
    | some peer =>
      .error <| peer.name ++
        " 已加入叢集，或 Tanpopo／Runtime 不支援相同的模型同步與節點數，請更新兩端"
    | none =>
      if request.profile.runtime ≠ runtimeMLXServer ∨ request.profile.contextSize < 128 ∨
          1048576 < request.profile.contextSize then .error "請選擇有效的 mlx-server 啟動參數"
      else match validateRingProfile request.profile, answers.inspected with
        | some err, _ => .error err
        | none, .error err => .error err
        | none, .ok descriptor => match n.reserveRing owner with
          | .error err => .error err
          | .ok reserving =>
            match env.reserveAddress ((peers.head?.map (·.ip)).getD "") answers.reserved with
            -- the reservation is given back, and nothing else was changed
            | .error err => .error err
            | .ok address =>
              let localIP := ((splitHostPort address).map (·.1)).getD ""
              let members : List Member := ⟨n.nodeID, n.name, localIP, n.port⟩ ::
                peers.map fun peer => ⟨peer.id, peer.name, peer.ip, peer.port⟩
              let session : ActiveSession :=
                { id := owner, members := members, rank := 0, role := .coordinator, phase := .verifying,
                  model := descriptor.path, addresses := address :: List.replicate peers.length "", peers := peers,
                  listener := some ⟨n.handles, address⟩, lastLease := answers.now, profile := request.profile,
                  options := options, descriptor := descriptor, prepareError := "", starting := true,
                  cancelled := false }
              let n := (reserving.listen.activate session).observe (.began owner members)
              let n := n.observe (.reserved owner address)
              .ok { n with jobs := n.jobs ++ [⟨reserving.sessions.length, .stopPrevious⟩] }

/-- No peer is selected twice. -/
theorem selectedPeers_spec (n : Node) (now : Int) (ids seen : List String) :
    (∀ peer ∈ n.selectedPeers now seen ids, peer ∈ n.peers ∧ peer.id ∉ seen) ∧
      ((n.selectedPeers now seen ids).map (·.id)).Nodup := by
  induction ids generalizing seen with
  | nil => simp [selectedPeers]
  | cons id rest ih =>
    simp only [selectedPeers]
    split
    · exact ih seen
    · next peer hfind =>
      have hid : peer.id = id := by simpa using List.find?_some hfind
      split
      · exact ih seen
      · next hnew =>
        rw [not_or] at hnew
        obtain ⟨hmem, hnodup⟩ := ih (id :: seen)
        refine ⟨fun other hother => ?_, ?_⟩
        · rcases List.mem_cons.1 hother with rfl | hother
          · exact ⟨List.mem_of_find?_eq_some hfind, hid ▸ hnew.1⟩
          · exact ⟨(hmem other hother).1, fun hseen => (hmem other hother).2 (List.mem_cons_of_mem _ hseen)⟩
        · rw [List.map_cons, List.nodup_cons]
          refine ⟨fun htwice => ?_, hnodup⟩
          obtain ⟨other, hother, hsame⟩ := List.mem_map.1 htwice
          exact (hmem other hother).2 (hsame ▸ hid ▸ List.mem_cons_self)

/-- What a `Begin` that succeeds does. -/
inductive Begins (n : Node) (owner : String) : Node → Prop
  | intro (session : ActiveSession) (address localIP : String) : owner ≠ "" → n.active = none → session.id = owner →
      session.role = .coordinator → session.rank = 0 → session.phase = .verifying → session.starting = true →
      session.cancelled = false → session.listener = some ⟨n.handles, address⟩ →
      session.addresses = address :: List.replicate session.peers.length "" →
      session.members = ⟨n.nodeID, n.name, localIP, n.port⟩ ::
        session.peers.map (fun peer => ⟨peer.id, peer.name, peer.ip, peer.port⟩) → session.peers ≠ [] →
      (session.peers.map (·.id)).Nodup → (∀ peer ∈ session.peers, peer ∈ n.peers) → Begins n owner
        { (((({ n with distributedOwner := owner } : Node).listen.activate session).observe
              (.began owner session.members)).observe (.reserved owner address)) with
          jobs := n.jobs ++ [⟨n.sessions.length, .stopPrevious⟩] }

theorem begin_ok {env : NetEnv} {answers : Answers} {n n' : Node} {owner : String} {request : BeginRequest}
    (h : n.begin env answers owner request = .ok n') : Begins n owner n' := by
  simp only [begin] at h
  split at h
  · cases h
  · split at h
    · cases h
    · next hready =>
      simp only [not_or] at hready
      have hnone : n.active = none := by simpa using hready.2.2.1
      have hpeers : n.selectedPeers answers.now [] request.peerIDs ≠ [] := fun hnil => by
        rw [hnil] at hready
        exact hready.2.2.2.2.1 Nat.one_pos
      split at h
      · cases h
      · split at h
        · cases h
        · split at h
          · cases h
          · cases h
          · split at h
            · cases h
            · next reserving hreserving =>
              obtain ⟨hid, -, rfl⟩ := reserveRing_ok hreserving
              split at h
              · cases h
              · next address _ =>
                obtain rfl := Except.ok.inj h
                obtain ⟨hmem, hnodup⟩ := n.selectedPeers_spec answers.now request.peerIDs []
                exact .intro _ address _ hid hnone rfl rfl rfl rfl rfl rfl rfl rfl rfl hpeers hnodup
                  fun peer hpeer => (hmem peer hpeer).1

/-! ## The goroutine of a session -/

def isCurrent (n : Node) (k : Nat) : Bool := n.active = some k

/-- The context of a session: its own `cancel`, or the end of the application. -/
def done (n : Node) (session : ActiveSession) : Bool := session.cancelled || n.ended

def failPreparation (answers : Answers) (n : Node) (k : Nat) (reason : String) : Node :=
  if n.isCurrent k then (n.stopLocked answers reason true none).1 else n

/-- The errors of the peers that did not answer, or answered with one. -/
def failures (peers : List Peer) (replies : List (Except String ControlResponse)) : List String :=
  (peers.zip replies).filterMap fun e => match e.2 with
    | .error err => some (e.1.name ++ "：" ++ err)
    | .ok response => if response.error = "" then none else some (e.1.name ++ "：" ++ response.error)

def errorsJoin (errs : List String) : String := join errs '\n'

/-- Requests to all peers, and the wait for their answers. -/
def callPeers (n : Node) (k : Nat) (session : ActiveSession) (kind : Kind) (request : ControlRequest)
    (next : Nat → Work) : Node :=
  (n.send session.peers kind request).setWork k (next n.sent.length)

def leaseRequest (session : ActiveSession) : ControlRequest :=
  { sessionID := session.id, model := ⟨"", "", "", "", "", ""⟩, version := "", members := [], contextSize := 0,
    options := ⟨"", "", false, false, "", false, ""⟩, addresses := [], ready := false, stopReason := "" }

/-- `stopPreviousRuntime`. -/
def stopPreviousRuntime (answers : Answers) (n : Node) (k : Nat) (session : ActiveSession) : Option String :=
  if ¬ n.isCurrent k ∨ n.done session then some "context canceled" else answers.stopped

/-- `coordinate` after `CreateSelection`. -/
def prepareAll (answers : Answers) (n : Node) (k : Nat) (session : ActiveSession) : Node :=
  match answers.snapshot with
  | .error err => n.setWork k (.fail err)
  | .ok digest =>
    if ¬ n.isCurrent k then n.setWork k (.fail "context canceled")
    else
      let descriptor := { session.descriptor with fingerprint := digest }
      let request : ControlRequest :=
        { sessionID := session.id, model := descriptor, version := n.capability.version, members := session.members,
          contextSize := session.profile.contextSize,
          options := ⟨"", "", false, session.options.fastGGUFEnabled, session.options.ggufStrategy,
            session.options.textOnly, ""⟩,
          addresses := [], ready := false, stopReason := "" }
      (n.update k fun session => { session with descriptor := descriptor, phase := .synchronizing }).callPeers
        k session .prepare request (.awaitPrepare request)

/-- The end of a round of leases. -/
def leased (answers : Answers) (n : Node) (k : Nat) (session : ActiveSession) (request : ControlRequest)
    (lastSuccess : Int) (replies : List (Except String ControlResponse)) : Node :=
  let responses := replies.map fun reply => match reply with
    | .ok response => response
    | .error _ => emptyResponse
  match (session.peers.zip responses).find? fun e => e.2.error ≠ "" with
  | some (peer, response) => n.setWork k (.fail (peer.name ++ "：" ++ response.error))
  | none =>
    match failures session.peers replies with
    | [] =>
      if responses.all fun response => response.phase = some .prepared then n.setWork k (.lock request responses)
      else n.setWork k (.poll request answers.now)
    | errs =>
      if leaseLifetime < answers.now - lastSuccess then n.setWork k (.fail ("模型同步租約失效：" ++ errorsJoin errs))
      else n.setWork k (.poll request lastSuccess)

/-- The addresses of the workers, each at the place from which its answer came. -/
def collect (env : NetEnv) : List Peer → List ControlResponse → Except String (List String)
  | peer :: peers, response :: responses =>
    if !env.endpointAt response.address peer.ip then .error (peer.name ++ " 回傳的 Ring 位址不符來源")
    else (collect env peers responses).map (response.address :: ·)
  | _, _ => .ok []

/-- `coordinate` once all are prepared: `opMu` is taken and kept. -/
def armAll (env : NetEnv) (n : Node) (k : Nat) (session : ActiveSession) (request : ControlRequest)
    (prepared : List ControlResponse) : Node :=
  if ¬ n.isCurrent k ∨ n.done session then n.setWork k (.fail "context canceled")
  else match collect env session.peers prepared with
    | .error err => n.setWork k (.fail err)
    | .ok rest =>
      let addresses := session.addresses.take 1 ++ rest
      let request := { request with addresses := addresses }
      let n := n.update k fun session => { session with addresses := addresses, phase := .starting }
      { n.callPeers k session .arm request (.awaitArm request) with opMu := some k }

def commitAll (n : Node) (k : Nat) (session : ActiveSession) (request : ControlRequest)
    (replies : List (Except String ControlResponse)) : Node :=
  match failures session.peers replies with
  | [] =>
    ((n.close session.listener).update k fun session => { session with listener := none }).callPeers
      k session .commit request (.awaitCommit request)
  | errs => (n.setWork k (.fail (errorsJoin errs))).unlock

def startAll (env : NetEnv) (answers : Answers) (n : Node) (k : Nat) (session : ActiveSession)
    (request : ControlRequest) (replies : List (Except String ControlResponse)) : Node :=
  match failures session.peers replies with
  | [] =>
    let called := n.observe (.startRing session.id 0 request.addresses)
    (match env.startRing answers n session.id 0 request.addresses session.profile with
      | some err => called.setWork k (.fail err)
      | none =>
        (called.update k fun session =>
          { session with phase := .loading, lastLease := answers.now, starting := false }).finish k).unlock
  | errs => (n.setWork k (.fail (errorsJoin errs))).unlock

/-- `prepareWorker` up to the lock: the files are copied and looked at. -/
def fetch (answers : Answers) (n : Node) (k : Nat) (session : ActiveSession) : Node :=
  match answers.manifest, answers.ensured with
  | .error err, _ => n.setWork k (.note err)
  | .ok digest, ensured =>
    if digest ≠ session.descriptor.fingerprint then n.setWork k (.note "發起端模型清單與交握摘要不同")
    else match ensured with
      | .error err => n.setWork k (.note err)
      | .ok copied =>
        let model := if session.descriptor.format ≠ "" then "gguf:" ++ copied else copied
        let n := n.update k fun session => session.withProjection copied
        match answers.inspected with
        | .error err => n.setWork k (.note err)
        | .ok descriptor =>
          if descriptor.architecture ≠ session.descriptor.architecture ∨ descriptor.kind ≠ session.descriptor.kind then
            n.setWork k (.note "遠端 Runtime 解析的模型架構／模式與發起端不符")
          else n.setWork k (.reserve model)

/-- `prepareWorker` under the lock. -/
def reserve (env : NetEnv) (answers : Answers) (n : Node) (k : Nat) (session : ActiveSession) (model : String) : Node :=
  if ¬ n.isCurrent k ∨ n.done session then n.setWork k (.note "context canceled")
  else match env.reserveAddress ((session.peers.head?.map (·.ip)).getD "") answers.reserved with
    | .error err => n.setWork k (.note err)
    | .ok address =>
      if !env.endpointAt address (((session.members[session.rank]?).map (·.ip)).getD "") then
        -- the listener is opened and closed
        { n.setWork k (.note "節點使用不同網路路徑") with handles := n.handles + 1 }
      else
        ((n.listen.update k fun session =>
          { session with model := model, phase := .prepared, listener := some ⟨n.handles, address⟩,
                         addresses := session.addresses.set session.rank address }).observe
          (.reserved session.id address)).finish k

def note (n : Node) (k : Nat) (reason : String) : Node :=
  (if n.isCurrent k then n.update k fun session => { session with prepareError := reason } else n).finish k

/-- The next step of the goroutine of session `k`. -/
def proceed (env : NetEnv) (answers : Answers) (n : Node) (k : Nat) (session : ActiveSession)
    (replies : List (Except String ControlResponse)) : Work → Node
  | .stopPrevious =>
    match n.stopPreviousRuntime answers k session, session.role with
    | none, .coordinator => n.setWork k .verify
    | some err, .coordinator => n.setWork k (.fail err)
    | none, .worker => n.setWork k .fetch
    | some err, .worker => n.setWork k (.note err)
  | .verify => n.prepareAll answers k session
  | .awaitPrepare request _ =>
    match failures session.peers replies with
    | [] => n.setWork k (.poll request answers.now)
    | errs => n.setWork k (.fail (errorsJoin errs))
  | .poll request lastSuccess =>
    if n.done session then n.setWork k (.fail "context canceled")
    else n.callPeers k session .lease (leaseRequest session) (.awaitLease request lastSuccess)
  | .awaitLease request lastSuccess _ => n.leased answers k session request lastSuccess replies
  | .lock request prepared => n.armAll env k session request prepared
  | .awaitArm request _ => n.commitAll k session request replies
  | .awaitCommit request _ => n.startAll env answers k session request replies
  | .fail reason => (n.failPreparation answers k reason).finish k
  | .fetch => n.fetch answers k session
  | .reserve model => n.reserve env answers k session model
  | .note reason => n.note k reason

/-! ## `maintain` -/

def maintain (answers : Answers) (n : Node) : Node :=
  match n.active, n.current with
  | some k, some session =>
    if session.role = .coordinator ∧ session.starting then n
    else if session.phase ≠ .synchronizing ∧ session.phase ≠ .verifying ∧ session.phase ≠ .prepared ∧
        session.phase ≠ .armed ∧ session.phase ≠ .starting ∧ ¬ answers.running then
      (n.stopLocked answers ("節點 " ++ n.name ++ " 的 TCP Ring 程序已結束：" ++ answers.statusError) true none).1
    else if session.role = .worker ∧ leaseLifetime < answers.now - session.lastLease then
      (n.stopLocked answers "主節點租約逾時，已停止工作節點" true none).1
    else if session.role = .coordinator then
      let n := n.send session.peers .lease { leaseRequest session with ready := answers.ready }
      match answers.leased with
      | none =>
        n.update k fun session =>
          { session with lastLease := answers.now, phase := if answers.ready then .running else session.phase }
      | some err =>
        if leaseLifetime < answers.now - session.lastLease then
          (n.stopLocked answers ("工作節點租約逾時：" ++ err) true none).1
        else n
    else n
  | _, _ => n

/-! ## Discovery and configuration -/

/-- A `hello_ack` is accepted. -/
def discovered (n : Node) (peer : Peer) : Node :=
  if ¬ n.enabled ∨ ¬ validID peer.id ∨ peer.id = n.nodeID ∨ peer.port < 1024 ∨ 65535 < peer.port then n
  else { n with peers := peer :: n.peers.filter (·.id ≠ peer.id) }

/-- `announce` forgets the peers that were not seen for a while. -/
def announce (now : Int) (n : Node) : Node :=
  if ¬ n.enabled ∨ n.closed then n
  else { n with peers := n.peers.filter fun peer => now - peer.lastSeen < peerLifetime }

/-- `Configure` with a valid identifier, once the file is written. `capability` is none where discovery
cannot be opened. -/
def configure (n : Node) (enabled : Bool) (capability : Option RingCapabilities) : Node :=
  if n.closed ∨ n.active.isSome then n
  else { n with
    enabled := enabled && capability.isSome, peers := [],
    capability := if enabled then capability.getD n.capability else n.capability }

def shutdown (answers : Answers) (n : Node) : Node :=
  ({ n with closed := true }.stopLocked answers "" true none).1

/-- A node that has just been started with its configuration. What it sent and what was seen of it stay. -/
def restarted (n : Node) : Node :=
  { n with
    closed := false, ended := false, peers := [], sessions := [], active := none, lastError := "",
    distributedOwner := "", opMu := none, jobs := [], listeners := [] }

end Node

/-! ## The network -/

inductive Action where
  | configure (enabled : Bool) (capability : Option RingCapabilities)
  | discovered (peer : Peer)
  | announce
  | begin (owner : String) (request : Node.BeginRequest)
  /-- A request of another node arrives, from this address. -/
  | arrives (sender : String) (index : Nat) (sourceIP : String)
  /-- The goroutine of a session goes on, with what its peers answered. -/
  | proceed (k : Nat) (replies : List (Except String ControlResponse))
  | stop
  /-- The caller of `Start` gives up. -/
  | abandon (k : Nat) (reason : String)
  | maintain
  | shutdown
  /-- The context of the application is done. -/
  | ends
  /-- The process is gone, and started again. -/
  | restarts

structure Event where
  node : String
  action : Action
  answers : Answers

/-- The nodes by their identifiers, and the identifiers of sessions that were drawn. -/
structure System where
  nodes : String → Node
  owners : List String

/-- Where the answers to a round of requests are awaited. -/
def Work.first? : Work → Option Nat
  | .awaitPrepare _ first | .awaitLease _ _ first | .awaitArm _ first | .awaitCommit _ first => some first
  | _ => none

/-- Every answer was given by its peer to the request at its place. -/
def System.received (s : System) (sender : String) (first : Nat) :
    List Peer → List (Except String ControlResponse) → Bool
  | [], [] => true
  | peer :: peers, reply :: replies =>
    (match reply with
      | .ok response => decide ((sender, first, response) ∈ (s.nodes peer.id).replies)
      | .error _ => true) && received s sender (first + 1) peers replies
  | _, _ => false

def System.answered (s : System) (n : Node) (session : ActiveSession) (replies : List (Except String ControlResponse))
    (work : Work) : Bool :=
  match work.first? with
  | none => true
  | some first => s.received n.nodeID first session.peers replies

def Node.free (n : Node) : Bool := n.opMu.isNone

/-- The node after an event, where the event is possible. -/
def System.act (env : NetEnv) (s : System) (n : Node) (answers : Answers) : Action → Option Node
  | .configure enabled capability => if n.free then some (n.configure enabled capability) else none
  | .discovered peer => some (n.discovered peer)
  | .announce => some (n.announce answers.now)
  | .begin owner request =>
    if n.free ∧ validID owner ∧ owner ∉ s.owners then
      match n.begin env answers owner request with
      | .error _ => some n
      | .ok n => some n
    else none
  | .arrives sender index sourceIP =>
    match (s.nodes sender).sent[index]? with
    | none => none
    | some message =>
      if n.free ∧ message.target = n.nodeID then
        let handled := n.handle env answers sender sourceIP message.kind message.request
        some { handled.2 with replies := handled.2.replies ++ [(sender, index, handled.1)] }
      else none
  | .proceed k replies =>
    match n.jobs.find? (·.session = k), n.sessions[k]? with
    | some job, some session =>
      if (n.free ∨ ¬ job.work.locks) ∧ s.answered n session replies job.work then
        some (n.proceed env answers k session replies job.work)
      else none
    | _, _ => none
  | .stop => if n.free then some (n.stopLocked answers "" true none).1 else none
  | .abandon k reason => if n.free then some (n.failPreparation answers k reason) else none
  | .maintain => if n.free then some (n.maintain answers) else none
  | .shutdown => if n.free then some (n.shutdown answers) else none
  | .ends => some { n with ended := true }
  | .restarts => some n.restarted

def System.step (env : NetEnv) (s : System) (e : Event) : Option System :=
  (s.act env (s.nodes e.node) e.answers e.action).map fun n =>
    { nodes := Function.update s.nodes e.node n
      owners := match e.action with
        | .begin owner _ => owner :: s.owners
        | _ => s.owners }

def Steps (env : NetEnv) (s : System) (e : Event) (s' : System) : Prop := s.step env e = some s'

/-- A node before anything has happened at it. -/
structure Node.Fresh (n : Node) : Prop where
  peers : n.peers = []
  sessions : n.sessions = []
  active : n.active = none
  owner : n.distributedOwner = ""
  opMu : n.opMu = none
  jobs : n.jobs = []
  listeners : n.listeners = []
  sent : n.sent = []
  replies : n.replies = []
  log : n.log = []

/-- Nodes that are known by their identifiers, and nothing has happened. -/
structure System.Fresh (s : System) : Prop where
  named : ∀ c, (s.nodes c).nodeID = c
  nodes : ∀ c, (s.nodes c).Fresh

/-! ## Two nodes -/

def nodeA : String := "aaaaaaaaaaaaaaaaaaaaaaaaaaaaaaaa"
def nodeB : String := "bbbbbbbbbbbbbbbbbbbbbbbbbbbbbbbb"
def pairID : String := "cccccccccccccccccccccccccccccccc"
def modelDigest : String := "dddddddddddddddddddddddddddddddddddddddddddddddddddddddddddddddd"

def lan : NetEnv where
  parseIPv4 text :=
    if text = "10.0.0.1" then some ⟨10, 0, 0, 1⟩ else if text = "10.0.0.2" then some ⟨10, 0, 0, 2⟩ else none

def ringCapability : RingCapabilities := ⟨8, "1", true, true⟩

def freshNode (c : String) : Node where
  nodeID := c
  name := "node"
  port := 8080
  enabled := true
  closed := false
  ended := false
  capability := ringCapability
  peers := []
  sessions := []
  active := none
  lastError := ""
  distributedOwner := ""
  opMu := none
  jobs := []
  listeners := []
  handles := 0
  sent := []
  replies := []
  log := []

def pair : System := ⟨freshNode, []⟩

def peerAt (id ip : String) : Peer := ⟨id, "peer", ip, 8080, ringCapability, false, 2, 0⟩

/-- Nothing fails; a listener is opened at this address. -/
def answersAt (address : String) : Answers where
  now := 1
  cancelled := false
  running := true
  ready := false
  statusError := ""
  stopped := none
  notified := none
  leased := none
  inspected := .ok ⟨"m", "llama", "", "text", "", ""⟩
  reserved := .ok address
  snapshot := .ok modelDigest
  manifest := .ok modelDigest
  ensured := .ok "m"
  started := none

def atA (action : Action) : Event := ⟨nodeA, action, answersAt "10.0.0.1:5001"⟩
def atB (action : Action) : Event := ⟨nodeB, action, answersAt "10.0.0.2:5002"⟩

def pairEvents : List Event :=
  [atA (.discovered (peerAt nodeB "10.0.0.2")), atB (.discovered (peerAt nodeA "10.0.0.1")),
    atA (.begin pairID ⟨[nodeB], "m", ⟨runtimeMLXServer, "", 4096, "", []⟩, ⟨"", "", false, false, "", false, ""⟩⟩),
    atA (.proceed 0 []), atA (.proceed 0 []), atB (.arrives nodeA 0 "10.0.0.1"),
    atA (.proceed 0 [.ok ⟨"", "", some .synchronizing⟩]), atB (.proceed 0 []), atB (.proceed 0 []),
    atB (.proceed 0 []), atA (.proceed 0 []), atB (.arrives nodeA 1 "10.0.0.1"),
    atA (.proceed 0 [.ok ⟨"10.0.0.2:5002", "", some .prepared⟩]), atA (.proceed 0 []),
    atB (.arrives nodeA 2 "10.0.0.1"), atA (.proceed 0 [.ok Node.emptyResponse]), atB (.arrives nodeA 3 "10.0.0.1"),
    atA (.proceed 0 [.ok Node.emptyResponse])]

def pairEnd : System := (pairEvents.foldlM (System.step lan) pair).getD pair

theorem pair_run : Run (Steps lan) pair pairEvents pairEnd := by
  have hsome : (pairEvents.foldlM (System.step lan) pair).isSome = true := by decide +kernel
  refine Run.of_foldlM ?_
  rw [pairEnd]
  cases h : pairEvents.foldlM (System.step lan) pair with
  | none => rw [h] at hsome; cases hsome
  | some s => rfl

theorem pair_fresh : pair.Fresh := ⟨fun _ => rfl, fun _ => ⟨rfl, rfl, rfl, rfl, rfl, rfl, rfl, rfl, rfl, rfl⟩⟩

end Tanpopo.Cluster.Ring
