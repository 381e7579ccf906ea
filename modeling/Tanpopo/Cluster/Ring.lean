import Tanpopo.Cluster.Discovery
import Tanpopo.Lib.Go
import Mathlib
/-!
# A node of a TCP ring

A coordinator asks workers to prepare a model, collects the addresses that they
reserve, sends the list to all of them (`arm`), and lets them start (`commit`).
Operations on a session hold `opMu`; preparing a model happens beside it, in a
goroutine for each session. A session is an object that goroutines keep a
pointer to, so a node has a store of them.
-/

namespace Tanpopo.Cluster.Ring

open Go

/-! ## Data -/

structure IPv4 where
  a : UInt8
  b : UInt8
  c : UInt8
  d : UInt8
  deriving DecidableEq

/-- What `net.ParseIP` and `To4` make of a text. -/
structure NetEnv where
  parseIPv4 : String → Option IPv4

structure Member where
  id : String
  name : String
  ip : String
  port : Int
  deriving DecidableEq

structure RingCapabilities where
  maxNodes : Int
  version : String
  available : Bool
  managedParentStdin : Bool
  deriving DecidableEq

structure Peer where
  id : String
  name : String
  ip : String
  port : Int
  capabilities : RingCapabilities
  clustered : Bool
  modelSyncVersion : Int
  lastSeen : Int
  deriving DecidableEq

structure RingModel where
  path : String
  architecture : String
  fingerprint : String
  kind : String
  format : String
  mmproj : String
  deriving DecidableEq

structure RingOptions where
  mmproj : String
  draftModel : String
  dflashEnabled : Bool
  fastGGUFEnabled : Bool
  ggufStrategy : String
  textOnly : Bool
  conversionConfirmationKey : String
  deriving DecidableEq

/-- The fields of a startup command that the cluster reads. -/
structure Profile where
  runtime : String
  runtimeVariant : String
  contextSize : Int
  draftModel : String
  extraArgs : List String
  deriving DecidableEq

inductive Role where
  | coordinator
  | worker
  deriving DecidableEq

inductive Phase where
  | verifying
  | synchronizing
  | prepared
  | starting
  | armed
  | loading
  | running
  deriving DecidableEq

structure ControlRequest where
  sessionID : String
  model : RingModel
  version : String
  members : List Member
  contextSize : Int
  options : RingOptions
  addresses : List String
  ready : Bool
  stopReason : String
  deriving DecidableEq

/-- An empty error stands for none. -/
structure ControlResponse where
  address : String
  error : String
  phase : Option Phase
  deriving DecidableEq

inductive Kind where
  | prepare
  | arm
  | commit
  | lease
  | stop
  | unknown
  deriving DecidableEq

/-- A request to a peer. -/
structure Message where
  target : String
  kind : Kind
  request : ControlRequest
  deriving DecidableEq

/-- A port that is held for the ring. -/
structure Listener where
  handle : Nat
  address : String
  deriving DecidableEq

structure ActiveSession where
  id : String
  members : List Member
  rank : Nat
  role : Role
  phase : Phase
  model : String
  addresses : List String
  peers : List Peer
  listener : Option Listener
  lastLease : Int
  profile : Profile
  options : RingOptions
  descriptor : RingModel
  prepareError : String
  starting : Bool
  cancelled : Bool
  deriving DecidableEq

/-- What the caller of `StartRing` passes, and that a session was begun, a worker armed or a listener
reserved. -/
inductive Observation where
  | began (session : String) (members : List Member)
  | reserved (session address : String)
  | armed (session : String) (addresses : List String)
  | startRing (session : String) (rank : Nat) (addresses : List String)
  deriving DecidableEq

/-- Where the goroutine of a session stands. -/
inductive Work where
  /-- `stopPreviousRuntime` is next. -/
  | stopPrevious
  /-- `coordinate` reads the files of the model. -/
  | verify
  /-- Answers to the requests sent from `first` on are awaited. -/
  | awaitPrepare (request : ControlRequest) (first : Nat)
  | poll (request : ControlRequest) (lastSuccess : Int)
  | awaitLease (request : ControlRequest) (lastSuccess : Int) (first : Nat)
  | lock (request : ControlRequest) (prepared : List ControlResponse)
  /-- `opMu` is held here and in the next. -/
  | awaitArm (request : ControlRequest) (first : Nat)
  | awaitCommit (request : ControlRequest) (first : Nat)
  /-- `failPreparation` is next. -/
  | fail (reason : String)
  /-- `prepareWorker` copies the model. -/
  | fetch
  | reserve (model : String)
  /-- The error of `prepareWorker` is to be noted. -/
  | note (reason : String)
  deriving DecidableEq

structure Job where
  session : Nat
  work : Work
  deriving DecidableEq

/-- One node. `active` is the place of a session among `sessions`, `opMu` the session whose goroutine
holds the lock between two of its steps, `sent` and `replies` what the node has sent so far, a reply with
the sender and the number of its request. -/
structure Node where
  nodeID : String
  name : String
  port : Int
  enabled : Bool
  closed : Bool
  /-- The context of the application is done. -/
  ended : Bool
  capability : RingCapabilities
  peers : List Peer
  sessions : List ActiveSession
  active : Option Nat
  lastError : String
  distributedOwner : String
  opMu : Option Nat
  jobs : List Job
  listeners : List Nat
  handles : Nat
  sent : List Message
  replies : List (String × Nat × ControlResponse)
  log : List Observation

/-- What the system, the runtime and the network answer during one step. -/
structure Answers where
  now : Int
  /-- The caller of a request is gone. -/
  cancelled : Bool
  running : Bool
  ready : Bool
  statusError : String
  stopped : Option String
  notified : Option String
  leased : Option String
  inspected : Except String RingModel
  reserved : Except String String
  snapshot : Except String String
  manifest : Except String String
  ensured : Except String String
  started : Option String

def peerLifetime : Int := 12 * second
def leaseLifetime : Int := 20 * second
def maxRingNodes : Nat := 8
def runtimeMLXServer : String := "mlx-server"

/-! ## Addresses -/

/-- `net.JoinHostPort`. -/
def joinHostPort (host port : String) : String :=
  if host.toList.contains ':' then "[" ++ host ++ "]:" ++ port else host ++ ":" ++ port

/-- `net.SplitHostPort`. -/
def splitHostPort (hostport : String) : Option (String × String) :=
  let before := (hostport.toList.reverse.dropWhile (· ≠ ':')).reverse.dropLast
  let port := (hostport.toList.reverse.takeWhile (· ≠ ':')).reverse
  if ¬ hostport.toList.contains ':' then none
  else match before with
    | '[' :: rest =>
      if rest.getLast? = some ']' ∧ ¬ rest.dropLast.contains '[' ∧ ¬ rest.dropLast.contains ']' ∧
          ¬ port.contains '[' ∧ ¬ port.contains ']' then some (String.ofList rest.dropLast, String.ofList port)
      else none
    | host =>
      if host.contains ':' ∨ host.contains '[' ∨ host.contains ']' ∨ port.contains '[' ∨ port.contains ']' then none
      else some (String.ofList host, String.ofList port)

def IPv4.isUnspecified (ip : IPv4) : Bool := ip = ⟨0, 0, 0, 0⟩

def IPv4.isMulticast (ip : IPv4) : Bool := ip.a &&& 0xf0 = 0xe0

/-- An address of one host, and not of none or many. -/
def NetEnv.hostIP (env : NetEnv) (text : String) : Option IPv4 :=
  (env.parseIPv4 text).filter fun ip => !ip.isUnspecified && !ip.isMulticast

def NetEnv.endpointAt (env : NetEnv) (endpoint expectedIP : String) : Bool :=
  match splitHostPort endpoint with
  | none => false
  | some (host, port) =>
    (env.hostIP host).isSome && decide (env.hostIP host = env.parseIPv4 expectedIP) &&
      decide (1024 ≤ atoi port ∧ atoi port ≤ 65535)

/-- The error of `reserveAddress` before it asks the system, else the address of a new listener. -/
def NetEnv.reserveAddress (env : NetEnv) (peerIP : String) (answer : Except String String) : Except String String :=
  if (env.hostIP peerIP).isNone then .error "探索未取得有效 IPv4 位址" else answer

/-! ## The store of sessions -/

namespace Node

/-- Change one session, in the place where it is. -/
def update (n : Node) (k : Nat) (f : ActiveSession → ActiveSession) : Node :=
  { n with sessions := n.sessions.modify k f }

/-- Make a session and let `active` point to it. -/
def activate (n : Node) (session : ActiveSession) : Node :=
  { n with sessions := n.sessions ++ [session], active := some n.sessions.length, lastError := "" }

def current (n : Node) : Option ActiveSession := n.active.bind (n.sessions[·]?)

def send (n : Node) (peers : List Peer) (kind : Kind) (request : ControlRequest) : Node :=
  { n with sent := n.sent ++ peers.map fun peer => ⟨peer.id, kind, request⟩ }

def observe (n : Node) (o : Observation) : Node := { n with log := n.log ++ [o] }

def setWork (n : Node) (k : Nat) (work : Work) : Node :=
  { n with jobs := n.jobs.map fun job => if job.session = k then ⟨k, work⟩ else job }

def finish (n : Node) (k : Nat) : Node := { n with jobs := n.jobs.filter (·.session ≠ k) }

def unlock (n : Node) : Node := { n with opMu := none }

def close (n : Node) (listener : Option Listener) : Node :=
  { n with listeners := n.listeners.filter fun handle => listener.map (·.handle) ≠ some handle }

/-- `net.ListenTCP`. -/
def listen (n : Node) : Node := { n with listeners := n.handles :: n.listeners, handles := n.handles + 1 }

/-! ## The reservation of the manager -/

def reserveRing (n : Node) (owner : String) : Except String Node :=
  if owner = "" ∨ n.distributedOwner ≠ "" then .error "此 Server 已保留給另一組 TCP Ring"
  else .ok { n with distributedOwner := owner }

def releaseRing (n : Node) (owner : String) : Node :=
  { n with distributedOwner := if n.distributedOwner = owner then "" else n.distributedOwner }

end Node

def validateRingProfile (profile : Profile) : Option String :=
  if profile.runtime ≠ runtimeMLXServer ∨ profile.runtimeVariant ≠ "" then some "TCP Ring 需要 mlx-server 啟動參數"
  else if profile.extraArgs.any fun arg =>
      hasPrefix arg "--distributed-" || hasPrefix arg "--mtp-draft" || hasPrefix arg "--dflash-draft" ||
        hasPrefix arg "--mmproj" || hasPrefix arg "--model-type" then
    some "TCP Ring 自動設定模型與節點，請由模型選擇器指定 Draft，移除手動分散式及路徑參數"
  else none

/-- The loop of `StartRing` over the addresses, after those in `seen`. -/
def NetEnv.checkAddresses (env : NetEnv) (seen : List String) : List String → Option String
  | [] => none
  | address :: rest =>
    let valid := match splitHostPort address with
      | none => false
      | some (host, port) => (env.hostIP host).isSome && decide (1024 ≤ atoi port ∧ atoi port ≤ 65535)
    if !valid then some "TCP Ring 位址必須是有效 IPv4 與非特權埠"
    else if address ∈ seen then some "TCP Ring 的節點端點不能重複"
    else env.checkAddresses (address :: seen) rest

/-- The error of `StartRing`, if any. -/
def NetEnv.startRing (env : NetEnv) (answers : Answers) (n : Node) (owner : String) (rank : Nat)
    (addresses : List String) (profile : Profile) : Option String :=
  if owner = "" ∨ n.distributedOwner ≠ owner ∨ addresses.length ≤ rank ∨ addresses.length < 2 ∨
      maxRingNodes < addresses.length then some "TCP Ring 保留已失效"
  else (validateRingProfile profile).or <| match answers.inspected with
    | .error err => some err
    | .ok _ => (env.checkAddresses [] addresses).or answers.started

/-! ## Control requests -/

namespace Node

/-- `knownPeerLocked`. -/
def knownPeer (n : Node) (now : Int) (id sourceIP : String) : Option Peer :=
  let inSession := (n.current.map (·.peers)).getD []
  match inSession.find? fun peer => peer.id = id && peer.ip = sourceIP with
  | some peer => some peer
  | none => n.peers.find? fun peer => peer.id = id && peer.ip = sourceIP && now - peer.lastSeen < peerLifetime

/-- The loop of `memberRank` over the members from place `i` on, after those in `seen`. -/
def rankFrom (env : NetEnv) (n : Node) (now : Int) (i : Nat) (seen : List String) (rank : Option Nat) :
    List Member → Except String (Option Nat)
  | [] => .ok rank
  | member :: rest =>
    if !validID member.id || decide (member.id ∈ seen) || decide (255 < member.name.utf8ByteSize) ||
        !env.endpointAt (joinHostPort member.ip (formatInt member.port)) member.ip then
      .error "叢集成員重複或端點格式無效"
    else if member.id = n.nodeID then
      if i = 0 ∨ member.port ≠ n.port then .error "工作節點身分不符"
      else rankFrom env n now (i + 1) (member.id :: seen) (some i) rest
    else match n.knownPeer now member.id member.ip with
      | none => .error "成員尚未完成探索，請稍後重新搜尋"
      | some peer =>
        if peer.port ≠ member.port then .error "成員尚未完成探索，請稍後重新搜尋"
        else rankFrom env n now (i + 1) (member.id :: seen) rank rest

def memberRank (env : NetEnv) (n : Node) (now : Int) (members : List Member) (sender sourceIP : String) :
    Except String Nat :=
  match members with
  | [] => .error "叢集成員或主節點位址無效"
  | first :: _ =>
    if members.length < 2 ∨ maxRingNodes < members.length ∨ n.capability.maxNodes < members.length ∨
        first.id ≠ sender ∨ first.ip ≠ sourceIP then .error "叢集成員或主節點位址無效"
    else match n.rankFrom env now 0 [] none members with
      | .error err => .error err
      | .ok none => .error "成員名單缺少本機"
      | .ok (some rank) => if rank < 1 then .error "成員名單缺少本機" else .ok rank

/-- `stopLocked` with a session, which it ends. -/
def stopSession (answers : Answers) (n : Node) (k : Nat) (session : ActiveSession) (reason : String) (notify : Bool)
    (except : Option String) : Node :=
  let n := ((n.update k fun session => { session with cancelled := true }).close session.listener).releaseRing session.id
  let n :=
    if notify then
      n.send (session.peers.filter fun peer => some peer.id ≠ except) .stop
        { sessionID := session.id, model := ⟨"", "", "", "", "", ""⟩, version := "", members := [], contextSize := 0,
          options := ⟨"", "", false, false, "", false, ""⟩, addresses := [], ready := false, stopReason := reason }
    else n
  let lastError := match notify, answers.notified with
    | true, some err => if reason = "" then "本機已停止；未回應節點將由租約回收：" ++ err else reason
    | _, _ => reason
  { n with active := none, lastError := lastError }

/-- The error of stopping is that of the manager. -/
def stopLocked (answers : Answers) (n : Node) (reason : String) (notify : Bool) (except : Option String) :
    Node × Option String :=
  match n.active, n.current with
  | some k, some session =>
    (n.stopSession answers k session (truncate reason) notify except, answers.stopped)
  | _, _ => (n, none)
where
  /-- As much of a text as 1024 bytes hold. -/
  truncate (reason : String) : String :=
    if reason.utf8ByteSize ≤ 1024 then reason
    else (reason.toList.foldl (fun (kept : String × Bool) c =>
      if kept.2 && kept.1.utf8ByteSize + c.utf8Size ≤ 1024 then (kept.1.push c, true) else (kept.1, false)) ("", true)).1

def emptyResponse : ControlResponse := ⟨"", "", none⟩

/-- The case `prepare` of `control`, for a peer that is known. -/
def prepare (env : NetEnv) (answers : Answers) (n : Node) (sender sourceIP : String) (peer : Peer)
    (request : ControlRequest) : Except String ControlResponse × Node :=
  if n.active.isSome ∨ request.version ≠ n.capability.version ∨ request.contextSize < 128 ∨
      1048576 < request.contextSize then (.error "節點忙碌、Runtime 版本不符或握手參數無效", n)
  else match n.memberRank env answers.now request.members sender sourceIP with
    | .error err => (.error err, n)
    | .ok rank =>
      if peer.modelSyncVersion ≠ 2 ∨ request.model.fingerprint.utf8ByteSize ≠ 64 ∨ request.model.path = "" then
        (.error "模型同步協定或摘要無效，請更新 Tanpopo", n)
      else if request.options.draftModel ≠ "" ∨ request.options.dflashEnabled ∨ request.options.mmproj ≠ "" ∨
          request.options.conversionConfirmationKey ≠ "" ∨
          request.options.ggufStrategy ∉ ["", "mode1", "mode2", "mode3"] then
        (.error "工作節點 Target 載入參數無效", n)
      else if request.model.mmproj ≠ "" ∧
          (containsAny request.model.mmproj "/\\" ∨ hasPrefix request.model.mmproj ".") then
        (.error "mmproj 名稱無效", n)
      else match n.reserveRing request.sessionID with
        | .error err => (.error err, n)
        | .ok n =>
          let session : ActiveSession :=
            { id := request.sessionID, members := request.members, rank := rank, role := .worker,
              phase := .synchronizing, model := request.model.path,
              addresses := List.replicate request.members.length "", peers := [peer], listener := none,
              lastLease := answers.now, profile := ⟨runtimeMLXServer, "", request.contextSize, "", []⟩,
              options := request.options, descriptor := request.model, prepareError := "", starting := false,
              cancelled := false }
          (.ok { emptyResponse with phase := some .synchronizing },
            { n.activate session with jobs := n.jobs ++ [⟨n.sessions.length, .stopPrevious⟩] })

/-- The loop of `arm` over the addresses from place `i` on. -/
def addressesMatch (env : NetEnv) (session : ActiveSession) (i : Nat) (seen : List String) : List String → Bool
  | [] => true
  | address :: rest =>
    if address ∈ seen ∨ !env.endpointAt address (((session.members[i]?).map (·.ip)).getD "") ∨
        (i = session.rank ∧ some address ≠ session.addresses[i]?) then false
    else addressesMatch env session (i + 1) (address :: seen) rest

def arm (env : NetEnv) (answers : Answers) (n : Node) (k : Nat) (session : ActiveSession) (request : ControlRequest) :
    Except String ControlResponse × Node :=
  if session.role ≠ .worker ∨ session.phase ≠ .prepared ∨ request.addresses.length ≠ session.members.length then
    (.error "TCP Ring 啟動狀態或節點數不符", n)
  else if !addressesMatch env session 0 [] request.addresses then (.error "TCP Ring 端點不符握手保留", n)
  else
    (.ok emptyResponse, ((n.close session.listener).update k fun session =>
      { session with addresses := request.addresses, listener := none, phase := .armed, lastLease := answers.now }).observe
        (.armed session.id request.addresses))

def commit (env : NetEnv) (answers : Answers) (n : Node) (k : Nat) (session : ActiveSession) (request : ControlRequest) :
    Except String ControlResponse × Node :=
  if session.role ≠ .worker ∨ session.phase ≠ .armed ∨ request.addresses ≠ session.addresses then
    (.error "TCP Ring 尚未完成全部端點準備，或啟動端點已變更", n)
  else
    let called := n.observe (.startRing session.id session.rank session.addresses)
    match env.startRing answers n session.id session.rank session.addresses session.profile with
    | some err => (.error err, (called.stopLocked answers err false none).1)
    | none =>
      (.ok emptyResponse, called.update k fun session =>
        { session with addresses := request.addresses, listener := none, phase := .loading, lastLease := answers.now })

def lease (answers : Answers) (n : Node) (k : Nat) (session : ActiveSession) (request : ControlRequest) :
    Except String ControlResponse × Node :=
  if session.role ≠ .worker then (.error "此節點不是工作節點", n)
  else if session.prepareError ≠ "" then (.error session.prepareError, n)
  else if session.phase ≠ .synchronizing ∧ session.phase ≠ .prepared ∧ session.phase ≠ .armed ∧
      ¬ answers.running then
    (.error "工作節點程序已結束", n)
  else
    let phase :=
      if request.ready ∧ (session.phase = .loading ∨ session.phase = .running) then Phase.running
      else session.phase
    (.ok
      { address := if session.phase = .prepared then (session.addresses[session.rank]?).getD "" else "",
        error := "", phase := some phase },
      n.update k fun session => { session with lastLease := answers.now, phase := phase })

def control (env : NetEnv) (answers : Answers) (n : Node) (sender sourceIP : String) (kind : Kind)
    (request : ControlRequest) : Except String ControlResponse × Node :=
  if answers.cancelled then (.error "context canceled", n)
  else match n.knownPeer answers.now sender sourceIP with
    | none => (.error "請先在兩端開啟探索並完成區網搜尋", n)
    | some peer =>
      if ¬ n.enabled ∨ n.closed then (.error "請先在兩端開啟探索並完成區網搜尋", n)
      else if kind = .prepare then n.prepare env answers sender sourceIP peer request
      else match n.active, n.current with
        | some k, some session =>
          if session.id ≠ request.sessionID then (.error "TCP Ring 租約不存在或屬於其他群組", n)
          else if ¬ session.peers.any fun selected => selected.id = sender && selected.ip = sourceIP then
            (.error "節點不屬於目前群組", n)
          else match kind with
            | .arm => n.arm env answers k session request
            | .commit => n.commit env answers k session request
            | .lease => n.lease answers k session request
            | .stop =>
              if 1024 < request.stopReason.utf8ByteSize then (.error "TCP Ring 停止原因過長", n)
              else
                let stopped := n.stopLocked answers request.stopReason (session.role = .coordinator) (some sender)
                (match stopped.2 with
                  | some err => .error err
                  | none => .ok emptyResponse, stopped.1)
            | _ => (.error "未知的 TCP Ring 控制命令", n)
        | _, _ =>
          if kind = .stop then (.ok emptyResponse, n) else (.error "TCP Ring 租約不存在或屬於其他群組", n)

/-- The handler of a request, after `accept`: the response and the node. -/
def handle (env : NetEnv) (answers : Answers) (n : Node) (sender sourceIP : String) (kind : Kind)
    (request : ControlRequest) : ControlResponse × Node :=
  if ¬ validID request.sessionID ∨ env.parseIPv4 sourceIP = none then
    ({ emptyResponse with error := "握手格式錯誤" }, n)
  else match n.control env answers sender sourceIP kind request with
    | (.error err, n) => ({ emptyResponse with error := err }, n)
    | (.ok response, n) => (response, n)

/-! ## What a request does -/

/-- What a request does at a node, in a few shapes. -/
inductive Controls (env : NetEnv) (answers : Answers) (n : Node) (sender sourceIP : String) (request : ControlRequest) :
    Kind → Except String ControlResponse → Node → Prop
  | refused {kind : Kind} (err : String) : (kind = .arm → err ≠ "") →
      Controls env answers n sender sourceIP request kind (.error err) n
  | nothing : Controls env answers n sender sourceIP request .stop (.ok emptyResponse) n
  | prepared (peer : Peer) (rank : Nat) (session : ActiveSession) (response : ControlResponse) :
      n.active = none → request.sessionID ≠ "" → n.distributedOwner = "" →
      n.knownPeer answers.now sender sourceIP = some peer →
      n.memberRank env answers.now request.members sender sourceIP = .ok rank →
      session.id = request.sessionID → session.members = request.members → session.rank = rank →
      session.role = .worker → session.phase = .synchronizing →
      session.addresses = List.replicate request.members.length "" → session.peers = [peer] → session.listener = none →
      session.cancelled = false →
      Controls env answers n sender sourceIP request .prepare (.ok response)
        { ({ n with distributedOwner := request.sessionID } : Node).activate session with
          jobs := n.jobs ++ [⟨n.sessions.length, .stopPrevious⟩] }
  | armed (k : Nat) (session : ActiveSession) : n.active = some k → n.sessions[k]? = some session →
      session.id = request.sessionID → (∃ peer ∈ session.peers, peer.id = sender) →
      session.role = .worker → session.phase = .prepared → request.addresses.length = session.members.length →
      addressesMatch env session 0 [] request.addresses = true →
      Controls env answers n sender sourceIP request .arm (.ok emptyResponse)
        (((n.close session.listener).update k fun session =>
          { session with addresses := request.addresses, listener := none, phase := .armed,
                         lastLease := answers.now }).observe (.armed session.id request.addresses))
  | committed (k : Nat) (session : ActiveSession) : n.active = some k → n.sessions[k]? = some session →
      session.id = request.sessionID → (∃ peer ∈ session.peers, peer.id = sender) →
      session.role = .worker → session.phase = .armed → request.addresses = session.addresses →
      Controls env answers n sender sourceIP request .commit (.ok emptyResponse)
        ((n.observe (.startRing session.id session.rank session.addresses)).update k fun session =>
          { session with addresses := request.addresses, listener := none, phase := .loading,
                         lastLease := answers.now })
  | notStarted (k : Nat) (session : ActiveSession) (err reason : String) : n.active = some k →
      n.sessions[k]? = some session → session.id = request.sessionID → (∃ peer ∈ session.peers, peer.id = sender) →
      session.role = .worker → session.phase = .armed → request.addresses = session.addresses →
      Controls env answers n sender sourceIP request .commit (.error err)
        ((n.observe (.startRing session.id session.rank session.addresses)).stopSession answers k session reason
          false none)
  | leased (k : Nat) (session : ActiveSession) (response : ControlResponse) (phase : Phase) : n.active = some k →
      n.sessions[k]? = some session → session.role = .worker →
      phase = session.phase ∨ phase = .running ∧ (session.phase = .loading ∨ session.phase = .running) →
      Controls env answers n sender sourceIP request .lease (.ok response)
        (n.update k fun session => { session with lastLease := answers.now, phase := phase })
  | stopped (k : Nat) (session : ActiveSession) (result : Except String ControlResponse) (reason : String)
      (notify : Bool) : n.active = some k → n.sessions[k]? = some session →
      Controls env answers n sender sourceIP request .stop result
        (n.stopSession answers k session reason notify (some sender))

variable {env : NetEnv} {answers : Answers} {n : Node} {k : Nat} {session : ActiveSession} {sender sourceIP : String}
  {request : ControlRequest} {peer : Peer}

theorem current_eq (hk : n.active = some k) : n.current = n.sessions[k]? := by
  rw [current, hk]
  rfl

theorem exists_of_current (h : n.current = some session) : ∃ k, n.active = some k ∧ n.sessions[k]? = some session :=
  Option.bind_eq_some_iff.1 h

theorem stopLocked_eq (hk : n.active = some k) (hsession : n.sessions[k]? = some session) (reason : String)
    (notify : Bool) (except : Option String) :
    n.stopLocked answers reason notify except =
      (n.stopSession answers k session (stopLocked.truncate reason) notify except, answers.stopped) := by
  rw [stopLocked, current_eq hk, hk, hsession]

/-- Without a session there is nothing to stop. -/
theorem stopLocked_cases (answers : Answers) (n : Node) (reason : String) (notify : Bool) (except : Option String) :
    (n.stopLocked answers reason notify except).1 = n ∨ ∃ k session text, n.active = some k ∧
      n.sessions[k]? = some session ∧
      (n.stopLocked answers reason notify except).1 = n.stopSession answers k session text notify except := by
  cases hcurrent : n.current with
  | none =>
    refine .inl ?_
    rw [stopLocked, hcurrent]
    cases n.active <;> rfl
  | some session =>
    obtain ⟨k, hk, hsession⟩ := exists_of_current hcurrent
    exact .inr ⟨k, session, stopLocked.truncate reason, hk, hsession, by rw [stopLocked_eq hk hsession]⟩

theorem reserveRing_ok {owner : String} {n' : Node} (h : n.reserveRing owner = .ok n') :
    owner ≠ "" ∧ n.distributedOwner = "" ∧ n' = { n with distributedOwner := owner } := by
  simp only [reserveRing] at h
  split at h
  · cases h
  · next hfree =>
    rw [not_or, not_not] at hfree
    exact ⟨hfree.1, hfree.2, (Except.ok.inj h).symm⟩

theorem prepare_controls (hpeer : n.knownPeer answers.now sender sourceIP = some peer) :
    Controls env answers n sender sourceIP request .prepare
      (n.prepare env answers sender sourceIP peer request).1 (n.prepare env answers sender sourceIP peer request).2 := by
  simp only [prepare]
  split
  · exact .refused _ (by simp)
  · next hready =>
    have hnone : n.active = none := by
      simp only [not_or] at hready
      simpa using hready.1
    split
    · exact .refused _ (by simp)
    · next rank hrank =>
      split
      · exact .refused _ (by simp)
      · split
        · exact .refused _ (by simp)
        · split
          · exact .refused _ (by simp)
          · split
            · exact .refused _ (by simp)
            · next n' hreserved =>
              obtain ⟨hid, howner, rfl⟩ := reserveRing_ok hreserved
              exact .prepared peer rank _ _ hnone hid howner hpeer hrank rfl rfl rfl rfl rfl rfl rfl rfl rfl

section Session
variable (hk : n.active = some k) (hsession : n.sessions[k]? = some session) (hid : session.id = request.sessionID)
  (hsender : ∃ peer ∈ session.peers, peer.id = sender)
include hk hsession hid hsender

theorem arm_controls : Controls env answers n sender sourceIP request .arm
    (n.arm env answers k session request).1 (n.arm env answers k session request).2 := by
  simp only [arm]
  split
  · exact .refused _ (by simp)
  · next hready =>
    rw [not_or, not_or, not_not, not_not, not_not] at hready
    split
    · exact .refused _ (by simp)
    · next hmatch =>
      exact .armed k session hk hsession hid hsender hready.1 hready.2.1 hready.2.2 (by simpa using hmatch)

theorem commit_controls : Controls env answers n sender sourceIP request .commit
    (n.commit env answers k session request).1 (n.commit env answers k session request).2 := by
  simp only [commit]
  split
  · exact .refused _ (by simp)
  · next hready =>
    rw [not_or, not_or, not_not, not_not, not_not] at hready
    split
    · next err _ =>
      rw [stopLocked_eq (n := n.observe _) hk hsession]
      exact .notStarted k session err _ hk hsession hid hsender hready.1 hready.2.1 hready.2.2
    · exact .committed k session hk hsession hid hsender hready.1 hready.2.1 hready.2.2

omit hid hsender in
theorem lease_controls : Controls env answers n sender sourceIP request .lease
    (n.lease answers k session request).1 (n.lease answers k session request).2 := by
  simp only [lease]
  split
  · exact .refused _ (by simp)
  · next hrole =>
    split
    · exact .refused _ (by simp)
    · split
      · exact .refused _ (by simp)
      · refine .leased k session _ _ hk hsession (not_not.1 hrole) ?_
        split
        · next hready => exact .inr ⟨rfl, hready.2⟩
        · exact .inl rfl

end Session

/-- `control` in a few shapes. -/
theorem control_controls (env : NetEnv) (answers : Answers) (n : Node) (sender sourceIP : String) (kind : Kind)
    (request : ControlRequest) :
    Controls env answers n sender sourceIP request kind
      (n.control env answers sender sourceIP kind request).1 (n.control env answers sender sourceIP kind request).2 := by
  simp only [control]
  split
  · exact .refused _ (by simp)
  · split
    · exact .refused _ (by simp)
    · next peer hpeer =>
      split
      · exact .refused _ (by simp)
      · split
        · next hkind =>
          subst hkind
          exact prepare_controls hpeer
        · split
          · next k session hk hcurrent =>
            have hsession : n.sessions[k]? = some session := by rwa [← current_eq hk]
            split
            · exact .refused _ (by simp)
            · next hid =>
              rw [not_not] at hid
              split
              · exact .refused _ (by simp)
              · next hmember =>
                have hsender : ∃ peer ∈ session.peers, peer.id = sender := by
                  rw [not_not, List.any_eq_true] at hmember
                  obtain ⟨peer, hpeer, hsame⟩ := hmember
                  rw [Bool.and_eq_true, decide_eq_true_eq] at hsame
                  exact ⟨peer, hpeer, hsame.1⟩
                split
                · exact arm_controls hk hsession hid hsender
                · exact commit_controls hk hsession hid hsender
                · exact lease_controls hk hsession
                · split
                  · exact .refused _ (by simp)
                  · rw [stopLocked_eq hk hsession]
                    exact .stopped k session _ _ _ hk hsession
                · exact .refused _ (by simp)
          · next hnone =>
            split
            · next hkind =>
              subst hkind
              exact .nothing
            · exact .refused _ (by simp)

/-- The handler does what `control` does, and says so. -/
theorem handle_controls (env : NetEnv) (answers : Answers) (n : Node) (sender sourceIP : String) (kind : Kind)
    (request : ControlRequest) :
    ∃ result, Controls env answers n sender sourceIP request kind result
        (n.handle env answers sender sourceIP kind request).2 ∧
      ((n.handle env answers sender sourceIP kind request).1.error = "" →
        result = .error "" ∨ ∃ response, result = .ok response) := by
  have hcontrols := control_controls env answers n sender sourceIP kind request
  simp only [handle]
  split
  · exact ⟨.error "握手格式錯誤", .refused _ (by simp), fun h => absurd h (by simp)⟩
  · split
    · next err n' heq =>
      rw [heq] at hcontrols
      exact ⟨.error err, hcontrols, fun h => .inl (congrArg Except.error h)⟩
    · next response n' heq =>
      rw [heq] at hcontrols
      exact ⟨.ok response, hcontrols, fun _ => .inr ⟨response, rfl⟩⟩

end Node

end Tanpopo.Cluster.Ring
