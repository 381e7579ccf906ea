import Tanpopo.Lib.Handlers
import Tanpopo.NetPass.AccessControl
import Tanpopo.NetPass.Manager
/-!
# The handlers around the tunnel

Each handler is a sequence of calls to the three stores it works on: the
sessions, the access control and the NetPass manager. A call holds the lock of
its store for as long as it takes and is one step; between two calls of a
handler other handlers may run. `credentialsMu` is the only lock that a handler
holds over several calls.
-/

namespace Tanpopo.NetPass

open Go

structure Env where
  session : Session.Env
  access : AccessEnv
  parseURL : String → Option Url

structure AgentConfig where
  httpPort : Int
  webPath : String
  settingsPath : String
  startupCommandsPath : String
  accessControlPath : String
  runtimeStatePath : String
  defaultAccount : String
  defaultPassword : String
  disableAuthentication : Bool
  sessionHours : Int

def validateAgent (value : AgentConfig) : Except String Unit :=
  if trimSpace value.defaultAccount = "" || value.defaultPassword = "" then .error "管理帳號與密碼不可為空"
  else if value.httpPort < 1 || 65535 < value.httpPort then .error "http_port 必須介於 1 到 65535"
  else if trimSpace value.webPath = "" || trimSpace value.settingsPath = "" || trimSpace value.startupCommandsPath = "" ||
      trimSpace value.accessControlPath = "" || trimSpace value.runtimeStatePath = "" then
    .error "web_path、settings_path、startup_commands_path、access_control_path 與 runtime_state_path 不可為空"
  else if value.sessionHours < 1 || 24 * 30 < value.sessionHours then .error "session_hours 必須介於 1 到 720"
  else .ok ()

/-- `loaded` is what `LoadAgentConfig` reads, `fault` the error of the write. -/
def updateAgentSecurity (loaded : Except String AgentConfig) (fault : Option String) (disableAuthentication : Bool)
    (account password : String) (updatePassword : Bool) : Except String AgentConfig := do
  let value ← loaded
  let value := { value with
    defaultAccount := trimSpace account
    defaultPassword := if updatePassword then password else value.defaultPassword
    disableAuthentication }
  validateAgent value
  match fault with
  | some err => .error err
  | none => .ok value

structure State where
  sessions : Session.World
  accessControl : AccessStore
  netPass : Manager
  credentialsMu : Bool

/-! ## Calls -/

inductive Call
  | lockCredentials
  | unlockCredentials
  | authenticationEnabled
  | account
  | verifyPassword (password : String)
  | updateSecurityWith (disableAuthentication : Bool) (account password : String)
  | publicView
  | updatePolicy (value : Policy)
  | issueKey (name : String)
  | revokeKey (id : String)
  | status
  | updateConfig (update : ConfigUpdate)
  | start
  | stop

@[reducible] def Ret : Call → Type
  | .lockCredentials | .unlockCredentials => Unit
  | .authenticationEnabled => Bool
  | .account => String
  | .verifyPassword _ => Bool
  | .updateSecurityWith _ _ _ => Except String AgentConfig
  | .publicView => View
  | .updatePolicy _ => Except String View
  | .issueKey _ => Except String IssuedKey
  | .revokeKey _ => Except String Unit
  | .status => Status
  | .updateConfig _ => Except String Status
  | .start => Except String Status
  | .stop => Except String Unit

/-- What the outside decides: the faults of the files, the contents of the
service's settings, a new key, the launch of a client and how a kill ends. -/
structure Choice where
  agentConfig : Except String AgentConfig
  agentFault : Option String
  sessionFault : Option String
  restoreFault : Option String
  accessFault : Option String
  fresh : Fresh
  configFault : Option String
  launch : Launch
  kill : Kill

/-- Each `Stop` ends the process. -/
def Choice.Terminates (choice : Choice) : Prop := choice.kill.Ends

instance (choice : Choice) : Decidable choice.Terminates := inferInstanceAs (Decidable choice.kill.Ends)

section
variable (env : Env)

/-- The session store with the settings as the commit. -/
def State.updateSecurityWith (s : State) (choice : Choice) (disableAuthentication : Bool) (account password : String) :
    Except String AgentConfig × State :=
  let updated := updateAgentSecurity choice.agentConfig choice.agentFault disableAuthentication account password (password ≠ "")
  let commit := updated.map fun value => ⟨!value.disableAuthentication, value.defaultAccount, value.defaultPassword⟩
  let result := s.sessions.updateSecurityWith env.session commit choice.sessionFault choice.restoreFault
  (result.1.bind fun _ => updated, { s with sessions := result.2 })

def exec : (c : Call) → Choice → State → Option (Ret c × State)
  | .lockCredentials, _, s => if s.credentialsMu then none else some ((), { s with credentialsMu := true })
  | .unlockCredentials, _, s => some ((), { s with credentialsMu := false })
  | .authenticationEnabled, _, s => some (s.sessions.store.authenticationEnabled, s)
  | .account, _, s => some (s.sessions.store.account, s)
  | .verifyPassword password, _, s =>
    some (Session.secureEqual env.session password s.sessions.store.password, s)
  | .updateSecurityWith disableAuthentication account password, choice, s =>
    some (s.updateSecurityWith env choice disableAuthentication account password)
  | .publicView, _, s => some (s.accessControl.publicView, s)
  | .updatePolicy value, choice, s =>
    let result := s.accessControl.updatePolicy env.access value choice.accessFault
    some (result.1, { s with accessControl := result.2 })
  | .issueKey name, choice, s =>
    let result := s.accessControl.issueKey env.access name choice.fresh choice.accessFault
    some (result.1, { s with accessControl := result.2 })
  | .revokeKey id, choice, s =>
    let result := s.accessControl.revokeKey id choice.accessFault
    some (result.1, { s with accessControl := result.2 })
  | .status, _, s => some (s.netPass.status, s)
  | .updateConfig update, choice, s =>
    let result := s.netPass.updateConfig env.parseURL update choice.configFault
    some (result.1, { s with netPass := result.2 })
  | .start, choice, s =>
    let result := s.netPass.start choice.launch
    some (result.1, { s with netPass := result.2 })
  | .stop, choice, s =>
    let result := s.netPass.shutdown choice.kill
    some (result.1, { s with netPass := result.2 })

end

/-! ## Handlers -/

structure Failure where
  code : Nat
  text : String

structure NetPassStatus where
  status : Status
  authenticationEnabled : Bool
  apiKeyEnabled : Bool
  accessKeyCount : Nat
  securityReady : Bool
  securityMessage : String

inductive Response
  | netPass (status : NetPassStatus)
  | credentials (account : String) (authenticationEnabled : Bool)
  | access (view : View)
  | issued (key : IssuedKey)
  | ok

abbrev Reply := Except Failure Response

def badRequest (text : String) : Reply := .error ⟨400, text⟩

def securityMessage (authenticationEnabled apiKeyEnabled : Bool) : String :=
  if !authenticationEnabled && !apiKeyEnabled then "請先開啟管理介面帳號密碼與模型 API Access Key 驗證"
  else if !authenticationEnabled then "請先開啟管理介面帳號密碼驗證"
  else if !apiKeyEnabled then "請先核發 Access Key 並開啟模型 API 金鑰驗證"
  else ""

/-- One call of a handler. -/
abbrev invoke (c : Call) : Handler Ret (Ret c) := Handler.perform c

/-- A tunnel without its protection is stopped before its status is shown. -/
def stopUnlessReady (securityReady : Bool) : Handler Ret Status := do
  let status : Status ← invoke .status
  if status.running && !securityReady then
    let _ : Except String Unit ← invoke .stop
    invoke .status
  else return status

def netPassStatus : Handler Ret NetPassStatus := do
  let authenticationEnabled : Bool ← invoke .authenticationEnabled
  let accessControl : View ← invoke .publicView
  let apiKeyEnabled := accessControl.policy.apiKeyEnabled && 0 < accessControl.keys.length
  let securityReady := authenticationEnabled && apiKeyEnabled
  let status ← stopUnlessReady securityReady
  return {
    status
    authenticationEnabled
    apiKeyEnabled
    accessKeyCount := accessControl.keys.length
    securityReady
    securityMessage := securityMessage authenticationEnabled apiKeyEnabled }

def showNetPassStatus : Handler Ret Reply := do
  return .ok (.netPass (← netPassStatus))

def handleNetPassConfigUpdate (request : ConfigUpdate) : Handler Ret Reply := do
  let result : Except String Status ← invoke (.updateConfig request)
  match result with
  | .error err => return badRequest err
  | .ok _ => showNetPassStatus

def startNetPass : Handler Ret Reply := do
  let result : Except String Status ← invoke .start
  match result with
  | .error err => return badRequest err
  | .ok _ => showNetPassStatus

def handleNetPassStart (acceptUsagePolicy : Bool) : Handler Ret Reply :=
  if !acceptUsagePolicy then pure (badRequest "請先閱讀並同意 NetPass 使用政策與責任說明")
  else do
    let security ← netPassStatus
    if !security.securityReady then return badRequest security.securityMessage
    else startNetPass

def handleNetPassStop : Handler Ret Reply := do
  let result : Except String Unit ← invoke .stop
  match result with
  | .error err => return badRequest err
  | .ok _ => showNetPassStatus

structure CredentialsRequest where
  account : String
  currentPassword : String
  password : String
  authenticationEnabled : Bool
  disableAuthenticationConfirmed : Bool

/-- The deferred unlock, after the reply is known. -/
def unlocked (reply : Reply) : Handler Ret Reply := do
  let _ : Unit ← invoke .unlockCredentials
  return reply

def commitCredentials (request : CredentialsRequest) : Handler Ret Reply := do
  let result : Except String AgentConfig ←
    invoke (.updateSecurityWith (!request.authenticationEnabled) request.account request.password)
  match result with
  | .error err => unlocked (badRequest err)
  | .ok updated =>
    let reply : Reply := .ok (.credentials updated.defaultAccount (!updated.disableAuthentication))
    if updated.disableAuthentication then
      let _ : Except String Unit ← invoke .stop
      unlocked reply
    else unlocked reply

/-- The checks of the request once the current password was accepted or is not needed. -/
def checkCredentials (request : CredentialsRequest) (currentAuthenticationEnabled : Bool) : Handler Ret Reply :=
  if currentAuthenticationEnabled && !request.authenticationEnabled && !request.disableAuthenticationConfirmed then
    unlocked (badRequest "關閉登入驗證前必須明確確認")
  else if !currentAuthenticationEnabled && request.authenticationEnabled && request.password = "" then
    unlocked (badRequest "重新啟用登入驗證時，請設定一組新密碼")
  else commitCredentials request

/-- Whether the request only disables the authentication; the account is read
when everything else says so. -/
def disablingAuthenticationOnly (request : CredentialsRequest) (currentAuthenticationEnabled : Bool) : Handler Ret Bool :=
  if currentAuthenticationEnabled && !request.authenticationEnabled && request.disableAuthenticationConfirmed &&
      request.password = "" then do
    let account : String ← invoke .account
    return request.account = account
  else pure false

def verifyCredentials (request : CredentialsRequest) (currentAuthenticationEnabled disablingOnly : Bool) :
    Handler Ret Reply :=
  if currentAuthenticationEnabled && !disablingOnly then do
    let verified : Bool ← invoke (.verifyPassword request.currentPassword)
    if !verified then unlocked (.error ⟨403, "目前密碼不正確"⟩) else checkCredentials request currentAuthenticationEnabled
  else checkCredentials request currentAuthenticationEnabled

def handleAdminCredentialsUpdate (request : CredentialsRequest) : Handler Ret Reply :=
  let request := { request with account := trimSpace request.account }
  if request.account = "" then pure (badRequest "管理帳號不可為空")
  else do
    let _ : Unit ← invoke .lockCredentials
    let currentAuthenticationEnabled : Bool ← invoke .authenticationEnabled
    let disablingOnly ← disablingAuthenticationOnly request currentAuthenticationEnabled
    verifyCredentials request currentAuthenticationEnabled disablingOnly

def handleAccessControlUpdate (request : Policy) : Handler Ret Reply := do
  let result : Except String View ← invoke (.updatePolicy request)
  match result with
  | .error err => return badRequest err
  | .ok view =>
    if !view.policy.apiKeyEnabled then
      let _ : Except String Unit ← invoke .stop
      return .ok (.access view)
    else return .ok (.access view)

def handleAccessKeyIssue (name : String) : Handler Ret Reply := do
  let result : Except String IssuedKey ← invoke (.issueKey name)
  match result with
  | .error err => return badRequest err
  | .ok issued => return .ok (.issued issued)

def handleAccessKeyRevoke (id : String) : Handler Ret Reply := do
  let result : Except String Unit ← invoke (.revokeKey id)
  match result with
  | .error err => return badRequest err
  | .ok _ =>
    let accessControl : View ← invoke .publicView
    if accessControl.keys.length = 0 then
      let _ : Except String Unit ← invoke .stop
      return .ok .ok
    else return .ok .ok

/-- The `Stop` of the goroutine that waits for the end of the context, and of `Server.Shutdown`. -/
def shutdown : Handler Ret Reply := do
  let _ : Except String Unit ← invoke .stop
  return .ok .ok

inductive Request
  /-- A body that `decodeJSON` refuses. -/
  | malformed (err : String)
  | netPassStatus
  | netPassConfig (request : ConfigUpdate)
  | netPassStart (acceptUsagePolicy : Bool)
  | netPassStop
  | adminCredentials (request : CredentialsRequest)
  | accessControl (request : Policy)
  | accessKeyIssue (name : String)
  | accessKeyRevoke (id : String)
  | shutdown

def handle : Request → Handler Ret Reply
  | .malformed err => .done (badRequest err)
  | .netPassStatus => showNetPassStatus
  | .netPassConfig request => handleNetPassConfigUpdate request
  | .netPassStart acceptUsagePolicy => handleNetPassStart acceptUsagePolicy
  | .netPassStop => handleNetPassStop
  | .adminCredentials request => handleAdminCredentialsUpdate request
  | .accessControl request => handleAccessControlUpdate request
  | .accessKeyIssue name => handleAccessKeyIssue name
  | .accessKeyRevoke id => handleAccessKeyRevoke id
  | .shutdown => shutdown

def service (env : Env) : Service State Ret Reply Request Choice Event where
  perform := exec env
  handle := handle
  event := fun e s => (s.netPass.event e).map fun netPass => { s with netPass }

/-- A server that has just started: no tunnel runs. -/
def State.new (env : Env) (sessions : Session.World) (accessControl : AccessStore)
    (loaded : Except String (Option Config)) : State where
  sessions := sessions
  accessControl := accessControl
  netPass := newManager env.parseURL loaded
  credentialsMu := false

end Tanpopo.NetPass
