import Tanpopo.Lib.Go
/-!
# The NetPass manager

The manager runs at most one NetPassClient. `Start` starts the process under
the lock of the status, `Shutdown` kills it and waits for `wait`, which takes
note of the end of the process. The processes are part of the model: one may
end at any time, and `wait` follows later.
-/

namespace Tanpopo.NetPass

open Go

structure Config where
  endpoint : String
  apiKey : String
  name : String
  deriving DecidableEq

structure ConfigUpdate where
  endpoint : String
  apiKey : String
  clearAPIKey : Bool
  name : String

structure Status where
  runtimeChecked : Bool
  available : Bool
  running : Bool
  connected : Bool
  endpoint : String
  apiKeySet : Bool
  name : String
  pid : Nat
  clientID : String
  publicURL : String
  lastError : String
  deriving DecidableEq

/-- `processes` are the clients that run, `command` is the one the manager started. -/
structure Manager where
  ctxErr : Option String
  config : Config
  status : Status
  command : Option Nat
  stopping : Bool
  processes : List Nat
  deriving DecidableEq

structure Url where
  scheme : String
  host : String
  hasUser : Bool

def defaultEndpoint : String := "https://netpass.mars-cloud.com"

/-! ## Settings -/

def isNameEnd (c : Char) : Bool := c.isAlphanum
def isNameChar (c : Char) : Bool := c.isAlphanum || c = '.' || c = '_' || c = '-'

/-- `namePattern`. -/
def matchesNamePattern (name : String) : Bool :=
  3 ≤ name.length && name.length ≤ 64 && (name.toList.head?.any isNameEnd) && (name.toList.getLast?.any isNameEnd) &&
    name.toList.all isNameChar

/-- `parse` is `url.Parse`. -/
def normalizeConfig (parse : String → Option Url) (value : Config) : Except String Config :=
  let endpoint := trimRight (trimSpace value.endpoint) '/'
  let name := trimSpace value.name
  let value : Config := { endpoint := if endpoint = "" then defaultEndpoint else endpoint, apiKey := trimSpace value.apiKey, name }
  let accepted := match parse value.endpoint with
    | none => false
    | some url => (url.scheme = "http" || url.scheme = "https") && url.host ≠ "" && !url.hasUser
  if !accepted then .error "NetPass Server URL 僅支援不含帳密的 http 或 https 網址"
  else if value.name ≠ "" && !matchesNamePattern value.name then
    .error "裝置名稱須為 3–64 個英數字元，可包含句點、底線與連字號"
  else .ok value

def Manager.syncConfigStatusLocked (m : Manager) : Manager :=
  { m with status := { m.status with
    endpoint := m.config.endpoint, apiKeySet := trimSpace m.config.apiKey ≠ "", name := m.config.name } }

def Manager.updateConfig (parse : String → Option Url) (m : Manager) (update : ConfigUpdate) (fault : Option String) :
    Except String Status × Manager :=
  if m.status.running then (.error "請先停止 NetPass 連線，再修改設定", m)
  else
    let apiKey :=
      if update.clearAPIKey then ""
      else if trimSpace update.apiKey ≠ "" then trimSpace update.apiKey else m.config.apiKey
    match normalizeConfig parse ⟨update.endpoint, apiKey, update.name⟩ with
    | .error err => (.error err, m)
    | .ok value =>
      match fault with
      | some err => (.error ("保存 NetPass 設定失敗: " ++ err), m)
      | none =>
        let m := ({ m with config := value, status := { m.status with lastError := "" } } : Manager).syncConfigStatusLocked
        (.ok m.status, m)

def emptyStatus : Status where
  runtimeChecked := false
  available := false
  running := false
  connected := false
  endpoint := ""
  apiKeySet := false
  name := ""
  pid := 0
  clientID := ""
  publicURL := ""
  lastError := ""

/-- `loaded` is the file of settings as `load` reads it: `none` when there is none. -/
def newManager (parse : String → Option Url) (loaded : Except String (Option Config)) : Manager :=
  let m : Manager := ⟨none, ⟨defaultEndpoint, "", ""⟩, emptyStatus, none, false, []⟩
  let m := match loaded with
    | .error err => { m with status := { m.status with lastError := err } }
    | .ok none => m
    | .ok (some value) =>
      match normalizeConfig parse value with
      | .error err => { m with status := { m.status with lastError := err } }
      | .ok config => { m with config }
  m.syncConfigStatusLocked

/-! ## The process -/

/-- What the machine answers while a client is started. -/
structure Launch where
  binary : Except String String
  runtimeDir : Option String
  clientConfig : Option String
  process : Except String Nat

/-- The status of a client that has just started. -/
def Status.started (status : Status) (pid : Nat) : Status :=
  { status with running := true, connected := false, pid, clientID := "", publicURL := "", lastError := "" }

def Manager.start (m : Manager) (launch : Launch) : Except String Status × Manager :=
  match m.ctxErr with
  | some err => (.error err, m)
  | none =>
    if m.stopping then (.error "NetPassClient 仍在停止中", m)
    else if m.status.running then (.ok m.status, m)
    else if trimSpace m.config.apiKey = "" then (.error "請先設定 NetPass API Key", m)
    else match launch.binary with
      | .error err =>
        (.error err, { m with status := { m.status with runtimeChecked := true, available := false, lastError := err } })
      | .ok _ =>
        let m := { m with status := { m.status with runtimeChecked := true, available := true } }
        match launch.runtimeDir with
        | some err => (.error ("建立 NetPass 工作目錄失敗: " ++ err), m)
        | none =>
          match launch.clientConfig with
          | some err => (.error ("建立 NetPassClient 設定失敗: " ++ err), m)
          | none =>
            match launch.process with
            | .error err =>
              let text := "啟動 NetPassClient 失敗: " ++ err
              (.error text, { m with status := { m.status with lastError := text } })
            | .ok pid =>
              let m : Manager := { m with
                command := some pid, stopping := false, processes := pid :: m.processes, status := m.status.started pid }
              let m := m.syncConfigStatusLocked
              (.ok m.status, m)

/-- `wait` once the process has ended; `err` is the error of `command.Wait`. -/
def Manager.wait (m : Manager) (err : Option String) : Manager :=
  let lastError := match err with
    | some text => if m.ctxErr = none ∧ !m.stopping then "NetPassClient 已停止: " ++ text else m.status.lastError
    | none => m.status.lastError
  { m with
    stopping := false
    command := none
    status := { m.status with running := false, connected := false, pid := 0, clientID := "", publicURL := "", lastError } }

/-- How a kill ends: it fails, or the process ends in time, or not. -/
inductive Kill
  | failed (err : String)
  | ended (err : Option String)
  | late (err : String)

/-- `Shutdown`, up to the end of `wait` or of the context. -/
def Manager.shutdown (m : Manager) (kill : Kill) : Except String Unit × Manager :=
  match m.command with
  | none => (.ok (), m)
  | some pid =>
    let m := { m with stopping := true }
    match kill with
    | .failed err => (.error ("停止 NetPassClient 失敗: " ++ err), m)
    | .ended err => (.ok (), ({ m with processes := m.processes.erase pid } : Manager).wait err)
    | .late err => (.error err, m)

/-- What happens without a request: a client ends, `wait` takes note of it, a
line of output changes what is known of the connection, the context ends. -/
inductive Event
  | exit (pid : Nat)
  | wait (err : Option String)
  | output (clientID publicURL lastError : String) (connected : Bool)
  | cancel (err : String)

def Manager.event (m : Manager) : Event → Option Manager
  | .exit pid => if pid ∈ m.processes then some { m with processes := m.processes.erase pid } else none
  | .wait err =>
    match m.command with
    | none => none
    | some pid => if pid ∈ m.processes then none else some (m.wait err)
  | .output clientID publicURL lastError connected =>
    some { m with status := { m.status with clientID, publicURL, lastError, connected } }
  | .cancel err => some { m with ctxErr := some err }

/-! ## One client -/

/-- The status is up to date, and no client runs but the one that was started. -/
structure Manager.Inv (m : Manager) : Prop where
  running : m.status.running = m.command.isSome
  processes : m.processes = [] ∨ ∃ pid, m.command = some pid ∧ m.processes = [pid]

section
variable {m : Manager}

@[simp] theorem syncConfigStatusLocked_running : m.syncConfigStatusLocked.status.running = m.status.running := rfl
@[simp] theorem syncConfigStatusLocked_command : m.syncConfigStatusLocked.command = m.command := rfl
@[simp] theorem syncConfigStatusLocked_processes : m.syncConfigStatusLocked.processes = m.processes := rfl

theorem Manager.Inv.congr {m' : Manager} (h : m.Inv) (hrunning : m'.status.running = m.status.running)
    (hcommand : m'.command = m.command) (hprocesses : m'.processes = m.processes) : m'.Inv := by
  constructor
  · rw [hrunning, hcommand, h.running]
  · rw [hcommand, hprocesses]
    exact h.processes

theorem newManager_idle (parse : String → Option Url) (loaded : Except String (Option Config)) :
    (newManager parse loaded).Inv ∧ (newManager parse loaded).status.running = false := by
  have hidle : ∀ m : Manager, m.status.running = false → m.command = none → m.processes = [] →
      m.syncConfigStatusLocked.Inv ∧ m.syncConfigStatusLocked.status.running = false := by
    intro m hrunning hcommand hprocesses
    refine ⟨⟨?_, .inl hprocesses⟩, hrunning⟩
    rw [syncConfigStatusLocked_running, syncConfigStatusLocked_command, hrunning, hcommand, Option.isSome_none]
  simp only [newManager]
  split
  · exact hidle _ rfl rfl rfl
  · exact hidle _ rfl rfl rfl
  · split <;> exact hidle _ rfl rfl rfl

/-- The settings do not concern the process. -/
theorem updateConfig_process (parse : String → Option Url) (m : Manager) (update : ConfigUpdate) (fault : Option String) :
    let m' := (m.updateConfig parse update fault).2
    m'.status.running = m.status.running ∧ m'.command = m.command ∧ m'.processes = m.processes := by
  simp only [Manager.updateConfig]
  split
  · exact ⟨rfl, rfl, rfl⟩
  split
  · exact ⟨rfl, rfl, rfl⟩
  · cases fault <;> exact ⟨rfl, rfl, rfl⟩

/-- Only a manager without a client starts one. -/
theorem start_cases (m : Manager) (launch : Launch) :
    let m' := (m.start launch).2
    (m'.status.running = m.status.running ∧ m'.command = m.command ∧ m'.processes = m.processes) ∨
    ∃ pid status, m.status.running = false ∧ (m.start launch).1 = .ok status ∧ m'.status.running = true ∧
      m'.command = some pid ∧ m'.processes = pid :: m.processes := by
  simp only [Manager.start]
  split
  · exact .inl ⟨rfl, rfl, rfl⟩
  split
  · exact .inl ⟨rfl, rfl, rfl⟩
  split
  · exact .inl ⟨rfl, rfl, rfl⟩
  · next hrunning =>
    split
    · exact .inl ⟨rfl, rfl, rfl⟩
    cases launch.binary with
    | error => exact .inl ⟨rfl, rfl, rfl⟩
    | ok =>
      cases launch.runtimeDir with
      | some => exact .inl ⟨rfl, rfl, rfl⟩
      | none =>
        cases launch.clientConfig with
        | some => exact .inl ⟨rfl, rfl, rfl⟩
        | none =>
          cases launch.process with
          | error => exact .inl ⟨rfl, rfl, rfl⟩
          | ok pid => exact .inr ⟨pid, _, eq_false_of_ne_true hrunning, rfl, rfl, rfl, rfl⟩

theorem Manager.Inv.start (h : m.Inv) (launch : Launch) : (m.start launch).2.Inv := by
  rcases start_cases m launch with ⟨hrunning, hcommand, hprocesses⟩ |
    ⟨pid, status, hidle, -, hrunning, hcommand, hprocesses⟩
  · exact h.congr hrunning hcommand hprocesses
  · -- without a command there is no process
    have hnone : m.command = none := by
      rw [← Option.not_isSome_iff_eq_none, ← h.running, hidle]
      exact Bool.false_ne_true
    have hempty : m.processes = [] := by
      rcases h.processes with hempty | ⟨_, hsome, _⟩
      · exact hempty
      · rw [hnone] at hsome
        nomatch hsome
    constructor
    · rw [hrunning, hcommand, Option.isSome_some]
    · exact .inr ⟨pid, hcommand, by rw [hprocesses, hempty]⟩

theorem Manager.Inv.erase (h : m.Inv) (pid : Nat) : ({ m with processes := m.processes.erase pid } : Manager).Inv where
  running := h.running
  processes := by
    rcases h.processes with hempty | ⟨p, hp, hsingle⟩
    · exact .inl (by simp only [hempty, List.erase_nil])
    · by_cases heq : p = pid
      · exact .inl (by simp only [hsingle, heq, List.erase_cons_head])
      · exact .inr ⟨p, hp, by rw [hsingle, List.erase_cons_tail (by rwa [beq_iff_eq]), List.erase_nil]⟩

/-- Once the process that was started has ended no client runs. -/
theorem Manager.Inv.wait (h : m.Inv) {pid : Nat} (hcommand : m.command = some pid) (hended : pid ∉ m.processes)
    (err : Option String) : (m.wait err).Inv where
  running := rfl
  processes := by
    rcases h.processes with hempty | ⟨p, hp, hsingle⟩
    · exact .inl hempty
    · obtain rfl := Option.some.inj (hp.symm.trans hcommand)
      rw [hsingle] at hended
      exact (hended (List.mem_singleton_self p)).elim

theorem Manager.Inv.shutdown (h : m.Inv) (kill : Kill) : (m.shutdown kill).2.Inv := by
  unfold Manager.shutdown
  split
  · exact h
  · next pid hcommand =>
    have hstopping : ({ m with stopping := true } : Manager).Inv := h.congr rfl rfl rfl
    cases kill with
    | failed => exact hstopping
    | late => exact hstopping
    | ended err =>
      refine (hstopping.erase pid).wait hcommand ?_ err
      rcases h.processes with hempty | ⟨p, hp, hsingle⟩
      · simp only [hempty, List.erase_nil, List.not_mem_nil, not_false_eq_true]
      · obtain rfl := Option.some.inj (hp.symm.trans hcommand)
        simp only [hsingle, List.erase_cons_head, List.not_mem_nil, not_false_eq_true]

theorem Manager.Inv.event (h : m.Inv) {e : Event} {m' : Manager} (he : m.event e = some m') : m'.Inv := by
  cases e with
  | exit pid =>
    simp only [Manager.event] at he
    split at he
    · cases he
      exact h.erase pid
    · nomatch he
  | wait err =>
    simp only [Manager.event] at he
    split at he
    · nomatch he
    · next pid hcommand =>
      split at he
      · nomatch he
      · next hended =>
        cases he
        exact h.wait hcommand hended err
  | output =>
    cases he
    exact h.congr rfl rfl rfl
  | cancel =>
    cases he
    exact h.congr rfl rfl rfl

/-- Nothing but `Start` makes the status say that a client runs. -/
theorem event_running {e : Event} {m' : Manager} (he : m.event e = some m') (h : m'.status.running = true) :
    m.status.running = true := by
  cases e with
  | exit pid =>
    simp only [Manager.event] at he
    split at he
    · cases he
      exact h
    · nomatch he
  | wait err =>
    simp only [Manager.event] at he
    split at he
    · nomatch he
    · split at he
      · nomatch he
      · cases he
        nomatch h
  | output =>
    cases he
    exact h
  | cancel =>
    cases he
    exact h

/-- The kill ends the process. -/
def Kill.Ends : Kill → Prop
  | .ended _ => True
  | _ => False

instance : DecidablePred Kill.Ends
  | .failed _ => isFalse id
  | .ended _ => isTrue trivial
  | .late _ => isFalse id

theorem Manager.Inv.stopped (h : m.Inv) {kill : Kill} (hkill : kill.Ends) : (m.shutdown kill).2.status.running = false := by
  unfold Manager.shutdown
  split
  · next hcommand => rw [h.running, hcommand, Option.isSome_none]
  · cases kill with
    | failed => exact hkill.elim
    | late => exact hkill.elim
    | ended => rfl

end
end Tanpopo.NetPass
