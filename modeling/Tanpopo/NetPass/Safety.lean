import Tanpopo.NetPass.Server
import Tanpopo.Session.Runs
/-!
# The tunnel and its preconditions

A tunnel is exposed when it runs without the authentication of the
administrator, or without a key for the API. The two conditions are followed
separately: whoever brings one about stops the tunnel, or has its status
checked, before the handler is over.
-/

namespace Tanpopo.NetPass

open Go Handler

/-- The administrator has to log in. -/
def State.Authenticated (s : State) : Prop := s.sessions.store.authenticationEnabled = true

/-- The API is guarded by a key. -/
def State.Keyed (s : State) : Prop := s.accessControl.Secured

/-- A client runs although the guard is down. -/
def Exposed (guard : State → Prop) (s : State) : Prop := s.netPass.status.running = true ∧ ¬ guard s

def Tidy (s : State) : Prop := s.netPass.Inv

section
variable {env : Env} {c : Call} {choice : Choice} {s s' : State} {r : Ret c}

/-! ## What a call can do -/

theorem exec_tidy (hs : Tidy s) (h : exec env c choice s = some (r, s')) : Tidy s' := by
  cases c with
  | lockCredentials =>
    simp only [exec] at h
    split at h
    · nomatch h
    · obtain ⟨-, rfl⟩ := Prod.mk.inj (Option.some.inj h)
      exact hs
  | updateConfig update =>
    obtain ⟨-, rfl⟩ := Prod.mk.inj (Option.some.inj h)
    have hsame := updateConfig_process env.parseURL s.netPass update choice.configFault
    exact hs.congr hsame.1 hsame.2.1 hsame.2.2
  | start =>
    obtain ⟨-, rfl⟩ := Prod.mk.inj (Option.some.inj h)
    exact hs.start choice.launch
  | stop =>
    obtain ⟨-, rfl⟩ := Prod.mk.inj (Option.some.inj h)
    exact hs.shutdown choice.kill
  | _ =>
    obtain ⟨-, rfl⟩ := Prod.mk.inj (Option.some.inj h)
    exact hs

/-- Only `Start` starts a client. -/
theorem exec_running (hs : Tidy s) (h : exec env c choice s = some (r, s')) (hc : c ≠ .start)
    (hrunning : s'.netPass.status.running = true) : s.netPass.status.running = true := by
  cases c with
  | lockCredentials =>
    simp only [exec] at h
    split at h
    · nomatch h
    · obtain ⟨-, rfl⟩ := Prod.mk.inj (Option.some.inj h)
      exact hrunning
  | updateConfig update =>
    obtain ⟨-, rfl⟩ := Prod.mk.inj (Option.some.inj h)
    exact (updateConfig_process env.parseURL s.netPass update choice.configFault).1 ▸ hrunning
  | start => exact (hc rfl).elim
  | stop =>
    obtain ⟨-, rfl⟩ := Prod.mk.inj (Option.some.inj h)
    by_contra hidle
    have hnone : s.netPass.command = none := by
      rw [← Option.not_isSome_iff_eq_none, ← hs.running]
      exact hidle
    have hsame : (s.netPass.shutdown choice.kill).2 = s.netPass := by rw [Manager.shutdown, hnone]
    exact hidle (hsame ▸ hrunning)
  | _ =>
    obtain ⟨-, rfl⟩ := Prod.mk.inj (Option.some.inj h)
    exact hrunning

/-- The authentication is only changed to what the answer says. -/
theorem updateSecurityWith_authenticated (env : Env) (s : State) (choice : Choice) (disable : Bool) (account password : String) :
    let result := s.updateSecurityWith env choice disable account password
    result.2.sessions.store.authenticationEnabled = s.sessions.store.authenticationEnabled ∨
    ∃ updated, result.1 = .ok updated ∧ result.2.sessions.store.authenticationEnabled = !updated.disableAuthentication := by
  simp only [State.updateSecurityWith]
  generalize updateAgentSecurity choice.agentConfig choice.agentFault disable account password (password ≠ "") = updated
  have hcases := Session.updateSecurityWith_cases env.session s.sessions
    (updated.map fun value => ⟨!value.disableAuthentication, value.defaultAccount, value.defaultPassword⟩)
    choice.sessionFault choice.restoreFault
  simp only [Session.World.step] at hcases
  rcases hcases with ⟨-, hkept⟩ | ⟨security, hcommit, hok, hnext⟩
  · left
    rcases hkept with hkept | hkept | hkept <;> rw [hkept]
    · rw [Session.written_store]
    · simp only [Session.World.cleared, Session.written_store, Session.World.setRemembered]
  · right
    obtain ⟨value, rfl, rfl⟩ := map_ok_inv hcommit
    refine ⟨value, ?_, by rw [hnext]⟩
    cases hresult : (s.sessions.updateSecurityWith env.session (Except.map _ (.ok value)) choice.sessionFault
      choice.restoreFault).1 with
    | error err =>
      rw [hresult] at hok
      cases hok
    | ok => rfl

/-- A call that does not change the settings. -/
def Call.Mild : Call → Prop
  | .updateSecurityWith _ _ _ | .updatePolicy _ => False
  | _ => True

/-- A mild call does not lower the guard. -/
def Stands (env : Env) (guard : State → Prop) : Prop :=
  ∀ (c : Call) (choice : Choice) (s s' : State) (r : Ret c), c.Mild → exec env c choice s = some (r, s') → guard s → guard s'

theorem stands_authenticated (env : Env) : Stands env State.Authenticated := by
  intro c choice s s' r hc h hs
  cases c with
  | lockCredentials =>
    simp only [exec] at h
    split at h
    · nomatch h
    · obtain ⟨-, rfl⟩ := Prod.mk.inj (Option.some.inj h)
      exact hs
  | updateSecurityWith => exact hc.elim
  | _ =>
    obtain ⟨-, rfl⟩ := Prod.mk.inj (Option.some.inj h)
    exact hs

theorem stands_keyed (env : Env) : Stands env State.Keyed := by
  intro c choice s s' r hc h hs
  cases c with
  | lockCredentials =>
    simp only [exec] at h
    split at h
    · nomatch h
    · obtain ⟨-, rfl⟩ := Prod.mk.inj (Option.some.inj h)
      exact hs
  | updatePolicy => exact hc.elim
  | issueKey name =>
    have hcases := issueKey_cases env.access s.accessControl name choice.fresh choice.accessFault
    obtain ⟨-, rfl⟩ := Prod.mk.inj (Option.some.inj h)
    rcases hcases with ⟨err, heq⟩ | ⟨record, issued, heq⟩ <;> rw [State.Keyed, heq]
    · exact hs
    · exact ⟨hs.1, List.append_ne_nil_of_right_ne_nil _ (List.cons_ne_nil _ _)⟩
  | revokeKey id =>
    have hcases := revokeKey_cases s.accessControl id choice.accessFault
    obtain ⟨-, rfl⟩ := Prod.mk.inj (Option.some.inj h)
    rcases hcases with ⟨err, heq⟩ | ⟨keys, hlast, heq⟩ <;> rw [State.Keyed, heq]
    · exact hs
    · exact ⟨hs.1, fun hnil => hlast ⟨hs.1, hnil⟩⟩
  | _ =>
    obtain ⟨-, rfl⟩ := Prod.mk.inj (Option.some.inj h)
    exact hs

theorem Stands.exposed {guard : State → Prop} (hguard : Stands env guard) (hc : c.Mild) (hne : c ≠ .start)
    (hs : Tidy s) (h : exec env c choice s = some (r, s')) (hexposed : Exposed guard s') : Exposed guard s :=
  ⟨exec_running hs h hne hexposed.1, fun hg => hexposed.2 (hguard c choice s s' r hc h hg)⟩

end

/-! ## Who stops the tunnel -/

/-- The handler stops a tunnel that is exposed before it is over. -/
abbrev Stops {α : Type} (env : Env) (guard : State → Prop) (h : Handler Ret α) : Prop :=
  h.Ends (exec env) Choice.Terminates Tidy (Exposed guard)

/-- The handler stops a tunnel that it exposes. -/
abbrev Careful {α : Type} (env : Env) (guard : State → Prop) (h : Handler Ret α) : Prop :=
  h.Answers (exec env) Choice.Terminates Tidy (Exposed guard)

/-- A guard that is only lowered by settings whose answer says so, and that the
check of the status watches. -/
structure Guard (env : Env) (guard : State → Prop) : Prop where
  stands : Stands env guard
  security : ∀ (s : State) (choice : Choice) (disable : Bool) (account password : String),
    let result := s.updateSecurityWith env choice disable account password
    Exposed guard result.2 → Exposed guard s ∨ ∃ updated, result.1 = .ok updated ∧ updated.disableAuthentication = true
  policy : ∀ (s : State) (value : Policy) (fault : Option String),
    let result := s.accessControl.updatePolicy env.access value fault
    Exposed guard { s with accessControl := result.2 } →
      Exposed guard s ∨ ∃ view, result.1 = .ok view ∧ view.policy.apiKeyEnabled = false
  checked : Stops env guard netPassStatus

section
variable {env : Env} {guard : State → Prop} {α : Type}

theorem stops_stop (next : Except String Unit → Handler Ret α) : Stops env guard (.call .stop next) := by
  refine Ends.of_call fun choice s r s' hends hs h hexposed => ?_
  cases h
  have hstopped := Manager.Inv.stopped hs hends
  rw [hexposed.1] at hstopped
  nomatch hstopped

/-- What was read of the guards says that the tunnel has to be stopped. -/
theorem stops_stopUnlessReady : Stops env guard (stopUnlessReady false) := by
  intro choice s r s' hends hs hexposed h hexposed'
  cases h
  have hrunning : (s.netPass.status.running && !false) = true := by rw [hexposed.1]; rfl
  show Stops env guard (if (s.netPass.status.running && !false) = true then _ else _)
  rw [if_pos hrunning]
  exact stops_stop _

theorem stops_netPassStatus_authenticated : Stops env State.Authenticated netPassStatus := by
  intro choice s r s' _ _ hexposed h _
  cases h
  have hoff : s.sessions.store.authenticationEnabled = false := eq_false_of_ne_true hexposed.2
  rw [hoff]
  exact fun _ _ _ _ _ _ _ _ _ => stops_stopUnlessReady.bind

theorem stops_netPassStatus_keyed : Stops env State.Keyed netPassStatus := by
  intro choice s enabled s' _ _ _ _ _ choice₁ s₁ view s₁' _ _ hexposed h _
  cases h
  have hoff : (s₁.accessControl.publicView.policy.apiKeyEnabled && decide (0 < s₁.accessControl.publicView.keys.length)) =
      false := by
    rw [publicView_apiKeyEnabled, length_publicView, Bool.and_eq_false_imp]
    intro henabled
    refine decide_eq_false fun hlt => hexposed.2 ⟨henabled, ?_⟩
    rintro hnil
    rw [hnil] at hlt
    exact Nat.lt_irrefl 0 hlt
  have hready : (enabled && (s₁.accessControl.publicView.policy.apiKeyEnabled &&
      decide (0 < s₁.accessControl.publicView.keys.length))) = false := by rw [hoff, Bool.and_false]
  show Stops env State.Keyed (stopUnlessReady (enabled && (s₁.accessControl.publicView.policy.apiKeyEnabled &&
    decide (0 < s₁.accessControl.publicView.keys.length))) >>= _)
  rw [hready]
  exact stops_stopUnlessReady.bind

theorem guard_authenticated (env : Env) : Guard env State.Authenticated where
  stands := stands_authenticated env
  security := by
    intro s choice disable account password result hexposed
    rcases updateSecurityWith_authenticated env s choice disable account password with
      hkept | ⟨updated, hok, hchanged⟩
    · refine .inl ⟨hexposed.1, fun hs => hexposed.2 ?_⟩
      rw [State.Authenticated, hkept]
      exact hs
    · refine .inr ⟨updated, hok, ?_⟩
      have hoff := eq_false_of_ne_true hexposed.2
      rwa [hchanged, Bool.not_eq_false'] at hoff
  policy := fun _ _ _ hexposed => .inl hexposed
  checked := stops_netPassStatus_authenticated

theorem guard_keyed (env : Env) : Guard env State.Keyed where
  stands := stands_keyed env
  security := fun _ _ _ _ _ hexposed => .inl hexposed
  policy := by
    intro s value fault result hexposed
    rcases updatePolicy_cases env.access s.accessControl value fault with ⟨err, heq⟩ | ⟨policy, hkeys, heq⟩
    · have hsame : result.2 = s.accessControl := by rw [show result = _ from heq]
      rw [hsame] at hexposed
      exact .inl hexposed
    · have hnew : result.2 = { s.accessControl with policy } := by rw [show result = _ from heq]
      refine Classical.or_iff_not_imp_left.2 fun hsafe => ⟨_, by rw [show result = _ from heq], ?_⟩
      rw [publicView_apiKeyEnabled]
      refine eq_false_of_ne_true fun henabled => hexposed.2 ?_
      rw [State.Keyed, hnew]
      exact ⟨henabled, fun hnil => hkeys ⟨henabled, hnil⟩⟩
  checked := stops_netPassStatus_keyed

/-! ## Every handler is careful -/

theorem careful_done (a : α) : Careful env guard (Handler.done a) := trivial

theorem Guard.call (hguard : Guard env guard) {c : Call} {next : Ret c → Handler Ret α} (hc : c.Mild) (hne : c ≠ .start)
    (hnext : ∀ r, Careful env guard (next r)) : Careful env guard (.call c next) :=
  Answers.of_call (fun _ _ _ _ _ hs h hexposed => hguard.stands.exposed hc hne hs h hexposed) hnext

theorem Guard.stopUnlessReady (hguard : Guard env guard) (ready : Bool) : Careful env guard (stopUnlessReady ready) := by
  refine hguard.call trivial nofun fun status => ?_
  show Careful env guard (if (status.running && !ready) = true then _ else _)
  split
  · exact hguard.call trivial nofun fun _ => hguard.call trivial nofun fun _ => careful_done _
  · exact careful_done _

theorem Guard.netPassStatus (hguard : Guard env guard) : Careful env guard netPassStatus :=
  hguard.call trivial nofun fun _ => hguard.call trivial nofun fun _ =>
    (hguard.stopUnlessReady _).bind fun _ => careful_done _

theorem Guard.showNetPassStatus (hguard : Guard env guard) : Careful env guard showNetPassStatus :=
  hguard.netPassStatus.bind fun _ => careful_done _

theorem Guard.startNetPass (hguard : Guard env guard) : Careful env guard startNetPass := by
  intro choice s r s' _ hs h
  constructor
  · intro hsafe hexposed
    rcases start_cases s.netPass choice.launch with ⟨hrunning, -, -⟩ | ⟨pid, status, -, hok, -, -, -⟩
    · refine (hsafe ⟨?_, fun hg => hexposed.2 (hguard.stands .start choice s s' r trivial h hg)⟩).elim
      obtain ⟨-, rfl⟩ := Prod.mk.inj (Option.some.inj h)
      exact hrunning ▸ hexposed.1
    · obtain ⟨rfl, rfl⟩ := Prod.mk.inj (Option.some.inj h)
      rw [hok]
      exact hguard.checked.bind
  · cases r with
    | error => exact careful_done _
    | ok => exact hguard.showNetPassStatus

theorem Guard.handleNetPassStart (hguard : Guard env guard) (accept : Bool) : Careful env guard (handleNetPassStart accept) := by
  unfold NetPass.handleNetPassStart
  split
  · exact careful_done _
  · refine hguard.netPassStatus.bind fun security => ?_
    split
    · exact careful_done _
    · exact hguard.startNetPass

theorem Guard.commitCredentials (hguard : Guard env guard) (request : CredentialsRequest) :
    Careful env guard (commitCredentials request) := by
  intro choice s r s' _ _ h
  constructor
  · intro hsafe hexposed
    obtain ⟨rfl, rfl⟩ : (s.updateSecurityWith env choice (!request.authenticationEnabled) request.account request.password).1 = r ∧
      (s.updateSecurityWith env choice (!request.authenticationEnabled) request.account request.password).2 = s' :=
      Prod.mk.inj (Option.some.inj h)
    rcases hguard.security s choice _ _ _ hexposed with hbefore | ⟨updated, hok, hdisabled⟩
    · exact (hsafe hbefore).elim
    · rw [hok]
      show Stops env guard (if updated.disableAuthentication = true then _ else _)
      rw [if_pos hdisabled]
      exact stops_stop _
  · cases r with
    | error => exact hguard.call trivial nofun fun _ => careful_done _
    | ok updated =>
      show Careful env guard (if updated.disableAuthentication = true then _ else _)
      split
      · exact hguard.call trivial nofun fun _ => hguard.call trivial nofun fun _ => careful_done _
      · exact hguard.call trivial nofun fun _ => careful_done _

theorem Guard.unlocked (hguard : Guard env guard) (reply : Reply) : Careful env guard (unlocked reply) :=
  hguard.call trivial nofun fun _ => careful_done _

theorem Guard.checkCredentials (hguard : Guard env guard) (request : CredentialsRequest) (enabled : Bool) :
    Careful env guard (checkCredentials request enabled) := by
  unfold NetPass.checkCredentials
  split
  · exact hguard.unlocked _
  split
  · exact hguard.unlocked _
  · exact hguard.commitCredentials request

theorem Guard.verifyCredentials (hguard : Guard env guard) (request : CredentialsRequest) (enabled only : Bool) :
    Careful env guard (verifyCredentials request enabled only) := by
  unfold NetPass.verifyCredentials
  split
  · refine hguard.call trivial nofun fun verified => ?_
    show Careful env guard (if (!verified) = true then _ else _)
    split
    · exact hguard.unlocked _
    · exact hguard.checkCredentials request enabled
  · exact hguard.checkCredentials request enabled

theorem Guard.disablingAuthenticationOnly (hguard : Guard env guard) (request : CredentialsRequest) (enabled : Bool) :
    Careful env guard (disablingAuthenticationOnly request enabled) := by
  unfold NetPass.disablingAuthenticationOnly
  split
  · exact hguard.call trivial nofun fun _ => careful_done _
  · exact careful_done _

theorem Guard.handleAdminCredentialsUpdate (hguard : Guard env guard) (request : CredentialsRequest) :
    Careful env guard (handleAdminCredentialsUpdate request) := by
  unfold NetPass.handleAdminCredentialsUpdate
  dsimp only
  split
  · exact careful_done _
  · exact hguard.call trivial nofun fun _ => hguard.call trivial nofun fun enabled =>
      (hguard.disablingAuthenticationOnly _ enabled).bind fun only => hguard.verifyCredentials _ enabled only

theorem Guard.handleAccessControlUpdate (hguard : Guard env guard) (request : Policy) :
    Careful env guard (handleAccessControlUpdate request) := by
  intro choice s r s' _ _ h
  constructor
  · intro hsafe hexposed
    obtain ⟨rfl, rfl⟩ := Prod.mk.inj (Option.some.inj h)
    rcases hguard.policy s request choice.accessFault hexposed with hbefore | ⟨view, hok, hdisabled⟩
    · exact (hsafe hbefore).elim
    · rw [hok]
      show Stops env guard (if (!view.policy.apiKeyEnabled) = true then _ else _)
      rw [if_pos (by rw [hdisabled]; rfl)]
      exact stops_stop _
  · cases r with
    | error => exact careful_done _
    | ok view =>
      show Careful env guard (if (!view.policy.apiKeyEnabled) = true then _ else _)
      split
      · exact hguard.call trivial nofun fun _ => careful_done _
      · exact careful_done _

theorem Guard.handleAccessKeyRevoke (hguard : Guard env guard) (id : String) :
    Careful env guard (handleAccessKeyRevoke id) := by
  refine hguard.call trivial nofun fun result => ?_
  cases result with
  | error => exact careful_done _
  | ok =>
    refine hguard.call trivial nofun fun view => ?_
    show Careful env guard (if view.keys.length = 0 then _ else _)
    split
    · exact hguard.call trivial nofun fun _ => careful_done _
    · exact careful_done _

theorem Guard.handle (hguard : Guard env guard) (request : Request) : Careful env guard (handle request) := by
  cases request with
  | malformed => exact careful_done _
  | netPassStatus => exact hguard.showNetPassStatus
  | netPassConfig request =>
    refine hguard.call trivial nofun fun result => ?_
    cases result with
    | error => exact careful_done _
    | ok => exact hguard.showNetPassStatus
  | netPassStart accept => exact hguard.handleNetPassStart accept
  | netPassStop =>
    refine hguard.call trivial nofun fun result => ?_
    cases result with
    | error => exact careful_done _
    | ok => exact hguard.showNetPassStatus
  | adminCredentials request => exact hguard.handleAdminCredentialsUpdate request
  | accessControl request => exact hguard.handleAccessControlUpdate request
  | accessKeyIssue name =>
    refine hguard.call trivial nofun fun result => ?_
    cases result <;> exact careful_done _
  | accessKeyRevoke id => exact hguard.handleAccessKeyRevoke id
  | shutdown => exact hguard.call trivial nofun fun _ => careful_done _

theorem keeps_tidy (env : Env) : (service env).Keeps Choice.Terminates Tidy where
  call := fun _ _ _ _ _ _ hs h => exec_tidy hs h
  event := by
    intro e s s' hs h
    obtain ⟨netPass, hevent, rfl⟩ := Option.map_eq_some_iff.1 h
    exact Manager.Inv.event hs hevent

theorem Guard.guards (hguard : Guard env guard) (hevent : ∀ (s : State) (m : Manager), guard s → guard { s with netPass := m }) :
    (service env).Guards Choice.Terminates Tidy (Exposed guard) where
  keeps := keeps_tidy env
  handle := hguard.handle
  event := by
    intro e s s' hs h hexposed
    obtain ⟨netPass, he, rfl⟩ := Option.map_eq_some_iff.1 h
    exact ⟨event_running he hexposed.1, fun hg => hexposed.2 (hevent s netPass hg)⟩

/-! ## The tunnel -/

/-- At most one client runs. When no handler is in progress a client runs only
behind a login and behind a key. -/
theorem tunnel_safe (env : Env) (sessions : Session.World) (accessControl : AccessStore)
    (loaded : Except String (Option Config)) {moves : List (Move Request Choice Event)} {sys : System State Ret Reply}
    (hrun : Run ((service env).Step Choice.Terminates) ⟨.new env sessions accessControl loaded, []⟩ moves sys) :
    sys.state.netPass.processes.length ≤ 1 ∧
    (sys.Quiet → sys.state.netPass.processes ≠ [] → sys.state.sessions.store.authenticationEnabled = true ∧
      sys.state.accessControl.policy.apiKeyEnabled = true ∧ sys.state.accessControl.keys ≠ []) := by
  have hidle := newManager_idle env.parseURL loaded
  have hnew : Tidy (State.new env sessions accessControl loaded) := hidle.1
  have htidy : Tidy sys.state := (keeps_tidy env).run hrun hnew
  have hnot : ∀ guard, ¬ Exposed guard (State.new env sessions accessControl loaded) := by
    intro guard hexposed
    have hrunning : (newManager env.parseURL loaded).status.running = true := hexposed.1
    rw [hidle.2] at hrunning
    nomatch hrunning
  constructor
  · rcases htidy.processes with hempty | ⟨pid, -, hsingle⟩
    · rw [hempty]
      exact Nat.zero_le 1
    · rw [hsingle]
      exact Nat.le_refl 1
  · intro hquiet hprocess
    -- a client that runs is the one the status tells of
    have hrunning : sys.state.netPass.status.running = true := by
      rcases htidy.processes with hempty | ⟨pid, hcommand, -⟩
      · exact (hprocess hempty).elim
      · rw [htidy.running, hcommand, Option.isSome_some]
    have hauth := ((guard_authenticated env).guards fun _ _ hg => hg).run hnew (hnot _) hrun hquiet
    have hkeyed := ((guard_keyed env).guards fun _ _ hg => hg).run hnew (hnot _) hrun hquiet
    have hsecured : sys.state.Keyed := not_not.1 fun hg => hkeyed ⟨hrunning, hg⟩
    exact ⟨not_not.1 fun hg => hauth ⟨hrunning, hg⟩, hsecured.1, hsecured.2⟩

end

/-! A client that is started behind both guards keeps running. -/

def sampleEnv : Env where
  session := ⟨fun _ => List.replicate 32 0, fun _ _ => [], fun _ => 0, fun _ => List.length_replicate⟩
  access := ⟨fun _ => [], some, some⟩
  parseURL := fun _ => some ⟨"https", "host", false⟩

def sampleChoice : Choice where
  agentConfig := .error ""
  agentFault := none
  sessionFault := none
  restoreFault := none
  accessFault := none
  fresh := ⟨.error "", .error "", 0⟩
  configFault := none
  launch := ⟨.ok "NetPassClient", none, none, .ok 7⟩
  kill := .ended none

def sampleState : State :=
  .new sampleEnv ⟨Session.newStore "root" "root" 1 true, none⟩ ⟨⟨true, false, []⟩, [⟨"id", "name", "olk_", "", 0⟩]⟩
    (.ok (some ⟨"https://host", "key", ""⟩))

/-- The request, and the calls of its handler: three to check, one to start, three to check again. -/
def sampleMoves : List (Move Request Choice Event) :=
  .accept (.netPassStart true) :: List.replicate 7 (.advance 0 sampleChoice)

theorem sample_tunnel_safe : ∃ sys, sampleMoves.foldlM (service sampleEnv).step ⟨sampleState, []⟩ = some sys ∧
    sys.Quiet ∧ sys.state.netPass.processes = [7] ∧ sys.state.sessions.store.authenticationEnabled = true ∧
    sys.state.accessControl.policy.apiKeyEnabled = true ∧ sys.state.accessControl.keys ≠ [] := by
  have hview : (sampleMoves.foldlM (service sampleEnv).step ⟨sampleState, []⟩).map
      (fun sys => (sys.handlers.map Handler.inProgress, sys.state.netPass.processes)) = some ([false], [7]) := by
    decide +kernel
  obtain ⟨sys, hsys, hval⟩ := Option.map_eq_some_iff.1 hview
  obtain ⟨hprogress, hprocesses⟩ := Prod.mk.inj hval
  have hquiet : sys.Quiet := by
    intro h hmem
    have hin := List.mem_map_of_mem (f := Handler.inProgress) hmem
    rw [hprogress] at hin
    exact List.mem_singleton.1 hin
  have hok : ∀ move ∈ sampleMoves, move.Allowed Choice.Terminates := by
    intro move hmem
    rcases List.mem_cons.1 hmem with rfl | hmem
    · exact trivial
    · rw [List.eq_of_mem_replicate hmem]
      exact trivial
  have hsafe := tunnel_safe sampleEnv _ _ _ (Service.run_of_foldlM hok hsys)
  exact ⟨sys, hsys, hquiet, hprocesses, hsafe.2 hquiet (by rw [hprocesses]; exact List.cons_ne_nil _ _)⟩

end Tanpopo.NetPass
