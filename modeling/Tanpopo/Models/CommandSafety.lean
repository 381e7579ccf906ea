import Tanpopo.Models.Restore
import Tanpopo.Models.Service
/-!
# The startup command of a running model

A restart looks up the startup command of the model that ran. A deletion looks
at the status before it removes the command, and a start reads the command
before it launches the model, so either can act on what is no longer true.
-/

namespace Tanpopo.Models

open Go Download

/-- The startup command of a running model exists. -/
def State.Resolvable (s : State) : Prop := s.manager.running = true → s.commands.Has s.manager.status.startupCommandID

instance (s : State) : Decidable s.Resolvable := inferInstanceAs (Decidable (_ → _))

/-- A deletion that happens is not that of the command of the running model. -/
def SparesRunning (s : State) (id : String) (choice : Choice) : Prop :=
  s.manager.running = true → s.commands.Deletes id choice.commandsFault → s.manager.status.startupCommandID ≠ trimSpace id

/-- A start that gets to the process. -/
def Manager.Launches (m : Manager) (launch : Launch) (args : StartArguments) : Prop :=
  m.distributedOwner = "" ∧ m.running = false ∧
    (launched launch.host launch.settings launch.moment args).isOk = true

/-- A command that is launched is still in the store. -/
def LaunchesStored (s : State) (args : StartArguments) (choice : Choice) : Prop :=
  s.manager.Launches choice.launch args → s.commands.Has args.startupCommand.id

/-- What has to hold when a handler makes its next call. -/
def CallMeets (s : State) (choice : Choice) : Call → Prop
  | .deleteCommand id => SparesRunning s id choice
  | .start args => LaunchesStored s args choice
  | _ => True

/-- What has to hold when the move is made. -/
def Meets (sys : System State Ret Reply) : Move Request Choice Exit → Prop
  | .advance i choice =>
    match sys.handlers[i]? with
    | some (.call c _) => CallMeets sys.state choice c
    | _ => True
  | _ => True

section
variable {c : Call} {choice : Choice} {s s' : State} {r : Ret c}

/-! ## The manager -/

theorem launched_inv {host : Host} {settings : Settings} {moment : Moment} {args : StartArguments} {q : Prepared}
    {started : Started} (h : launched host settings moment args = .ok (q, started)) :
    ∃ p, Starts host settings moment args p q started := by
  unfold launched at h
  obtain ⟨p, hp, h⟩ := bind_ok_inv h
  obtain ⟨q', hq, h⟩ := bind_ok_inv h
  obtain ⟨_, hc, h⟩ := bind_ok_inv h
  obtain ⟨started', hl, h⟩ := bind_ok_inv h
  obtain ⟨rfl, rfl⟩ := Prod.mk.inj (Except.ok.inj h)
  exact ⟨p, hp, hq, hc, hl⟩

/-- A start launches the command of its arguments, or changes nothing. -/
theorem managerStart_cases (m : Manager) (launch : Launch) (args : StartArguments) (fault : Option String) :
    (¬ m.Launches launch args ∧ (m.start launch args fault).2 = m) ∨
    (m.Launches launch args ∧ (m.start launch args fault).2.running = true ∧
      (m.start launch args fault).2.status.startupCommandID = args.startupCommand.id) := by
  unfold Manager.start
  by_cases howner : m.distributedOwner ≠ ""
  · rw [if_pos howner]
    exact .inl ⟨fun h => howner h.1, rfl⟩
  rw [if_neg howner]
  by_cases hrunning : m.running = true
  · rw [if_pos hrunning]
    refine .inl ⟨fun h => ?_, rfl⟩
    rw [h.2.1] at hrunning
    nomatch hrunning
  rw [if_neg hrunning]
  cases hlaunched : launched launch.host launch.settings launch.moment args with
  | error e =>
    refine .inl ⟨fun h => ?_, rfl⟩
    have hok := h.2.2
    rw [hlaunched] at hok
    nomatch hok
  | ok pair =>
    obtain ⟨q, started⟩ := pair
    have hlaunches : m.Launches launch args := ⟨not_not.1 howner, eq_false_of_ne_true hrunning, by rw [hlaunched]; rfl⟩
    obtain ⟨p, hstarts⟩ := launched_inv hlaunched
    obtain ⟨_, _, _, hcommand⟩ := hstarts.command
    have hid : (statusOf args q started).startupCommandID = args.startupCommand.id := by
      rw [statusOf, hcommand]
    dsimp only
    generalize statusOf args q started = status at hid ⊢
    generalize persistStatusLocked status fault = saved
    cases saved with
    | error => exact .inr ⟨hlaunches, rfl, hid⟩
    | ok => exact .inr ⟨hlaunches, rfl, hid⟩

/-- Nothing else makes a model run, or runs it with another command. -/
theorem stop_running (m : Manager) (ends : Bool) (fault : Option String) : (m.stop ends fault).2.running = true →
    m.running = true ∧ (m.stop ends fault).2.status.startupCommandID = m.status.startupCommandID := by
  unfold Manager.stop
  generalize persistStatusLocked { m.status with desiredRunning := false } fault = saved
  cases saved with
  | error => exact fun h => ⟨h, rfl⟩
  | ok =>
    dsimp only
    split
    · exact fun h => ⟨h, rfl⟩
    · cases ends with
      | true => exact fun h => nomatch h
      | false => exact fun h => ⟨h, rfl⟩

theorem exit_running {m m' : Manager} {e : Exit} (he : m.event e = some m') (h : m'.running = true) :
    m.running = true ∧ m'.status = m.status := by
  cases e with
  | exit =>
    simp only [Manager.event] at he
    split at he
    · obtain rfl := Option.some.inj he
      exact ⟨h, rfl⟩
    · nomatch he
  | wait =>
    simp only [Manager.event] at he
    split at he
    · obtain rfl := Option.some.inj he
      nomatch h
    · nomatch he

/-! ## One call -/

/-- A call keeps the command of a running model exactly when it meets the condition. -/
theorem exec_resolvable_iff (hs : s.Resolvable) (h : exec c choice s = some (r, s')) :
    s'.Resolvable ↔ CallMeets s choice c := by
  cases c with
  | createCommand command =>
    obtain ⟨-, rfl⟩ := Prod.mk.inj (Option.some.inj h)
    exact iff_of_true (fun hrunning => create_has command _ _ _ (hs hrunning)) trivial
  | updateCommand id command =>
    obtain ⟨-, rfl⟩ := Prod.mk.inj (Option.some.inj h)
    exact iff_of_true (fun hrunning => update_has id command _ _ (hs hrunning)) trivial
  | deleteCommand id =>
    obtain ⟨-, rfl⟩ := Prod.mk.inj (Option.some.inj h)
    -- Only a deletion takes a command away, and only that of the running one matters.
    show (s.manager.running = true → _) ↔ (s.manager.running = true → _)
    refine forall_congr' fun hrunning => ?_
    rcases delete_cases s.commands id choice.commandsFault with ⟨hnot, heq⟩ | ⟨hdeletes, heq⟩
    · exact iff_of_true (by rw [heq]; exact hs hrunning) fun hdeletes => (hnot hdeletes).elim
    · rw [heq, has_filter]
      exact ⟨fun hhas _ => hhas.2, fun hne => ⟨hs hrunning, hne hdeletes⟩⟩
  | start args =>
    obtain ⟨-, rfl⟩ := Prod.mk.inj (Option.some.inj h)
    rcases managerStart_cases s.manager choice.launch args choice.stateFault with
      ⟨hnot, heq⟩ | ⟨hlaunches, hrunning, hid⟩
    · refine iff_of_true ?_ fun hlaunches => (hnot hlaunches).elim
      rw [State.Resolvable, heq]
      exact hs
    · rw [State.Resolvable, hid]
      exact ⟨fun hhas _ => hhas hrunning, fun hhas _ => hhas hlaunches⟩
  | stop =>
    obtain ⟨-, rfl⟩ := Prod.mk.inj (Option.some.inj h)
    -- What still runs after a stop ran before it, with the same command.
    have hstop := stop_running s.manager choice.ends choice.stateFault
    refine iff_of_true ?_ trivial
    unfold State.Resolvable
    dsimp only
    generalize (s.manager.stop choice.ends choice.stateFault).2 = manager at hstop ⊢
    intro hrunning
    obtain ⟨hbefore, hid⟩ := hstop hrunning
    rw [hid]
    exact hs hbefore
  | _ =>
    obtain ⟨-, rfl⟩ := Prod.mk.inj (Option.some.inj h)
    exact iff_of_true hs trivial

/-! ## Runs -/

theorem step_resolvable_iff {sys sys' : System State Ret Reply} {move : Move Request Choice Exit} (hs : sys.state.Resolvable)
    (h : service.step sys move = some sys') : sys'.state.Resolvable ↔ Meets sys move := by
  obtain ⟨request, rfl, rfl⟩ | ⟨i, choice, c, next, r, state, rfl, hget, hperform, rfl⟩ | ⟨e, state, rfl, hevent, rfl⟩ :=
    Service.step_cases h
  · exact iff_of_true hs trivial
  · simp only [Meets, hget]
    exact exec_resolvable_iff hs hperform
  · refine iff_of_true (fun hrunning => ?_) trivial
    obtain ⟨manager, he, rfl⟩ := Option.map_eq_some_iff.1 hevent
    obtain ⟨hbefore, hstatus⟩ := exit_running he hrunning
    rw [hstatus]
    exact hs hbefore

/-- The moves of the service. -/
def Moves (sys : System State Ret Reply) (move : Move Request Choice Exit) (sys' : System State Ret Reply) : Prop :=
  service.step sys move = some sys'

end

/-! ## Commands that are lost -/

def spareCommand : StartupCommand := { mlxCommand with id := "spare", name := "Spare" }

/-- Two commands, and no model that runs. -/
def idleState : State where
  commands := ⟨[⟨mlxCommand, "0.0.0.0", 8080, -1, 0, 0, 0, 0⟩, ⟨spareCommand, "0.0.0.0", 8080, -1, 0, 0, 0, 0⟩]⟩
  manager := ⟨"", false, { visionState with desiredRunning := false }, false, none, false, false⟩

/-- Nothing fails. -/
def plainChoice : Choice where
  now := 0
  randomBytes := .ok []
  commandsFault := none
  variant := .ok ()
  calibration := ⟨false, fun _ _ => none⟩
  launch := ⟨smallHost, smallSettings, calm, 7⟩
  stateFault := none
  cluster := .ok ()
  ends := true

def gemmaRequest : StartRequest :=
  ⟨"gguf:gemma.gguf", "", "", false, false, false, false, true, "", "mlx", true, none⟩

/-- The start reads the command, it is deleted, the start launches it. -/
def raceMoves : List (Move Request Choice Exit) :=
  [.accept (.start gemmaRequest), .advance 0 plainChoice, .accept (.deleteCommand "mlx"), .advance 1 plainChoice,
    .advance 1 plainChoice, .advance 0 plainChoice]

/-- The start is over before the deletion, whose id has a space before it. -/
def paddedMoves : List (Move Request Choice Exit) :=
  [.accept (.start gemmaRequest), .advance 0 plainChoice, .advance 0 plainChoice, .advance 0 plainChoice,
    .accept (.deleteCommand " mlx"), .advance 1 plainChoice, .advance 1 plainChoice]

/-- Only a start. -/
def startMoves : List (Move Request Choice Exit) := paddedMoves.take 4

end Tanpopo.Models
