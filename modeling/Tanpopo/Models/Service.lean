import Tanpopo.Lib.Handlers
import Tanpopo.Models.Commands
import Tanpopo.Models.RuntimeState
/-!
# The handlers of models and startup commands

A start reads the command it was asked for, may tune it, and asks the manager
to launch it. A deletion asks the manager first and the store afterwards. The
store and the manager have locks of their own, and no lock spans both.
-/

namespace Tanpopo.Models

open Go Download

/-! ## The manager -/

/-- `status` is what the status says of the model, `running` whether it runs. -/
structure Manager where
  distributedOwner : String
  running : Bool
  status : RuntimeState
  calibrationApplied : Bool
  command : Option Nat
  exited : Bool
  stopping : Bool

/-- The stages of a start up to the process. -/
def launched (host : Host) (settings : Settings) (moment : Moment) (args : StartArguments) :
    Except String (Prepared × Started) := do
  let prepared ← prepare host settings args
  let p ← protect host settings moment.memory args.model args.mmproj prepared
  preflight host moment.inspect settings args p.command
  let started ← launch host settings args p
  return (p, started)

/-- `fault` is the error of the file. -/
def persistStatusLocked (status : RuntimeState) (fault : Option String) : Except String Unit := do
  let _ ← save status
  match fault with
  | some err => .error err
  | none => .ok ()

/-- What the machine answers to a start. -/
structure Launch where
  host : Host
  settings : Settings
  moment : Moment
  pid : Nat

def Manager.start (m : Manager) (launch : Launch) (args : StartArguments) (fault : Option String) :
    Except String RuntimeState × Manager :=
  if m.distributedOwner ≠ "" then (.error "此 Server 已保留給 TCP Ring，請先停止叢集服務", m)
  else if m.running then (.error "模型服務已在執行中；請先停止目前模型", m)
  else match launched launch.host launch.settings launch.moment args with
    | .error e => (.error e, m)
    | .ok (p, started) =>
      let status := statusOf args p started
      let m := { m with
        running := true, status, calibrationApplied := false, command := some launch.pid, exited := false, stopping := false }
      match persistStatusLocked status fault with
      | .error err =>
        (.error ("保存模型服務狀態失敗，已取消啟動: " ++ err),
          { m with status := { status with desiredRunning := false }, stopping := true })
      | .ok () => (.ok status, m)

/-- `wait` once the process has ended. -/
def Manager.wait (m : Manager) : Manager :=
  { m with running := false, command := none, exited := false, stopping := false }

/-- `Stop`; `ends` says whether the process ends in time. -/
def Manager.stop (m : Manager) (ends : Bool) (fault : Option String) : Except String Unit × Manager :=
  match persistStatusLocked { m.status with desiredRunning := false } fault with
  | .error err => (.error ("保存停止狀態失敗: " ++ err), m)
  | .ok () =>
    let m := { m with status := { m.status with desiredRunning := false } }
    if !m.running || m.command.isNone then (.ok (), m)
    else if ends then (.ok (), m.wait)
    else (.error "context deadline exceeded", { m with stopping := true })

/-- The process ends, and `wait` takes note of it. -/
inductive Exit
  | exit
  | wait

def Manager.event (m : Manager) : Exit → Option Manager
  | .exit => if m.command.isSome && !m.exited then some { m with exited := true } else none
  | .wait => if m.command.isSome && m.exited then some m.wait else none

/-! ## Tuning -/

structure PerformanceTuning where
  threads : Int
  batchSize : Int
  uBatchSize : Int
  prefillStepSize : Int

def errTuning : String := "效能校準參數超出安全範圍"

def validatePerformanceTuning (runtime : String) (t : PerformanceTuning) : Except String Unit :=
  if t.threads < 0 || 1024 < t.threads || t.batchSize < 0 || 8192 < t.batchSize || t.uBatchSize < 0 || 8192 < t.uBatchSize ||
      t.prefillStepSize < 0 || 8192 < t.prefillStepSize || (0 < t.batchSize && t.batchSize < t.uBatchSize) then
    .error errTuning
  else if runtime = runtimeMLXServer && (t.threads ≠ 0 || t.batchSize ≠ 0 || t.uBatchSize ≠ 0) then
    .error "mlx-server 校準只支援 Prefill Step Size"
  else if runtime = runtimeLlamaServer && t.prefillStepSize ≠ 0 then .error "llama-server 校準不支援 Prefill Step Size"
  else .ok ()

/-- Leave out these arguments with their values, and the blank ones. -/
def withoutManagedArgument (names : List String) : List String → List String
  | [] => []
  | [raw] =>
    let argument := trimSpace raw
    if names.any (isArgument argument) || argument = "" then [] else [argument]
  | raw :: value :: rest =>
    let argument := trimSpace raw
    if names.contains argument then withoutManagedArgument names rest
    else if names.any (isArgument argument) || argument = "" then withoutManagedArgument names (value :: rest)
    else argument :: withoutManagedArgument names (value :: rest)

/-- The argument with its value, if that is positive. -/
def positiveSetting (name : String) (value : Int) : List String := if 0 < value then [name, formatInt value] else []

def applyPerformanceTuning (command : StoredCommand) (t : PerformanceTuning) : StoredCommand :=
  let extraArgs :=
    if command.runtime = runtimeLlamaServer then
      withoutManagedArgument ["--batch-size", "--ubatch-size"] command.extraArgs ++
        positiveSetting "--batch-size" t.batchSize ++ positiveSetting "--ubatch-size" t.uBatchSize
    else if command.runtime = runtimeMLXServer then
      withoutManagedArgument ["--prefill-step-size"] command.extraArgs ++ positiveSetting "--prefill-step-size" t.prefillStepSize
    else command.extraArgs
  { command with threads := if 0 < t.threads then t.threads else command.threads, extraArgs }

/-! ## Calls -/

structure State where
  commands : CommandStore
  manager : Manager

/-- What the settings say about calibration: whether it is on, and the profile of a model with a command. -/
structure Calibration where
  autoCalibrationEnabled : Bool
  profile : String → StoredCommand → Option PerformanceTuning

inductive Call
  | getCommand (id : String)
  | createCommand (command : StoredCommand)
  | updateCommand (id : String) (command : StoredCommand)
  | deleteCommand (id : String)
  | validateRuntimeVariant (command : StoredCommand)
  | settings
  | status
  | start (args : StartArguments)
  | annotate (applied : Bool)
  | stopCluster
  | stop

@[reducible] def Ret : Call → Type
  | .getCommand _ => Except String StoredCommand
  | .createCommand _ => Except String StoredCommand
  | .updateCommand _ _ => Except String StoredCommand
  | .deleteCommand _ => Except String Unit
  | .validateRuntimeVariant _ => Except String Unit
  | .settings => Calibration
  | .status => Manager
  | .start _ => Except String RuntimeState
  | .annotate _ => Manager
  | .stopCluster => Except String Unit
  | .stop => Except String Unit

structure Choice where
  now : Int
  randomBytes : Except String (List UInt8)
  commandsFault : Option String
  variant : Except String Unit
  calibration : Calibration
  launch : Launch
  stateFault : Option String
  cluster : Except String Unit
  ends : Bool

def exec : (c : Call) → Choice → State → Option (Ret c × State)
  | .getCommand id, _, s => some (s.commands.get id, s)
  | .createCommand command, choice, s =>
    let result := s.commands.create command choice.randomBytes choice.now choice.commandsFault
    some (result.1, { s with commands := result.2 })
  | .updateCommand id command, choice, s =>
    let result := s.commands.update id command choice.now choice.commandsFault
    some (result.1, { s with commands := result.2 })
  | .deleteCommand id, choice, s =>
    let result := s.commands.delete id choice.commandsFault
    some (result.1, { s with commands := result.2 })
  | .validateRuntimeVariant _, choice, s => some (choice.variant, s)
  | .settings, choice, s => some (choice.calibration, s)
  | .status, _, s => some (s.manager, s)
  | .start args, choice, s =>
    let result := s.manager.start choice.launch args choice.stateFault
    some (result.1, { s with manager := result.2 })
  | .annotate applied, _, s =>
    let manager := { s.manager with calibrationApplied := applied }
    some (manager, { s with manager })
  | .stopCluster, choice, s => some (choice.cluster, s)
  | .stop, choice, s =>
    let result := s.manager.stop choice.ends choice.stateFault
    some (result.1, { s with manager := result.2 })

/-! ## Handlers -/

structure Failure where
  code : Nat
  text : String

inductive Response
  | command (command : StoredCommand)
  | manager (manager : Manager)
  | ok

abbrev Reply := Except Failure Response

def badRequest (text : String) : Reply := .error ⟨400, text⟩

/-- One call of a handler. -/
abbrev invoke (c : Call) : Handler Ret (Ret c) := Handler.perform c

structure StartRequest where
  model : String
  mmproj : String
  draftModel : String
  dflashEnabled : Bool
  mmapEnabled : Bool
  fastGGUF : Bool
  kvCacheQuantizationEnabled : Bool
  skipGGUFConversionCache : Bool
  conversionConfirmationKey : String
  startupCommandID : String
  skipSavedCalibration : Bool
  calibrationOverride : Option PerformanceTuning

def StartRequest.arguments (request : StartRequest) (command : StoredCommand) : StartArguments where
  model := request.model
  mmproj := request.mmproj
  draftModel := request.draftModel
  dflashEnabled := request.dflashEnabled
  mmapEnabled := request.mmapEnabled
  fastGGUFEnabled := request.fastGGUF
  kvCacheQuantizationEnabled := request.kvCacheQuantizationEnabled
  skipGGUFConversionCache := request.skipGGUFConversionCache
  conversionConfirmationKey := request.conversionConfirmationKey
  startupCommand := command.toStartupCommand

def launchCommand (request : StartRequest) (command : StoredCommand) (calibrationApplied : Bool) : Handler Ret Reply := do
  let result : Except String RuntimeState ← invoke (.start (request.arguments command))
  match result with
  | .error err => return badRequest err
  | .ok _ =>
    let status : Manager ← invoke (.annotate calibrationApplied)
    return .ok (.manager status)

/-- The command with the tuning of the request, or with the one that was saved. -/
def tuneCommand (request : StartRequest) (command : StoredCommand) : Handler Ret Reply :=
  match request.calibrationOverride with
  | some tuning =>
    match validatePerformanceTuning command.runtime tuning with
    | .error err => pure (badRequest err)
    | .ok () => launchCommand request (applyPerformanceTuning command tuning) false
  | none =>
    if request.skipSavedCalibration then launchCommand request command false
    else do
      let settings : Calibration ← invoke .settings
      match (if settings.autoCalibrationEnabled then settings.profile request.model command else none) with
      | some tuning => launchCommand request (applyPerformanceTuning command tuning) true
      | none => launchCommand request command false

/-- A command with a variant of the runtime needs one that is available. -/
def checkVariant (request : StartRequest) (command : StoredCommand) : Handler Ret Reply :=
  if command.runtimeVariant ≠ "" then do
    let verdict : Except String Unit ← invoke (.validateRuntimeVariant command)
    match verdict with
    | .error err => return .error ⟨409, err⟩
    | .ok () => tuneCommand request command
  else tuneCommand request command

def handleLlamaStart (request : StartRequest) : Handler Ret Reply := do
  let result : Except String StoredCommand ← invoke (.getCommand request.startupCommandID)
  match result with
  | .error err => return badRequest err
  | .ok command => checkVariant request command

def stopModel : Handler Ret Reply := do
  let result : Except String Unit ← invoke .stop
  match result with
  | .error err => return .error ⟨500, err⟩
  | .ok () =>
    let status : Manager ← invoke .status
    return .ok (.manager status)

def handleLlamaStop : Handler Ret Reply := do
  let result : Except String Unit ← invoke .stopCluster
  match result with
  | .error err => return .error ⟨500, err⟩
  | .ok () => stopModel

def errCommandInUse : String := "此啟動參數正在使用中，請先停止模型服務"

def handleStartupCommandCreate (request : StoredCommand) : Handler Ret Reply := do
  let result : Except String StoredCommand ← invoke (.createCommand request)
  match result with
  | .error err => return badRequest err
  | .ok command => return .ok (.command command)

def handleStartupCommandUpdate (id : String) (request : StoredCommand) : Handler Ret Reply := do
  let result : Except String StoredCommand ← invoke (.updateCommand id request)
  match result with
  | .error err => return badRequest err
  | .ok command => return .ok (.command command)

def deleteCommand (id : String) : Handler Ret Reply := do
  let result : Except String Unit ← invoke (.deleteCommand id)
  match result with
  | .error err => return badRequest err
  | .ok () => return .ok .ok

/-- The id is compared as it was given, and trimmed by the store. -/
def handleStartupCommandDelete (id : String) : Handler Ret Reply := do
  let status : Manager ← invoke .status
  if status.running && status.status.startupCommandID = id then return .error ⟨409, errCommandInUse⟩
  else deleteCommand id

inductive Request
  /-- A body that `decodeJSON` or the check of its runtime variant refuses. -/
  | malformed (err : String)
  | start (request : StartRequest)
  | stop
  | createCommand (request : StoredCommand)
  | updateCommand (id : String) (request : StoredCommand)
  | deleteCommand (id : String)

def handle : Request → Handler Ret Reply
  | .malformed err => .done (badRequest err)
  | .start request => handleLlamaStart request
  | .stop => handleLlamaStop
  | .createCommand request => handleStartupCommandCreate request
  | .updateCommand id request => handleStartupCommandUpdate id request
  | .deleteCommand id => handleStartupCommandDelete id

def service : Service State Ret Reply Request Choice Exit where
  perform := exec
  handle := handle
  event := fun e s => (s.manager.event e).map fun manager => { s with manager }

end Tanpopo.Models
