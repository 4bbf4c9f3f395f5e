/-
# AudioDown.Core.Lifecycle — what else rewrites a plugin's record

The methods of `PluginManagerService` that start, stop, inspect, configure and remove an installed
plugin, the lifecycle reconciler, and what Core does when it starts.  All of them load the record, talk
to the runtime, and save the record with another status; none looks at an install operation.

A transition changes the record it was given also when it fails (`&mut record`), so it returns the
record beside its result.  Locks, active calls and failure counters live in memory and are answered by
the environment, as is `timeout`.
-/
import AudioDown.Core.Service

namespace AudioDown.Core

open Lib (mapErr)
open Supervisor

inductive PluginManagementError where
  | pluginNotFound
  | invalidPriority
  | pluginOperationInProgress
  | pluginDisabled
  | invalidRuntimeState
  | runtimeUnavailable
  | internal
deriving DecidableEq

/-- A method returning `Result<α, PluginManagementError>`. -/
abbrev ManageM := ExceptT PluginManagementError CoreProgram

/-- `.map_err(|_| error)?`. -/
def orFail {ε α : Type} (x : CoreProgram (Except ε α)) (error : PluginManagementError) : ManageM α :=
  mapErr x error

def runtimeActionFailed : String := "plugin runtime action failed"

/-- `load_plugin` of the service. -/
def getRecord (p : PluginId) : ManageM InstallPluginRecord := do
  match ← orFail (ask (.getPlugin p)) .internal with
  | some record => return record
  | none => throw .pluginNotFound

def saveAndReload (record : InstallPluginRecord) : ManageM InstallPluginRecord := do
  orFail (ask (.savePlugin record)) .internal
  getRecord record.pluginId

def recordManagementFailure (record : InstallPluginRecord) : CoreProgram Unit := do
  let now ← ask .utcNow
  let _ ← ask (.savePlugin { record with lastError := some runtimeActionFailed, updatedAt := now })

def validateRuntime (runtime : PluginRuntimeState) (p : PluginId) : Except PluginManagementError Unit :=
  if runtime.pluginId ≠ p ∨
      ¬ (runtime.status = .healthy ∨ runtime.status = .stopped ∨ runtime.status = .unhealthy) then
    .error .invalidRuntimeState
  else .ok ()

def persistRuntimeLogs (p : PluginId) : List String → ManageM Unit
  | [] => pure ()
  | log :: logs => do
    orFail (ask (.persistRuntimeLog p log)) .internal
    persistRuntimeLogs p logs

/-! ## Transitions -/

/-- What a transition returns: its result and the record as it left it. -/
abbrev Transition := CoreProgram (Except PluginManagementError Unit × InstallPluginRecord)

def stopTransition (record : InstallPluginRecord) : Transition := do
  match ← ask (.stopRuntime record.pluginId) with
  | .error _ => return (.error .runtimeUnavailable, record)
  | .ok stopped =>
    match validateRuntime stopped record.pluginId with
    | .error error => return (.error error, record)
    | .ok () =>
      if stopped.status ≠ .stopped then return (.error .invalidRuntimeState, record)
      else
        let now ← ask .utcNow
        let record := { record with
          status := inactiveStatus record.enabled, lastError := none, updatedAt := now }
        let result ← (persistRuntimeLogs record.pluginId stopped.logs).run
        return (result, record)

/-- The attempt of `rollback_started_runtime` to stop what was started. -/
def stopStarted (record : InstallPluginRecord) : Transition := do
  match ← ask (.stopRuntime record.pluginId) with
  | .error _ => return (.error .runtimeUnavailable, record)
  | .ok stopped =>
    match validateRuntime stopped record.pluginId with
    | .error error => return (.error error, record)
    | .ok () =>
      if stopped.status = .stopped then
        let now ← ask .utcNow
        let record := { record with status := inactiveStatus record.enabled, updatedAt := now }
        let result ← (persistRuntimeLogs record.pluginId stopped.logs).run
        return (result, record)
      else return (.error .invalidRuntimeState, record)

def rollbackStartedRuntime (record : InstallPluginRecord) (originalError : PluginManagementError) :
    Transition := do
  let (cleanup, record) ← stopStarted record
  let now ← ask .utcNow
  let record := { record with lastError := some runtimeActionFailed, updatedAt := now }
  match cleanup with
  | .ok () => return (.error originalError, record)
  | .error cleanupError =>
    if ¬ (record.status = .stopped ∨ record.status = .disabled) ∧ record.enabled = true then
      return (.error cleanupError, { record with status := .unhealthy })
    else return (.error cleanupError, record)

def startTransition (record : InstallPluginRecord) : Transition := do
  match ← ask (.startRuntime record.pluginId) with
  | .error _ => return (.error .runtimeUnavailable, record)
  | .ok started =>
    match validateRuntime started record.pluginId with
    | .error error => rollbackStartedRuntime record error
    | .ok () =>
      match ← (persistRuntimeLogs record.pluginId started.logs).run with
      | .error error => rollbackStartedRuntime record error
      | .ok () =>
        match ← ask (.inspectRuntime record.pluginId) with
        | .error _ => rollbackStartedRuntime record .runtimeUnavailable
        | .ok inspected =>
          match validateRuntime inspected record.pluginId with
          | .error error => rollbackStartedRuntime record error
          | .ok () =>
            if inspected.status ≠ .healthy then
              if inspected.status = .stopped then
                let now ← ask .utcNow
                return (.error .invalidRuntimeState, { record with
                  status := inactiveStatus record.enabled
                  lastError := some runtimeActionFailed, updatedAt := now })
              else rollbackStartedRuntime record .invalidRuntimeState
            else
              match ← (persistRuntimeLogs record.pluginId inspected.logs).run with
              | .error error => rollbackStartedRuntime record error
              | .ok () =>
                let now ← ask .utcNow
                return (.ok (), { record with
                  status := .healthy, lastUsedAt := some now, lastError := none, updatedAt := now })

/-! ## Management -/

/-- The lock every management call takes first. -/
def lockOperation (p : PluginId) : ManageM Unit := do
  if !(← ExceptT.lift (ask (.tryOperationLock p))) then throw .pluginOperationInProgress

def refuseActiveCalls (p : PluginId) : ManageM Unit := do
  if ← ExceptT.lift (ask (.hasActiveCalls p)) then throw .pluginOperationInProgress

/-- A transition whose failure is recorded on `failed` and leaves the method. -/
def transitionOr (transition : Transition) (failed : InstallPluginRecord → InstallPluginRecord) :
    ManageM InstallPluginRecord := do
  match ← ExceptT.lift transition with
  | (.ok (), record) => return record
  | (.error error, record) =>
    ExceptT.lift (recordManagementFailure (failed record))
    throw error

def start (p : PluginId) : ManageM InstallPluginRecord := do
  lockOperation p
  refuseActiveCalls p
  let record ← getRecord p
  if !record.enabled then throw .pluginDisabled
  let record ← transitionOr (startTransition record) id
  saveAndReload record

def stop (p : PluginId) : ManageM InstallPluginRecord := do
  lockOperation p
  refuseActiveCalls p
  let record ← getRecord p
  let record ← transitionOr (stopTransition record) id
  saveAndReload record

def inspectRuntime (p : PluginId) : ManageM InstallPluginRecord := do
  lockOperation p
  let record ← getRecord p
  match ← ExceptT.lift (ask (.inspectRuntime p)) with
  | .error _ =>
    ExceptT.lift (recordManagementFailure record)
    throw .runtimeUnavailable
  | .ok runtime =>
    ExceptT.mk (pure (validateRuntime runtime p))
    persistRuntimeLogs record.pluginId runtime.logs
    let now ← ExceptT.lift (ask .utcNow)
    saveAndReload { record with
      status := if runtime.status = .stopped then inactiveStatus record.enabled else runtime.status
      lastError := none, updatedAt := now }

/-- `UpdatePluginSettingsCommand`. -/
structure SettingsCommand where
  pluginId : PluginId
  enabled : Bool
  runMode : RunMode
  priority : Int
deriving DecidableEq

/-- The status `update_settings` saves. -/
def settingsStatus (command : SettingsCommand) (previous status : PluginStatus) : PluginStatus :=
  if !command.enabled then .disabled
  else if previous = .disabled ∧ command.runMode = .onDemand then .stopped
  else status

/-- The transition `update_settings` makes: a plugin is stopped when it gets disabled and started when
it gets to run always. -/
def settingsTransition (command : SettingsCommand) (previous : InstallPluginRecord) :
    ManageM InstallPluginRecord :=
  if !command.enabled && previous.enabled then
    transitionOr (stopTransition previous) fun _ => previous
  else if command.enabled && command.runMode = .always &&
      (!previous.enabled || previous.runMode ≠ .always) then
    transitionOr (startTransition previous) fun _ => previous
  else pure previous

/-- The end of `update_settings`. -/
def saveSettings (command : SettingsCommand) (previous record : InstallPluginRecord) :
    ManageM InstallPluginRecord := do
  let now ← ExceptT.lift (ask .utcNow)
  saveAndReload { record with
    enabled := command.enabled, runMode := command.runMode, priority := command.priority
    lastError := none, updatedAt := now
    status := settingsStatus command previous.status record.status }

def updateSettings (command : SettingsCommand) : ManageM InstallPluginRecord := do
  if !(0 ≤ command.priority && command.priority ≤ 1000) then throw .invalidPriority
  else
    lockOperation command.pluginId
    let _ ← (if !command.enabled then refuseActiveCalls command.pluginId else pure () : ManageM Unit)
    let previous ← getRecord command.pluginId
    let record ← settingsTransition command previous
    saveSettings command previous record

def uninstall (p : PluginId) : ManageM Unit := do
  lockOperation p
  refuseActiveCalls p
  let record ← getRecord p
  let record ← transitionOr (stopTransition record) id
  orFail (ask (.savePlugin record)) .internal
  let failed : ManageM Unit := do
    ExceptT.lift (recordManagementFailure record)
    throw .runtimeUnavailable
  match ← ExceptT.lift (ask (.removeRuntime p)) with
  | .error _ => failed
  | .ok removed =>
    if removed.pluginId ≠ p || !removed.removedImage || !removed.removedInstallDirectory then failed
    else orFail (ask (.deletePlugin p)) .internal

/-! ## The lifecycle reconciler -/

inductive ReconcileOutcome where
  | started
  | stopped
  | skippedBusy
  | failed
  | noop
deriving DecidableEq

/-- `num_seconds` of a duration in nanoseconds. -/
def numSeconds (duration : Int) : Int := duration.tdiv 1000000000

/-- A reconciled plugin's record is saved, or the attempt counts as failed. -/
def saveOr (record : InstallPluginRecord) (outcome : CoreProgram ReconcileOutcome) :
    CoreProgram ReconcileOutcome := do
  match ← ask (.savePlugin record) with
  | .error _ => return .failed
  | .ok () => outcome

/-- The branch of `try_reconcile_plugin` for `RunMode::Always`. -/
def reconcileAlways (record : InstallPluginRecord) : CoreProgram ReconcileOutcome := do
  let p := record.pluginId
  if record.status = .healthy then
    ask (.resetAutomaticStartFailures p)
    return .noop
  else if (← ask (.automaticStartFailureCount p)) ≥ 3 then return .noop
  else
    match ← startTransition record with
    | (.ok (), record) =>
      saveOr record do
        ask (.resetAutomaticStartFailures p)
        return .started
    | (.error _, record) =>
      let failures ← ask (.incrementAutomaticStartFailures p)
      let now ← ask .utcNow
      let _ ← ask (.savePlugin { record with
        lastError := some runtimeActionFailed, updatedAt := now
        status := if failures ≥ 3 then .unhealthy else record.status })
      return .failed

/-- The branch for `RunMode::OnDemand`. -/
def reconcileOnDemand (record : InstallPluginRecord) (now : Timestamp) (idleTimeout : Nat) :
    CoreProgram ReconcileOutcome := do
  let p := record.pluginId
  if record.status ≠ .healthy then return .noop
  else if ← ask (.hasActiveCalls p) then return .noop
  else if numSeconds (now - record.lastUsedAt.getD record.updatedAt) <
      min (idleTimeout : Int) (2 ^ 63 - 1) then
    return .noop
  else
    match ← stopTransition record with
    | (.ok (), record) => saveOr record (pure .stopped)
    | (.error _, record) =>
      recordManagementFailure record
      return .failed

def tryReconcilePlugin (p : PluginId) (now : Timestamp) (idleTimeout : Nat) :
    CoreProgram ReconcileOutcome := do
  if !(← ask (.tryOperationLock p)) then return .skippedBusy
  else
    match ← (getRecord p).run with
    | .error _ => return .failed
    | .ok record =>
      if !record.enabled || record.status = .installing then return .noop
      else
        match record.runMode with
        | .always => reconcileAlways record
        | .onDemand => reconcileOnDemand record now idleTimeout

/-- `reconcile_due_plugins`, with the outcomes the report counts. -/
def reconcileDuePlugins (now : Timestamp) (idleTimeout : Nat) : ManageM (List ReconcileOutcome) := do
  let records ← orFail (ask .listInstallRecords) .internal
  let pluginIds := (records.map InstallPluginRecord.pluginId).insertionSort (· ≤ ·)
  ExceptT.lift (reconcileEach pluginIds)
where
  reconcileEach : List PluginId → CoreProgram (List ReconcileOutcome)
    | [] => return []
    | p :: pluginIds => do
      let outcome ← tryReconcilePlugin p now idleTimeout
      let outcomes ← reconcileEach pluginIds
      return outcome :: outcomes

/-! ## Starting Core -/

def recordCleanupFailure (record : InstallPluginRecord) : CoreProgram Unit := do
  let now ← ask .utcNow
  let _ ← ask (.savePlugin { record with
    status :=
      if ¬ (record.status = .stopped ∨ record.status = .disabled) then
        if record.enabled then .unhealthy else .disabled
      else record.status
    lastError := some runtimeActionFailed, updatedAt := now })

def cleanupRuntimeForRecord (listed : InstallPluginRecord) : ManageM Unit := do
  let p := listed.pluginId
  lockOperation p
  if ← ExceptT.lift (ask (.hasActiveCalls p)) then
    ExceptT.lift (recordCleanupFailure listed)
    throw .pluginOperationInProgress
  let record ← getRecord p
  if ← ExceptT.lift (ask .timesOut) then throw .runtimeUnavailable
  match ← ExceptT.lift (stopTransition record) with
  | (.error error, record) =>
    ExceptT.lift (recordCleanupFailure record)
    throw error
  | (.ok (), record) =>
    orFail (ask (.savePlugin { record with status := inactiveStatus record.enabled })) .internal

/-- The loop of `cleanup_all_runtimes`; the result counts the failures. -/
def cleanupEach : List InstallPluginRecord → CoreProgram Nat
  | [] => return 0
  | record :: records => do
    if record.status = .installing then cleanupEach records
    else
      let result ← (cleanupRuntimeForRecord record).run
      let failures ← cleanupEach records
      return (match result with | .ok () => failures | .error _ => failures + 1)

def cleanupAllRuntimes : ManageM Nat := do
  let records ← orFail (ask .listInstallRecords) .internal
  ExceptT.lift (cleanupEach (records.insertionSort fun a b => a.pluginId ≤ b.pluginId))

/-- What `main` does before Core listens.  It gives up if a runtime could not be cleaned up; what
reconciliation answers is only logged.  The result says whether it goes on. -/
def startUp : CoreProgram Bool := do
  match ← cleanupAllRuntimes.run with
  | .ok 0 =>
    let _ ← reconcileInstallOperations.run
    return true
  | _ => return false

end AudioDown.Core
