/-
# AudioDown.Core.Service — Core's side of an installation

The methods of `PluginManagerService` that install a plugin and reconcile unfinished installations, as
programs over the calls Core makes: its own table, the Supervisor, and the ports in front of both.  A
method that returns a `Result` is a program in `ExceptT`, so `?` is `bind` and `map_err(|_| e)?` is
`orElse e`.

The two polling loops of `install` end when `install_wait_timeout` has elapsed; how many polls that
takes, besides the one `recover_ambiguous_begin` always makes, is the argument `polls`.
-/
import AudioDown.Core.Records
import AudioDown.Lib.Method
import AudioDown.Supervisor.System

namespace AudioDown.Core

open Lib Supervisor

inductive PluginManagerError where
  | pluginStateUnavailable
  | runtimeUnavailable
deriving DecidableEq

inductive InstallError where
  | snapshotNotFound
  | pluginNotInSnapshot
  | pluginAlreadyInstalled
  | pluginOperationInProgress
  | riskGrantRequired
  | developerModeRequired
  | devTokenRequired
  | buildFailed
  | installTimeout
  | runtimeUnavailable
  | artifactMismatch
  | internal
deriving DecidableEq

/-! ## What Core calls -/

/-- The install requests Core sends to the Supervisor. -/
inductive SupervisorCall where
  | beginInstall (pluginId : PluginId) (operationId : Uuid)
  | installStatus (pluginId : PluginId) (operationId : Uuid)
  | finalizeInstall (pluginId : PluginId) (operationId : Uuid)
  | abortInstall (pluginId : PluginId) (operationId : Uuid)
  | acknowledgeInstall (pluginId : PluginId) (operationId : Uuid)
  | listInstallOperations
deriving DecidableEq

namespace SupervisorCall

abbrev Result : SupervisorCall → Type
  | .listInstallOperations => List PluginInstallOperationSummary
  | _ => PluginInstallOperation

/-- The request the Supervisor sees; it reads its own clock. -/
def request (now : Timestamp) : SupervisorCall → Request
  | .beginInstall p o => .begin p o now
  | .installStatus p o => .status p o
  | .finalizeInstall p o => .finalize p o now
  | .abortInstall p o => .abort p o now
  | .acknowledgeInstall p o => .acknowledge p o now
  | .listInstallOperations => .list

/-- What Core makes of the reply (`runtime_error` forgets the reason of a failure). -/
def answer : (call : SupervisorCall) → Reply → Except PluginManagerError call.Result
  | .listInstallOperations, .operations summaries => .ok summaries
  | .beginInstall .., .operation (.ok operation) => .ok operation
  | .installStatus .., .operation (.ok operation) => .ok operation
  | .finalizeInstall .., .operation (.ok operation) => .ok operation
  | .abortInstall .., .operation (.ok operation) => .ok operation
  | .acknowledgeInstall .., .operation (.ok operation) => .ok operation
  | _, _ => .error .runtimeUnavailable

end SupervisorCall

/-- `PluginRuntimeState`, without the container's id. -/
structure PluginRuntimeState where
  pluginId : PluginId
  status : PluginStatus
  logs : List String
deriving DecidableEq

structure PluginRemoveResult where
  pluginId : PluginId
  removedImage : Bool
  removedInstallDirectory : Bool
deriving DecidableEq

inductive ContentMethod where
  | search
  | discover
  | categories
  | albumGet
  | tracksList
deriving DecidableEq

/-- `ContentMethod::capability`. -/
def ContentMethod.capability : ContentMethod → String
  | .search => "content.search"
  | .discover => "content.discover"
  | .categories => "content.categories"
  | .albumGet => "content.album.get"
  | .tracksList => "content.tracks.list"

inductive ContentCallEvent where
  | started
  | succeeded
  | failed
deriving DecidableEq

inductive CoreAct where
  -- the state store
  | listInstallRecords
  | getPlugin (pluginId : PluginId)
  | savePlugin (record : InstallPluginRecord)
  | deletePlugin (pluginId : PluginId)
  | insertInstalling (record : InstallPluginRecord)
  | completeInstall (pluginId : PluginId) (operationId : Uuid)
  | rollbackInstall (pluginId : PluginId) (operationId : Uuid)
  | persistBuildLog (operationId : Uuid) (log : PluginBuildLog)
  | persistRuntimeLog (pluginId : PluginId) (log : String)
  | persistContentCallLog (pluginId : PluginId) (event : ContentCallEvent)
  | touch (pluginId : PluginId) (lastUsedAt : Timestamp)
  -- the Supervisor
  | supervisor (call : SupervisorCall)
  | startRuntime (pluginId : PluginId)
  | stopRuntime (pluginId : PluginId)
  | inspectRuntime (pluginId : PluginId)
  | removeRuntime (pluginId : PluginId)
  | invokeRuntime (pluginId : PluginId) (method : ContentMethod)
  -- snapshots and risk grants
  | loadPlugin (snapshotId : Uuid) (pluginId : PluginId)
  | grantLifecycleRisk (staged : StagedPlugin)
  | prepareInstall (staged : StagedPlugin) (riskGrantId : Option Uuid)
  -- in memory
  | tryOperationLock (pluginId : PluginId)
  | contentStartupLock (pluginId : PluginId)
  | beginActiveCall (pluginId : PluginId)
  | hasActiveCalls (pluginId : PluginId)
  | automaticStartFailureCount (pluginId : PluginId)
  | incrementAutomaticStartFailures (pluginId : PluginId)
  | resetAutomaticStartFailures (pluginId : PluginId)
  -- time
  | utcNow
  | timesOut
deriving DecidableEq

abbrev CoreAct.Resp : CoreAct → Type
  | .listInstallRecords => Except PluginManagerError (List InstallPluginRecord)
  | .getPlugin _ => Except PluginManagerError (Option InstallPluginRecord)
  | .completeInstall .. => Except PluginManagerError InstallPluginRecord
  | .savePlugin _ | .deletePlugin _ | .insertInstalling _ | .rollbackInstall .. | .persistBuildLog ..
  | .persistRuntimeLog .. | .persistContentCallLog .. | .touch .. => Except PluginManagerError Unit
  | .supervisor call => Except PluginManagerError call.Result
  | .startRuntime _ | .stopRuntime _ | .inspectRuntime _ =>
      Except PluginManagerError PluginRuntimeState
  | .removeRuntime _ => Except PluginManagerError PluginRemoveResult
  -- whether `PluginRpcResult::validate` accepts what came back
  | .invokeRuntime .. => Except PluginManagerError Bool
  | .loadPlugin .. => Except InstallError StagedPlugin
  | .grantLifecycleRisk _ => Except InstallError (Option Uuid)
  | .prepareInstall .. => Except InstallError Uuid
  | .tryOperationLock _ | .contentStartupLock _ | .beginActiveCall _ | .hasActiveCalls _
  | .timesOut => Bool
  | .automaticStartFailureCount _ | .incrementAutomaticStartFailures _ => Nat
  | .resetAutomaticStartFailures _ => Unit
  | .utcNow => Timestamp

abbrev CoreProgram := Prog CoreAct CoreAct.Resp

/-- A method returning `Result<α, InstallError>`. -/
abbrev InstallM := ExceptT InstallError CoreProgram

def ask (a : CoreAct) : CoreProgram a.Resp := .act a .ret

/-- `.map_err(|_| error)?`. -/
def orElse {ε α : Type} (x : CoreProgram (Except ε α)) (error : InstallError) : InstallM α :=
  mapErr x error

/-- A call to the Supervisor, any failure of which is `RuntimeUnavailable`. -/
def runtime (call : SupervisorCall) : InstallM call.Result :=
  orElse (ask (.supervisor call)) .runtimeUnavailable

/-- The error of a `Result` that is otherwise dropped. -/
def errorOf {ε α : Type} : Except ε α → Option ε
  | .ok _ => none
  | .error error => some error

section
variable (p : PluginId) (o : Uuid)

def acknowledge : InstallM Unit := do
  let acknowledged ← runtime (.acknowledgeInstall p o)
  if !acknowledged.acknowledged || !operationIdentityMatches acknowledged p o then
    throw .runtimeUnavailable

/-- The call of `abort_install` and the check of its answer, as two methods make it. -/
def abortInstall : InstallM Unit := do
  let aborted ← runtime (.abortInstall p o)
  if aborted.state ≠ .aborted || !operationIdentityMatches aborted p o then
    throw .runtimeUnavailable

def abortAndAckResult : InstallM Unit := do
  abortInstall p o
  acknowledge p o

/-- `persist_build_logs` and `persist_reconciled_build_logs`: one row a log line. -/
def persistBuildLogs : List PluginBuildLog → InstallM Unit
  | [] => pure ()
  | log :: logs => do
    orElse (ask (.persistBuildLog o log)) .internal
    persistBuildLogs logs

end

/-! ## Reconciliation -/

/-- The record of an installation that is waiting for exactly this operation. -/
def matchingInstalling (operation : PluginInstallOperationSummary)
    (record : Option InstallPluginRecord) : Option InstallPluginRecord :=
  record.filter fun record =>
    record.status = .installing && record.installOperationId = some operation.operationId

/-- The record of an installation that this operation has completed. -/
def matchingInstalled (operation : PluginInstallOperationSummary)
    (record : Option InstallPluginRecord) : Option InstallPluginRecord :=
  record.filter fun record =>
    record.status = .installed && record.installOperationId = none &&
      operation.artifact.any fun artifact => artifactMatchesRecord artifact record

/-- The `is_none_or` checks on an artifact. -/
def carriesArtifact (artifact : Option PluginInstallArtifact) (record : InstallPluginRecord) : Bool :=
  artifact.any fun artifact => artifactMatchesRecord artifact record

theorem matchingInstalling_eq_some {operation : PluginInstallOperationSummary}
    {record : Option InstallPluginRecord} {row : InstallPluginRecord} :
    matchingInstalling operation record = some row ↔ record = some row ∧ row.status = .installing ∧
      row.installOperationId = some operation.operationId := by
  simp [matchingInstalling, Option.filter_eq_some_iff]

theorem carriesArtifact_iff {artifact : Option PluginInstallArtifact} {row : InstallPluginRecord} :
    carriesArtifact artifact row = true ↔ ∃ a, artifact = some a ∧ artifactMatchesRecord a row = true := by
  simp [carriesArtifact, Option.any_eq_true]

def reconcileOperation (operation : PluginInstallOperationSummary)
    (record : Option InstallPluginRecord) : InstallM Unit := do
  let p := operation.pluginId
  let o := operation.operationId
  match operation.state with
  | .accepted | .building =>
    match matchingInstalling operation record with
    | some _ => pure ()
    | none => abortAndAckResult p o
  | .built =>
    match matchingInstalling operation record with
    | some record =>
      if !carriesArtifact operation.artifact record then throw .artifactMismatch
      let finalized ← runtime (.finalizeInstall p o)
      if finalized.state ≠ .finalized || !operationIdentityMatches finalized p o ||
          !carriesArtifact finalized.artifact record then
        throw .runtimeUnavailable
      let _ ← orElse (ask (.completeInstall p o)) .internal
      acknowledge p o
    | none => abortAndAckResult p o
  | .finalized =>
    match matchingInstalling operation record with
    | some record =>
      if !carriesArtifact operation.artifact record then throw .artifactMismatch
      let _ ← orElse (ask (.completeInstall p o)) .internal
      acknowledge p o
    | none =>
      match matchingInstalled operation record with
      | some _ => acknowledge p o
      | none => abortAndAckResult p o
  | .failed | .aborted =>
    abortInstall p o
    match matchingInstalling operation record with
    | some _ => orElse (ask (.rollbackInstall p o)) .internal
    | none => pure ()
    acknowledge p o

/-- The body both loops of `reconcile_install_operations` share. -/
def reconcileEntry (p : PluginId) (o : Uuid) (record : Option InstallPluginRecord) : InstallM Unit := do
  let detailed ← runtime (.installStatus p o)
  if !operationIdentityMatches detailed p o then throw .runtimeUnavailable
  persistBuildLogs detailed.operationId detailed.buildLogs
  reconcileOperation detailed.summary record

/-- An operation to look at, and the record of its plugin. -/
abbrev Entry := PluginId × Uuid × Option InstallPluginRecord

/-- The loops: every entry is tried, and the first error is kept. -/
def reconcileEntries : List Entry → Option InstallError → CoreProgram (Option InstallError)
  | [], firstError => pure firstError
  | (p, o, record) :: entries, firstError => do
    let result ← (reconcileEntry p o record).run
    reconcileEntries entries (firstError.or (errorOf result))

def listedEntries (operations : List PluginInstallOperationSummary)
    (records : List InstallPluginRecord) : List Entry :=
  operations.map fun operation =>
    (operation.pluginId, operation.operationId,
      records.find? fun record => record.pluginId = operation.pluginId)

/-- The entries of the second: records that wait for an operation the Supervisor did not list. -/
def unlistedEntries (operations : List PluginInstallOperationSummary)
    (records : List InstallPluginRecord) : List Entry :=
  records.filterMap fun record =>
    match record.status, record.installOperationId with
    | .installing, some o =>
      if operations.any fun operation =>
          operation.pluginId = record.pluginId && operation.operationId = o then none
      else some (record.pluginId, o, some record)
    | _, _ => none

def reconcileInstallOperations : InstallM Unit := do
  let operations ← runtime .listInstallOperations
  let records ← orElse (ask .listInstallRecords) .internal
  let firstError ← ExceptT.lift
    (reconcileEntries (listedEntries operations records ++ unlistedEntries operations records) none)
  match firstError with
  | some error => throw error
  | none => pure ()

/-! ## Installation -/

def mergeBuildLogs (target incoming : List PluginBuildLog) : List PluginBuildLog :=
  (incoming.foldl (fun target log =>
    if target.any fun existing => existing.sequence = log.sequence then target
    else target ++ [log]) target).insertionSort fun a b => a.sequence ≤ b.sequence

/-- A `Result` whose error leaves the method. -/
def ofExcept {α : Type} : Except InstallError α → InstallM α
  | .ok value => pure value
  | .error error => throw error

/-- The way out of `wait_until_built` with an error: what was logged is kept, the operation is given
up, and only then does a failure to keep the log count. -/
def giveUp (p : PluginId) (o : Uuid) (logs : List PluginBuildLog) (error : InstallError) {α : Type} :
    InstallM α := do
  let logResult ← ExceptT.lift (persistBuildLogs o logs).run
  abortAndAckResult p o
  ofExcept logResult
  throw error

/-- One turn of the loop in `wait_until_built`; `pending` is what an unfinished build leads to. -/
def builtOr (staged : StagedPlugin) (o : Uuid) (operation : PluginInstallOperation)
    (logs : List PluginBuildLog) (pending : InstallM (PluginInstallOperation × List PluginBuildLog)) :
    InstallM (PluginInstallOperation × List PluginBuildLog) :=
  if !operationIdentityMatches operation staged.pluginId o then throw .runtimeUnavailable
  else
    match operation.state with
    | .built => pure (operation, logs)
    | .failed | .aborted => giveUp staged.pluginId o logs .buildFailed
    | .finalized => throw .runtimeUnavailable
    | .accepted | .building => pending

def waitUntilBuilt (staged : StagedPlugin) (o : Uuid) : Nat → PluginInstallOperation → List PluginBuildLog →
      InstallM (PluginInstallOperation × List PluginBuildLog)
  | 0, operation, seen =>
    let logs := mergeBuildLogs seen operation.buildLogs
    builtOr staged o operation logs (giveUp staged.pluginId o logs .installTimeout)
  | polls + 1, operation, seen =>
    let logs := mergeBuildLogs seen operation.buildLogs
    builtOr staged o operation logs do
      match ← ExceptT.lift (ask (.supervisor (.installStatus staged.pluginId o))) with
      | .ok operation => waitUntilBuilt staged o polls operation logs
      | .error _ =>
        persistBuildLogs o logs
        throw .runtimeUnavailable

def recoverAmbiguousBegin (p : PluginId) (o : Uuid) : Nat → InstallM PluginInstallOperation
  | 0 => do
    match ← ExceptT.lift (ask (.supervisor (.installStatus p o))) with
    | .ok operation => return operation
    | .error _ =>
      let _ ← ExceptT.lift (abortAndAckResult p o).run
      throw .installTimeout
  | polls + 1 => do
    match ← ExceptT.lift (ask (.supervisor (.installStatus p o))) with
    | .ok operation => return operation
    | .error _ => recoverAmbiguousBegin p o polls

/-- `install`, once the operation is built. -/
def installBuilt (p : PluginId) (staged : StagedPlugin) (o : Uuid)
    (built : PluginInstallOperation) (logs : List PluginBuildLog) : InstallM InstallPluginRecord := do
  match built.artifact.filter fun artifact => artifactMatchesStaged artifact staged with
  | none =>
    let _ ← ExceptT.lift (abortAndAckResult p o).run
    persistBuildLogs o logs
    throw .artifactMismatch
  | some artifact =>
    let now ← ExceptT.lift (ask .utcNow)
    match ← ExceptT.lift (ask (.insertInstalling (installRecord staged o artifact now))) with
    | .error _ =>
      let _ ← ExceptT.lift (abortAndAckResult p o).run
      persistBuildLogs o logs
      throw .internal
    | .ok () =>
      persistBuildLogs o logs
      let finalized ← runtime (.finalizeInstall p o)
      if finalized.state ≠ .finalized || !operationIdentityMatches finalized p o ||
          !finalized.artifact.any fun artifact => artifactMatchesStaged artifact staged then
        throw .runtimeUnavailable
      let completed ← orElse (ask (.completeInstall p o)) .internal
      acknowledge p o
      return completed

def install (snapshotId : Uuid) (p : PluginId) (beginPolls buildPolls : Nat) :
    InstallM InstallPluginRecord := do
  if !(← ExceptT.lift (ask (.tryOperationLock p))) then throw .pluginOperationInProgress
  let staged ← ExceptT.mk (ask (.loadPlugin snapshotId p))
  let records ← orElse (ask .listInstallRecords) .internal
  match records.find? fun record => record.pluginId = p with
  | some existing =>
    if existing.status = .installing then throw .pluginOperationInProgress
    else throw .pluginAlreadyInstalled
  | none =>
    let riskGrantId ← ExceptT.mk (ask (.grantLifecycleRisk staged))
    let o ← ExceptT.mk (ask (.prepareInstall staged riskGrantId))
    let initial ← match ← ExceptT.lift (ask (.supervisor (.beginInstall p o))) with
      | .ok operation => pure operation
      | .error _ => recoverAmbiguousBegin p o beginPolls
    let (built, logs) ← waitUntilBuilt staged o buildPolls initial []
    installBuilt p staged o built logs

end AudioDown.Core
