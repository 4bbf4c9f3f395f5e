/-
# AudioDown.Supervisor.Manager — the install-operation manager

The methods of `InstallOperationManager`, statement by statement, as programs over the atomic steps
of `AudioDown.Supervisor.Store`.  A method that returns a `Result` is a `Call`: its first error ends
it, as `?` does.  Where the source drops a result (`let _ = …`) the program drops the answer.
-/
import AudioDown.Lib.Prog
import AudioDown.Supervisor.Store

namespace AudioDown.Supervisor

open Lib (Prog)

abbrev Program := Prog Act Act.Resp

def step (a : Act) : Program a.Resp := .act a .ret

/-- A method returning `Result<α, InstallOperationError>`. -/
def Call (α : Type) : Type := Program (Except InstallOperationError α)

namespace Call

variable {α β : Type}

def pure (value : α) : Call α := .ret (.ok value)

def throw (error : InstallOperationError) : Call α := .ret (.error error)

/-- What follows the `?` operator. -/
def andThen (f : α → Call β) : Except InstallOperationError α → Call β
  | .ok value => f value
  | .error error => throw error

def bind (x : Call α) (f : α → Call β) : Call β := Prog.bind x (andThen f)

instance : Monad Call where
  pure := pure
  bind := bind

/-- A step whose answer is a `Result`. -/
def of (x : Program (Except InstallOperationError α)) : Call α := x

/-- A step whose answer is not a `Result`. -/
def ask (a : Act) : Call a.Resp := .act a fun answer => .ret (.ok answer)

/-- An adapter call followed by `?`. -/
def adapter (x : Program (Except BuildAdapterError α)) : Call α :=
  Prog.bind x fun
    | .ok value => pure value
    | .error error => throw (.adapter error)

/-- A `for` loop whose body may leave the method with an error. -/
def forEach (body : α → Call Unit) : List α → Call Unit
  | [] => pure ()
  | x :: xs => bind (body x) fun _ => forEach body xs

end Call

section
variable (installationId : String)

def status (pluginId : PluginId) (operationId : Uuid) : Call PluginInstallOperation :=
  Call.of (step (.status pluginId operationId))

def begin (pluginId : PluginId) (operationId : Uuid) (now : Timestamp) : Call PluginInstallOperation := do
  let (operation, created) ← Call.of (step (.register pluginId operationId now))
  if created then
    Call.ask (.spawnBuild pluginId operationId)
  return operation

/-- `list`, cut by `PluginInstallOperationList::new`. -/
def list : Program (List PluginInstallOperationSummary) := do
  let operations ← step .unacknowledged
  return (operations.map fun stored => stored.operation.summary).take maxOperationListItems

def attestationFromDirectory (directory : Directory) (pluginId : PluginId) (operationId : Uuid)
    (artifact : PluginInstallArtifact) : Call InstallAttestation := do
  match ← Call.ask (.readAttestation directory) with
  | none => Call.throw .installedAttestationMismatch
  | some found =>
    if found.Attests installationId pluginId operationId artifact then return found
    else Call.throw .installedAttestationMismatch

def verifyAttestation (directory : Directory) (expected : InstallAttestation) : Call Unit := do
  match ← Call.ask (.readAttestation directory) with
  | none => Call.throw .installedAttestationMismatch
  | some actual =>
    if actual = expected then return () else Call.throw .installedAttestationMismatch

def removeFile (file : MirrorFile) : Call Unit := Call.of (step (.removeFile file))

def removeDirectory (directory : Directory) : Call Unit :=
  Call.of (step (.removeDirectory directory))

def removeMirrors (operationId : Uuid) : Call Unit := do
  match ← Call.ask (.readPrepared operationId) with
  | some grantId => removeFile (.grant grantId)
  | none => pure ()
  removeFile (.preparedRequest operationId)
  removeFile (.mirroredGrant operationId)

/-- The part of `finalize` between the state check and `set_state`: the verified directory ends up
as `installed/<plugin>`, whether this call renames it or an interrupted one did. -/
def placeInstalled (pluginId : PluginId) (operationId : Uuid) (expected : InstallAttestation) :
    Call Unit := do
  if ← Call.ask (.directoryExists (.installed pluginId)) then
    verifyAttestation (.installed pluginId) expected
    if ← Call.ask (.directoryExists (.candidate operationId)) then
      Call.throw .installedAttestationMismatch
  else
    verifyAttestation (.candidate operationId) expected
    Call.of (step .createInstalledParent)
    Call.of (step (.renameCandidate pluginId operationId))
    Call.of (step .syncInstalledParent)

def finalize (pluginId : PluginId) (operationId : Uuid) (now : Timestamp) : Call PluginInstallOperation := do
  let operation ← status pluginId operationId
  match operation.artifact with
  | none => Call.throw .invalidTransition
  | some artifact =>
    let installedExists ← Call.ask (.directoryExists (.installed pluginId))
    let directory := if installedExists then .installed pluginId else .candidate operationId
    let expected ← attestationFromDirectory installationId directory pluginId operationId artifact
    match operation.state with
    | .finalized =>
      verifyAttestation (.installed pluginId) expected
      removeMirrors operationId
      return operation
    | .built =>
      placeInstalled pluginId operationId expected
      let finalized ← Call.of (step (.setState pluginId operationId .finalized none now))
      removeMirrors operationId
      return finalized
    | _ => Call.throw .invalidTransition

/-- The check `abort` makes on `installed/<plugin>`, for the artifact of its snapshot. -/
def verifyInstalled (pluginId : PluginId) (operationId : Uuid)
    (artifact : Option PluginInstallArtifact) : Call Unit := do
  match artifact with
  | none => Call.throw .invalidTransition
  | some artifact =>
    let expected ←
      attestationFromDirectory installationId (.installed pluginId) pluginId operationId artifact
    verifyAttestation (.installed pluginId) expected

/-- The part of `abort` after the state change, for the snapshot `operation`. -/
def releaseResources (pluginId : PluginId) (operationId : Uuid)
    (operation : PluginInstallOperation) : Call Unit := do
  removeDirectory (.candidate operationId)
  if operation.state = .finalized then
    if ← Call.ask (.directoryExists (.installed pluginId)) then
      verifyInstalled installationId pluginId operationId operation.artifact
      removeDirectory (.installed pluginId)
  removeMirrors operationId
  match operation.artifact with
  | some artifact => Call.adapter (step (.removeImage artifact.imageId))
  | none => pure ()
  Call.adapter (step (.cleanupTemporaryResources operationId))

def abort (pluginId : PluginId) (operationId : Uuid) (now : Timestamp) : Call PluginInstallOperation := do
  let operation ← status pluginId operationId
  if operation.state = .finalized then
    verifyInstalled installationId pluginId operationId operation.artifact
  let aborted ←
    if operation.state = .aborted then pure operation
    else Call.of (step (.setState pluginId operationId .aborted operation.errorCode now))
  releaseResources installationId pluginId operationId operation
  return aborted

def acknowledge (pluginId : PluginId) (operationId : Uuid) (now : Timestamp) : Call PluginInstallOperation :=
  Call.of (step (.acknowledge pluginId operationId now))

def cleanupAcknowledged (now : Timestamp) : Call Unit := do
  let expired ← Call.ask (.expired now)
  Call.of (step (.forget expired))

/-! ## The background build -/

def writeCandidate (operationId : Uuid) (found : InstallAttestation) (manifest : List UInt8) : Call Unit := do
  if ← Call.ask (.directoryExists (.candidate operationId)) then
    Call.throw .candidateAlreadyExists
  else
    Call.of (step (.publishCandidate operationId found manifest))

/-- `set_failed(…, Utc::now())` with its result dropped. -/
def recordFailure (pluginId : PluginId) (operationId : Uuid) (errorCode : String)
    (buildLogs : List PluginBuildLog) : Program Unit := do
  let now ← step .utcNow
  let _ ← step (.setFailed pluginId operationId errorCode buildLogs now)

/-- Whether `status` still reports `building`; an operation that is gone counts as no. -/
def stillBuilding : Except InstallOperationError PluginInstallOperation → Bool
  | .ok operation => decide (operation.state = .building)
  | .error _ => false

/-- The branch of `run_build` for a finished build. -/
def storeOutput (pluginId : PluginId) (operationId : Uuid) (output : BuildOutput) : Program Unit := do
  let observed ← step (.status pluginId operationId)
  if !stillBuilding observed then
    let _ ← step (.removeImage output.artifact.imageId)
  else
    let found := attestation installationId pluginId operationId output.artifact
      output.baseImageDigest output.sdkHash
    match ← (writeCandidate operationId found output.manifest : Program _) with
    | .ok () =>
      let now ← step .utcNow
      let _ ← step (.setBuilt pluginId operationId output.artifact output.buildLogs now)
    | .error error =>
      let _ ← step (.removeImage output.artifact.imageId)
      recordFailure pluginId operationId error.errorCode output.buildLogs

def runBuild (pluginId : PluginId) (operationId : Uuid) : Program Unit := do
  let now ← step .utcNow
  match ← step (.setState pluginId operationId .building none now) with
  | .error _ => return ()
  | .ok _ =>
    match ← step (.build pluginId operationId) with
    | .ok output => storeOutput installationId pluginId operationId output
    | .error error => recordFailure pluginId operationId error.code error.buildLogs
    let _ ← step (.cleanupTemporaryResources operationId)

/-! ## Opening the manager -/

/-- The body of the loop in `reconcile_restart`. -/
def restartOperation (now : Timestamp) (operation : PluginInstallOperation) : Call Unit :=
  match operation.state with
  | .accepted | .building => do
    let _ ← Call.of
      (step (.setFailed operation.pluginId operation.operationId restartErrorCode [] now))
    removeDirectory (.candidate operation.operationId)
    match operation.artifact with
    | some artifact => Call.adapter (step (.removeImage artifact.imageId))
    | none => pure ()
    Call.adapter (step (.cleanupTemporaryResources operation.operationId))
  | .finalized => do
    let _ ← finalize installationId operation.pluginId operation.operationId now
  | .built | .failed | .aborted => pure ()

def reconcileRestart (now : Timestamp) : Call Unit := do
  let operations ← Call.ask .operations
  Call.forEach (restartOperation installationId now) operations

/-- `InstallOperationManager::open`. -/
def openManager (now : Timestamp) : Call Unit := do
  Call.of (step .ensureLayout)
  Call.of (step .loadState)
  reconcileRestart installationId now
  cleanupAcknowledged now

end

end AudioDown.Supervisor
