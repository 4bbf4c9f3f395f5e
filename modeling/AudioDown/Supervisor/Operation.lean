/-
# AudioDown.Supervisor.Operation — install operations as data

The records the Supervisor keeps for a plugin installation, and the part of its protocol that
carries them to Core.  An *operation* follows one build from `accepted` to a terminal state; the
*stored* operation adds the owning installation, two timestamps and the begin order; an
*attestation* (`install.json`) ties a candidate or installed directory to exactly one operation and
one artifact.

File contents appear here as values: what `serde_json` writes is what it reads back, and a file
under its final name is always complete.
-/
import AudioDown.Domain.Basic

namespace AudioDown.Supervisor

/-! ## Protocol types -/

inductive PluginInstallOperationState where
  | accepted
  | building
  | built
  | finalized
  | failed
  | aborted
deriving DecidableEq

namespace PluginInstallOperationState

def isTerminal : PluginInstallOperationState → Bool
  | .finalized | .failed | .aborted => true
  | .accepted | .building | .built => false

@[simp] theorem isTerminal_accepted : isTerminal .accepted = false := rfl
@[simp] theorem isTerminal_building : isTerminal .building = false := rfl
@[simp] theorem isTerminal_built : isTerminal .built = false := rfl
@[simp] theorem isTerminal_finalized : isTerminal .finalized = true := rfl
@[simp] theorem isTerminal_failed : isTerminal .failed = true := rfl
@[simp] theorem isTerminal_aborted : isTerminal .aborted = true := rfl

end PluginInstallOperationState

structure PluginInstallArtifact where
  imageId : String
  repositoryId : String
  commitSha : String
  sourceHash : String
  manifestHash : String
deriving DecidableEq

inductive PluginBuildLogStream where
  | stdout
  | stderr
  | system
deriving DecidableEq

structure PluginBuildLog where
  sequence : Nat
  stream : PluginBuildLogStream
  message : String
deriving DecidableEq

structure PluginInstallOperation where
  operationId : Uuid
  pluginId : PluginId
  state : PluginInstallOperationState
  artifact : Option PluginInstallArtifact
  buildLogs : List PluginBuildLog
  errorCode : Option String
  acknowledged : Bool
deriving DecidableEq

structure PluginInstallOperationSummary where
  operationId : Uuid
  pluginId : PluginId
  state : PluginInstallOperationState
  artifact : Option PluginInstallArtifact
  errorCode : Option String
  acknowledged : Bool
deriving DecidableEq

def PluginInstallOperation.summary (operation : PluginInstallOperation) :
    PluginInstallOperationSummary where
  operationId := operation.operationId
  pluginId := operation.pluginId
  state := operation.state
  artifact := operation.artifact
  errorCode := operation.errorCode
  acknowledged := operation.acknowledged

/-- `MAX_OPERATION_LIST_ITEMS`, the cut `PluginInstallOperationList::new` makes. -/
def maxOperationListItems : Nat := 256

/-! ## The Supervisor's own records -/

/-- `ACKNOWLEDGED_RETENTION`: thirty minutes. -/
def acknowledgedRetention : Int := 30 * 60 * 1000000000

def maxUnacknowledgedOperations : Nat := 256

def restartErrorCode : String := "SUPERVISOR_RESTARTED"

structure StoredOperation where
  installationId : String
  operation : PluginInstallOperation
  createdAt : Timestamp
  updatedAt : Timestamp
  sequence : Nat
deriving DecidableEq

/-- `u64::saturating_add(1)`, as sequence numbers use it. -/
def nextSequenceAfter (sequence : Nat) : Nat := min (sequence + 1) (2 ^ 64 - 1)

inductive RunMode where
  | onDemand
  | always
deriving DecidableEq

/-- The content of an `install.json`. -/
structure InstallAttestation where
  installationId : String
  operationId : Uuid
  pluginId : PluginId
  imageId : String
  sourceKind : String
  repositoryId : String
  commitSha : String
  sourceHash : String
  manifestHash : String
  baseImageDigest : String
  sdkHash : String
  memoryBytes : Int
  nanoCpus : Int
  pidsLimit : Int
  runMode : RunMode
deriving DecidableEq

/-- `InstallOperationManager::attestation`. -/
def attestation (installationId : String) (pluginId : PluginId) (operationId : Uuid)
    (artifact : PluginInstallArtifact) (baseImageDigest sdkHash : String) :
    InstallAttestation where
  installationId := installationId
  operationId := operationId
  pluginId := pluginId
  imageId := artifact.imageId
  sourceKind := "github_public_repository"
  repositoryId := artifact.repositoryId
  commitSha := artifact.commitSha
  sourceHash := artifact.sourceHash
  manifestHash := artifact.manifestHash
  baseImageDigest := baseImageDigest
  sdkHash := sdkHash
  memoryBytes := 128 * 1024 * 1024
  nanoCpus := 500000000
  pidsLimit := 64
  runMode := .onDemand

/-- The eight equalities `attestation_from_directory` checks: an attestation is *of* an operation
of this installation when it names it and carries its artifact. -/
def InstallAttestation.Attests (found : InstallAttestation) (installationId : String)
    (pluginId : PluginId) (operationId : Uuid) (artifact : PluginInstallArtifact) : Prop :=
  found.installationId = installationId ∧ found.operationId = operationId ∧
    found.pluginId = pluginId ∧ found.imageId = artifact.imageId ∧
    found.repositoryId = artifact.repositoryId ∧ found.commitSha = artifact.commitSha ∧
    found.sourceHash = artifact.sourceHash ∧ found.manifestHash = artifact.manifestHash

instance (found : InstallAttestation) (installationId : String) (pluginId : PluginId)
    (operationId : Uuid) (artifact : PluginInstallArtifact) :
    Decidable (found.Attests installationId pluginId operationId artifact) :=
  inferInstanceAs (Decidable (_ ∧ _))

theorem attestation_attests (installationId : String) (pluginId : PluginId) (operationId : Uuid)
    (artifact : PluginInstallArtifact) (baseImageDigest sdkHash : String) :
    (attestation installationId pluginId operationId artifact baseImageDigest sdkHash).Attests
      installationId pluginId operationId artifact :=
  ⟨rfl, rfl, rfl, rfl, rfl, rfl, rfl, rfl⟩

/-! ## The build adapter's answers -/

structure BuildOutput where
  artifact : PluginInstallArtifact
  manifest : List UInt8
  baseImageDigest : String
  sdkHash : String
  buildLogs : List PluginBuildLog
deriving DecidableEq

structure BuildAdapterError where
  code : String
  buildLogs : List PluginBuildLog
deriving DecidableEq

/-! ## Errors -/

/-- The paths file errors are reported at. -/
inductive StorePath where
  | operationRecord (operationId : Uuid)
  | candidateDir (operationId : Uuid)
  | installedDir (pluginId : PluginId)
  | installedParent
  | candidatesParent
  | preparedRequest (operationId : Uuid)
  | mirroredGrant (operationId : Uuid)
  | grant (grantId : Uuid)
  | layout
  | operationsDir
deriving DecidableEq

inductive InstallOperationError where
  | operationIdMismatch
  | buildBusy
  | operationCapacityReached
  | notFound
  | invalidTransition
  | notTerminal
  | installedAttestationMismatch
  | candidateAlreadyExists
  | adapter (error : BuildAdapterError)
  | io (path : StorePath)
deriving DecidableEq

def InstallOperationError.errorCode : InstallOperationError → String
  | .candidateAlreadyExists => "CANDIDATE_ALREADY_EXISTS"
  | .installedAttestationMismatch => "INSTALL_ATTESTATION_MISMATCH"
  | _ => "BUILD_STATE_FAILED"

end AudioDown.Supervisor
