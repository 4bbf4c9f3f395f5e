/-
# AudioDown.Package.Staging — from an inspection to a build

The plugin data directory is shared by two processes.  Core's inspections remove old snapshots and add new
ones; its installations load a snapshot, obtain a grant if the plugin wants lifecycle scripts, and leave a
prepared operation; the Supervisor's builds read all of it back, check it again and start a container.  Each
of them is a program over accesses to the directory, so that any two can be interleaved at any access.
-/
import AudioDown.Lib.Crew
import AudioDown.Package.Prepared

namespace AudioDown.Package

open AudioDown.Core Lib Supervisor

/-! ## The directory -/

structure Snapshot where
  metadata : SnapshotMetadata
  repository : Tree

structure LifecycleRiskGrant where
  id : Uuid
  repositoryId : String
  pluginId : PluginId
  commitSha : String
  riskKind : String
  reason : String
  grantedAt : Timestamp
deriving DecidableEq

/-- `GrantMirror::from` -/
def LifecycleRiskGrant.mirror (grant : LifecycleRiskGrant) : GrantMirror where
  schemaVersion
  grantId := grant.id
  repositoryId := grant.repositoryId
  pluginId := grant.pluginId
  commitSha := grant.commitSha
  riskKind := grant.riskKind
  reason := grant.reason
  grantedAt := grant.grantedAt

/-- A repository as it was downloaded, extracted and validated. -/
structure Download where
  sourceUrl : String
  commitSha : String
  repository : Tree
  fileCount : Nat
  extractedBytes : Nat
  validated : Manager.ValidatedRepository

/-- Why a file could not be read. -/
inductive ReadError where
  | missing
  | io
deriving DecidableEq

inductive LifecycleAuthorizationError where
  | developerModeRequired
  | tokenRequired
deriving DecidableEq

/-! ## Accesses -/

inductive Act where
  | utcNow
  | newUuid
  /-- the ids below `staging` -/
  | readStaging
  | readSnapshot (id : Uuid)
  | readRepository (id : Uuid)
  | removeSnapshot (id : Uuid)
  /-- the rename at the end of `create` -/
  | placeSnapshot (download : Download) (createdAt : Timestamp)
  | writeGrant (grant : GrantMirror)
  | removeGrant (id : Uuid)
  /-- the file under a new operation id -/
  | writePrepared (prepared : Uuid → PreparedMetadata)
  | readPrepared (operationId : Uuid)
  | readGrant (id : Uuid)
  /-- `resolve_and_download`, `extract_snapshot` and `validate_repository` -/
  | download (url : String)
  | authorize (developerToken : Option String)
  /-- the installed plugins, and whether each is still being installed -/
  | listInstallRecords
  | persistRiskGrant (grant : LifecycleRiskGrant)
  | beginInstall (pluginId : PluginId) (operationId : Uuid)
  /-- `reserve_plugin` and `try_acquire_global` -/
  | reserve (pluginId : PluginId)
  /-- `build_source_archive` -/
  | archiveSource (id : Uuid) (pluginRoot : List String)
  /-- the images, networks and the proxy container -/
  | createProxy (operationId : Uuid)
  /-- the builder container, with lifecycle scripts allowed or not -/
  | configureBuilder (operationId : Uuid) (allowLifecycleScripts : Bool)

def Act.Resp : Act → Type
  | .utcNow => Timestamp
  | .newUuid => Uuid
  | .readStaging => Except ReadError (List Uuid)
  | .readSnapshot _ => Except ReadError SnapshotMetadata
  | .readRepository _ => Except ReadError Tree
  | .placeSnapshot _ _ | .writePrepared _ => Except Unit Uuid
  | .readPrepared _ => Except ReadError PreparedMetadata
  | .readGrant _ => Except ReadError GrantMirror
  | .download _ => Option Download
  | .authorize _ => Except LifecycleAuthorizationError Unit
  | .listInstallRecords => Option (List (PluginId × Bool))
  | .archiveSource _ _ => Option Tree
  | .removeSnapshot _ | .writeGrant _ | .removeGrant _ | .persistRiskGrant _ | .beginInstall _ _ | .reserve _
  | .createProxy _ | .configureBuilder _ _ => Bool

abbrev Method (ε α : Type) := ExceptT ε (Prog Act Act.Resp) α

def succeeded {ε : Type} (error : ε) (done : Bool) : Except ε Unit := require done error

/-! ## Core -/

namespace Manager

variable (F : Formats)

structure StagedPlugin where
  snapshotId : Uuid
  repositoryId : String
  sourceUrl : String
  commitSha : String
  pluginPath : String
  manifest : PluginManifest
  manifestHash : String
  sourceHash : String
  requiresLifecycleScripts : Bool
  lifecycleScriptReason : Option String

/-- `SNAPSHOT_TTL_MINUTES` -/
def snapshotTtl : Timestamp := 30 * 60 * 1000000000

/-- `now.signed_duration_since(created_at) > Duration::minutes(SNAPSHOT_TTL_MINUTES)` -/
def expired (now createdAt : Timestamp) : Bool := decide (snapshotTtl < now - createdAt)

/-- `SnapshotPlugin::from` -/
def snapshotPlugin (plugin : ValidatedPlugin) : SnapshotPlugin where
  pluginId := plugin.manifest.id
  name := plugin.manifest.name
  version := plugin.manifest.version
  pluginType := plugin.manifest.pluginType
  credentials := plugin.manifest.credentials
  pluginPath := plugin.relativePath
  manifestHash := plugin.manifestHash
  sourceHash := plugin.sourceHash
  requiresLifecycleScripts := plugin.requiresLifecycleScripts
  lifecycleScriptReason := plugin.lifecycleScriptReason

/-- What `create` writes to `snapshot.json`. -/
def snapshotMetadata (download : Download) (snapshotId : Uuid) (createdAt : Timestamp) : SnapshotMetadata where
  schemaVersion
  snapshotId
  repositoryId := download.validated.repositoryId
  repositoryName := download.validated.repositoryName
  sourceUrl := download.sourceUrl
  commitSha := download.commitSha
  createdAt
  fileCount := download.fileCount
  extractedBytes := download.extractedBytes
  plugins := download.validated.plugins.map snapshotPlugin

/-- `SnapshotStore::create`; `secure_tree` refuses links and special files. -/
def create (download : Download) : Method PluginManagerError Uuid := do
  checking (require download.repository.regular .invalidStagingMetadata)
  let createdAt ← asking .utcNow .ok
  asking (.placeSnapshot download createdAt) fun r => r.mapError fun _ => .snapshotIo

/-- A round of the loop of `cleanup_expired`. -/
def cleanupEntry (now : Timestamp) (id : Uuid) : Method PluginManagerError Unit := do
  -- a directory without `snapshot.json` is passed over
  let createdAt ← asking (.readSnapshot id) fun
    | .ok metadata => .ok (some metadata.createdAt)
    | .error .missing => .ok none
    | .error .io => .error .snapshotIo
  match createdAt with
  | some createdAt =>
    if expired now createdAt then asking (.removeSnapshot id) (succeeded .snapshotIo) else pure ()
  | none => pure ()

def cleanupEntries (now : Timestamp) : List Uuid → Method PluginManagerError Unit
  | [] => pure ()
  | id :: ids => do
      cleanupEntry now id
      cleanupEntries now ids

def cleanupExpired (now : Timestamp) : Method PluginManagerError Unit := do
  let ids ← asking .readStaging fun
    | .ok ids => .ok ids
    | .error .missing => .ok []
    | .error .io => .error .snapshotIo
  cleanupEntries now ids

def inspectRepository (url : String) : Method PluginManagerError Uuid := do
  let now ← asking .utcNow .ok
  cleanupExpired now
  let download ← asking (.download url) fun r => okOr r .invalidRepositoryIndex
  create download

def loadSnapshot (id : Uuid) : Method PluginManagerError SnapshotMetadata :=
  asking (.readSnapshot id) fun r => do
    let stored ← r.mapError fun
      | .missing => .snapshotNotFound
      | .io => .snapshotIo
    let metadata ← okOr (F.readBack stored) .invalidStagingMetadata
    require (metadata.schemaVersion = schemaVersion && metadata.snapshotId = id) .invalidStagingMetadata
    return metadata

def findPlugin (metadata : SnapshotMetadata) (pluginId : PluginId) :
    Except PluginManagerError SnapshotPlugin :=
  okOr (metadata.plugins.find? fun plugin => plugin.pluginId = pluginId) .invalidStagingMetadata

def stagedPlugin (metadata : SnapshotMetadata) (plugin : SnapshotPlugin) (manifest : PluginManifest) :
    StagedPlugin where
  snapshotId := metadata.snapshotId
  repositoryId := metadata.repositoryId
  sourceUrl := metadata.sourceUrl
  commitSha := metadata.commitSha
  pluginPath := plugin.pluginPath
  manifest
  manifestHash := plugin.manifestHash
  sourceHash := plugin.sourceHash
  requiresLifecycleScripts := plugin.requiresLifecycleScripts
  lifecycleScriptReason := plugin.lifecycleScriptReason

def loadPlugin (id : Uuid) (pluginId : PluginId) (now : Timestamp) :
    Method PluginManagerError StagedPlugin := do
  let metadata ← loadSnapshot F id
  checking (require (!expired now metadata.createdAt) .snapshotNotFound)
  let plugin ← checking (findPlugin metadata pluginId)
  asking (.readRepository id) fun r => do
    let repository ← r.mapError fun _ => .snapshotIo
    let bytes ← okOr (repository.read (Prepared.components plugin.pluginPath ++ ["audiodown-plugin.json"]))
      .snapshotIo
    let manifest ← okOr (F.manifest bytes) .invalidPluginManifest
    require (manifest.id = plugin.pluginId && manifest.name = plugin.name &&
      manifest.version = plugin.version && manifest.pluginType = plugin.pluginType &&
      manifest.credentials = plugin.credentials) .invalidStagingMetadata
    return stagedPlugin metadata plugin manifest

def validateGrant (snapshot : SnapshotMetadata) (plugin : SnapshotPlugin) :
    Option LifecycleRiskGrant → Except PluginManagerError Unit
  | none => require (!plugin.requiresLifecycleScripts) .riskGrantMismatch
  | some grant => require (plugin.requiresLifecycleScripts && grant.repositoryId = snapshot.repositoryId &&
      grant.pluginId = plugin.pluginId && grant.commitSha = snapshot.commitSha &&
      grant.riskKind = lifecycleRiskKind && plugin.lifecycleScriptReason = some grant.reason)
      .riskGrantMismatch

def preparedMetadata (metadata : SnapshotMetadata) (plugin : SnapshotPlugin) (snapshotId : Uuid)
    (pluginId : PluginId) (grant : Option LifecycleRiskGrant) (operationId : Uuid) : PreparedMetadata where
  schemaVersion
  operationId
  snapshotId
  pluginId
  repositoryId := metadata.repositoryId
  sourceUrl := metadata.sourceUrl
  commitSha := metadata.commitSha
  pluginPath := plugin.pluginPath
  manifestHash := plugin.manifestHash
  sourceHash := plugin.sourceHash
  allowLifecycleScripts := plugin.requiresLifecycleScripts
  riskGrantId := grant.map (·.id)

/-- The mirror of the grant, if there is one. -/
def mirrorGrant : Option LifecycleRiskGrant → Method PluginManagerError Unit
  | none => pure ()
  | some grant => asking (.writeGrant grant.mirror) (succeeded .snapshotIo)

/-- The prepared operation; if it cannot be written, the mirror of the grant goes again. -/
def writeOperation (prepared : Uuid → PreparedMetadata) (grant : Option LifecycleRiskGrant) :
    Method PluginManagerError Uuid := do
  let written ← asking (.writePrepared prepared) .ok
  match written, grant with
  | .ok operationId, _ => pure operationId
  | .error _, none => throw .snapshotIo
  | .error _, some grant => do
    let _ ← asking (.removeGrant grant.id) .ok
    throw .snapshotIo

def prepareInstall (snapshotId : Uuid) (pluginId : PluginId) (grant : Option LifecycleRiskGrant) :
    Method PluginManagerError Uuid := do
  let metadata ← loadSnapshot F snapshotId
  let plugin ← checking (findPlugin metadata pluginId)
  checking (validateGrant metadata plugin grant)
  mirrorGrant grant
  writeOperation (preparedMetadata metadata plugin snapshotId pluginId grant) grant

structure LifecycleRiskInput where
  explicitlyApproved : Bool
  developerToken : Option String

structure InstallPluginCommand where
  snapshotId : Uuid
  pluginId : PluginId
  lifecycleRisk : LifecycleRiskInput

def mapStagedError : PluginManagerError → InstallError
  | .snapshotNotFound => .snapshotNotFound
  | .invalidStagingMetadata => .pluginNotInSnapshot
  | _ => .internal

def authorizationError : LifecycleAuthorizationError → InstallError
  | .developerModeRequired => .developerModeRequired
  | .tokenRequired => .devTokenRequired

def authorizeLifecycleRisk (staged : StagedPlugin) (input : LifecycleRiskInput) :
    Method InstallError (Option LifecycleRiskGrant) :=
  if !staged.requiresLifecycleScripts then pure none
  else do
    checking (require input.explicitlyApproved .riskGrantRequired)
    asking (.authorize input.developerToken) fun r => r.mapError authorizationError
    let reason ← checking (okOr staged.lifecycleScriptReason .riskGrantRequired)
    let id ← asking .newUuid .ok
    let grantedAt ← asking .utcNow .ok
    return some ⟨id, staged.repositoryId, staged.manifest.id, staged.commitSha, lifecycleRiskKind, reason,
      grantedAt⟩

def persistGrant : Option LifecycleRiskGrant → Method InstallError Unit
  | none => pure ()
  | some grant => asking (.persistRiskGrant grant) (succeeded .internal)

def notInstalled (pluginId : PluginId) (records : List (PluginId × Bool)) : Except InstallError Unit :=
  match records.find? fun record => record.1 = pluginId with
  | some (_, true) => .error .pluginOperationInProgress
  | some (_, false) => .error .pluginAlreadyInstalled
  | none => .ok ()

/-- `install` up to the request to the Supervisor. -/
def install (command : InstallPluginCommand) : Method InstallError Unit := do
  let now ← asking .utcNow .ok
  let staged ← mapErrors mapStagedError (loadPlugin F command.snapshotId command.pluginId now)
  asking .listInstallRecords fun r => okOr r .internal >>= notInstalled command.pluginId
  let grant ← authorizeLifecycleRisk staged command.lifecycleRisk
  persistGrant grant
  let operationId ← mapErrors mapStagedError (prepareInstall F command.snapshotId command.pluginId grant)
  asking (.beginInstall command.pluginId operationId) (succeeded .runtimeUnavailable)

end Manager

/-! ## The Supervisor -/

inductive BuildAdapterError where
  | invalidPreparedInstall
  | buildBusy
  | unsafeBuildInput
  | proxyCreateFailed
  | builderCreateFailed
deriving DecidableEq

namespace Prepared

variable (F : Formats)

def validateRiskGrant (prepared : PreparedMetadata) (expectedReason : Option String) :
    Method PreparedInstallError Unit := do
  let needed ← checking (grantNeeded prepared)
  match needed with
  | none => pure ()
  | some grantId => do
    let grant ← asking (.readGrant grantId) fun r => r.mapError fun _ => .filesystem
    let now ← asking .utcNow .ok
    checking (checkGrant prepared grantId expectedReason grant now)

def validatePreparedInstall (pluginId : PluginId) (operationId : Uuid) :
    Method PreparedInstallError ValidatedPreparedInstall := do
  let prepared ← asking (.readPrepared operationId) fun r => r.mapError fun _ => .filesystem
  checking (checkIdentity prepared pluginId operationId)
  let snapshot ← asking (.readSnapshot prepared.snapshotId) fun r => do
    let stored ← r.mapError fun _ => .filesystem
    okOr (F.readBack stored) .invalidMetadata
  let now ← asking .utcNow .ok
  let plugin ← checking (checkSnapshot prepared snapshot now)
  let checked ← asking (.readRepository prepared.snapshotId) fun r => checkTree F prepared plugin r.toOption
  validateRiskGrant prepared plugin.lifecycleScriptReason
  return validated prepared checked.1 checked.2

/-- `execute_build` up to the container that runs the build. -/
def executeBuild (pluginId : PluginId) (operationId : Uuid) : Method BuildAdapterError Unit := do
  let prepared ← mapErrors (fun _ => .invalidPreparedInstall)
    (validatePreparedInstall F pluginId operationId)
  asking (.reserve pluginId) (succeeded .buildBusy)
  let _ ← asking (.archiveSource prepared.snapshotId prepared.pluginRoot) fun r =>
    okOr r .unsafeBuildInput
  asking (.createProxy operationId) (succeeded .proxyCreateFailed)
  asking (.configureBuilder operationId prepared.allowLifecycleScripts) (succeeded .builderCreateFailed)

end Prepared

end AudioDown.Package
