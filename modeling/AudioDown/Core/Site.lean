/-
# AudioDown.Core.Site — a plugin's runtime, from Core's record down to Docker

`PluginStart`, `PluginStop`, `PluginInspect` and `PluginRemove` as the Supervisor handles them, and
Core's adapter in front of them.  A management method of Core talks to the runtime by single requests;
`translate` puts the adapter's and the Supervisor's steps in the place of each, so that the same method
becomes a program whose every step can fail on its own.

Of the database the table of plugins and the credentials are modelled: a credential keeps the plugin
it came from from being deleted (`ON DELETE RESTRICT`).
-/
import AudioDown.Core.Alone
import AudioDown.Core.Outline
import AudioDown.Supervisor.InstallRecord

namespace AudioDown.Core

open Lib Supervisor

/-! ## Steps -/

inductive SiteAct where
  -- Core itself
  | core (a : CoreAct)
  | hasGeneration (pluginId : PluginId)
  | registerToken (pluginId : PluginId)
  | revokeGeneration (pluginId : PluginId)
  -- the Supervisor
  | loadInstall (pluginId : PluginId)
  | cleanupRuntimeResources (pluginId : PluginId)
  | inspectImage (imageId : String)
  | removeImage (imageId : String)
  | validateInstallDirectory (pluginId : PluginId)
  | removeInstallDirectory (pluginId : PluginId)
  | startRuntime (install : ValidatedInstall)
  | inspectContainers (pluginId : PluginId)
  -- its reply, on the way back
  | reply
deriving DecidableEq

abbrev SiteAct.Resp : SiteAct → Type
  | .core a => a.Resp
  | .hasGeneration _ => Bool
  | .registerToken _ => Except PluginManagerError Unit
  | .revokeGeneration _ => Unit
  | .loadInstall _ => Except InstallRecordError ValidatedInstall
  | .inspectImage _ => Except DockerAdapterError ImageLabels
  | .cleanupRuntimeResources _ | .removeImage _ | .validateInstallDirectory _
  | .removeInstallDirectory _ => Except DockerAdapterError Unit
  | .startRuntime _ => Except DockerAdapterError (List String)
  | .inspectContainers _ => Except DockerAdapterError Bool
  | .reply => Bool

abbrev SiteProgram := Prog SiteAct SiteAct.Resp

def issue (a : SiteAct) : SiteProgram a.Resp := .act a .ret

/-! ## The Supervisor's handlers -/

/-- The codes a request fails with. -/
inductive SupervisorFailure where
  | invalidInstallRecord
  | pluginNotCompatible
  | dockerOperationFailed
deriving DecidableEq

abbrev HostM := ExceptT SupervisorFailure SiteProgram

/-- A call whose error becomes a failure with code `failure`. -/
def orFailure {ε α : Type} (x : SiteProgram (Except ε α)) (failure : SupervisorFailure) : HostM α :=
  mapErr x failure

/-- A call to Docker or below the install directory. -/
def docker {α : Type} (x : SiteProgram (Except DockerAdapterError α)) : HostM α :=
  orFailure x .dockerOperationFailed

/-- The image is there and carries the labels the record asks for. -/
def checkImage (install : ValidatedInstall) : HostM Unit := do
  let labels ← docker (issue (.inspectImage install.installed.imageId))
  if !labelsMatch install.expectedImageLabels labels then throw .dockerOperationFailed

def removePlugin (installationId : String) (install : ValidatedInstall) : HostM PluginRemoveResult := do
  let p := install.installed.pluginId
  if !removalAttested installationId install then throw .dockerOperationFailed
  docker (issue (.validateInstallDirectory p))
  docker (issue (.cleanupRuntimeResources p))
  checkImage install
  docker (issue (.removeImage install.installed.imageId))
  docker (issue (.removeInstallDirectory p))
  return ⟨p, true, true⟩

def pluginRemove (installationId : String) (p : PluginId) : HostM PluginRemoveResult := do
  let install ← orFailure (issue (.loadInstall p)) .invalidInstallRecord
  removePlugin installationId install

def pluginStop (p : PluginId) : HostM PluginRuntimeState := do
  docker (issue (.cleanupRuntimeResources p))
  return ⟨p, .stopped, []⟩

def startPlugin (install : ValidatedInstall) : HostM PluginRuntimeState := do
  let p := install.installed.pluginId
  docker (issue (.cleanupRuntimeResources p))
  checkImage install
  match ← ExceptT.lift (issue (.startRuntime install)) with
  | .ok logs => return ⟨p, .healthy, logs⟩
  | .error error =>
    docker (issue (.cleanupRuntimeResources p))
    throw (if error = .handshake then .pluginNotCompatible else .dockerOperationFailed)

def pluginStart (p : PluginId) : HostM PluginRuntimeState := do
  match ← ExceptT.lift (issue (.loadInstall p)) with
  | .error _ =>
    let _ ← ExceptT.lift (issue (.cleanupRuntimeResources p))
    throw .invalidInstallRecord
  | .ok install => startPlugin install

def pluginInspect (p : PluginId) : HostM PluginRuntimeState := do
  let running ← docker (issue (.inspectContainers p))
  return ⟨p, if running then .healthy else .stopped, []⟩

/-! ## Core's adapter -/

abbrev RuntimeM := ExceptT PluginManagerError SiteProgram

/-- A request and its reply; `runtime_error` forgets why one failed. -/
def request {α : Type} (handler : HostM α) : RuntimeM α := do
  match ← ExceptT.lift handler.run with
  | .ok value => if ← ExceptT.lift (issue .reply) then return value else throw .runtimeUnavailable
  | .error _ =>
    let _ ← ExceptT.lift (issue .reply)
    throw .runtimeUnavailable

def confirmCleanup (p : PluginId) : RuntimeM PluginRuntimeState := do
  let stopped ← request (pluginStop p)
  if stopped.pluginId ≠ p ∨ stopped.status ≠ .stopped then throw .runtimeUnavailable
  else return stopped

/-- `stop`. -/
def stopControl (p : PluginId) : RuntimeM PluginRuntimeState := do
  let stopped ← confirmCleanup p
  ExceptT.lift (issue (.revokeGeneration p))
  return stopped

/-- `remove`. -/
def removeControl (installationId : String) (p : PluginId) : RuntimeM PluginRemoveResult := do
  let removed ← request (pluginRemove installationId p)
  ExceptT.lift (issue (.revokeGeneration p))
  return removed

/-- `start`, once an older generation is gone. -/
def startGeneration (p : PluginId) : RuntimeM PluginRuntimeState := do
  ExceptT.mk (issue (.registerToken p))
  match ← ExceptT.lift (request (pluginStart p)).run with
  | .ok state => return state
  | .error error =>
    let _ ← confirmCleanup p
    ExceptT.lift (issue (.revokeGeneration p))
    throw error

/-- `start`. -/
def startControl (p : PluginId) : RuntimeM PluginRuntimeState := do
  if ← ExceptT.lift (issue (.hasGeneration p)) then
    let _ ← stopControl p
    startGeneration p
  else startGeneration p

/-- `inspect`: what is not running under a known generation is stopped. -/
def inspectControl (p : PluginId) : RuntimeM PluginRuntimeState := do
  let known ← ExceptT.lift (issue (.hasGeneration p))
  match ← ExceptT.lift (request (pluginInspect p)).run with
  | .ok state =>
    if state.pluginId = p ∧ state.status = .healthy ∧ known = true then return state
    else stopControl p
  | .error _ => stopControl p

def translate (installationId : String) : (a : CoreAct) → SiteProgram a.Resp
  | .startRuntime p => (startControl p).run
  | .stopRuntime p => (stopControl p).run
  | .inspectRuntime p => (inspectControl p).run
  | .removeRuntime p => (removeControl installationId p).run
  | a => issue (.core a)

/-- A management method, down to its last step. -/
def onSite {α : Type} (installationId : String) (x : ManageM α) :
    SiteProgram (Except PluginManagementError α) :=
  x.run.substitute (translate installationId)

/-! ## What the steps do -/

structure Credential where
  id : Uuid
  sourcePluginId : Option PluginId
deriving DecidableEq

structure Site where
  /-- the Supervisor's files and images, and Core's table of plugins -/
  state : CoreWorld
  /-- the labels each image was built with -/
  labels : String → ImageLabels
  /-- the plugins whose containers and network are up -/
  running : PluginId → Bool
  /-- the plugins Core keeps a generation of -/
  generations : PluginId → Bool
  credentials : List Credential

/-- How a step ends. -/
inductive SiteOutcome where
  /-- a step of Core -/
  | core (outcome : CoreOutcome)
  | done
  /-- it fails before its effect -/
  | failed
  /-- it reports a failure after its effect -/
  | failedAfter
  /-- a directory removal stops, keeping the named files -/
  | torn (keepAttestation keepManifest : Bool)
  /-- what a plugin logs while it starts -/
  | logged (logs : List String)

def SiteOutcome.fails : SiteOutcome → Bool
  | .failed | .failedAfter | .torn .. => true
  | _ => false

/-- What has become of the directory after an attempt to remove it. -/
def SiteOutcome.leaves (c : SiteOutcome) (directory : Option InstallDirectory) : Option InstallDirectory :=
  match c with
  | .failed => directory
  | .torn keepAttestation keepManifest =>
      directory.map fun d =>
        ⟨if keepAttestation then d.attestation else none, if keepManifest then d.manifest else none⟩
  | _ => none

def Site.setInstalled (s : Site) (p : PluginId) (directory : Option InstallDirectory) : Site :=
  { s with state.world.installed := Function.update s.state.world.installed p directory }

def Site.dropImage (s : Site) (imageId : String) : Site :=
  { s with state.world.images := Function.update s.state.world.images imageId none }

def Site.setRunning (s : Site) (p : PluginId) (running : Bool) : Site :=
  { s with running := Function.update s.running p running }

def Site.setGeneration (s : Site) (p : PluginId) (known : Bool) : Site :=
  { s with generations := Function.update s.generations p known }

/-- Whether a foreign key keeps the plugin's row. -/
def Site.owns (s : Site) (p : PluginId) : Bool :=
  s.credentials.any fun credential => credential.sourcePluginId = some p

def siteStep (reader : ManifestReader) (installationId : String) :
    (a : SiteAct) → SiteOutcome → Site → a.Resp × Site
  | .core (.deletePlugin p), c, s =>
      let outcome := match c with
        | .core outcome => outcome
        | _ => .failed
      if s.owns p then (.error .pluginStateUnavailable, s)
      else
        ((coreStep (.deletePlugin p) outcome s.state.store).1,
          { s with state.store := (coreStep (.deletePlugin p) outcome s.state.store).2 })
  | .core a, c, s =>
      let outcome := match c with
        | .core outcome => outcome
        | _ => .failed
      ((coreStep a outcome s.state.store).1, { s with state.store := (coreStep a outcome s.state.store).2 })
  | .hasGeneration p, _, s => (s.generations p, s)
  | .registerToken p, c, s =>
      if c.fails then (.error .runtimeUnavailable, s) else (.ok (), s.setGeneration p true)
  | .revokeGeneration p, _, s => ((), s.setGeneration p false)
  | .loadInstall p, c, s =>
      if c.fails then (.error .read, s)
      else (load reader installationId p (s.state.world.installed p), s)
  | .cleanupRuntimeResources p, c, s =>
      match c with
      | .failed => (.error .runtimeCleanupFailed, s)
      | .failedAfter | .torn .. => (.error .runtimeCleanupFailed, s.setRunning p false)
      | _ => (.ok (), s.setRunning p false)
  | .inspectImage imageId, c, s =>
      if c.fails || (s.state.world.images imageId).isNone then (.error .docker, s)
      else (.ok (s.labels imageId), s)
  | .removeImage imageId, c, s =>
      match c with
      | .failed => (.error .docker, s)
      | .failedAfter | .torn .. => (.error .docker, s.dropImage imageId)
      | _ => (.ok (), s.dropImage imageId)
  | .validateInstallDirectory p, c, s =>
      if c.fails || (s.state.world.installed p).isNone then (.error .unsafeInstallDirectory, s)
      else (.ok (), s)
  | .removeInstallDirectory p, c, s =>
      if (s.state.world.installed p).isNone then (.error .unsafeInstallDirectory, s)
      else
        (if c.fails then .error .unsafeInstallDirectory else .ok (),
          s.setInstalled p (c.leaves (s.state.world.installed p)))
  | .startRuntime install, c, s =>
      match c with
      | .failed | .torn .. => (.error .docker, s)
      | .failedAfter => (.error .handshake, s.setRunning install.installed.pluginId true)
      | .logged logs => (.ok logs, s.setRunning install.installed.pluginId true)
      | _ => (.ok [], s.setRunning install.installed.pluginId true)
  | .inspectContainers p, c, s => (if c.fails then .error .docker else .ok (s.running p), s)
  | .reply, c, s => (!c.fails, s)

/-- Nothing fails, at time `now`. -/
def quiet (now : Timestamp) : SiteAct → SiteOutcome
  | .core _ => .core (.done now)
  | _ => .done

/-- A management method from its first step to its last, when nothing fails. -/
def Site.quietly {α : Type} (reader : ManifestReader) (installationId : String) (now : Timestamp)
    (x : ManageM α) (s : Site) : Except PluginManagementError α × Site :=
  (onSite installationId x).run (siteStep reader installationId) (quiet now) s

end AudioDown.Core
