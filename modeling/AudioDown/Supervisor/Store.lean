/-
# AudioDown.Supervisor.Store — what the operation manager acts on, one atomic step at a time

`World` is everything the install-operation manager reads and writes: the operation map behind its
mutex, the durable files below the plugin-data root, and the images its builds have left in Docker.
`Act` lists the manager's atomic steps: a block executed under the mutex, a single file-system
action, or one call of the build adapter.  `exec` gives each its meaning.

**Atomicity.**  A block under the mutex is one step because nobody else sees its middle.  Its only
durable effect is the rename that ends `atomic_write`, so a crash inside it leaves either the old
record or the new one, and at most a `.write-…` file.  `remove_dir_all` is one step for concurrent
observers, but it can stop halfway (`Outcome.torn`).

**Failures.**  Every step takes an `Outcome`.  `done` is success; the others say where a file or
adapter call failed and what it had already changed.  A crash inside a step is a step with a failing
outcome whose answer nobody receives, so the same outcomes describe both.
-/
import AudioDown.Supervisor.Operation
import Mathlib.Data.List.Sort
import Std.Data.TreeMap.Lemmas

namespace AudioDown.Supervisor

/-! ## The world -/

/-- A candidate or installed plugin directory: its `install.json` and `audiodown-plugin.json`.
Either file is missing only after a removal that stopped halfway. -/
structure InstallDirectory where
  attestation : Option InstallAttestation
  manifest : Option (List UInt8)
deriving DecidableEq

/-- `rename` replaces a directory only if it is empty. -/
def InstallDirectory.isEmpty (directory : InstallDirectory) : Bool :=
  directory.attestation.isNone && directory.manifest.isNone

/-- The part of `prepared/<op>.json` that `remove_mirrors` looks at. -/
structure PreparedRequest where
  riskGrantId : Option Uuid
deriving DecidableEq

/-- The map behind the manager's mutex. -/
structure OperationState where
  operations : Std.TreeMap Uuid StoredOperation := ∅
  nextSequence : Nat := 0

/-- `BTreeMap::values`: the stored operations in key order. -/
def valuesOf (operations : Std.TreeMap Uuid StoredOperation) : List StoredOperation :=
  operations.toList.map Prod.snd

structure World where
  /-- in memory: lost by a crash -/
  state : OperationState
  /-- `operations/<op>.json` -/
  records : Std.TreeMap Uuid StoredOperation
  /-- `operations/.write-<uuid>`, left over by interrupted writes -/
  temporaries : List Uuid
  /-- `candidates/<op>` -/
  candidates : Uuid → Option InstallDirectory
  /-- `installed/<plugin>` -/
  installed : PluginId → Option InstallDirectory
  /-- `prepared/<op>.json` -/
  prepared : Uuid → Option PreparedRequest
  /-- `risk-grants/<op>.json` -/
  mirroredGrants : Uuid → Bool
  /-- `grants/<grant>.json` -/
  grants : Uuid → Bool
  /-- images that builds have returned and nobody has removed, with the operation they are for -/
  images : String → Option Uuid

def World.empty : World where
  state := {}
  records := ∅
  temporaries := []
  candidates _ := none
  installed _ := none
  prepared _ := none
  mirroredGrants _ := false
  grants _ := false
  images _ := none

/-! ## Atomic steps -/

/-- The two kinds of directory an operation owns. -/
inductive Directory where
  | candidate (operationId : Uuid)
  | installed (pluginId : PluginId)
deriving DecidableEq

/-- The files `remove_mirrors` removes. -/
inductive MirrorFile where
  | preparedRequest (operationId : Uuid)
  | mirroredGrant (operationId : Uuid)
  | grant (grantId : Uuid)
deriving DecidableEq

def Directory.path : Directory → StorePath
  | .candidate operationId => .candidateDir operationId
  | .installed pluginId => .installedDir pluginId

def MirrorFile.path : MirrorFile → StorePath
  | .preparedRequest operationId => .preparedRequest operationId
  | .mirroredGrant operationId => .mirroredGrant operationId
  | .grant grantId => .grant grantId

/-- The manager's atomic steps. -/
inductive Act where
  -- blocks under the mutex
  | status (pluginId : PluginId) (operationId : Uuid)
  | register (pluginId : PluginId) (operationId : Uuid) (now : Timestamp)
  | setState (pluginId : PluginId) (operationId : Uuid) (state : PluginInstallOperationState)
      (errorCode : Option String) (now : Timestamp)
  | setBuilt (pluginId : PluginId) (operationId : Uuid) (artifact : PluginInstallArtifact)
      (buildLogs : List PluginBuildLog) (now : Timestamp)
  | setFailed (pluginId : PluginId) (operationId : Uuid) (errorCode : String)
      (buildLogs : List PluginBuildLog) (now : Timestamp)
  | acknowledge (pluginId : PluginId) (operationId : Uuid) (now : Timestamp)
  | operations
  | unacknowledged
  | expired (now : Timestamp)
  | forget (operationIds : List Uuid)
  -- file-system actions
  | ensureLayout
  | loadState
  | directoryExists (directory : Directory)
  | readAttestation (directory : Directory)
  | createInstalledParent
  | renameCandidate (pluginId : PluginId) (operationId : Uuid)
  | syncInstalledParent
  | publishCandidate (operationId : Uuid) (attestation : InstallAttestation) (manifest : List UInt8)
  | removeDirectory (directory : Directory)
  | readPrepared (operationId : Uuid)
  | removeFile (file : MirrorFile)
  -- build adapter
  | build (pluginId : PluginId) (operationId : Uuid)
  | removeImage (imageId : String)
  | cleanupTemporaryResources (operationId : Uuid)
  -- runtime
  | utcNow
  | spawnBuild (pluginId : PluginId) (operationId : Uuid)
deriving DecidableEq

abbrev Act.Resp : Act → Type
  | .status .. | .setState .. | .setBuilt .. | .setFailed .. | .acknowledge .. =>
      Except InstallOperationError PluginInstallOperation
  | .register .. => Except InstallOperationError (PluginInstallOperation × Bool)
  | .operations => List PluginInstallOperation
  | .unacknowledged => List StoredOperation
  | .expired _ => List Uuid
  | .forget _ | .ensureLayout | .loadState | .createInstalledParent | .renameCandidate ..
  | .syncInstalledParent | .publishCandidate .. | .removeDirectory _ | .removeFile _ =>
      Except InstallOperationError Unit
  | .directoryExists _ => Bool
  | .readAttestation _ => Option InstallAttestation
  | .readPrepared _ => Option Uuid
  | .build .. => Except BuildAdapterError BuildOutput
  | .removeImage _ | .cleanupTemporaryResources _ => Except BuildAdapterError Unit
  | .utcNow => Timestamp
  | .spawnBuild .. => Unit

/-- How the environment lets a step end. -/
inductive Outcome where
  /-- the call succeeds -/
  | done
  /-- it fails before its effect, perhaps leaving a temporary file -/
  | failedBefore (leftover : Option Uuid)
  /-- it reports a failure after its effect is durable -/
  | failedAfter
  /-- a directory removal stops, keeping the named files -/
  | torn (keepAttestation keepManifest : Bool)
  /-- a loop of removals stops after `count` of them -/
  | stoppedAfter (count : Nat)
  /-- what the adapter's build returns -/
  | built (result : Except BuildAdapterError BuildOutput)
  /-- what the clock reads -/
  | clock (now : Timestamp)

/-- The outcomes of a step in which no file and no adapter call fails; a build may still end in
either result. -/
def Outcome.Succeeds : Outcome → Prop
  | .done | .built _ | .clock _ => True
  | .failedBefore _ | .failedAfter | .torn .. | .stoppedAfter _ => False

instance : DecidablePred Outcome.Succeeds := fun c => by
  cases c <;> unfold Outcome.Succeeds <;> infer_instance

/-! ## Blocks under the mutex -/

def OperationState.matchingOperation (state : OperationState) (pluginId : PluginId)
    (operationId : Uuid) : Except InstallOperationError StoredOperation :=
  match state.operations[operationId]? with
  | none => .error .notFound
  | some stored => if stored.operation.pluginId = pluginId then .ok stored else .error .notFound

/-- `persist_record`: the rename that ends `atomic_write` replaces the whole file. -/
def World.persistRecord (outcome : Outcome) (record : StoredOperation) (w : World) :
    Except InstallOperationError Unit × World :=
  let operationId := record.operation.operationId
  let written := { w with records := w.records.insert operationId record }
  match outcome with
  | .failedBefore leftover =>
      (.error (.io (.operationRecord operationId)),
        { w with temporaries := leftover.toList ++ w.temporaries })
  | .failedAfter => (.error (.io (.operationRecord operationId)), written)
  | _ => (.ok (), written)

/-- The shape of `set_state`, `set_built`, `set_failed` and `acknowledge`: look the operation up,
check its state, change the record in memory, then persist it.  The change in memory stays even if
persisting fails. -/
def World.changeRecord (pluginId : PluginId) (operationId : Uuid)
    (refuse : PluginInstallOperation → Option InstallOperationError)
    (change : StoredOperation → StoredOperation) (outcome : Outcome) (w : World) :
    Except InstallOperationError PluginInstallOperation × World :=
  match w.state.matchingOperation pluginId operationId with
  | .error error => (.error error, w)
  | .ok stored =>
    match refuse stored.operation with
    | some error => (.error error, w)
    | none =>
      let stored := change stored
      let state := { w.state with operations := w.state.operations.insert operationId stored }
      let (result, w) := { w with state }.persistRecord outcome stored
      (result.map fun _ => stored.operation, w)

/-- `set_state`: a terminal state only goes to itself. -/
def World.setState (pluginId : PluginId) (operationId : Uuid)
    (stateValue : PluginInstallOperationState) (errorCode : Option String) (now : Timestamp) :
    Outcome → World → Except InstallOperationError PluginInstallOperation × World :=
  World.changeRecord pluginId operationId (fun operation =>
      if operation.state.isTerminal ∧ operation.state ≠ stateValue then some .invalidTransition
      else none)
    (fun stored =>
      { stored with
        operation := { stored.operation with state := stateValue, errorCode := errorCode }
        updatedAt := now })

/-- `set_built`: only from `building`. -/
def World.setBuilt (pluginId : PluginId) (operationId : Uuid) (artifact : PluginInstallArtifact)
    (buildLogs : List PluginBuildLog) (now : Timestamp) :
    Outcome → World → Except InstallOperationError PluginInstallOperation × World :=
  World.changeRecord pluginId operationId
    (fun operation => if operation.state ≠ .building then some .invalidTransition else none)
    (fun stored =>
      { stored with
        operation := { stored.operation with
          state := .built, artifact := some artifact, buildLogs := buildLogs, errorCode := none }
        updatedAt := now })

/-- `set_failed`: from any state, terminal ones included. -/
def World.setFailed (pluginId : PluginId) (operationId : Uuid) (errorCode : String)
    (buildLogs : List PluginBuildLog) (now : Timestamp) :
    Outcome → World → Except InstallOperationError PluginInstallOperation × World :=
  World.changeRecord pluginId operationId (fun _ => none) (fun stored =>
      { stored with
        operation := { stored.operation with
          state := .failed, errorCode := some errorCode, buildLogs := buildLogs }
        updatedAt := now })

def World.acknowledge (pluginId : PluginId) (operationId : Uuid) (now : Timestamp) :
    Outcome → World → Except InstallOperationError PluginInstallOperation × World :=
  World.changeRecord pluginId operationId
    (fun operation => if operation.state.isTerminal then none else some .notTerminal)
    (fun stored =>
      { stored with
        operation := { stored.operation with acknowledged := true }
        updatedAt := now })

/-- The record `begin` creates. -/
def acceptedOperation (installationId : String) (pluginId : PluginId) (operationId : Uuid)
    (now : Timestamp) (sequence : Nat) : StoredOperation where
  installationId := installationId
  operation :=
    { operationId, pluginId, state := .accepted, artifact := none, buildLogs := []
      errorCode := none, acknowledged := false }
  createdAt := now
  updatedAt := now
  sequence := sequence

/-- The block of `begin` under the mutex.  The flag says whether a build has to be started. -/
def World.register (installationId : String) (pluginId : PluginId) (operationId : Uuid)
    (now : Timestamp) (outcome : Outcome) (w : World) :
    Except InstallOperationError (PluginInstallOperation × Bool) × World :=
  match w.state.operations[operationId]? with
  | some existing =>
    if existing.operation.pluginId ≠ pluginId then (.error .operationIdMismatch, w)
    else (.ok (existing.operation, false), w)
  | none =>
    if (valuesOf w.state.operations).any fun stored => !stored.operation.state.isTerminal then
      (.error .buildBusy, w)
    else if ((valuesOf w.state.operations).filter fun stored =>
        !stored.operation.acknowledged).length ≥ maxUnacknowledgedOperations then
      (.error .operationCapacityReached, w)
    else
      let stored := acceptedOperation installationId pluginId operationId now w.state.nextSequence
      let w := { w with
        state.nextSequence := nextSequenceAfter w.state.nextSequence }
      match w.persistRecord outcome stored with
      | (.error error, w) => (.error error, w)
      | (.ok _, w) =>
        (.ok (stored.operation, true),
          { w with state.operations := w.state.operations.insert operationId stored })

/-- The operations `list` reports, in begin order. -/
def OperationState.unacknowledged (installationId : String) (state : OperationState) : List StoredOperation :=
  ((valuesOf state.operations).filter fun stored =>
    stored.installationId = installationId && !stored.operation.acknowledged).insertionSort
      fun a b => a.sequence ≤ b.sequence

/-- The first block of `cleanup_acknowledged`. -/
def OperationState.expired (now : Timestamp) (state : OperationState) : List Uuid :=
  (state.operations.toList.filter fun (_, stored) =>
    stored.operation.acknowledged && stored.operation.state.isTerminal &&
      decide (now - stored.updatedAt ≥ acknowledgedRetention)).map Prod.fst

def World.forgetOne (w : World) (operationId : Uuid) : World :=
  { w with
    records := w.records.erase operationId
    state.operations := w.state.operations.erase operationId }

/-- The second block of `cleanup_acknowledged`: a file that cannot be removed stops the loop. -/
def World.forget (operationIds : List Uuid) (outcome : Outcome) (w : World) :
    Except InstallOperationError Unit × World :=
  let stop (count : Nat) : Except InstallOperationError Unit × World :=
    (match operationIds[count]? with
      | some operationId => .error (.io (.operationRecord operationId))
      | none => .ok (),
    (operationIds.take count).foldl World.forgetOne w)
  match outcome with
  | .failedBefore _ => stop 0
  | .stoppedAfter count => stop count
  | _ => (.ok (), operationIds.foldl World.forgetOne w)

/-! ## Reading the journal back -/

/-- An entry of the `operations` directory. -/
inductive OperationsEntry where
  | record (stored : StoredOperation)
  | temporary (id : Uuid)

/-- `path.extension()`: `<op>.json` has one, the hidden name `.write-<uuid>` has none. -/
def OperationsEntry.extension : OperationsEntry → Option String
  | .record _ => some "json"
  | .temporary _ => none

def OperationsEntry.content : OperationsEntry → Option StoredOperation
  | .record stored => some stored
  | .temporary _ => none

/-- `fs::read_dir(operations_dir)`. -/
def World.readOperationsDir (w : World) : List OperationsEntry :=
  (valuesOf w.records).map .record ++ w.temporaries.map .temporary

/-- One turn of the loop that ends `load_state`. -/
def OperationState.load (state : OperationState) (record : StoredOperation) : OperationState where
  nextSequence := max state.nextSequence (nextSequenceAfter record.sequence)
  operations := state.operations.insert record.operation.operationId record

/-- `load_state`: every `.json` entry, in begin order. -/
def loadState (entries : List OperationsEntry) : OperationState :=
  ((entries.filterMap fun entry =>
      if entry.extension = some "json" then entry.content else none).insertionSort
    fun a b => a.sequence ≤ b.sequence).foldl OperationState.load {}

/-! ## File-system actions -/

def World.directory (w : World) : Directory → Option InstallDirectory
  | .candidate operationId => w.candidates operationId
  | .installed pluginId => w.installed pluginId

def World.setDirectory (w : World) : Directory → Option InstallDirectory → World
  | .candidate operationId, content =>
      { w with candidates := Function.update w.candidates operationId content }
  | .installed pluginId, content =>
      { w with installed := Function.update w.installed pluginId content }

/-- `fs::rename` of a whole directory: the target must be absent or empty. -/
def World.moveInto (target : Directory) (content : InstallDirectory) (w : World) : Option World :=
  match w.directory target with
  | none => some (w.setDirectory target (some content))
  | some present =>
    if present.isEmpty then some (w.setDirectory target (some content)) else none

/-- A step that does nothing but can fail. -/
def attempt (path : StorePath) : Outcome → Except InstallOperationError Unit
  | .failedBefore _ | .failedAfter => .error (.io path)
  | _ => .ok ()

/-- `fs::rename(candidate_dir, installed_dir)`. -/
def World.renameCandidate (pluginId : PluginId) (operationId : Uuid) (outcome : Outcome)
    (w : World) : Except InstallOperationError Unit × World :=
  let failed : Except InstallOperationError Unit := .error (.io (.candidateDir operationId))
  match outcome, w.candidates operationId with
  | .failedBefore _, _ => (failed, w)
  | _, none => (failed, w)
  | outcome, some content =>
    match (w.setDirectory (.candidate operationId) none).moveInto (.installed pluginId) content with
    | none => (failed, w)
    | some moved => (if outcome matches .failedAfter then failed else .ok (), moved)

/-- The part of `write_candidate` after its existence check.  The files are written into a fresh
directory nobody else looks at; the rename makes them the candidate. -/
def World.publishCandidate (operationId : Uuid) (found : InstallAttestation)
    (manifest : List UInt8) (outcome : Outcome) (w : World) : Except InstallOperationError Unit × World :=
  let failed : Except InstallOperationError Unit := .error (.io .candidatesParent)
  match outcome with
  | .failedBefore _ => (failed, w)
  | outcome =>
    match w.moveInto (.candidate operationId) ⟨some found, some manifest⟩ with
    | none => (failed, w)
    | some moved => (if outcome matches .failedAfter then failed else .ok (), moved)

/-- `remove_directory`: a missing directory counts as removed. -/
def World.removeDirectory (target : Directory) (outcome : Outcome) (w : World) :
    Except InstallOperationError Unit × World :=
  let failed : Except InstallOperationError Unit := .error (.io target.path)
  match outcome with
  | .failedBefore _ => (failed, w)
  | .failedAfter => (failed, w.setDirectory target none)
  | .torn keepAttestation keepManifest =>
      (failed, w.setDirectory target ((w.directory target).map fun present =>
        { attestation := if keepAttestation then present.attestation else none
          manifest := if keepManifest then present.manifest else none }))
  | _ => (.ok (), w.setDirectory target none)

/-- `remove_file_if_exists`, for the mirror files. -/
def World.removeFile (file : MirrorFile) (outcome : Outcome) (w : World) :
    Except InstallOperationError Unit × World :=
  let removed : World := match file with
    | .preparedRequest operationId =>
        { w with prepared := Function.update w.prepared operationId none }
    | .mirroredGrant operationId =>
        { w with mirroredGrants := Function.update w.mirroredGrants operationId false }
    | .grant grantId => { w with grants := Function.update w.grants grantId false }
  match outcome with
  | .failedBefore _ => (.error (.io file.path), w)
  | .failedAfter => (.error (.io file.path), removed)
  | _ => (.ok (), removed)

/-! ## The build adapter -/

/-- `InstallBuildAdapter::build`: the environment chooses the result; a returned image exists. -/
def World.build (operationId : Uuid) (outcome : Outcome) (w : World) :
    Except BuildAdapterError BuildOutput × World :=
  match outcome with
  | .built (.ok output) =>
      (.ok output, { w with images := Function.update w.images output.artifact.imageId (some operationId) })
  | .built (.error error) => (.error error, w)
  | _ => (.error ⟨"BUILD_FAILED", []⟩, w)

/-- `InstallBuildAdapter::remove_image`.  Docker's answer that there is no such image is an error like any
other, so `failedBefore` is also what happens to an image that is gone. -/
def World.removeImage (imageId : String) (outcome : Outcome) (w : World) :
    Except BuildAdapterError Unit × World :=
  let failed : Except BuildAdapterError Unit := .error ⟨"DOCKER_IMAGE_REMOVE_FAILED", []⟩
  let removed : World := { w with images := Function.update w.images imageId none }
  match outcome with
  | .failedBefore _ => (failed, w)
  | .failedAfter => (failed, removed)
  | _ => (.ok (), removed)

/-- `InstallBuildAdapter::cleanup_temporary_resources`: containers and networks only. -/
def cleanupTemporaryResources : Outcome → Except BuildAdapterError Unit
  | .failedBefore _ | .failedAfter => .error ⟨"CLEANUP_FAILED", []⟩
  | _ => .ok ()

/-! ## The meaning of a step -/

def exec (installationId : String) : (a : Act) → Outcome → World → a.Resp × World
  | .status pluginId operationId, _, w =>
      ((w.state.matchingOperation pluginId operationId).map StoredOperation.operation, w)
  | .register pluginId operationId now, outcome, w =>
      w.register installationId pluginId operationId now outcome
  | .setState pluginId operationId state errorCode now, outcome, w =>
      w.setState pluginId operationId state errorCode now outcome
  | .setBuilt pluginId operationId artifact buildLogs now, outcome, w =>
      w.setBuilt pluginId operationId artifact buildLogs now outcome
  | .setFailed pluginId operationId errorCode buildLogs now, outcome, w =>
      w.setFailed pluginId operationId errorCode buildLogs now outcome
  | .acknowledge pluginId operationId now, outcome, w =>
      w.acknowledge pluginId operationId now outcome
  | .operations, _, w => ((valuesOf w.state.operations).map StoredOperation.operation, w)
  | .unacknowledged, _, w => (w.state.unacknowledged installationId, w)
  | .expired now, _, w => (w.state.expired now, w)
  | .forget operationIds, outcome, w => w.forget operationIds outcome
  | .ensureLayout, outcome, w => (attempt .layout outcome, w)
  | .loadState, outcome, w =>
      match attempt .operationsDir outcome with
      | .error error => (.error error, w)
      | .ok () => (.ok (), { w with state := loadState w.readOperationsDir })
  | .directoryExists directory, outcome, w =>
      -- `Path::exists` answers `false` on any error
      (if outcome matches .failedBefore _ then false else (w.directory directory).isSome, w)
  | .readAttestation directory, outcome, w =>
      (if outcome matches .failedBefore _ then none
        else (w.directory directory).bind InstallDirectory.attestation, w)
  | .createInstalledParent, outcome, w => (attempt .installedParent outcome, w)
  | .renameCandidate pluginId operationId, outcome, w =>
      w.renameCandidate pluginId operationId outcome
  | .syncInstalledParent, outcome, w => (attempt .installedParent outcome, w)
  | .publishCandidate operationId found manifest, outcome, w =>
      w.publishCandidate operationId found manifest outcome
  | .removeDirectory directory, outcome, w => w.removeDirectory directory outcome
  | .readPrepared operationId, outcome, w =>
      (if outcome matches .failedBefore _ then none
        else (w.prepared operationId).bind PreparedRequest.riskGrantId, w)
  | .removeFile file, outcome, w => w.removeFile file outcome
  | .build _ operationId, outcome, w => w.build operationId outcome
  | .removeImage imageId, outcome, w => w.removeImage imageId outcome
  | .cleanupTemporaryResources _, outcome, w => (cleanupTemporaryResources outcome, w)
  | .utcNow, outcome, w => (match outcome with | .clock now => now | _ => 0, w)
  | .spawnBuild .., _, w => ((), w)

end AudioDown.Supervisor
