/-
# AudioDown.Core.Records — Core's plugin records and the table that keeps them

Core remembers an installation as one row of `plugins`: which artifact it carries, the operation that
is installing it, and where it stands in its life (`PluginStatus`).  The table has the plugin id as its
primary key (`AudioDown.Lib.Table`), so a row is looked up by its id and nothing else.  Fields that no
modelled function reads (name, protocol version, install time) are left out.
-/
import AudioDown.Lib.Table
import AudioDown.Supervisor.Operation
import Mathlib.Data.List.Sort

namespace AudioDown.Core

open Lib (Table)
open Supervisor

inductive PluginStatus where
  | installing
  | installed
  | starting
  | healthy
  | stopped
  | unhealthy
  | disabled
deriving DecidableEq

inductive PluginType where
  | content
  | credential
deriving DecidableEq

/-- What the modelled code reads of a manifest. -/
structure PluginManifest where
  id : PluginId
  pluginType : PluginType
  capabilities : List String
deriving DecidableEq

structure InstallPluginRecord where
  pluginId : PluginId
  pluginType : PluginType
  version : String
  platformId : String
  commitSha : String
  repositoryId : String
  /-- `manifest_json`, if it reads as a manifest -/
  manifest : Option PluginManifest
  manifestHash : String
  sourceHash : String
  imageId : Option String
  status : PluginStatus
  runMode : RunMode
  priority : Int
  enabled : Bool
  lastError : Option String
  installOperationId : Option Uuid
  lastUsedAt : Option Timestamp
  updatedAt : Timestamp
deriving DecidableEq

/-- What inspection has staged of a plugin. -/
structure StagedPlugin where
  pluginId : PluginId
  pluginType : PluginType
  capabilities : List String
  version : String
  platformId : String
  repositoryId : String
  commitSha : String
  sourceHash : String
  manifestHash : String
deriving DecidableEq

def artifactMatchesStaged (artifact : PluginInstallArtifact) (staged : StagedPlugin) : Bool :=
  artifact.repositoryId = staged.repositoryId && artifact.commitSha = staged.commitSha &&
    artifact.sourceHash = staged.sourceHash && artifact.manifestHash = staged.manifestHash

def artifactMatchesRecord (artifact : PluginInstallArtifact) (record : InstallPluginRecord) : Bool :=
  artifact.repositoryId = record.repositoryId && artifact.commitSha = record.commitSha &&
    artifact.sourceHash = record.sourceHash && artifact.manifestHash = record.manifestHash &&
    record.imageId = some artifact.imageId

def operationIdentityMatches (operation : PluginInstallOperation) (pluginId : PluginId)
    (operationId : Uuid) : Bool :=
  operation.pluginId = pluginId && operation.operationId = operationId

def installRecord (staged : StagedPlugin) (operationId : Uuid) (artifact : PluginInstallArtifact)
    (now : Timestamp) : InstallPluginRecord where
  pluginId := staged.pluginId
  pluginType := staged.pluginType
  version := staged.version
  platformId := staged.platformId
  commitSha := staged.commitSha
  repositoryId := staged.repositoryId
  manifest := some ⟨staged.pluginId, staged.pluginType, staged.capabilities⟩
  manifestHash := staged.manifestHash
  sourceHash := staged.sourceHash
  imageId := some artifact.imageId
  status := .installing
  runMode := .onDemand
  priority := 100
  enabled := true
  lastError := none
  installOperationId := some operationId
  lastUsedAt := none
  updatedAt := now

theorem installRecord_matches {artifact : PluginInstallArtifact} {staged : StagedPlugin}
    (h : artifactMatchesStaged artifact staged = true) (operationId : Uuid) (now : Timestamp) :
    artifactMatchesRecord artifact (installRecord staged operationId artifact now) = true := by
  simp only [artifactMatchesStaged, Bool.and_eq_true, decide_eq_true_eq] at h
  simp [artifactMatchesRecord, installRecord, h]

def inactiveStatus (enabled : Bool) : PluginStatus := if enabled then .stopped else .disabled

/-! ## The `plugins` table -/

inductive StorageError where
  | notFound
  | invalidData
  | constraintViolated
deriving DecidableEq

/-- The rows of `plugins`; the plugin id is the primary key. -/
abbrev PluginStore := Table InstallPluginRecord.pluginId

namespace PluginStore

/-- `SELECT … ORDER BY priority ASC, plugin_id ASC`. -/
def list (store : PluginStore) : List InstallPluginRecord :=
  store.rows.insertionSort fun a b =>
    a.priority < b.priority ∨ a.priority = b.priority ∧ a.pluginId ≤ b.pluginId

/-- `validate_priority`. -/
def validPriority (priority : Int) : Bool := 0 ≤ priority && priority ≤ 1000

def insertInstalling (store : PluginStore) (record : InstallPluginRecord) : Except StorageError PluginStore :=
  if !validPriority record.priority then .error .invalidData
  else if record.status ≠ .installing ∨ record.installOperationId = none then .error .invalidData
  else if absent : store.get record.pluginId = none then .ok (store.add record absent)
  else .error .constraintViolated

/-- `upsert`: a conflicting row is overwritten. -/
def upsert (store : PluginStore) (record : InstallPluginRecord) : Except StorageError PluginStore :=
  if !validPriority record.priority then .error .invalidData
  else if absent : store.get record.pluginId = none then .ok (store.add record absent)
  else
    .ok (store.update (fun row => if row.pluginId = record.pluginId then record else row) fun row => by
      split
      · rename_i h
        exact h.symm
      · rfl)

/-- The `WHERE plugin_id = ? AND install_operation_id = ?` of the next two. -/
def isInstalling (pluginId : PluginId) (operationId : Uuid) (row : InstallPluginRecord) : Bool :=
  row.pluginId = pluginId && row.installOperationId = some operationId

/-- `ensure_one_row`: by the primary key, the condition picks at most one row. -/
def affectsOne (store : PluginStore) (pluginId : PluginId) (operationId : Uuid) : Bool :=
  (store.get pluginId).any fun row => row.installOperationId = some operationId

def completeInstall (store : PluginStore) (pluginId : PluginId) (operationId : Uuid)
    (now : Timestamp) : Except StorageError PluginStore :=
  if store.affectsOne pluginId operationId then
    .ok (store.update (fun row => if isInstalling pluginId operationId row then
        { row with status := .installed, installOperationId := none, updatedAt := now } else row)
      fun row => by split <;> rfl)
  else .error .notFound

def rollbackInstall (store : PluginStore) (pluginId : PluginId) (operationId : Uuid) :
    Except StorageError PluginStore :=
  if store.affectsOne pluginId operationId then .ok (store.remove (isInstalling pluginId operationId))
  else .error .notFound

def touch (store : PluginStore) (pluginId : PluginId) (lastUsedAt now : Timestamp) :
    Except StorageError PluginStore :=
  if (store.get pluginId).isSome then
    .ok (store.update (fun row => if row.pluginId = pluginId then
        { row with lastUsedAt := some lastUsedAt, updatedAt := now } else row)
      fun row => by split <;> rfl)
  else .error .notFound

def delete (store : PluginStore) (pluginId : PluginId) : Except StorageError PluginStore :=
  if (store.get pluginId).isSome then .ok (store.remove fun row => row.pluginId = pluginId)
  else .error .notFound

/-! ### What the statements do to a row -/

variable {store store' : PluginStore} {p q : PluginId} {o : Uuid} {now : Timestamp}
  {record : InstallPluginRecord}

theorem mem_list : record ∈ store.list ↔ store.get record.pluginId = some record := by
  rw [list, List.mem_insertionSort, Table.get_eq_some]
  exact ⟨fun h => ⟨h, rfl⟩, fun h => h.1⟩

theorem find?_list : (store.list.find? fun record => record.pluginId = p) = store.get p :=
  Table.find?_of_mem fun _ => List.mem_insertionSort _

theorem affectsOne_iff : store.affectsOne p o = true ↔
    ∃ record, store.get p = some record ∧ record.installOperationId = some o := by
  simp [affectsOne, Option.any_eq_true]

theorem isInstalling_of_get {row : InstallPluginRecord} (h : store.get q = some row) :
    isInstalling p o row = (decide (q = p) && decide (row.installOperationId = some o)) := by
  rw [isInstalling, Table.key_of_get h]

/-- After `complete_install` the plugin's row is installed and names no operation. -/
theorem get_completeInstall (h : store.completeInstall p o now = .ok store') :
    (∃ record, store.get p = some record ∧ record.installOperationId = some o ∧ store'.get p = some
        { record with status := .installed, installOperationId := none, updatedAt := now }) ∧
    ∀ q, q ≠ p → store'.get q = store.get q := by
  unfold completeInstall at h
  split at h
  · rename_i hone
    cases h
    obtain ⟨record, hget, hop⟩ := affectsOne_iff.mp hone
    refine ⟨⟨record, hget, hop, ?_⟩, fun q hq => ?_⟩
    · rw [Table.get_update, hget, Option.map_some, isInstalling_of_get hget]
      simp [hop]
    · rw [Table.get_update]
      cases hrow : store.get q with
      | none => rfl
      | some row => simp [isInstalling_of_get hrow, hq]
  · cases h

/-- `rollback_install` drops the plugin's row. -/
theorem get_rollbackInstall (h : store.rollbackInstall p o = .ok store') :
    (∃ record, store.get p = some record ∧ record.installOperationId = some o) ∧
      ∀ q, store'.get q = if q = p then none else store.get q := by
  unfold rollbackInstall at h
  split at h
  · rename_i hone
    cases h
    obtain ⟨record, hget, hop⟩ := affectsOne_iff.mp hone
    refine ⟨⟨record, hget, hop⟩, fun q => ?_⟩
    rw [Table.get_remove]
    by_cases hq : q = p
    · subst hq
      rw [hget, Option.filter_some, isInstalling_of_get hget]
      simp [hop]
    · rw [if_neg hq]
      cases hrow : store.get q with
      | none => rfl
      | some row => simp [isInstalling_of_get hrow, hq]
  · cases h

theorem get_upsert (h : store.upsert record = .ok store') (q : PluginId) :
    store'.get q = if q = record.pluginId then some record else store.get q := by
  unfold upsert at h
  split at h
  · cases h
  · split at h
    · cases h
      exact Table.get_add
    · rename_i hpresent
      cases h
      rw [Table.get_update]
      cases hrow : store.get q with
      | none =>
        have hq : q ≠ record.pluginId := by
          rintro rfl
          exact hpresent hrow
        simp [hq]
      | some row =>
        simp only [Option.map_some, Table.key_of_get hrow]
        split <;> rfl

theorem upsert_of_valid (store : PluginStore) (h : validPriority record.priority = true) :
    ∃ store', store.upsert record = .ok store' := by
  unfold upsert
  rw [h]
  by_cases absent : store.get record.pluginId = none
  · exact ⟨_, by simp only [Bool.not_true, Bool.false_eq_true, if_false]; rw [dif_pos absent]⟩
  · exact ⟨_, by simp only [Bool.not_true, Bool.false_eq_true, if_false]; rw [dif_neg absent]⟩

theorem get_insertInstalling (h : store.insertInstalling record = .ok store') :
    record.status = .installing ∧ record.installOperationId ≠ none ∧ store.get record.pluginId = none ∧
      ∀ q, store'.get q = if q = record.pluginId then some record else store.get q := by
  unfold insertInstalling at h
  split at h
  · cases h
  · split at h
    · cases h
    · rename_i hvalid
      rw [not_or, not_not] at hvalid
      split at h
      · rename_i habsent
        cases h
        exact ⟨hvalid.1, hvalid.2, habsent, fun _ => Table.get_add⟩
      · cases h

theorem get_touch {lastUsedAt : Timestamp} (h : store.touch p lastUsedAt now = .ok store') (q : PluginId) :
    store'.get q = (store.get q).map fun row =>
      if q = p then { row with lastUsedAt := some lastUsedAt, updatedAt := now } else row := by
  unfold touch at h
  split at h
  · cases h
    rw [Table.get_update]
    cases hrow : store.get q with
    | none => rfl
    | some row => simp only [Option.map_some, Table.key_of_get hrow]
  · cases h

theorem get_delete (h : store.delete p = .ok store') (q : PluginId) :
    store'.get q = if q = p then none else store.get q := by
  unfold delete at h
  split at h
  · cases h
    rw [Table.get_remove]
    cases hrow : store.get q with
    | none => simp
    | some row =>
      have hkey : row.pluginId = q := Table.key_of_get hrow
      by_cases hq : q = p <;> simp [hkey, hq]
  · cases h

end PluginStore

end AudioDown.Core
