/-
# AudioDown.Package.System — inspections, installations and builds side by side

The plugin data directory with any number of calls on it.  Time passes between any two accesses, accesses fail
at will, and one that reports a failure may still have had its effect.  `Permits` says what each kind of call
asks for given what it was answered so far; the outlines show that the programs keep to it.
-/
import AudioDown.Package.Staging

namespace AudioDown.Package

open Lib
open Lib.Crew (Trail Face noted_bind)
open Supervisor
open Manager (InstallPluginCommand expired)

/-! ## The shared state -/

/-- The plugin data directory and the clock; `known` are the ids that somebody drew or mentioned. -/
structure Files where
  clock : Timestamp
  staging : List (Uuid × Snapshot)
  prepared : List (Uuid × PreparedMetadata)
  grants : List (Uuid × GrantMirror)
  known : List Uuid

def lookup {α : Type} (files : List (Uuid × α)) (id : Uuid) : Option α :=
  (files.find? fun file => file.1 = id).map Prod.snd

def removed {α : Type} (files : List (Uuid × α)) (id : Uuid) : List (Uuid × α) :=
  files.filter fun file => file.1 ≠ id

/-- What the environment decides about an access. -/
structure Choice where
  failed : Bool
  /-- a failed write took effect all the same -/
  applied : Bool
  uuid : Uuid
  listing : List Uuid
  download : Option Download
  authorization : Except LifecycleAuthorizationError Unit
  records : Option (List (PluginId × Bool))

def Choice.effective (c : Choice) : Bool := !c.failed || c.applied

def Choice.read {α : Type} (c : Choice) (file : Option α) : Except ReadError α :=
  if c.failed then .error .io
  else match file with
    | none => .error .missing
    | some content => .ok content

def exec : (a : Act) → Choice → Files → a.Resp × Files
  | .utcNow, _, s => (s.clock, s)
  | .newUuid, c, s => (c.uuid, { s with known := c.uuid :: s.known })
  | .readStaging, c, s => (if c.failed then .error .io else .ok c.listing, s)
  | .readSnapshot id, c, s => (c.read ((lookup s.staging id).map (·.metadata)), s)
  | .readRepository id, c, s => (c.read ((lookup s.staging id).map (·.repository)), s)
  -- `remove_dir_all` that fails half way has destroyed the snapshot too
  | .removeSnapshot id, c, s => (!c.failed, { s with staging := removed s.staging id })
  | .placeSnapshot download createdAt, c, s =>
    (if c.failed then .error () else .ok c.uuid,
      if c.effective then
        { s with
          staging := (c.uuid, ⟨Manager.snapshotMetadata download c.uuid createdAt, download.repository⟩) ::
            s.staging
          known := c.uuid :: s.known }
      else s)
  | .writeGrant grant, c, s =>
    (!c.failed, if c.effective then
      { s with grants := (grant.grantId, grant) :: removed s.grants grant.grantId } else s)
  | .removeGrant id, c, s => (!c.failed, if c.effective then { s with grants := removed s.grants id } else s)
  | .writePrepared prepared, c, s =>
    (if c.failed then .error () else .ok c.uuid,
      if c.effective then
        { s with prepared := (c.uuid, prepared c.uuid) :: s.prepared, known := c.uuid :: s.known }
      else s)
  | .readPrepared operationId, c, s => (c.read (lookup s.prepared operationId), s)
  | .readGrant id, c, s => (c.read (lookup s.grants id), s)
  | .download _, c, s => (c.download, s)
  | .authorize _, c, s => (c.authorization, s)
  | .listInstallRecords, c, s => (c.records, s)
  | .archiveSource id _, c, s => (if c.failed then none else (lookup s.staging id).map (·.repository), s)
  | .persistRiskGrant _, c, s | .beginInstall _ _, c, s | .reserve _, c, s | .createProxy _, c, s
  | .configureBuilder _ _, c, s => (!c.failed, s)

/-! ## Calls -/

inductive Call where
  | inspect (url : String)
  | install (command : InstallPluginCommand)
  | build (pluginId : PluginId) (operationId : Uuid)

variable (F : Formats)

def Call.program : Call → Prog Act Act.Resp Unit
  | .inspect url => (Manager.inspectRepository url).run.bind fun _ => .ret ()
  | .install command => (Manager.install F command).run.bind fun _ => .ret ()
  | .build pluginId operationId => (Prepared.executeBuild F pluginId operationId).run.bind fun _ => .ret ()

def Call.mentions : Call → List Uuid
  | .inspect _ => []
  | .install command => [command.snapshotId]
  | .build _ operationId => [operationId]

inductive Event where
  | tick (duration : Nat)
  | call (c : Call)
  /-- the Supervisor cleans up after an operation -/
  | removePrepared (operationId : Uuid)
  | removeGrant (id : Uuid)

abbrev Notes := Trail Act Act.Resp

abbrev Worker := Lib.Worker Call Notes Act Act.Resp Unit

/-- Builds are asked for by the id of an operation that exists or existed. -/
def happen : Event → Files → Option (Files × List Worker)
  | .tick d, s => some ({ s with clock := s.clock + d }, [])
  | .call c, s =>
    match c with
    | .build _ operationId =>
      if s.known.contains operationId then some (s, [⟨c, [], c.program F⟩]) else none
    | _ => some ({ s with known := c.mentions ++ s.known }, [⟨c, [], c.program F⟩])
  | .removePrepared operationId, s => some ({ s with prepared := removed s.prepared operationId }, [])
  | .removeGrant id, s => some ({ s with grants := removed s.grants id }, [])

def system : Lib.Crew.System Call Notes Act Act.Resp Unit Choice Files Event where
  sem := exec
  note := Trail.note
  fork _ _ _ := []
  env := happen F

abbrev State := Lib.Crew.State Call Notes Act Act.Resp Unit Files

abbrev Label := Lib.Crew.Label Choice Event

def Fresh (s : Files) : Label → Prop
  | .work _ c => c.uuid ∉ s.known
  | .event _ => True

section
variable (trail : Notes)

/-- The age check was passed: at a reading of the clock the snapshot was young enough. -/
def Loaded (command : InstallPluginCommand) : Prop :=
  ∃ now metadata, ⟨.utcNow, now⟩ ∈ trail ∧ ⟨.readSnapshot command.snapshotId, .ok metadata⟩ ∈ trail ∧
    expired now metadata.createdAt = false

/-- The grant was approved, authorised and stored. -/
structure Authorised (command : InstallPluginCommand) (grant : LifecycleRiskGrant) : Prop where
  approved : command.lifecycleRisk.explicitlyApproved = true
  authorised : ⟨.authorize command.lifecycleRisk.developerToken, .ok ()⟩ ∈ trail
  drawn : ⟨.newUuid, grant.id⟩ ∈ trail
  stored : ⟨.persistRiskGrant grant, true⟩ ∈ trail

/-- What `prepare_install` has checked before it writes the operation. -/
structure Prepares (command : InstallPluginCommand) (metadata : SnapshotMetadata) (plugin : SnapshotPlugin)
    (grant : Option LifecycleRiskGrant) (prepared : Uuid → PreparedMetadata) : Prop where
  loaded : Loaded trail command
  snapshot : ⟨.readSnapshot command.snapshotId, .ok metadata⟩ ∈ trail
  found : Manager.findPlugin metadata command.pluginId = .ok plugin
  valid : Manager.validateGrant metadata plugin grant = .ok ()
  authorised : ∀ g, grant = some g → Authorised trail command g
  operation : prepared = Manager.preparedMetadata metadata plugin command.snapshotId command.pluginId grant

/-- What the Supervisor has read and checked before it starts a container. -/
structure Builds (pluginId : PluginId) (operationId : Uuid) (prepared : PreparedMetadata)
    (metadata : SnapshotMetadata) (plugin : SnapshotPlugin) (repository archived : Tree)
    (pluginRoot : List String) (manifest : PluginManifest) : Prop where
  operation : ⟨.readPrepared operationId, .ok prepared⟩ ∈ trail
  identity : Prepared.checkIdentity prepared pluginId operationId = .ok ()
  snapshot : ∃ now, Prepared.checkSnapshot prepared metadata now = .ok plugin
  tree : ⟨.readRepository prepared.snapshotId, .ok repository⟩ ∈ trail
  checked : Prepared.checkTree F prepared plugin (some repository) = .ok (pluginRoot, manifest)
  grant : prepared.allowLifecycleScripts = true →
    ∃ g mirror, prepared.riskGrantId = some g ∧ ⟨.readGrant g, .ok mirror⟩ ∈ trail
  archive : ⟨.archiveSource prepared.snapshotId pluginRoot, some archived⟩ ∈ trail

end

/-- What a call may ask, given what is on its trail. -/
def Permits : Call → Notes → Act → Prop
  | .inspect _, trail, .removeSnapshot id => ∃ now metadata, ⟨.utcNow, now⟩ ∈ trail ∧
      ⟨.readSnapshot id, .ok metadata⟩ ∈ trail ∧ expired now metadata.createdAt = true
  | .inspect _, _, .writeGrant _ | .inspect _, _, .writePrepared _ | .inspect _, _, .configureBuilder _ _ =>
      False
  | .install command, trail, .utcNow => trail = [] ∨ Loaded trail command
  | .install command, trail, .writePrepared prepared =>
      ∃ metadata plugin grant, Prepares trail command metadata plugin grant prepared
  | .install _, trail, .writeGrant grant => ⟨.newUuid, grant.grantId⟩ ∈ trail
  | .install _, _, .removeSnapshot _ | .install _, _, .placeSnapshot _ _
  | .install _, _, .configureBuilder _ _ => False
  | .build pluginId operationId, trail, .configureBuilder o allow => o = operationId ∧
      ∃ prepared metadata plugin repository archived pluginRoot manifest,
        Builds F trail pluginId operationId prepared metadata plugin repository archived pluginRoot manifest ∧
          allow = prepared.allowLifecycleScripts
  | .build _ _, _, .removeSnapshot _ | .build _ _, _, .placeSnapshot _ _ | .build _ _, _, .writeGrant _
  | .build _ _, _, .writePrepared _ => False
  | _, _, _ => True

/-! ## Outlines -/

variable {F} {trail : Notes}

theorem Loaded.mono {command : InstallPluginCommand} {trail' : Notes} (h : Loaded trail command)
    (sub : trail ⊆ trail') : Loaded trail' command := by
  obtain ⟨now, metadata, hnow, hread, hage⟩ := h
  exact ⟨now, metadata, sub hnow, sub hread, hage⟩

theorem Authorised.mono {command : InstallPluginCommand} {grant : LifecycleRiskGrant} {trail' : Notes}
    (h : Authorised trail command grant) (sub : trail ⊆ trail') : Authorised trail' command grant :=
  ⟨h.approved, sub h.authorised, sub h.drawn, sub h.stored⟩

theorem mapError_eq_ok {ε ε' α : Type} {f : ε → ε'} {r : Except ε α} {value : α}
    (h : r.mapError f = .ok value) : r = .ok value := by
  cases r with
  | error e => cases h
  | ok a =>
    cases h
    rfl

theorem loadSnapshot_noted (lawful : F.Lawful) {P : Notes → Act → Prop} {id : Uuid}
    (hP : P trail (.readSnapshot id)) : Noted Trail.note P (fun metadata t => ⟨.readSnapshot id,
      .ok metadata⟩ ∈ t) trail (Manager.loadSnapshot F id) := by
  refine .asking hP fun r metadata h => ?_
  obtain ⟨stored, hstored, hparsed⟩ := Lib.bind_eq_ok h
  obtain ⟨back, hback, hchecked⟩ := Lib.bind_eq_ok hparsed
  obtain ⟨-, hreturned⟩ := Lib.require_bind_eq_ok.mp hchecked
  obtain rfl := mapError_eq_ok hstored
  obtain rfl := lawful.readBack _ _ (Lib.okOr_eq_ok.mp hback)
  cases hreturned
  exact List.mem_cons_self

/-! ### Inspections -/

variable {now : Timestamp}

section
variable {command : InstallPluginCommand}

theorem loadPlugin_noted (lawful : F.Lawful) (hnow : ⟨.utcNow, now⟩ ∈ trail) :
    Noted Trail.note (Permits F (.install command)) (fun _ t => Loaded t command) trail
      (Manager.loadPlugin F command.snapshotId command.pluginId now) := by
  refine noted_bind (loadSnapshot_noted lawful trivial) fun metadata t hread sub => ?_
  refine .bind (Q := fun _ t => Loaded t command) (.checking fun _ hage => ?_) fun _ t hloaded => ?_
  · rw [Lib.require_eq_ok, Bool.not_eq_true'] at hage
    exact ⟨now, metadata, sub hnow, hread, hage⟩
  refine .bind (Q := fun _ t => Loaded t command) (.checking fun _ _ => hloaded)
    fun plugin t hloaded => ?_
  exact .asking trivial fun _ _ _ => hloaded.mono (List.subset_cons_self _ _)

/-- What is known of a grant before it is stored. -/
structure Obtained (trail : Notes) (command : InstallPluginCommand) (grant : LifecycleRiskGrant) : Prop where
  approved : command.lifecycleRisk.explicitlyApproved = true
  authorised : ⟨.authorize command.lifecycleRisk.developerToken, .ok ()⟩ ∈ trail
  drawn : ⟨.newUuid, grant.id⟩ ∈ trail

theorem authorizeLifecycleRisk_noted (staged : Manager.StagedPlugin) (hloaded : Loaded trail command) :
    Noted Trail.note (Permits F (.install command)) (fun grant t => Loaded t command ∧ ∀ g, grant = some g →
      Obtained t command g) trail (Manager.authorizeLifecycleRisk staged command.lifecycleRisk) := by
  unfold Manager.authorizeLifecycleRisk
  split
  · exact .pure ⟨hloaded, nofun⟩
  refine noted_bind (Q := fun _ _ => command.lifecycleRisk.explicitlyApproved = true)
    (.checking fun _ h => Lib.require_eq_ok.mp h) fun _ t₁ happroved sub₁ => ?_
  refine noted_bind (Q := fun _ t => ⟨.authorize command.lifecycleRisk.developerToken, .ok ()⟩ ∈ t)
    (.asking trivial ?_) fun _ t₂ hauthorised sub₂ => ?_
  · intro r _ h
    obtain rfl := mapError_eq_ok h
    exact List.mem_cons_self
  refine noted_bind (Q := fun _ _ => True) (.checking fun _ _ => trivial) fun reason t₃ _ sub₃ => ?_
  refine noted_bind (Q := fun id t => ⟨.newUuid, id⟩ ∈ t) (.asking trivial ?_)
    fun id t₄ hid sub₄ => ?_
  · rintro r _ ⟨⟩
    exact List.mem_cons_self
  have hloaded₄ : Loaded t₄ command := ((hloaded.mono sub₁).mono sub₂).mono (List.Subset.trans sub₃ sub₄)
  refine noted_bind (Q := fun _ _ => True) (.asking (.inr hloaded₄) fun _ _ _ => trivial)
    fun grantedAt t₅ _ sub₅ => ?_
  refine .pure ⟨hloaded₄.mono sub₅, ?_⟩
  rintro g ⟨⟩
  exact ⟨happroved, sub₅ (sub₄ (sub₃ hauthorised)), sub₅ hid⟩

variable {grant : Option LifecycleRiskGrant}

theorem persistGrant_noted (h : ∀ g, grant = some g → Obtained trail command g) :
    Noted Trail.note (Permits F (.install command))
      (fun _ t => ∀ g, grant = some g → Authorised t command g) trail (Manager.persistGrant grant) := by
  cases grant with
  | none => exact .pure nofun
  | some g =>
    refine .asking trivial fun r _ hr => ?_
    rintro g' ⟨⟩
    obtain ⟨happroved, hauthorised, hdrawn⟩ := h g rfl
    obtain rfl : r = true := Lib.require_eq_ok.mp hr
    exact ⟨happroved, List.mem_cons_of_mem _ hauthorised, List.mem_cons_of_mem _ hdrawn, List.mem_cons_self⟩

theorem mirrorGrant_noted (h : ∀ g, grant = some g → Authorised trail command g) :
    Noted Trail.note (Permits F (.install command)) (fun _ _ => True) trail (Manager.mirrorGrant grant) := by
  cases grant with
  | none => exact .pure trivial
  | some g => exact .asking (h g rfl).drawn fun _ _ _ => trivial

theorem writeOperation_noted {prepared : Uuid → PreparedMetadata} {metadata : SnapshotMetadata}
    {plugin : SnapshotPlugin} (h : Prepares trail command metadata plugin grant prepared) :
    Noted Trail.note (Permits F (.install command)) (fun _ _ => True) trail
      (Manager.writeOperation prepared grant) := by
  refine .bind (Q := fun _ _ => True) (.asking ⟨metadata, plugin, grant, h⟩ fun _ _ _ => trivial) ?_
  intro written t _
  cases written with
  | ok operationId => exact .pure trivial
  | error e =>
    cases grant with
    | none => exact .throw
    | some g =>
      refine .bind (Q := fun _ _ => True) (.asking trivial fun _ _ _ => trivial) ?_
      exact fun _ _ _ => .throw

theorem prepareInstall_noted (lawful : F.Lawful) (hloaded : Loaded trail command)
    (hgrant : ∀ g, grant = some g → Authorised trail command g) :
    Noted Trail.note (Permits F (.install command)) (fun _ _ => True) trail
      (Manager.prepareInstall F command.snapshotId command.pluginId grant) := by
  refine noted_bind (loadSnapshot_noted lawful trivial) fun metadata t₁ hread sub₁ => ?_
  refine noted_bind (Q := fun plugin _ => Manager.findPlugin metadata command.pluginId = .ok plugin)
    (Noted.checking fun _ h => h) fun plugin t₂ hplugin sub₂ => ?_
  refine noted_bind (Q := fun _ _ => Manager.validateGrant metadata plugin grant = .ok ())
    (Noted.checking fun _ h => h) fun _ t₃ hvalid sub₃ => ?_
  have sub : trail ⊆ t₃ := List.Subset.trans sub₁ (List.Subset.trans sub₂ sub₃)
  have hgrant₃ : ∀ g, grant = some g → Authorised t₃ command g := fun g hg => (hgrant g hg).mono sub
  refine noted_bind (mirrorGrant_noted hgrant₃) fun _ t₄ _ sub₄ => ?_
  have prepares : Prepares t₄ command metadata plugin grant
      (Manager.preparedMetadata metadata plugin command.snapshotId command.pluginId grant) :=
    ⟨(hloaded.mono sub).mono sub₄, sub₄ (sub₃ (sub₂ hread)), hplugin, hvalid,
      fun g hg => (hgrant₃ g hg).mono sub₄, rfl⟩
  exact writeOperation_noted prepares

theorem install_noted (lawful : F.Lawful) (command : InstallPluginCommand) :
    Noted Trail.note (Permits F (.install command)) (fun _ _ => True) [] (Manager.install F command) := by
  refine noted_bind (Q := fun now t => ⟨.utcNow, now⟩ ∈ t) (.asking (.inl rfl) ?_)
    fun now t₁ hnow _ => ?_
  · rintro r _ ⟨⟩
    exact List.mem_cons_self
  refine .bind (.mapErrors (loadPlugin_noted lawful hnow)) fun staged t₂ hloaded => ?_
  refine noted_bind (Q := fun _ _ => True) (.asking trivial fun _ _ _ => trivial)
    fun _ t₃ _ sub₃ => ?_
  refine .bind (authorizeLifecycleRisk_noted staged (hloaded.mono sub₃))
    fun grant t₄ hobtained => ?_
  refine noted_bind (persistGrant_noted hobtained.2) fun _ t₅ hgrant sub₅ => ?_
  refine .bind (.mapErrors (prepareInstall_noted lawful (hobtained.1.mono sub₅) hgrant))
    fun operationId t₆ _ => ?_
  exact .asking trivial fun _ _ _ => trivial

end

/-! ### Builds -/

section
variable {pluginId : PluginId} {operationId : Uuid}

end

theorem happen_started {e : Event} {s s' : Files} {started : List Worker}
    (h : happen F e s = some (s', started)) : ∀ w ∈ started, ∃ c : Call, w = ⟨c, [], c.program F⟩ := by
  intro w hw
  cases e with
  | call c =>
    cases c with
    | build pluginId operationId =>
      simp only [happen] at h
      split at h
      · cases h
        exact ⟨_, List.mem_singleton.mp hw⟩
      · cases h
    | inspect url =>
      cases h
      exact ⟨_, List.mem_singleton.mp hw⟩
    | install command =>
      cases h
      exact ⟨_, List.mem_singleton.mp hw⟩
  | tick d => cases h; cases hw
  | removePrepared o => cases h; cases hw
  | removeGrant g => cases h; cases hw

end AudioDown.Package
