/-
# AudioDown.Supervisor.InstallRecord — what an installed plugin's directory has to say

Starting and removing a plugin both begin by loading its `install.json`: the record has to name the
plugin and this installation, its hashes have to look like hashes and its limits to be the fixed ones,
and the manifest beside it has to hash to what the record says.  From the record come the labels its
image has to carry.

Hashing and parsing a manifest are not modelled; a `ManifestReader` says what they give.  Records of
the older form, which name a fixed image and no labels, are written by hand and not by an
installation; they are left out.
-/
import AudioDown.Supervisor.Store

namespace AudioDown.Supervisor

/-! ## Fields -/

def isLowerHex (value : List Char) (length : Nat) : Bool :=
  value.length == length && value.all fun c => c.isDigit || ('a' ≤ c && c ≤ 'f')

def isLowerHexSha256 (value : String) : Bool := isLowerHex value.toList 64

def isSha256Digest (value : String) : Bool :=
  "sha256:".toList.isPrefixOf value.toList && isLowerHex (value.toList.drop 7) 64

/-- The characters `trim` removes. -/
def isWhiteSpace (c : Char) : Bool :=
  let n := c.toNat
  (9 ≤ n && n ≤ 13) || n == 0x20 || n == 0x85 || n == 0xa0 || n == 0x1680 ||
    (0x2000 ≤ n && n ≤ 0x200a) || n == 0x2028 || n == 0x2029 || n == 0x202f || n == 0x205f ||
    n == 0x3000

/-- What is read of a manifest; Node.js is the only kind of runtime there is. -/
structure RuntimeManifest where
  id : PluginId
  schemaVersion : String
  runtimeVersion : String
  entry : String
deriving DecidableEq

/-- Hashing and parsing of manifests. -/
structure ManifestReader where
  sha256 : List UInt8 → String
  parse : List UInt8 → Option RuntimeManifest

inductive InstallRecordError where
  | read
  | json
  | pluginIdMismatch
  | installationIdMismatch
  | invalidManagedAttestation
  | manifestHashMismatch
  | manifestIdMismatch
  | runtimeNotAllowed
deriving DecidableEq

def validateManifest (reader : ManifestReader) (bytes : List UInt8) (requested : PluginId) :
    Except InstallRecordError RuntimeManifest :=
  match reader.parse bytes with
  | none => .error .json
  | some manifest =>
    if manifest.id ≠ requested then .error .manifestIdMismatch
    else if manifest.schemaVersion ≠ "1.0" ∨ manifest.runtimeVersion ≠ "22" then
      .error .runtimeNotAllowed
    else .ok manifest

/-- `plugin_runtime_path`: the entry is relative and does not climb. -/
def pluginRuntimePath (entry : String) : Except InstallRecordError String :=
  let components := entry.toList.splitOn '/'
  if entry.toList.head? = some '/' ∨ components.contains ['.', '.'] then .error .runtimeNotAllowed
  else .ok ("/plugin/" ++ entry)

/-! ## Loading -/

abbrev ImageLabels := List (String × String)

structure InstalledPlugin where
  pluginId : PluginId
  imageId : String
  installationId : String
  runtimePath : String
  memoryBytes : Int
  nanoCpus : Int
  pidsLimit : Int
deriving DecidableEq

structure ValidatedInstall where
  installed : InstalledPlugin
  manifest : RuntimeManifest
  expectedImageLabels : ImageLabels
deriving DecidableEq

/-- The labels `load_managed` derives from a record. -/
def expectedImageLabels (record : InstallAttestation) : ImageLabels :=
  [("io.audiodown.managed", "true"), ("io.audiodown.installation", record.installationId),
    ("io.audiodown.plugin-id", record.pluginId), ("io.audiodown.commit-sha", record.commitSha),
    ("io.audiodown.source-hash", record.sourceHash),
    ("io.audiodown.manifest-hash", record.manifestHash),
    ("io.audiodown.base-image-digest", record.baseImageDigest),
    ("io.audiodown.sdk-hash", record.sdkHash)]

/-- The checks of `load_managed` that look at the record alone. -/
def validAttestation (record : InstallAttestation) : Bool :=
  record.sourceKind = "github_public_repository" &&
    !record.repositoryId.toList.all isWhiteSpace && isLowerHex record.commitSha.toList 40 &&
    isLowerHexSha256 record.sourceHash && isLowerHexSha256 record.manifestHash &&
    isSha256Digest record.baseImageDigest && isLowerHexSha256 record.sdkHash &&
    record.runMode = .onDemand && record.memoryBytes = 128 * 1024 * 1024 &&
    record.nanoCpus = 500000000 && record.pidsLimit = 64

def loadManaged (reader : ManifestReader) (installationId : String) (requested : PluginId)
    (record : InstallAttestation) (manifest : Option (List UInt8)) :
    Except InstallRecordError ValidatedInstall :=
  if record.pluginId ≠ requested then .error .pluginIdMismatch
  else if record.installationId ≠ installationId then .error .installationIdMismatch
  else if !validAttestation record then .error .invalidManagedAttestation
  else
    match manifest with
    | none => .error .read
    | some bytes =>
      if reader.sha256 bytes ≠ record.manifestHash then .error .manifestHashMismatch
      else do
        let manifest ← validateManifest reader bytes requested
        let runtimePath ← pluginRuntimePath manifest.entry
        return ⟨⟨record.pluginId, record.imageId, record.installationId, runtimePath,
          record.memoryBytes, record.nanoCpus, record.pidsLimit⟩, manifest,
          expectedImageLabels record⟩

def load (reader : ManifestReader) (installationId : String) (requested : PluginId)
    (directory : Option InstallDirectory) : Except InstallRecordError ValidatedInstall :=
  match directory with
  | none => .error .read
  | some directory =>
    match directory.attestation with
    | none => .error .read
    | some record => loadManaged reader installationId requested record directory.manifest

variable {directory : Option InstallDirectory} {install : ValidatedInstall} {installationId : String}
  {p : PluginId} {reader : ManifestReader}

theorem load_eq_ok (h : load reader installationId p directory = .ok install) :
    ∃ d record, directory = some d ∧ d.attestation = some record ∧ record.pluginId = p ∧
      record.installationId = installationId ∧ install.installed.pluginId = p ∧
      install.installed.imageId = record.imageId ∧ install.installed.installationId = installationId ∧
      install.expectedImageLabels = expectedImageLabels record := by
  unfold load at h
  split at h
  · cases h
  rename_i d
  split at h
  · cases h
  rename_i record hrecord
  refine ⟨d, record, rfl, hrecord, ?_⟩
  unfold loadManaged at h
  split at h
  · cases h
  rename_i plugin
  split at h
  · cases h
  rename_i installation
  rw [not_not] at plugin installation
  split at h
  · cases h
  split at h
  · cases h
  split at h
  · cases h
  rename_i bytes _ _
  -- what is left are the two results that `?` passes on
  cases hmanifest : validateManifest reader bytes p with
  | error e => simp [hmanifest, bind, Except.bind] at h
  | ok manifest =>
    cases hpath : pluginRuntimePath manifest.entry with
    | error e => simp [hmanifest, hpath, bind, Except.bind] at h
    | ok path =>
      simp only [hmanifest, hpath, bind, Except.bind, pure, Except.pure, Except.ok.injEq] at h
      subst h
      exact ⟨plugin, installation, plugin, rfl, installation, rfl⟩

/-! ## Removal -/

inductive DockerAdapterError where
  | docker
  | imageLabelMismatch
  | removalAttestationMismatch
  | unsafeInstallDirectory
  | runtimeCleanupFailed
  | handshake
deriving DecidableEq

/-- Whether an image with these labels is the one a record expects. -/
def labelsMatch (expected labels : ImageLabels) : Bool :=
  expected.all fun label => labels.lookup label.1 = some label.2

/-- The checks of `managed_removal_plan` that look at the record alone. -/
def removalAttested (installationId : String) (install : ValidatedInstall) : Bool :=
  install.installed.installationId = installationId &&
    install.expectedImageLabels.lookup "io.audiodown.managed" = some "true" &&
    install.expectedImageLabels.lookup "io.audiodown.installation" = some installationId &&
    install.expectedImageLabels.lookup "io.audiodown.plugin-id" = some install.installed.pluginId

theorem removalAttested_of_load (h : load reader installationId p directory = .ok install) :
    removalAttested installationId install = true := by
  obtain ⟨d, record, -, -, plugin, installation, hplugin, -, hinstallation, labels⟩ := load_eq_ok h
  simp [removalAttested, labels, expectedImageLabels, hplugin, hinstallation, plugin, installation,
    List.lookup_cons]

end AudioDown.Supervisor
