/-
# AudioDown.Package.Prepared — the Supervisor's checks on a prepared installation

`validate_prepared_install` of the Supervisor (prepared_install.rs), without its file accesses: what it checks
of the prepared operation, of the snapshot's metadata, of the tree below the repository's root and of the
grant.  It implements the rules of the plugin manager a second time, on its own terms: paths by their
components, files without following links.
-/
import AudioDown.Package.Repository

namespace AudioDown.Package

open Content Lib Supervisor

inductive PreparedInstallError where
  | invalidMetadata
  | identityMismatch
  | snapshotMismatch
  | unsafePath
  | filesystem
  | invalidManifest
  | invalidPackage
  | hashMismatch
  | riskGrantMismatch
deriving DecidableEq

structure ValidatedPreparedInstall where
  operationId : Uuid
  snapshotId : Uuid
  pluginId : PluginId
  repositoryId : String
  sourceUrl : String
  commitSha : String
  pluginPath : String
  /-- the components below the root of the repository -/
  pluginRoot : List String
  manifest : PluginManifest
  manifestHash : String
  sourceHash : String
  allowLifecycleScripts : Bool
  riskGrantId : Option Uuid

namespace Prepared

variable (F : Formats)

/-! ## Files -/

def requireDirectory (found : Option Tree) : Except PreparedInstallError (List (Name × Tree)) :=
  match found with
  | none => .error .filesystem
  | some (.dir entries) => .ok entries
  | some _ => .error .unsafePath

def readRegularFile (found : Option Tree) : Except PreparedInstallError Bytes :=
  match found with
  | none => .error .filesystem
  | some (.file content) => .ok content
  | some _ => .error .unsafePath

def collectErrors : Tree.CollectErrors PreparedInstallError where
  notUtf8 := .unsafePath
  link := .unsafePath
  other := .unsafePath

def validateRegularTree (entries : List (Name × Tree)) : Except PreparedInstallError Unit :=
  (Tree.collectEntries collectErrors [] entries).map fun _ => ()

def hashSourceTree (entries : List (Name × Tree)) : Except PreparedInstallError String :=
  (Tree.collectEntries collectErrors [] entries).map fun files => F.sha256Hex (sourceBytes files)

/-- `Path::components` of a relative path: empty components and inner dots are skipped. -/
def components (value : String) : List String := (splitSlash value).filter fun segment =>
  segment ≠ "" && segment ≠ "."

/-- A leading dot is a `CurDir`, two dots are a `ParentDir`, a leading slash is the `RootDir`. -/
def onlyNormal (value : String) : Bool :=
  !startsWith "/" value && (splitSlash value).head? ≠ some "." && !(splitSlash value).contains ".."

def normalizeRelativePath (value : String) : Except PreparedInstallError (List String) := do
  require (!(value = "" || value ≠ trim value || value.toList.contains '\\' ||
    value.toList.contains '\x00')) .unsafePath
  require (onlyNormal value && !(splitSlash value).any (·.toList.contains ':')) .unsafePath
  return components value

/-! ## package.json and package-lock.json -/

def lifecycleScripts : List String :=
  ["preinstall", "install", "postinstall", "prepublish", "preprepare", "prepare", "postprepare"]

def dependencyFields : List String :=
  ["dependencies", "optionalDependencies", "devDependencies", "peerDependencies"]

def requiredObject (value : Value) : Except PreparedInstallError Members :=
  okOr value.asObject .invalidPackage

def readJsonObject (root : Tree) (name : String) : Except PreparedInstallError Members := do
  let bytes ← readRegularFile (root.find [name])
  let value ← okOr (F.json bytes) .invalidPackage
  requiredObject value

def requiredString (members : Members) (field : String) : Except PreparedInstallError String :=
  okOr (((members.get field).bind Value.asStr).filter (· ≠ "")) .invalidPackage

def validDependencySpecification (value : String) : Bool :=
  let value := trim value
  let lowercase := toAsciiLowercase value
  value ≠ "" && !hasInfix "/" value && !hasInfix "\\" value && !hasInfix "://" value &&
    !startsWith "file:" lowercase && !startsWith "link:" lowercase && !startsWith "git" lowercase &&
    !startsWith "github:" lowercase && !startsWith "workspace:" lowercase &&
    !startsWith "http:" lowercase && !startsWith "https:" lowercase

/-- The loop over the members of a dependency field. -/
def dependencies : Members → Except PreparedInstallError (List (String × String))
  | [] => .ok []
  | (name, value) :: members => do
      let specification ← okOr (value.asStr.filter validDependencySpecification) .invalidPackage
      require (name ≠ "") .invalidPackage
      (dependencies members).map fun rest => (name, specification) :: rest

def dependencyMap (members : Members) (field : String) :
    Except PreparedInstallError (List (String × String)) :=
  match members.get field with
  | none => .ok []
  | some value => requiredObject value >>= dependencies

def validateMatchingDependencyMaps (package lockRoot : Members) : Except PreparedInstallError Unit :=
  forAll (fun field => do
    let packageDependencies ← dependencyMap package field
    let lockDependencies ← dependencyMap lockRoot field
    require (packageDependencies = lockDependencies) .invalidPackage) dependencyFields

def validateResolved (entry : Members) : Except PreparedInstallError Unit := do
  let resolved ← requiredString entry "resolved"
  let url ← okOr (F.url resolved) .invalidPackage
  require (!(url.scheme ≠ "https" || url.host ≠ some "registry.npmjs.org" || url.username ≠ "" ||
    url.password.isSome || url.port.isSome || url.query.isSome || url.fragment.isSome)) .invalidPackage

def validateIntegrity (entry : Members) : Except PreparedInstallError Unit := do
  let integrity ← requiredString entry "integrity"
  let encoded ← okOr (Manager.stripPrefix "sha512-" integrity) .invalidPackage
  require (!encoded.toList.any isWhitespace) .invalidPackage
  let digest ← okOr (F.base64 encoded) .invalidPackage
  require (digest.length = 64) .invalidPackage

/-- `package.get("scripts").map(required_object).transpose()?.is_some_and(…)` -/
def hasLifecycleScripts (package : Members) : Except PreparedInstallError Bool :=
  match package.get "scripts" with
  | none => .ok false
  | some value => (requiredObject value).map fun scripts =>
      lifecycleScripts.any fun name => (scripts.get name).isSome

/-- `.map(required_object).transpose()?.ok_or(…)?` -/
def objectField (members : Members) (field : String) : Except PreparedInstallError Members :=
  okOr (members.get field) .invalidPackage >>= requiredObject

def validateLockedPackage (package : String × Value) : Except PreparedInstallError Unit :=
  if package.1 = "" then .ok ()
  else do
    require (!(!startsWith "node_modules/" package.1 || hasInfix "\\" package.1)) .invalidPackage
    let dependency ← requiredObject package.2
    require ((dependency.get "link").bind Value.asBool ≠ some true) .invalidPackage
    forAll (fun field => (dependencyMap dependency field).map fun _ => ()) dependencyFields
    validateResolved F dependency
    validateIntegrity F dependency

def validatePackage (root : Tree) (lifecycleScriptsAllowed : Bool) : Except PreparedInstallError Unit := do
  let package ← readJsonObject F root "package.json"
  let lockfile ← readJsonObject F root "package-lock.json"
  let packageName ← requiredString package "name"
  let packageVersion ← requiredString package "version"
  let has ← hasLifecycleScripts package
  require (has = lifecycleScriptsAllowed) .invalidPackage
  -- no version is less than any version
  require (match (lockfile.get "lockfileVersion").bind Value.asU64 with
    | none => false
    | some version => !(version < 2)) .invalidPackage
  let packages ← objectField lockfile "packages"
  let rootPackage ← objectField packages ""
  let rootName ← requiredString rootPackage "name"
  require (rootName = packageName) .invalidPackage
  let rootVersion ← requiredString rootPackage "version"
  require (rootVersion = packageVersion) .invalidPackage
  validateMatchingDependencyMaps package rootPackage
  require (packages.length - 1 ≤ 256) .invalidPackage
  forAll (validateLockedPackage F) packages

/-! ## Metadata -/

def isLowerHex (c : Char) : Bool := ('0' ≤ c && c ≤ '9') || ('a' ≤ c && c ≤ 'f')

/-- `validate_commit_sha` with 40 digits, `validate_hash` with 64. -/
def validateHex (digits : Nat) (value : String) : Except PreparedInstallError Unit :=
  require (value.toList.length = digits && value.toList.all isLowerHex) .invalidMetadata

def checkIdentity (prepared : PreparedMetadata) (pluginId : PluginId) (operationId : Uuid) :
    Except PreparedInstallError Unit := do
  require (prepared.schemaVersion = schemaVersion && prepared.operationId = operationId &&
    prepared.pluginId = pluginId) .identityMismatch
  validateHex 40 prepared.commitSha
  validateHex 64 prepared.manifestHash
  validateHex 64 prepared.sourceHash

def checkSnapshot (prepared : PreparedMetadata) (snapshot : SnapshotMetadata) (now : Timestamp) :
    Except PreparedInstallError SnapshotPlugin := do
  require (snapshot.schemaVersion = schemaVersion && snapshot.snapshotId = prepared.snapshotId &&
    !isBlank snapshot.repositoryName && snapshot.repositoryId = prepared.repositoryId &&
    snapshot.sourceUrl = prepared.sourceUrl && snapshot.commitSha = prepared.commitSha &&
    !(now < snapshot.createdAt) && snapshot.fileCount ≠ 0 && snapshot.extractedBytes ≠ 0)
    .snapshotMismatch
  validateHex 40 snapshot.commitSha
  let plugin ← okOr (snapshot.plugins.find? fun plugin => plugin.pluginId = prepared.pluginId)
    .snapshotMismatch
  require (plugin.pluginPath = prepared.pluginPath && plugin.manifestHash = prepared.manifestHash &&
    plugin.sourceHash = prepared.sourceHash) .snapshotMismatch
  return plugin

/-- What is checked of the files, from the root of the repository; `found` is what is at `repository`. -/
def checkTree (prepared : PreparedMetadata) (plugin : SnapshotPlugin) (found : Option Tree) :
    Except PreparedInstallError (List String × PluginManifest) := do
  let pluginRoot ← normalizeRelativePath prepared.pluginPath
  let repository ← requireDirectory found
  let entries ← requireDirectory ((Tree.dir repository).find pluginRoot)
  let root := Tree.dir entries
  validateRegularTree entries
  let manifestBytes ← readRegularFile (root.find ["audiodown-plugin.json"])
  require (F.sha256Hex manifestBytes = prepared.manifestHash) .hashMismatch
  let manifest ← okOr (F.manifest manifestBytes) .invalidManifest
  require (manifest.schemaVersion = schemaVersion && manifest.id = prepared.pluginId &&
    manifest.name = plugin.name && manifest.version = plugin.version &&
    manifest.pluginType = plugin.pluginType && manifest.credentials = plugin.credentials &&
    manifest.runtime.kind = .nodejs && manifest.runtime.version = "22") .invalidManifest
  let entry ← normalizeRelativePath manifest.runtime.entry
  let _ ← readRegularFile (root.find entry)
  let sourceHash ← hashSourceTree F entries
  require (sourceHash = prepared.sourceHash) .hashMismatch
  require (plugin.requiresLifecycleScripts = manifest.npmLifecycleScripts.required &&
    plugin.lifecycleScriptReason = manifest.npmLifecycleScripts.trimmedReason &&
    prepared.allowLifecycleScripts = manifest.npmLifecycleScripts.required) .riskGrantMismatch
  validatePackage F root prepared.allowLifecycleScripts
  return (pluginRoot, manifest)

/-- The grant that has to be read, if one has to. -/
def grantNeeded (prepared : PreparedMetadata) : Except PreparedInstallError (Option Uuid) :=
  match prepared.allowLifecycleScripts, prepared.riskGrantId with
  | false, none => .ok none
  | true, some grantId => .ok (some grantId)
  | _, _ => .error .riskGrantMismatch

def checkGrant (prepared : PreparedMetadata) (grantId : Uuid) (expectedReason : Option String)
    (grant : GrantMirror) (now : Timestamp) : Except PreparedInstallError Unit :=
  require (grant.schemaVersion = schemaVersion && grant.grantId = grantId &&
    grant.repositoryId = prepared.repositoryId && grant.pluginId = prepared.pluginId &&
    grant.commitSha = prepared.commitSha && grant.riskKind = lifecycleRiskKind &&
    some grant.reason = expectedReason && !(now < grant.grantedAt)) .riskGrantMismatch

/-- The answer, once everything was checked. -/
def validated (prepared : PreparedMetadata) (pluginRoot : List String) (manifest : PluginManifest) :
    ValidatedPreparedInstall where
  operationId := prepared.operationId
  snapshotId := prepared.snapshotId
  pluginId := prepared.pluginId
  repositoryId := prepared.repositoryId
  sourceUrl := prepared.sourceUrl
  commitSha := prepared.commitSha
  pluginPath := prepared.pluginPath
  pluginRoot
  manifest
  manifestHash := prepared.manifestHash
  sourceHash := prepared.sourceHash
  allowLifecycleScripts := prepared.allowLifecycleScripts
  riskGrantId := prepared.riskGrantId

end Prepared

end AudioDown.Package
