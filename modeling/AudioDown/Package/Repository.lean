/-
# AudioDown.Package.Repository — Core's checks on a plugin of a repository

`validate_manifest` of the plugin manager (validation.rs), on the tree that was extracted from the archive, and
what is kept of a repository that was validated.
-/
import AudioDown.Lib.Check
import AudioDown.Package.Manifest

namespace AudioDown.Package

open Content AudioDown.Core Lib

/-- `PluginManagerError`, as far as it is met here. -/
inductive PluginManagerError where
  | invalidCommitSha
  | invalidRepositoryIndex
  | invalidPluginPath
  | invalidPluginManifest
  | incompatiblePlugin
  | duplicatePlugin
  | forbiddenPluginFile
  | invalidPackage
  | snapshotIo
  | snapshotNotFound
  | invalidStagingMetadata
  | riskGrantMismatch
deriving DecidableEq

namespace Manager

variable (F : Formats)

def stripPrefix (pre s : String) : Option String :=
  if startsWith pre s then some (String.ofList (s.toList.drop pre.length)) else none

/-! ## Paths and trees -/

/-- The normalized path, and its components. -/
def normalizeRelativePath (value : String) : Except PluginManagerError (String × List String) := do
  require (!(value = "" || value ≠ trim value || startsWith "/" value || startsWith "\\" value ||
    value.toList.contains '\\' || value.toList.contains '\x00')) .invalidPluginPath
  let segments := splitSlash value
  require (segments.all fun segment =>
    !(segment = "" || segment = "." || segment = ".." || segment.toList.contains ':')) .invalidPluginPath
  return (String.ofList (['/'].intercalate (segments.map String.toList)), segments)

/-! ## Patterns -/

def isLower (c : Char) : Bool := 'a' ≤ c && c ≤ 'z'

def isLowerOrDigit (c : Char) : Bool := isLower c || ('0' ≤ c && c ≤ '9')

/-- `[a-z][a-z0-9]*` -/
def lowerWord (word : List Char) : Bool := word.head?.any isLower && word.all isLowerOrDigit

/-- `^[a-z][a-z0-9]{0,31}$` -/
def platformIdPattern (value : String) : Bool := lowerWord value.toList && value.toList.length ≤ 32

/-- `^[a-z][a-z0-9]*(\.[a-z][a-z0-9]*)+$` -/
def capabilityPattern (value : String) : Bool :=
  1 < (value.toList.splitOn '.').length && (value.toList.splitOn '.').all lowerWord

/-! ## The manifest -/

def contentCapabilities : List String :=
  ["content.search", "content.discover", "content.categories", "content.album.get", "content.tracks.list"]

def credentialCapabilities : List String :=
  ["credential.qr.start", "credential.qr.poll", "credential.import", "credential.status",
    "credential.refresh", "credential.logout"]

def capabilityIsSupported (pluginType : PluginType) (capability : String) : Bool :=
  capability = "system.health" || (pluginType = .content && contentCapabilities.contains capability) ||
    (pluginType = .credential && credentialCapabilities.contains capability)

def maxCredentialScopeDeclarations : Nat := 32

def maxCredentialTargetOrigins : Nat := 16

def Declarations.declarationCount (credentials : Declarations) : Nat :=
  credentials.providedScopes.length + credentials.requiredScopes.length + credentials.optionalScopes.length

/-- `*.` stands for any number of labels, but at least one. -/
def allowedHostMatches (allowed host : String) : Bool :=
  match stripPrefix "*." allowed with
  | some suffix => ('.' :: suffix.toList).isSuffixOf host.toList
  | none => allowed = host

def validLabel (label : List Char) : Bool :=
  label ≠ [] && label.length ≤ 63 && label.all (fun c => isLowerOrDigit c || c = '-') &&
    label.head? ≠ some '-' && label.getLast? ≠ some '-'

def validAllowedHost (value : String) : Bool :=
  if value = "" || value ≠ toAsciiLowercase value || 253 < value.utf8ByteSize then false
  else
    let host := (stripPrefix "*." value).getD value
    if host.toList.contains '*' || host = "localhost" || ".localhost".toList.isSuffixOf host.toList ||
        F.ipAddr host || !host.toList.contains '.' then false
    else (host.toList.splitOn '.').all validLabel

def validateOrigin (manifest : PluginManifest) (origin : String) : Except PluginManagerError Unit := do
  let parsed ← okOr (F.url origin) .invalidPluginManifest
  let host ← okOr parsed.host .invalidPluginManifest
  require (manifest.allowedHosts.any fun allowed => allowedHostMatches allowed host) .invalidPluginManifest

def validateScopeDeclaration (manifest : PluginManifest) (declaration : ScopeDeclaration) :
    Except PluginManagerError Unit := do
  -- `split_once('.')`: the platform is what stands before the first dot
  require (declaration.scope.toList.contains '.' &&
    String.ofList (declaration.scope.toList.takeWhile (· ≠ '.')) = manifest.platform.id &&
    declaration.targetOrigins ≠ [] &&
    declaration.targetOrigins.length ≤ maxCredentialTargetOrigins) .invalidPluginManifest
  require (decide declaration.targetOrigins.Nodup) .invalidPluginManifest
  forAll (validateOrigin F manifest) declaration.targetOrigins

def validateCredentialDeclarations (manifest : PluginManifest) : Except PluginManagerError Unit := do
  let credentials := manifest.credentials
  require (Declarations.declarationCount credentials ≤ maxCredentialScopeDeclarations)
    .invalidPluginManifest
  require (match manifest.pluginType with
    | .content => credentials.providedScopes = []
    | .credential => credentials.providedScopes ≠ [] && credentials.requiredScopes = [] &&
        credentials.optionalScopes = []) .invalidPluginManifest
  let declarations :=
    credentials.providedScopes ++ credentials.requiredScopes ++ credentials.optionalScopes
  require (decide (declarations.map ScopeDeclaration.scope).Nodup) .invalidPluginManifest
  forAll (validateScopeDeclaration F manifest) declarations

/-- `split_whitespace().collect().join(", ")` -/
def commaSeparated (value : String) : String :=
  String.ofList ([',', ' '].intercalate ((value.toList.splitOnP isWhitespace).filter (· ≠ [])))

def parseVersionRequirement (value : String) : Except PluginManagerError (Version → Bool) := do
  let value := trim value
  require (value ≠ "") .invalidPluginManifest
  okOr ((F.versionReq value).or (F.versionReq (commaSeparated value))) .invalidPluginManifest

def validateManifest (manifest : PluginManifest) (root : Tree) (coreVersion pluginApiVersion : Version) :
    Except PluginManagerError Unit := do
  require (manifest.schemaVersion = "1.0" && manifest.runtime.version = "22") .invalidPluginManifest
  require (platformIdPattern manifest.platform.id) .invalidPluginManifest
  let coreRequirement ← parseVersionRequirement F manifest.compatibility.core
  let pluginApiRequirement ← parseVersionRequirement F manifest.compatibility.pluginApi
  require (coreRequirement coreVersion && pluginApiRequirement pluginApiVersion) .incompatiblePlugin
  require (decide manifest.capabilities.Nodup && manifest.capabilities.all fun capability =>
    capabilityPattern capability && capabilityIsSupported manifest.pluginType capability)
    .invalidPluginManifest
  require (manifest.pluginType ≠ .credential ||
    manifest.capabilities.any (credentialCapabilities.contains ·)) .invalidPluginManifest
  require (decide manifest.allowedHosts.Nodup && manifest.allowedHosts.all (validAllowedHost F))
    .invalidPluginManifest
  validateCredentialDeclarations F manifest
  require (!manifest.npmLifecycleScripts.required ||
    manifest.npmLifecycleScripts.trimmedReason.any fun reason => reason.length ≤ 240)
    .invalidPluginManifest
  let (_, entryPath) ← normalizeRelativePath manifest.runtime.entry
  require (root.isFile entryPath) .invalidPluginManifest

/-! ## The repository -/

structure ValidatedPlugin where
  relativePath : String
  manifest : PluginManifest
  manifestHash : String
  sourceHash : String
  entryPath : String
  requiresLifecycleScripts : Bool
  lifecycleScriptReason : Option String

structure ValidatedRepository where
  repositoryId : String
  repositoryName : String
  plugins : List ValidatedPlugin

end Manager

end AudioDown.Package
