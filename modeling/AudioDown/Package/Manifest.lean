/-
# AudioDown.Package.Manifest — what the files of a repository say

The values behind `audiodown-repository.json`, `audiodown-plugin.json`, `package.json` and
`package-lock.json`, and the metadata Core writes about a snapshot, a prepared operation and a grant.  How
texts are read is the work of other libraries (`serde_json`, `url`, `base64`, `semver`, `sha2`); what they
give is a parameter (`Formats`).  Core and the Supervisor use the same libraries and the same types of the
plugin API, so they read the same bytes alike.

Strings are worked on as lists of characters.
-/
import AudioDown.Content.Contract
import AudioDown.Package.Tree

namespace AudioDown.Package

open Content AudioDown.Core Supervisor

/-! ## Texts -/

/-- `str::trim` -/
def trim (s : String) : String :=
  String.ofList (((s.toList.dropWhile isWhitespace).reverse.dropWhile isWhitespace).reverse)

def startsWith (pre s : String) : Bool := pre.toList.isPrefixOf s.toList

/-- `str::contains` of a string. -/
def hasInfix (part s : String) : Bool := s.toList.tails.any fun rest => part.toList.isPrefixOf rest

def toAsciiLowercase (s : String) : String := String.ofList (s.toList.map Char.toLower)

/-- `value.split('/')` -/
def splitSlash (s : String) : List String := (s.toList.splitOn '/').map String.ofList

/-- `format!("{byte:02x}")` for every byte. -/
def hexDigest (bytes : Bytes) : String :=
  String.ofList (bytes.flatMap fun byte =>
    [Nat.digitChar (byte.toNat / 16), Nat.digitChar (byte.toNat % 16)])

/-! ## The plugin manifest -/

structure Version where
  major : Nat
  minor : Nat
  patch : Nat
  pre : String
  build : String
deriving DecidableEq

/-- There is one kind of runtime. -/
inductive RuntimeKind where
  | nodejs
deriving DecidableEq

structure RuntimeSpec where
  kind : RuntimeKind
  version : String
  entry : String
deriving DecidableEq

structure CompatibilitySpec where
  pluginApi : String
  core : String
deriving DecidableEq

structure PlatformSpec where
  id : String
  name : String
deriving DecidableEq

structure ScopeDeclaration where
  scope : String
  targetOrigins : List String
deriving DecidableEq

/-- `CredentialDeclarations` -/
structure Declarations where
  providedScopes : List ScopeDeclaration
  requiredScopes : List ScopeDeclaration
  optionalScopes : List ScopeDeclaration
deriving DecidableEq

structure LifecycleScriptPolicy where
  required : Bool
  reason : Option String
deriving DecidableEq

structure PluginManifest where
  schemaVersion : String
  id : PluginId
  name : String
  version : Version
  pluginType : PluginType
  runtime : RuntimeSpec
  compatibility : CompatibilitySpec
  platform : PlatformSpec
  capabilities : List String
  allowedHosts : List String
  credentials : Declarations
  npmLifecycleScripts : LifecycleScriptPolicy
deriving DecidableEq

/-- `reason.as_deref().map(str::trim).filter(|reason| !reason.is_empty())` -/
def LifecycleScriptPolicy.trimmedReason (policy : LifecycleScriptPolicy) : Option String :=
  (policy.reason.map trim).filter (· ≠ "")

structure RepositoryIndex where
  schemaVersion : String
  id : String
  name : String
  /-- the paths of the plugins -/
  plugins : List String

/-! ## JSON values -/

/-- `serde_json::Value`.  Of a number only `as_u64` is asked; the members of an object are in the order of
their names, without repetition. -/
abbrev Value := Lib.JsonValue (Option Nat)

abbrev Members := List (String × Value)

def Members.get (members : Members) (field : String) : Option Value :=
  (members.find? fun entry => entry.1 = field).map Prod.snd

def Value.asObject : Value → Option Members
  | .object members => some members
  | _ => none

def Value.asStr : Value → Option String
  | .string value => some value
  | _ => none

def Value.asU64 : Value → Option Nat
  | .number value => value
  | _ => none

def Value.asBool : Value → Option Bool
  | .bool value => some value
  | _ => none

/-- `url::Url`, as far as it is asked. -/
structure Url where
  scheme : String
  host : Option String
  username : String
  password : Option String
  port : Option Nat
  query : Option String
  fragment : Option String

/-! ## Metadata -/

structure SnapshotPlugin where
  pluginId : PluginId
  name : String
  version : Version
  pluginType : PluginType
  credentials : Declarations
  pluginPath : String
  manifestHash : String
  sourceHash : String
  requiresLifecycleScripts : Bool
  lifecycleScriptReason : Option String
deriving DecidableEq

structure SnapshotMetadata where
  schemaVersion : String
  snapshotId : Uuid
  repositoryId : String
  repositoryName : String
  sourceUrl : String
  commitSha : String
  createdAt : Timestamp
  fileCount : Nat
  extractedBytes : Nat
  plugins : List SnapshotPlugin
deriving DecidableEq

/-- `PreparedOperationMetadata`, and `PreparedMetadata` in the Supervisor. -/
structure PreparedMetadata where
  schemaVersion : String
  operationId : Uuid
  snapshotId : Uuid
  pluginId : PluginId
  repositoryId : String
  sourceUrl : String
  commitSha : String
  pluginPath : String
  manifestHash : String
  sourceHash : String
  allowLifecycleScripts : Bool
  riskGrantId : Option Uuid
deriving DecidableEq

structure GrantMirror where
  schemaVersion : String
  grantId : Uuid
  repositoryId : String
  pluginId : PluginId
  commitSha : String
  riskKind : String
  reason : String
  grantedAt : Timestamp
deriving DecidableEq

def schemaVersion : String := "1.0"

def lifecycleRiskKind : String := "npm_lifecycle_scripts"

/-! ## The libraries -/

/-- What reading gives. -/
structure Formats where
  sha256 : Bytes → Bytes
  manifest : Bytes → Option PluginManifest
  index : Bytes → Option RepositoryIndex
  json : Bytes → Option Value
  url : String → Option Url
  base64 : String → Option Bytes
  /-- `VersionReq::parse`, and `matches` -/
  versionReq : String → Option (Version → Bool)
  /-- `IpAddr::from_str(host).is_ok()` -/
  ipAddr : String → Bool
  /-- `snapshot.json` as it is read back; the names and origins in it are checked again -/
  readBack : SnapshotMetadata → Option SnapshotMetadata

/-- What is relied on: a digest has 32 bytes, and metadata is read back as it was written or not at all. -/
structure Formats.Lawful (F : Formats) : Prop where
  digest : ∀ bytes, (F.sha256 bytes).length = 32
  readBack : ∀ m m', F.readBack m = some m' → m' = m

def Formats.sha256Hex (F : Formats) (content : Bytes) : String := hexDigest (F.sha256 content)

end AudioDown.Package
