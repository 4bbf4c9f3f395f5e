/-
# AudioDown.Vault.Store — the credentials table and its transactions

`CredentialRepository` of the storage crate: one row of `credentials` with its rows of
`credential_target_origins`, the rows of `plugins` it refers to, and the grants that refer to it.  A
method of the repository is one transaction, here a function from the tables to `Except`: an error leaves
the tables as they were.

Times are stored as RFC 3339 text.  `to_rfc3339` writes every time, but `parse_from_rfc3339` reads four
digits of a year and no sign, so a time is read back as it was written or, outside the years 0 to 9999,
not at all (`legible`).  A column that the decoder refuses makes the whole row unreadable.

The rows keep values, not texts.  Of the text of an origin it matters whether `CredentialTargetOrigin::parse`
takes it again; the part of that which is the URL parser's stays a parameter.  The columns of `plugins` and
the parts of a manifest that no method here reads are left out.
-/
import AudioDown.Core.Records
import AudioDown.Lib.Check
import Mathlib.Data.String.Basic

namespace AudioDown.Vault

open AudioDown.Core Lib Supervisor

/-! ## Identifiers and enumerations -/

/-- A UUID that is not nil. -/
structure CredentialId where
  uuid : Uuid
  notNil : uuid ≠ 0
deriving DecidableEq

/-- `CredentialId::from_uuid` -/
def CredentialId.fromUuid (uuid : Uuid) : Option CredentialId :=
  if h : uuid ≠ 0 then some ⟨uuid, h⟩ else none

abbrev CredentialScope := String

/-- `CredentialTargetOrigin`, its serialization. -/
abbrev Origin := String

/-- `[u8; 12]` -/
abbrev Nonce := List UInt8

inductive CredentialKind where
  | cookie
  | token
deriving DecidableEq

inductive CredentialStatus where
  | active
  | expired
  | revoked
  | error
deriving DecidableEq

inductive CredentialOwnership where
  | plugin (pluginId : PluginId)
  | retained
deriving DecidableEq

inductive StorageError where
  | conflict
  | notFound
  | invalidData (message : String)
  | database
deriving DecidableEq

/-! ## Rows -/

structure EncryptedEnvelope (Cipher : Type) where
  algorithmVersion : UInt16
  keyVersion : UInt32
  nonce : Nonce
  ciphertext : Cipher
deriving DecidableEq

structure CredentialRecord (Cipher : Type) where
  id : CredentialId
  kind : CredentialKind
  platformId : String
  scope : CredentialScope
  sourcePluginId : Option PluginId
  envelope : EncryptedEnvelope Cipher
  targetOrigins : List Origin
  status : CredentialStatus
  accountIdHint : Option String
  displayName : Option String
  safeErrorSummary : Option String
  expiresAt : Option Timestamp
  statusCheckedAt : Option Timestamp
  revision : Nat
  createdAt : Timestamp
  updatedAt : Timestamp
deriving DecidableEq

structure CredentialScopeDeclaration where
  scope : CredentialScope
  targetOrigins : List Origin
deriving DecidableEq

/-- The scopes a content plugin asks for.  What a credential plugin provides is read elsewhere. -/
structure CredentialDeclarations where
  requiredScopes : List CredentialScopeDeclaration
  optionalScopes : List CredentialScopeDeclaration
deriving DecidableEq

structure PluginRow where
  pluginId : PluginId
  pluginType : PluginType
  platformId : String
  manifestHash : String
  /-- the declarations in `manifest_json` -/
  credentials : CredentialDeclarations
deriving DecidableEq

structure CredentialScopeGrantRecord where
  id : Uuid
  pluginId : PluginId
  manifestHash : String
  credentialId : CredentialId
  scope : CredentialScope
  targetOrigins : List Origin
  createdAt : Timestamp
  revokedAt : Option Timestamp
deriving DecidableEq

/-- A grant as it is stored, with what the credential's origins were. -/
structure GrantRow (Digest : Type) where
  grant : CredentialScopeGrantRecord
  credentialOriginsHash : Digest
deriving DecidableEq

def GrantRow.id {Digest : Type} (row : GrantRow Digest) : Uuid := row.grant.id

structure Store (Cipher Digest : Type) where
  credentials : Table (@CredentialRecord.id Cipher)
  plugins : Table PluginRow.pluginId
  grants : Table (@GrantRow.id Digest)

namespace Store

def empty {Cipher Digest : Type} : Store Cipher Digest := ⟨.empty, .empty, .empty⟩

end Store

/-- What storage leaves to others: the bytes of a ciphertext, the URL parser, SHA-256. -/
structure Storage (Cipher Digest : Type) where
  ciphertextLen : Cipher → Nat
  originSyntax : Origin → Bool
  originHost : Origin → Option String
  sha256 : List UInt8 → Digest

def minCiphertextBytes : Nat := 16
def maxCiphertextBytes : Nat := 65552
def maxSafeMetadataBytes : Nat := 512
def maxCredentialTargetOrigins : Nat := 16
def maxCredentialTargetOriginBytes : Nat := 2048

/-- The years 0 to 9999, in nanoseconds from 1970. -/
def legible (time : Timestamp) : Bool :=
  -62167219200000000000 ≤ time && time < 253402300800000000000

section
variable {Cipher Digest : Type} (sys : Storage Cipher Digest)

/-- `(MIN_CIPHERTEXT_BYTES..=MAX_CIPHERTEXT_BYTES).contains(..)` -/
def Storage.fits (ciphertext : Cipher) : Bool :=
  minCiphertextBytes ≤ sys.ciphertextLen ciphertext && sys.ciphertextLen ciphertext ≤ maxCiphertextBytes

/-- `CredentialTargetOrigin::parse` takes the text again. -/
def Storage.readable (origin : Origin) : Bool :=
  origin ≠ "" && origin.utf8ByteSize ≤ maxCredentialTargetOriginBytes && sys.originSyntax origin

/-- `decode_credential` and `load_credential_origins_from_transaction`.  A revision past `i64` is a REAL in
its column, and no integer can be read from it. -/
def decodeCredential (row : CredentialRecord Cipher) : Except StorageError (CredentialRecord Cipher) := do
  require (row.revision < 2 ^ 63) .database
  require (sys.fits row.envelope.ciphertext) (.invalidData "stored credential ciphertext is malformed")
  require (row.envelope.algorithmVersion ≠ 0) (.invalidData "stored algorithm version is malformed")
  require (row.envelope.keyVersion ≠ 0) (.invalidData "stored key version is malformed")
  require (row.expiresAt.all legible) (.invalidData "stored credential timestamp is malformed")
  require (row.statusCheckedAt.all legible) (.invalidData "stored credential timestamp is malformed")
  require (row.revision ≠ 0) (.invalidData "stored credential revision is malformed")
  require (legible row.createdAt) (.invalidData "stored credential timestamp is malformed")
  require (legible row.updatedAt) (.invalidData "stored credential timestamp is malformed")
  require (row.targetOrigins.all sys.readable) (.invalidData "stored credential origin is malformed")
  .ok row

/-- A row that can be read. -/
structure Legible (row : CredentialRecord Cipher) : Prop where
  positive : row.revision ≠ 0
  revision : row.revision < 2 ^ 63
  ciphertext : sys.fits row.envelope.ciphertext = true
  algorithmVersion : row.envelope.algorithmVersion ≠ 0
  keyVersion : row.envelope.keyVersion ≠ 0
  expiresAt : row.expiresAt.all legible = true
  statusCheckedAt : row.statusCheckedAt.all legible = true
  createdAt : legible row.createdAt = true
  updatedAt : legible row.updatedAt = true
  origins : row.targetOrigins.all sys.readable = true

variable {sys}

theorem decodeCredential_eq_ok {row record : CredentialRecord Cipher} :
    decodeCredential sys row = .ok record ↔ record = row ∧ Legible sys row := by
  unfold decodeCredential
  simp only [require_bind_eq_ok, decide_eq_true_eq, Except.ok.injEq]
  constructor
  · rintro ⟨h1, h2, h3, h4, h5, h6, h7, h8, h9, h10, rfl⟩
    exact ⟨rfl, h7, h1, h2, h3, h4, h5, h6, h8, h9, h10⟩
  · rintro ⟨rfl, h⟩
    exact ⟨h.revision, h.ciphertext, h.algorithmVersion, h.keyVersion, h.expiresAt, h.statusCheckedAt,
      h.positive, h.createdAt, h.updatedAt, h.origins, rfl⟩

end

def isPlatformByte (c : Char) : Bool :=
  c.isLower || c.isDigit || c = '.' || c = '_' || c = '-'

/-- `validate_platform_id` of the storage crate. -/
def validPlatformId (platformId : String) : Bool :=
  platformId ≠ "" && platformId.utf8ByteSize ≤ 128 && platformId.toList.all isPlatformByte

/-- The part of a scope before its first dot is the platform. -/
def belongsTo (scope : CredentialScope) (platformId : String) : Bool :=
  scope.toList.contains '.' && scope.toList.takeWhile (· ≠ '.') = platformId.toList

/-- `validate_safe_metadata` -/
def safeMetadata (value : Option String) (maxBytes : Nat) : Bool :=
  value.all fun text => text ≠ "" && text.utf8ByteSize ≤ maxBytes

def validateCredentialRecord {Cipher Digest : Type} (sys : Storage Cipher Digest)
    (record : CredentialRecord Cipher) : Except StorageError Unit := do
  require (validPlatformId record.platformId) (.invalidData "credential platform ID is invalid")
  require (belongsTo record.scope record.platformId)
    (.invalidData "credential scope must belong to the credential platform")
  require (record.envelope.algorithmVersion ≠ 0 && record.envelope.keyVersion ≠ 0 && record.revision ≠ 0 &&
      sys.fits record.envelope.ciphertext && record.createdAt ≤ record.updatedAt)
    (.invalidData "credential encrypted record is invalid")
  require (safeMetadata record.accountIdHint 256) (.invalidData "credential safe metadata is invalid")
  require (safeMetadata record.displayName 256) (.invalidData "credential safe metadata is invalid")
  require (safeMetadata record.safeErrorSummary maxSafeMetadataBytes)
    (.invalidData "credential safe metadata is invalid")

theorem validateCredentialRecord_eq_ok {Cipher Digest : Type} {sys : Storage Cipher Digest}
    {record : CredentialRecord Cipher} {u : Unit} : validateCredentialRecord sys record = .ok u ↔
      validPlatformId record.platformId = true ∧ belongsTo record.scope record.platformId = true ∧
        (record.envelope.algorithmVersion ≠ 0 ∧ record.envelope.keyVersion ≠ 0 ∧ record.revision ≠ 0 ∧
          sys.fits record.envelope.ciphertext = true ∧ record.createdAt ≤ record.updatedAt) ∧
        safeMetadata record.accountIdHint 256 = true ∧ safeMetadata record.displayName 256 = true ∧
        safeMetadata record.safeErrorSummary maxSafeMetadataBytes = true := by
  unfold validateCredentialRecord
  simp only [require_bind_eq_ok, require_eq_ok, Bool.and_eq_true, decide_eq_true_eq, and_assoc]

def normalizeOrigins (origins : List Origin) : Except StorageError (List Origin) := do
  require (origins ≠ [] && origins.length ≤ maxCredentialTargetOrigins)
    (.invalidData "credential origin set is invalid")
  require ((origins.insertionSort (· ≤ ·)).IsChain (· ≠ ·))
    (.invalidData "credential origin set contains duplicates")
  .ok (origins.insertionSort (· ≤ ·))

theorem normalizeOrigins_eq_ok {origins normalized : List Origin}
    (h : normalizeOrigins origins = .ok normalized) :
    normalized.Perm origins ∧ normalized.Pairwise (· < ·) ∧ normalized ≠ [] := by
  unfold normalizeOrigins at h
  simp only [require_bind_eq_ok, Bool.and_eq_true, decide_eq_true_eq, Except.ok.injEq] at h
  obtain ⟨⟨hne, -⟩, hchain, rfl⟩ := h
  have hperm := List.perm_insertionSort (· ≤ ·) origins
  refine ⟨hperm, ?_, ?_⟩
  · have hsorted := (List.pairwise_insertionSort (· ≤ ·) origins).isChain
    rw [List.isChain_iff_getElem] at hsorted hchain
    refine (List.isChain_iff_getElem.mpr fun i hi => ?_).pairwise
    exact lt_of_le_of_ne (hsorted i hi) (hchain i hi)
  · intro hnil
    rw [hnil] at hperm
    exact hne hperm.nil_eq.symm

section
variable {Cipher Digest : Type}

namespace Store

def validateSourcePlugin (s : Store Cipher Digest) (record : CredentialRecord Cipher) :
    Except StorageError Unit :=
  match record.sourcePluginId with
  | none => .ok ()
  | some pluginId =>
    match s.plugins.get pluginId with
    | none => .error .notFound
    | some plugin =>
      require (plugin.pluginType = .credential && plugin.platformId = record.platformId)
        (.invalidData "credential source must be a credential plugin for the same platform")

/-- `insert_credential`: both the id and the scope are unique. -/
def insertRow (s : Store Cipher Digest) (row : CredentialRecord Cipher) :
    Except StorageError (Store Cipher Digest) :=
  if absent : s.credentials.get row.id = none then
    if s.credentials.rows.any fun other => other.scope = row.scope then .error .conflict
    else .ok { s with credentials := s.credentials.add row absent }
  else .error .conflict

def insert (sys : Storage Cipher Digest) (record : CredentialRecord Cipher) (s : Store Cipher Digest) :
    Except StorageError (Store Cipher Digest) := do
  validateCredentialRecord sys record
  require (record.revision = 1) (.invalidData "new credential revision must be one")
  let origins ← normalizeOrigins record.targetOrigins
  s.validateSourcePlugin record
  s.insertRow { record with targetOrigins := origins }

/-- What an UPDATE writes: everything but the id and the time of creation. -/
def overwritten (record : CredentialRecord Cipher) (nextRevision : Nat) (origins : List Origin)
    (row : CredentialRecord Cipher) : CredentialRecord Cipher :=
  if row.id = record.id then
    { record with targetOrigins := origins, revision := nextRevision, createdAt := row.createdAt }
  else row

theorem overwritten_id (record : CredentialRecord Cipher) (nextRevision : Nat) (origins : List Origin)
    (row : CredentialRecord Cipher) : (overwritten record nextRevision origins row).id = row.id := by
  unfold overwritten
  split
  · exact Eq.symm ‹row.id = record.id›
  · rfl

/-- `update_credential_row`, and what follows when no row was affected. -/
def updateRow (s : Store Cipher Digest) (record : CredentialRecord Cipher) (nextRevision : Nat)
    (origins : List Origin) : Except StorageError (Nat × Store Cipher Digest) :=
  match s.credentials.get record.id with
  | none => .error .notFound
  | some row =>
    if row.revision ≠ record.revision then .error .conflict
    else if s.credentials.rows.any fun other => other.scope = record.scope && other.id ≠ record.id then
      .error .conflict
    else .ok (nextRevision, { s with
      credentials := s.credentials.update (overwritten record nextRevision origins) (overwritten_id _ _ _) })

def update (sys : Storage Cipher Digest) (record : CredentialRecord Cipher) (s : Store Cipher Digest) :
    Except StorageError (Nat × Store Cipher Digest) := do
  validateCredentialRecord sys record
  let origins ← normalizeOrigins record.targetOrigins
  -- `checked_add`, and later `u64_to_i64`
  require (record.revision + 1 < 2 ^ 64) (.invalidData "credential revision is invalid")
  s.validateSourcePlugin record
  require (record.revision + 1 < 2 ^ 63) (.invalidData "credential revision is invalid")
  s.updateRow record (record.revision + 1) origins

def get (sys : Storage Cipher Digest) (id : CredentialId) (s : Store Cipher Digest) :
    Except StorageError (Option (CredentialRecord Cipher)) :=
  match s.credentials.get id with
  | none => .ok none
  | some row => (decodeCredential sys row).map some

/-- What `clear_source_plugin` does to a row. -/
def cleared (id : CredentialId) (now : Timestamp) (row : CredentialRecord Cipher) : CredentialRecord Cipher :=
  if row.id = id then { row with sourcePluginId := none, revision := row.revision + 1, updatedAt := now }
  else row

theorem cleared_id (id : CredentialId) (now : Timestamp) (row : CredentialRecord Cipher) :
    (cleared id now row).id = row.id := by
  unfold cleared
  split <;> rfl

def clearSourcePlugin (id : CredentialId) (now : Timestamp) (s : Store Cipher Digest) :
    Except StorageError (Store Cipher Digest) :=
  match s.credentials.get id with
  | none => .error .notFound
  | some _ => .ok { s with credentials := s.credentials.update (cleared id now) (cleared_id id now) }

/-- Deletion takes the origins and, by its foreign key, every grant of the credential along. -/
def delete (id : CredentialId) (s : Store Cipher Digest) : Except StorageError (Store Cipher Digest) :=
  match s.credentials.get id with
  | none => .error .notFound
  | some _ => .ok { s with
      credentials := s.credentials.remove fun row => row.id = id
      grants := s.grants.remove fun row => row.grant.credentialId = id }

end Store

/-! ## What they leave -/

variable {sys : Storage Cipher Digest} {s t : Store Cipher Digest} {record : CredentialRecord Cipher}
  {id : CredentialId} {now : Timestamp}

/-- A row as `insert` writes it. -/
structure Inserted (sys : Storage Cipher Digest) (record row : CredentialRecord Cipher) : Prop where
  validated : validateCredentialRecord sys record = .ok ()
  normalized : normalizeOrigins record.targetOrigins = .ok row.targetOrigins
  first : record.revision = 1
  eq : row = { record with targetOrigins := row.targetOrigins }

theorem Store.insert_eq_ok (h : s.insert sys record = .ok t) :
    s.credentials.get record.id = none ∧ t.plugins = s.plugins ∧ t.grants = s.grants ∧
      ∃ row, Inserted sys record row ∧
        ∀ id, t.credentials.get id = if id = record.id then some row else s.credentials.get id := by
  obtain ⟨_, hvalid, h⟩ := bind_eq_ok h
  obtain ⟨hfirst, h⟩ := require_bind_eq_ok.mp h
  obtain ⟨origins, horigins, h⟩ := bind_eq_ok h
  obtain ⟨_, -, h⟩ := bind_eq_ok h
  unfold Store.insertRow at h
  split at h
  · rename_i absent
    split at h
    · cases h
    · cases h
      refine ⟨absent, rfl, rfl, { record with targetOrigins := origins }, ?_, fun id => ?_⟩
      · exact ⟨hvalid, horigins, of_decide_eq_true hfirst, rfl⟩
      · rw [Table.get_add]
  · cases h

/-- A row as `update` writes it over another. -/
structure Updated (sys : Storage Cipher Digest) (record old row : CredentialRecord Cipher) : Prop where
  validated : validateCredentialRecord sys record = .ok ()
  normalized : normalizeOrigins record.targetOrigins = .ok row.targetOrigins
  found : old.revision = record.revision
  small : record.revision + 1 < 2 ^ 63
  eq : row = { record with
    targetOrigins := row.targetOrigins, revision := record.revision + 1, createdAt := old.createdAt }

theorem Store.update_eq_ok {revision : Nat} (h : s.update sys record = .ok (revision, t)) :
    revision = record.revision + 1 ∧ t.plugins = s.plugins ∧ t.grants = s.grants ∧
      ∃ old row, s.credentials.get record.id = some old ∧ Updated sys record old row ∧
        ∀ id, t.credentials.get id = if id = record.id then some row else s.credentials.get id := by
  obtain ⟨_, hvalid, h⟩ := bind_eq_ok h
  obtain ⟨origins, horigins, h⟩ := bind_eq_ok h
  obtain ⟨-, h⟩ := require_bind_eq_ok.mp h
  obtain ⟨_, -, h⟩ := bind_eq_ok h
  obtain ⟨hsmall, h⟩ := require_bind_eq_ok.mp h
  unfold Store.updateRow at h
  split at h
  · cases h
  · rename_i old hold
    split at h
    · cases h
    · rename_i hfound
      split at h
      · cases h
      · cases h
        have hid := Table.key_of_get hold
        refine ⟨rfl, rfl, rfl, old, { record with
            targetOrigins := origins, revision := record.revision + 1, createdAt := old.createdAt }, hold,
          ⟨hvalid, horigins, not_not.mp hfound, of_decide_eq_true hsmall, rfl⟩, fun id => ?_⟩
        rw [Table.get_update]
        split
        · rename_i heq
          subst heq
          rw [hold]
          simp only [Option.map_some, Store.overwritten, hid, if_true]
        · rename_i hne
          cases hget : s.credentials.get id with
          | none => rfl
          | some other =>
            have hother : other.id ≠ record.id := fun heq => hne ((Table.key_of_get hget).symm.trans heq)
            simp only [Option.map_some, Store.overwritten, hother, if_false]

theorem Store.clearSourcePlugin_eq_ok (h : s.clearSourcePlugin id now = .ok t) :
    t.plugins = s.plugins ∧ t.grants = s.grants ∧
      ∀ other, t.credentials.get other = (s.credentials.get other).map (Store.cleared id now) := by
  unfold Store.clearSourcePlugin at h
  split at h
  · cases h
  · cases h
    refine ⟨rfl, rfl, fun other => ?_⟩
    rw [Table.get_update]

theorem Store.delete_eq_ok (h : s.delete id = .ok t) : t.plugins = s.plugins ∧ (s.credentials.get id).isSome ∧
    (∀ other, t.credentials.get other = if other = id then none else s.credentials.get other) ∧ t.grants =
    s.grants.remove fun row => row.grant.credentialId = id := by
  unfold Store.delete at h
  split at h
  · cases h
  · rename_i row hrow
    cases h
    refine ⟨rfl, by rw [hrow]; rfl, fun other => ?_, rfl⟩
    rw [Table.get_remove]
    cases hget : s.credentials.get other with
    | none => simp only [Option.filter_none, ite_self]
    | some row =>
      have hid := Table.key_of_get hget
      simp only [Option.filter_some, hid]
      by_cases heq : other = id <;> simp [heq]

end

end AudioDown.Vault
