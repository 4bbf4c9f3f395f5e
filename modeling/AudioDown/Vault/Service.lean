/-
# AudioDown.Vault.Service — the credential vault over its repository

`CredentialVault` with `SqliteVaultRepository` under it and `SqliteCredentialVaultPort` above it: a method is
a program over the transactions of `AudioDown.Vault.Store`, the clock, the generator of UUIDs and the source
of nonces.  Every look at the clock is a step of its own (`status_with_expiry` takes one whenever an active
credential has an expiry), so two statuses of one record may differ.

`StoredCredential` has the fields of the storage crate's `CredentialRecord` and its metadata.
-/
import AudioDown.Vault.Secret

namespace AudioDown.Vault

open Lib Supervisor

/-! ## Steps -/

inductive VaultAct (Cipher : Type) where
  | utcNow
  | newUuid
  | fillNonce
  | insert (record : CredentialRecord Cipher)
  | update (record : CredentialRecord Cipher)
  | get (credentialId : CredentialId)
  | clearSourcePlugin (credentialId : CredentialId) (now : Timestamp)
  | delete (credentialId : CredentialId)

variable {Plain Cipher Digest : Type}

abbrev VaultAct.Resp : VaultAct Cipher → Type
  | .utcNow => Timestamp
  | .newUuid => Uuid
  | .fillNonce => Option Nonce
  | .insert _ => Except StorageError Unit
  | .update _ => Except StorageError Nat
  | .get _ => Except StorageError (Option (CredentialRecord Cipher))
  | .clearSourcePlugin .. => Except StorageError Unit
  | .delete _ => Except StorageError Unit

/-- What the environment decides: the clock, a UUID, random bytes, or that a transaction fails. -/
inductive VaultChoice where
  | instant (now : Timestamp)
  | uuid (value : Uuid)
  | random (nonce : Option Nonce)
  | done
  | failed
deriving DecidableEq

namespace VaultChoice

def time : VaultChoice → Timestamp
  | .instant now => now
  | _ => 0

def drawn : VaultChoice → Uuid
  | .uuid value => value
  | _ => 0

def bytes : VaultChoice → Option Nonce
  | .random nonce => nonce
  | _ => none

end VaultChoice

/-- A transaction: it may fail for reasons of the database, and an error rolls it back. -/
def transact {α : Type} (c : VaultChoice) (s : Store Cipher Digest)
    (body : Except StorageError (α × Store Cipher Digest)) : Except StorageError α × Store Cipher Digest :=
  match c, body with
  | .failed, _ => (.error .database, s)
  | _, .ok (value, t) => (.ok value, t)
  | _, .error e => (.error e, s)

def vaultStep (sys : Storage Cipher Digest) :
    (a : VaultAct Cipher) → VaultChoice → Store Cipher Digest → a.Resp × Store Cipher Digest
  | .utcNow, c, s => (c.time, s)
  | .newUuid, c, s => (c.drawn, s)
  | .fillNonce, c, s => (c.bytes, s)
  | .insert record, c, s => transact c s ((s.insert sys record).map fun t => ((), t))
  | .update record, c, s => transact c s (s.update sys record)
  | .get id, c, s => transact c s ((s.get sys id).map fun record => (record, s))
  | .clearSourcePlugin id now, c, s => transact c s ((s.clearSourcePlugin id now).map fun t => ((), t))
  | .delete id, c, s => transact c s ((s.delete id).map fun t => ((), t))

abbrev VaultProgram (Cipher : Type) := Prog (VaultAct Cipher) VaultAct.Resp

/-! ## Metadata -/

structure CredentialMetadata where
  id : CredentialId
  kind : CredentialKind
  platformId : String
  scope : CredentialScope
  ownership : CredentialOwnership
  targetOrigins : List Origin
  accountIdHint : Option String
  displayName : Option String
  status : CredentialStatus
  safeErrorSummary : Option String
  expiresAt : Option Timestamp
  statusCheckedAt : Option Timestamp
  createdAt : Timestamp
  updatedAt : Timestamp
  revision : Nat
deriving DecidableEq

/-- `status_with_expiry`, once the clock has been read. -/
def statusAt (status : CredentialStatus) (expiresAt : Option Timestamp) (now : Timestamp) : CredentialStatus :=
  if status = .active && expiresAt.any (· ≤ now) then .expired else status

/-- The clock is read only for an active credential with an expiry. -/
def statusWithExpiry (status : CredentialStatus) (expiresAt : Option Timestamp) :
    VaultProgram Cipher CredentialStatus :=
  if status = .active && expiresAt.isSome then
    .act .utcNow fun now => .ret (statusAt status expiresAt now)
  else .ret status

theorem statusAt_of_unasked {status : CredentialStatus} {expiresAt : Option Timestamp}
    (h : ¬ (status = .active && expiresAt.isSome : Bool) = true) (now : Timestamp) :
    statusAt status expiresAt now = status := by
  unfold statusAt
  rw [if_neg]
  intro hboth
  rw [Bool.and_eq_true] at hboth
  cases expiresAt with
  | none => exact absurd hboth.2 (by simp)
  | some time => exact h (by rw [hboth.1]; rfl)

namespace CredentialRecord

/-- The metadata of a record, up to the status. -/
def metadataWith (record : CredentialRecord Cipher) (status : CredentialStatus) : CredentialMetadata where
  id := record.id
  kind := record.kind
  platformId := record.platformId
  scope := record.scope
  ownership := match record.sourcePluginId with
    | some pluginId => .plugin pluginId
    | none => .retained
  targetOrigins := record.targetOrigins
  accountIdHint := record.accountIdHint
  displayName := record.displayName
  status := status
  safeErrorSummary := record.safeErrorSummary
  expiresAt := record.expiresAt
  statusCheckedAt := record.statusCheckedAt
  createdAt := record.createdAt
  updatedAt := record.updatedAt
  revision := record.revision

def metadataAt (record : CredentialRecord Cipher) (now : Timestamp) : CredentialMetadata :=
  record.metadataWith (statusAt record.status record.expiresAt now)

/-- `StoredCredential::to_metadata` -/
def toMetadata (record : CredentialRecord Cipher) : VaultProgram Cipher CredentialMetadata :=
  (statusWithExpiry record.status record.expiresAt).bind fun status => .ret (record.metadataWith status)

end CredentialRecord

structure StoredCredential (Cipher : Type) extends CredentialRecord Cipher where
  metadata : CredentialMetadata

/-! ## The repository -/

inductive CredentialRepositoryError where
  | conflict
  | notFound
  | unavailable
  | invalidRecord
deriving DecidableEq

def mapRepositoryError : StorageError → CredentialRepositoryError
  | .conflict => .conflict
  | .notFound => .notFound
  | .invalidData _ => .invalidRecord
  | .database => .unavailable

def storedToRecord (record : StoredCredential Cipher) :
    VaultProgram Cipher (Except CredentialRepositoryError (CredentialRecord Cipher)) :=
  record.toMetadata.bind fun metadata =>
    if record.metadata ≠ metadata then .ret (.error .invalidRecord)
    else .ret (.ok record.toCredentialRecord)

/-- `record_to_stored` keeps the status that is stored. -/
def recordToStored (record : CredentialRecord Cipher) : StoredCredential Cipher :=
  ⟨record, record.metadataWith record.status⟩

namespace Repository

def insert (record : StoredCredential Cipher) : VaultProgram Cipher (Except CredentialRepositoryError Unit) :=
  (storedToRecord record).bind fun
    | .error e => .ret (.error e)
    | .ok record => .act (.insert record) fun r => .ret (r.mapError mapRepositoryError)

def update (record : StoredCredential Cipher) (expectedRevision : Nat) :
    VaultProgram Cipher (Except CredentialRepositoryError Nat) :=
  if record.revision ≠ expectedRevision then .ret (.error .conflict)
  else (storedToRecord record).bind fun
    | .error e => .ret (.error e)
    | .ok record => .act (.update record) fun r => .ret (r.mapError mapRepositoryError)

def get (id : CredentialId) :
    VaultProgram Cipher (Except CredentialRepositoryError (Option (StoredCredential Cipher))) :=
  .act (.get id) fun r => .ret ((r.mapError mapRepositoryError).map fun record => record.map recordToStored)

/-- The repository looks at the clock itself. -/
def clearSourcePlugin (id : CredentialId) : VaultProgram Cipher (Except CredentialRepositoryError Unit) :=
  .act .utcNow fun now =>
    .act (.clearSourcePlugin id now) fun r => .ret (r.mapError mapRepositoryError)

def delete (id : CredentialId) : VaultProgram Cipher (Except CredentialRepositoryError Unit) :=
  .act (.delete id) fun r => .ret (r.mapError mapRepositoryError)

end Repository

/-! ## Requests -/

inductive VaultError where
  | invalidRequest
  | notFound
  | conflict
  | repositoryUnavailable
  | expired
  | revoked
  | crypto
  | secretPayload
deriving DecidableEq

/-- `VaultError::from_repository` -/
def VaultError.fromRepository : CredentialRepositoryError → VaultError
  | .conflict => .conflict
  | .notFound => .notFound
  | .unavailable => .repositoryUnavailable
  | .invalidRecord => .invalidRequest

structure CredentialCreateRequest where
  platformId : String
  scope : CredentialScope
  sourcePluginId : Option PluginId
  targetOrigins : List Origin
  accountIdHint : Option String
  displayName : Option String
  expiresAt : Option Timestamp
deriving DecidableEq

structure CredentialUpdateRequest where
  credentialId : CredentialId
  expectedRevision : Nat
  targetOrigins : List Origin
  accountIdHint : Option String
  displayName : Option String
  status : CredentialStatus
  safeErrorSummary : Option String
  expiresAt : Option Timestamp
  statusCheckedAt : Option Timestamp
deriving DecidableEq

/-- `validate_platform_id` of the vault, stricter than that of the storage crate. -/
def requestPlatformId (platformId : String) : Bool :=
  platformId ≠ "" && platformId.utf8ByteSize ≤ 64 &&
    platformId.toList.all fun c => c.isLower || c.isDigit || c = '-'

/-- `validate_origins` reads every origin again. -/
def requestOrigins (sys : Storage Cipher Digest) (origins : List Origin) : Bool :=
  origins ≠ [] && origins.length ≤ 16 && origins.all sys.readable

def isControl (c : Char) : Bool := c.toNat < 0x20 || (0x7f ≤ c.toNat && c.toNat < 0xa0)

/-- `validate_safe_text` -/
def safeText (value : Option String) : Bool :=
  value.all fun text => text.utf8ByteSize ≤ 512 && !text.toList.any isControl

def CredentialCreateRequest.valid (sys : Storage Cipher Digest) (request : CredentialCreateRequest) : Bool :=
  requestPlatformId request.platformId && requestOrigins sys request.targetOrigins &&
    safeText request.accountIdHint && safeText request.displayName

def CredentialUpdateRequest.valid (sys : Storage Cipher Digest) (request : CredentialUpdateRequest) : Bool :=
  request.expectedRevision ≠ 0 && requestOrigins sys request.targetOrigins &&
    safeText request.accountIdHint && safeText request.displayName && safeText request.safeErrorSummary

/-- `validate_secret_origins`: every cookie's host is the host of an origin. -/
def secretOrigins (sys : Storage Cipher Digest) (origins : List Origin) : CredentialSecret → Bool
  | .cookie secret => secret.cookies.all fun cookie =>
      (origins.filterMap sys.originHost).any fun host => toAsciiLowercase host = toAsciiLowercase cookie.host
  | .token _ => true

/-! ## Create and update -/

section
variable (sys : Storage Cipher Digest) (crypto : Cryptography Plain Cipher)

def encryptSecret (id : CredentialId) (scope : CredentialScope) (secret : CredentialSecret) :
    VaultProgram Cipher (Except VaultError (EncryptedEnvelope Cipher)) :=
  match validatePlaintext crypto (crypto.toJson (encode secret)) with
  | .error _ => .ret (.error .crypto)
  | .ok () => .act .fillNonce fun
      | none => .ret (.error .crypto)
      | some nonce =>
        match encryptWithNonce crypto (.new id scope currentKeyVersion) (crypto.toJson (encode secret)) nonce with
        | .error _ => .ret (.error .crypto)
        | .ok envelope => .ret (.ok envelope)

def CredentialCreateRequest.record (request : CredentialCreateRequest) (kind : CredentialKind)
    (id : CredentialId) (envelope : EncryptedEnvelope Cipher) (status : CredentialStatus) (now : Timestamp) :
    CredentialRecord Cipher where
  id := id
  kind := kind
  platformId := request.platformId
  scope := request.scope
  sourcePluginId := request.sourcePluginId
  envelope := envelope
  targetOrigins := request.targetOrigins
  status := status
  accountIdHint := request.accountIdHint
  displayName := request.displayName
  safeErrorSummary := none
  expiresAt := request.expiresAt
  statusCheckedAt := some now
  revision := 1
  createdAt := now
  updatedAt := now

def create (request : CredentialCreateRequest) (secret : CredentialSecret) :
    VaultProgram Cipher (Except VaultError (StoredCredential Cipher)) :=
  if !(request.valid sys && secretOrigins sys request.targetOrigins secret) then
    .ret (.error .invalidRequest)
  else .act .newUuid fun uuid =>
    match CredentialId.fromUuid uuid with
    | none => .ret (.error .invalidRequest)
    | some id => .act .utcNow fun now =>
      (encryptSecret crypto id request.scope secret).bind fun
        | .error e => .ret (.error e)
        | .ok envelope => (statusWithExpiry .active request.expiresAt).bind fun status =>
          -- the metadata is made of the same values, its status included
          let record := recordToStored (request.record secret.kind id envelope status now)
          (Repository.insert record).bind fun
            | .error e => .ret (.error (.fromRepository e))
            | .ok () => .ret (.ok record)

/-- The record an update makes of another; only its envelope, kind, scope and source are not the request's. -/
def CredentialUpdateRequest.apply (request : CredentialUpdateRequest) (existing : CredentialRecord Cipher)
    (envelope : EncryptedEnvelope Cipher) (status : CredentialStatus) (now : Timestamp) :
    CredentialRecord Cipher :=
  { existing with
    targetOrigins := request.targetOrigins
    accountIdHint := request.accountIdHint
    displayName := request.displayName
    status := status
    safeErrorSummary := request.safeErrorSummary
    expiresAt := request.expiresAt
    statusCheckedAt := request.statusCheckedAt
    updatedAt := now
    envelope := envelope }

/-- `Ok(updated)`: the record with its new revision. -/
def StoredCredential.revised (record : StoredCredential Cipher) (revision : Nat) : StoredCredential Cipher :=
  { record with revision := revision, metadata := { record.metadata with revision := revision } }

def update (request : CredentialUpdateRequest) (secret : CredentialSecret) :
    VaultProgram Cipher (Except VaultError (StoredCredential Cipher)) :=
  if !(request.valid sys && secretOrigins sys request.targetOrigins secret) then
    .ret (.error .invalidRequest)
  else (Repository.get request.credentialId).bind fun
    | .error e => .ret (.error (.fromRepository e))
    | .ok none => .ret (.error .notFound)
    | .ok (some existing) =>
      if existing.kind ≠ secret.kind || existing.revision ≠ request.expectedRevision then
        .ret (.error .conflict)
      else .act .utcNow fun now =>
        (encryptSecret crypto existing.id existing.scope secret).bind fun
          | .error e => .ret (.error e)
          | .ok envelope => (statusWithExpiry request.status request.expiresAt).bind fun status =>
            (request.apply existing.toCredentialRecord envelope status now).toMetadata.bind fun metadata =>
              (Repository.update ⟨request.apply existing.toCredentialRecord envelope status now, metadata⟩
                  request.expectedRevision).bind fun
                | .error e => .ret (.error (.fromRepository e))
                | .ok revision => .ret (.ok (StoredCredential.revised
                    ⟨request.apply existing.toCredentialRecord envelope status now, metadata⟩ revision))

/-! ## Reading -/

/-- What `open` does with a record it may open. -/
def openRecord (record : CredentialRecord Cipher) : Except VaultError CredentialSecret :=
  match decrypt sys crypto (.new record.id record.scope record.envelope.keyVersion) record.envelope with
  | .error _ => .error .crypto
  | .ok plaintext =>
    match crypto.fromJson plaintext with
    | none => .error .secretPayload
    | some payload =>
      match decode record.kind payload with
      | .error _ => .error .secretPayload
      | .ok secret => .ok secret

/-- `SecretsPort::open` -/
def openSecret (id : CredentialId) : VaultProgram Cipher (Except VaultError CredentialSecret) :=
  (Repository.get id).bind fun
    | .error e => .ret (.error (.fromRepository e))
    | .ok none => .ret (.error .notFound)
    | .ok (some record) => (statusWithExpiry record.status record.expiresAt).bind fun status =>
      if status = .expired then .ret (.error .expired)
      else if record.status = .revoked then .ret (.error .revoked)
      else .ret (openRecord sys crypto record.toCredentialRecord)

end

/-- `MetadataPort::get` -/
def metadataGet (id : CredentialId) : VaultProgram Cipher (Except VaultError (Option CredentialMetadata)) :=
  (Repository.get id).bind fun
    | .error e => .ret (.error (.fromRepository e))
    | .ok none => .ret (.ok none)
    | .ok (some record) => record.toMetadata.bind fun metadata => .ret (.ok (some metadata))

/-- `MetadataPort::retain` -/
def retain (id : CredentialId) : VaultProgram Cipher (Except VaultError CredentialMetadata) :=
  (Repository.clearSourcePlugin id).bind fun
    | .error e => .ret (.error (.fromRepository e))
    | .ok () => (metadataGet id).bind fun
      | .error e => .ret (.error e)
      | .ok none => .ret (.error .notFound)
      | .ok (some metadata) => .ret (.ok metadata)

/-- `MetadataPort::delete` -/
def deleteCredential (id : CredentialId) : VaultProgram Cipher (Except VaultError Unit) :=
  (Repository.delete id).bind fun r => .ret (r.mapError VaultError.fromRepository)

/-! ## The proxy's port -/

inductive CredentialPortError where
  | notFound
  | conflict
  | expired
  | revoked
  | unavailable
deriving DecidableEq

def mapVaultError : VaultError → CredentialPortError
  | .notFound => .notFound
  | .conflict => .conflict
  | .expired => .expired
  | .revoked => .revoked
  | .invalidRequest | .repositoryUnavailable | .crypto | .secretPayload => .unavailable

structure OpenedCredential where
  metadata : CredentialMetadata
  secret : CredentialSecret
deriving DecidableEq

def openCurrent (sys : Storage Cipher Digest) (crypto : Cryptography Plain Cipher) (id : CredentialId) :
    VaultProgram Cipher (Except CredentialPortError (Option OpenedCredential)) :=
  (metadataGet id).bind fun
    | .error e => .ret (.error (mapVaultError e))
    | .ok none => .ret (.ok none)
    | .ok (some before) => (openSecret sys crypto id).bind fun
      | .error e => .ret (.error (mapVaultError e))
      | .ok secret => (metadataGet id).bind fun
        | .error e => .ret (.error (mapVaultError e))
        | .ok none => .ret (.error .notFound)
        | .ok (some after) =>
          if before ≠ after then .ret (.error .conflict) else .ret (.ok (some ⟨after, secret⟩))

/-! ## What a step does to the credentials -/

/-- A transaction that went through. -/
inductive Wrote (sys : Storage Cipher Digest) (s t : Store Cipher Digest) : VaultAct Cipher → Prop where
  | insert {record : CredentialRecord Cipher} (ok : s.insert sys record = .ok t) : Wrote sys s t (.insert record)
  | update {record : CredentialRecord Cipher} {revision : Nat} (ok : s.update sys record = .ok (revision, t)) :
      Wrote sys s t (.update record)
  | clear {id : CredentialId} {now : Timestamp} (ok : s.clearSourcePlugin id now = .ok t) :
      Wrote sys s t (.clearSourcePlugin id now)
  | delete {id : CredentialId} (ok : s.delete id = .ok t) : Wrote sys s t (.delete id)

variable {sys : Storage Cipher Digest}

theorem transact_cases {α : Type} (c : VaultChoice) (s : Store Cipher Digest)
    (body : Except StorageError (α × Store Cipher Digest)) : (∃ e, transact c s body = (.error e, s)) ∨
      ∃ value t, body = .ok (value, t) ∧ transact c s body = (.ok value, t) := by
  cases body with
  | error e => cases c <;> exact .inl ⟨_, rfl⟩
  | ok result =>
    cases c with
    | failed => exact .inl ⟨_, rfl⟩
    | instant | uuid | random | done => exact .inr ⟨result.1, result.2, rfl, rfl⟩

theorem transact_unit_cases (c : VaultChoice) (s : Store Cipher Digest)
    (body : Except StorageError (Store Cipher Digest)) :
    (∃ e, transact c s (body.map fun t => ((), t)) = (.error e, s)) ∨ ∃ t, body = .ok t ∧
      transact c s (body.map fun t => ((), t)) = (.ok (), t) := by
  rcases transact_cases c s (body.map fun t => ((), t)) with h | ⟨_, t, hok, h⟩
  · exact .inl h
  · obtain ⟨_, hbody, heq⟩ := map_eq_ok hok
    cases heq
    exact .inr ⟨t, hbody, h⟩

section
variable (sys) (c : VaultChoice) (s : Store Cipher Digest)

theorem vaultStep_insert (record : CredentialRecord Cipher) :
    (∃ e, vaultStep sys (.insert record) c s = (.error e, s)) ∨ ∃ t, s.insert sys record = .ok t ∧
      vaultStep sys (.insert record) c s = (.ok (), t) :=
  transact_unit_cases c s _

theorem vaultStep_update (record : CredentialRecord Cipher) :
    (∃ e, vaultStep sys (.update record) c s = (.error e, s)) ∨ ∃ revision t,
      s.update sys record = .ok (revision, t) ∧ vaultStep sys (.update record) c s = (.ok revision, t) :=
  transact_cases c s _

theorem vaultStep_clear (id : CredentialId) (now : Timestamp) :
    (∃ e, vaultStep sys (.clearSourcePlugin id now) c s = (.error e, s)) ∨
      ∃ t, s.clearSourcePlugin id now = .ok t ∧ vaultStep sys (.clearSourcePlugin id now) c s = (.ok (), t) :=
  transact_unit_cases c s _

theorem vaultStep_delete (id : CredentialId) : (∃ e, vaultStep sys (.delete id) c s = (.error e, s)) ∨
      ∃ t, s.delete id = .ok t ∧ vaultStep sys (.delete id) c s = (.ok (), t) :=
  transact_unit_cases c s _

theorem vaultStep_get (id : CredentialId) : (∃ e, vaultStep sys (.get id) c s = (.error e, s)) ∨
      ∃ found, s.get sys id = .ok found ∧ vaultStep sys (.get id) c s = (.ok found, s) := by
  rcases transact_cases c s ((s.get sys id).map fun record => (record, s)) with h | ⟨_, t, hok, h⟩
  · exact .inl h
  · obtain ⟨_, hget, heq⟩ := map_eq_ok hok
    cases heq
    exact .inr ⟨_, hget, h⟩

theorem vaultStep_cases (a : VaultAct Cipher) :
    (vaultStep sys a c s).2 = s ∨ Wrote sys s (vaultStep sys a c s).2 a := by
  cases a with
  | utcNow | newUuid | fillNonce => exact .inl rfl
  | get id =>
    rcases vaultStep_get sys c s id with ⟨e, h⟩ | ⟨_, -, h⟩ <;> exact .inl (congrArg Prod.snd h)
  | insert record =>
    rcases vaultStep_insert sys c s record with ⟨e, h⟩ | ⟨t, hok, h⟩
    · exact .inl (congrArg Prod.snd h)
    · rw [h]
      exact .inr (.insert hok)
  | update record =>
    rcases vaultStep_update sys c s record with ⟨e, h⟩ | ⟨revision, t, hok, h⟩
    · exact .inl (congrArg Prod.snd h)
    · rw [h]
      exact .inr (.update hok)
  | clearSourcePlugin id now =>
    rcases vaultStep_clear sys c s id now with ⟨e, h⟩ | ⟨t, hok, h⟩
    · exact .inl (congrArg Prod.snd h)
    · rw [h]
      exact .inr (.clear hok)
  | delete id =>
    rcases vaultStep_delete sys c s id with ⟨e, h⟩ | ⟨t, hok, h⟩
    · exact .inl (congrArg Prod.snd h)
    · rw [h]
      exact .inr (.delete hok)

end

theorem Store.get_eq_some {s : Store Cipher Digest} {id : CredentialId} {record : CredentialRecord Cipher} :
    s.get sys id = .ok (some record) ↔ s.credentials.get id = some record ∧ Legible sys record := by
  unfold Store.get
  cases s.credentials.get id with
  | none => exact ⟨fun h => (nomatch h), fun h => (nomatch h.1)⟩
  | some row =>
    constructor
    · intro h
      obtain ⟨other, hdecode, heq⟩ := map_eq_ok h
      cases heq
      obtain ⟨rfl, legible⟩ := decodeCredential_eq_ok.mp hdecode
      exact ⟨rfl, legible⟩
    · rintro ⟨heq, legible⟩
      cases heq
      show (decodeCredential sys record).map some = _
      rw [decodeCredential_eq_ok.mpr ⟨rfl, legible⟩]
      rfl

namespace Demo

def login : CredentialId := ⟨7, Nat.succ_ne_zero 6⟩

def secret : CredentialSecret := .token ⟨"sesame", by decide, by decide⟩

end Demo

end AudioDown.Vault
