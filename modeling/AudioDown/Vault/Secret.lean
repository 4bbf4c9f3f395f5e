/-
# AudioDown.Vault.Secret — secrets, their payload and the envelope around it

`secret.rs` and `crypto.rs`.  A cookie list or a token can only be built by a constructor that checks it, so
each is a structure with the checks as fields.  Encoding turns it into a payload, decoding checks the
payload again; a secret comes back as it was (`decode_encode`), because the one thing the constructor
changes, the case of a host, it has already changed.

JSON and AES-GCM are parameters (`Cryptography`).  `Ideal` is what is assumed of them: a payload is read back
as it was written, and a ciphertext opens under its own nonce and associated data, to what was sealed, and
under no other.
-/
import AudioDown.Lib.Framing
import AudioDown.Vault.Store

namespace AudioDown.Vault

open Lib Supervisor

/-! ## Cookies and tokens -/

def secretPayloadVersion : UInt16 := 1
def maxCookies : Nat := 128
def maxCookieNameBytes : Nat := 256
def maxCookieValueBytes : Nat := 8 * 1024
def maxCookieHostBytes : Nat := 253
def maxCookiePathBytes : Nat := 2 * 1024
def maxTokenBytes : Nat := 16 * 1024

def isCookieNameByte (c : Char) : Bool :=
  0x20 < c.toNat && c.toNat < 0x7f &&
    !(['(', ')', '<', '>', '@', ',', ';', ':', '\\', '"', '/', '[', ']', '?', '=', '\x7b', '\x7d'].contains c)

def validCookieName (name : String) : Bool :=
  name ≠ "" && name.utf8ByteSize ≤ maxCookieNameBytes && name.toList.all isCookieNameByte

def isHostByte (c : Char) : Bool :=
  c.isLower || c.isDigit || c = '.' || c = '-'

def validCookieHost (host : String) : Bool :=
  host ≠ "" && host.utf8ByteSize ≤ maxCookieHostBytes && host.toList.head? ≠ some '.' &&
    host.toList.getLast? ≠ some '.' && host.toList.IsChain (fun a b => ¬ (a = '.' ∧ b = '.')) &&
    host.toList.all isHostByte

/-- `CookiePayloadOwned`: a cookie that has not been checked. -/
structure CookiePayload where
  name : String
  value : String
  host : String
  path : String
  secure : Bool
  httpOnly : Bool
  expiresAt : Option Timestamp
deriving DecidableEq

def CookiePayload.valid (cookie : CookiePayload) : Bool :=
  validCookieName cookie.name && cookie.value ≠ "" && cookie.value.utf8ByteSize ≤ maxCookieValueBytes &&
    validCookieHost cookie.host && cookie.path ≠ "" && cookie.path.utf8ByteSize ≤ maxCookiePathBytes &&
    cookie.path.toList.head? = some '/'

structure CookieSecretRecord extends CookiePayload where
  valid : toCookiePayload.valid = true
deriving DecidableEq

inductive SecretPayloadError where
  | invalidCookie
  | invalidToken
  | malformed
  | unsupportedVersion
  | kindMismatch
deriving DecidableEq

def toAsciiLowercase (text : String) : String := String.ofList (text.toList.map Char.toLower)

/-- `CookieSecretRecord::new` -/
def CookieSecretRecord.new (cookie : CookiePayload) : Except SecretPayloadError CookieSecretRecord :=
  if h : { cookie with host := toAsciiLowercase cookie.host }.valid = true then .ok ⟨_, h⟩
  else .error .invalidCookie

def CookieSecretRecord.identity (cookie : CookieSecretRecord) : String × String × String :=
  (cookie.name, cookie.host, cookie.path)

structure CookieCredentialSecret where
  cookies : List CookieSecretRecord
  nonempty : cookies ≠ []
  few : cookies.length ≤ maxCookies
  distinct : (cookies.map CookieSecretRecord.identity).Nodup
deriving DecidableEq

/-- `CookieCredentialSecret::new` -/
def CookieCredentialSecret.new (cookies : List CookieSecretRecord) :
    Except SecretPayloadError CookieCredentialSecret :=
  if h : cookies ≠ [] ∧ cookies.length ≤ maxCookies ∧ (cookies.map CookieSecretRecord.identity).Nodup then
    .ok ⟨cookies, h.1, h.2.1, h.2.2⟩
  else .error .invalidCookie

structure TokenCredentialSecret where
  value : String
  nonempty : value ≠ ""
  small : value.utf8ByteSize ≤ maxTokenBytes
deriving DecidableEq

/-- `TokenCredentialSecret::bearer` -/
def TokenCredentialSecret.bearer (value : String) : Except SecretPayloadError TokenCredentialSecret :=
  if h : value ≠ "" ∧ value.utf8ByteSize ≤ maxTokenBytes then .ok ⟨value, h.1, h.2⟩
  else .error .invalidToken

/-- `SecretInput` on the way in, `CredentialSecret` on the way out. -/
inductive CredentialSecret where
  | cookie (secret : CookieCredentialSecret)
  | token (secret : TokenCredentialSecret)
deriving DecidableEq

def CredentialSecret.kind : CredentialSecret → CredentialKind
  | .cookie _ => .cookie
  | .token _ => .token

/-! ## The payload -/

/-- `SecretPayloadRef` and `SecretPayloadOwned`. -/
inductive SecretPayload where
  | cookie (version : UInt16) (cookies : List CookiePayload)
  | token (version : UInt16) (scheme value : String)
deriving DecidableEq

/-- `encode_cookie` and `encode_token`, up to the JSON. -/
def encode : CredentialSecret → SecretPayload
  | .cookie secret =>
      .cookie secretPayloadVersion (secret.cookies.map CookieSecretRecord.toCookiePayload)
  | .token secret => .token secretPayloadVersion "bearer" secret.value

def validateVersion (version : UInt16) : Except SecretPayloadError Unit :=
  if version = secretPayloadVersion then .ok () else .error .unsupportedVersion

def decode : CredentialKind → SecretPayload → Except SecretPayloadError CredentialSecret
  | .cookie, .cookie version payload => do
      validateVersion version
      let cookies ← payload.mapM CookieSecretRecord.new
      let secret ← CookieCredentialSecret.new cookies
      .ok (.cookie secret)
  | .token, .token version scheme value => do
      validateVersion version
      if scheme = "bearer" then
        let secret ← TokenCredentialSecret.bearer value
        .ok (.token secret)
      else .error .invalidToken
  | _, _ => .error .kindMismatch

/-! ### A secret comes back -/

theorem toLower_of_isHostByte {c : Char} (h : isHostByte c = true) : c.toLower = c := by
  have notUpper : ¬ (c.val ≥ 'A'.val ∧ c.val ≤ 'Z'.val) := by
    rintro ⟨low, high⟩
    simp only [isHostByte, Bool.or_eq_true, decide_eq_true_eq] at h
    rcases h with ((h | h) | rfl) | rfl
    · have lower : 'a'.val ≤ c.val := of_decide_eq_true (Bool.and_eq_true_iff.mp h).1
      exact absurd (UInt32.le_trans lower high) (by decide)
    · simp only [Char.isDigit, Bool.and_eq_true, decide_eq_true_eq] at h
      exact absurd (UInt32.le_trans low h.2) (by decide)
    · exact absurd low (by decide)
    · exact absurd low (by decide)
  exact dif_neg notUpper

theorem toAsciiLowercase_of_validCookieHost {host : String} (h : validCookieHost host = true) :
    toAsciiLowercase host = host := by
  have hall : ∀ c ∈ host.toList, c.toLower = c := by
    unfold validCookieHost at h
    rw [Bool.and_eq_true, List.all_eq_true] at h
    exact fun c hc => toLower_of_isHostByte (h.2 c hc)
  unfold toAsciiLowercase
  rw [List.map_congr_left hall, List.map_id', String.ofList_toList]

theorem CookieSecretRecord.new_self (cookie : CookieSecretRecord) :
    CookieSecretRecord.new cookie.toCookiePayload = .ok cookie := by
  have hhost : toAsciiLowercase cookie.host = cookie.host := by
    have hvalid := cookie.valid
    simp only [CookiePayload.valid, Bool.and_eq_true] at hvalid
    exact toAsciiLowercase_of_validCookieHost hvalid.1.1.1.2
  unfold CookieSecretRecord.new
  simp only [hhost]
  exact dif_pos cookie.valid

theorem mapM_new_toCookiePayload (cookies : List CookieSecretRecord) :
    (cookies.map CookieSecretRecord.toCookiePayload).mapM CookieSecretRecord.new = .ok cookies := by
  induction cookies with
  | nil => rfl
  | cons cookie cookies ih =>
    rw [List.map_cons, List.mapM_cons, CookieSecretRecord.new_self, ih]
    rfl

theorem decode_encode (secret : CredentialSecret) : decode secret.kind (encode secret) = .ok secret := by
  cases secret with
  | cookie secret =>
    show (validateVersion secretPayloadVersion >>= fun _ => _) = _
    rw [mapM_new_toCookiePayload]
    show (CookieCredentialSecret.new secret.cookies >>= _) = _
    rw [show CookieCredentialSecret.new secret.cookies = .ok secret from
      dif_pos ⟨secret.nonempty, secret.few, secret.distinct⟩]
    rfl
  | token secret =>
    show (TokenCredentialSecret.bearer secret.value >>= _) = _
    rw [show TokenCredentialSecret.bearer secret.value = .ok secret from
      dif_pos ⟨secret.nonempty, secret.small⟩]
    rfl

/-! ## The envelope -/

def algorithmVersion : UInt16 := 1
def maxPlaintextBytes : Nat := 64 * 1024
def authenticationTagBytes : Nat := 16
def currentKeyVersion : UInt32 := 1

inductive CryptoError where
  | plaintextTooLarge
  | unsupportedAlgorithmVersion
  | invalidKeyVersion
  | envelopeMetadataMismatch
  | invalidEnvelope
  | encryptionFailed
  | randomnessUnavailable
  | authenticationFailed
deriving DecidableEq

structure EncryptionContext where
  recordId : CredentialId
  scope : CredentialScope
  algorithmVersion : UInt16
  keyVersion : UInt32
deriving DecidableEq

/-- `EncryptionContext::new` -/
def EncryptionContext.new (recordId : CredentialId) (scope : CredentialScope) (keyVersion : UInt32) :
    EncryptionContext :=
  ⟨recordId, scope, Vault.algorithmVersion, keyVersion⟩

def associatedDataPrefix : List UInt8 := "audiodown-credential-envelope\x00".toUTF8.data.toList

def associatedData (context : EncryptionContext) : List UInt8 :=
  associatedDataPrefix ++ beBytes 2 context.algorithmVersion.toNat ++
    beBytes 4 context.keyVersion.toNat ++ beBytes 16 context.recordId.uuid ++
    beBytes 2 context.scope.utf8ByteSize ++ context.scope.toUTF8.data.toList

/-- serde_json on payloads, and AES-GCM under the master key. -/
structure Cryptography (Plain Cipher : Type) where
  toJson : SecretPayload → Plain
  fromJson : Plain → Option SecretPayload
  plaintextLen : Plain → Nat
  encrypt : Nonce → List UInt8 → Plain → Option Cipher
  decrypt : Nonce → List UInt8 → Cipher → Option Plain

section
variable {Plain Cipher Digest : Type}

/-- What is assumed of them. -/
structure Ideal (sys : Storage Cipher Digest) (crypto : Cryptography Plain Cipher) : Prop where
  fromJson_toJson : ∀ payload, crypto.fromJson (crypto.toJson payload) = some payload
  decrypt_iff : ∀ nonce data plain cipher, crypto.encrypt nonce data plain = some cipher →
    ∀ nonce' data' plain', crypto.decrypt nonce' data' cipher = some plain' ↔
      nonce' = nonce ∧ data' = data ∧ plain' = plain
  encrypt_len : ∀ nonce data plain cipher, crypto.encrypt nonce data plain = some cipher →
    sys.ciphertextLen cipher = crypto.plaintextLen plain + authenticationTagBytes

def validateContext (context : EncryptionContext) : Except CryptoError Unit :=
  if context.algorithmVersion ≠ Vault.algorithmVersion then .error .unsupportedAlgorithmVersion
  else if context.keyVersion = 0 then .error .invalidKeyVersion
  else .ok ()

def validatePlaintext (crypto : Cryptography Plain Cipher) (plaintext : Plain) : Except CryptoError Unit :=
  if maxPlaintextBytes < crypto.plaintextLen plaintext then .error .plaintextTooLarge else .ok ()

def validateEnvelope (sys : Storage Cipher Digest) (context : EncryptionContext)
    (envelope : EncryptedEnvelope Cipher) : Except CryptoError Unit :=
  if envelope.algorithmVersion ≠ Vault.algorithmVersion then .error .unsupportedAlgorithmVersion
  else if envelope.keyVersion = 0 then .error .invalidKeyVersion
  else if envelope.algorithmVersion ≠ context.algorithmVersion ||
      envelope.keyVersion ≠ context.keyVersion then .error .envelopeMetadataMismatch
  else if sys.ciphertextLen envelope.ciphertext < authenticationTagBytes ||
      maxPlaintextBytes + authenticationTagBytes < sys.ciphertextLen envelope.ciphertext then
    .error .invalidEnvelope
  else .ok ()

def encryptWithNonce (crypto : Cryptography Plain Cipher) (context : EncryptionContext) (plaintext : Plain)
    (nonce : Nonce) : Except CryptoError (EncryptedEnvelope Cipher) := do
  validateContext context
  validatePlaintext crypto plaintext
  match crypto.encrypt nonce (associatedData context) plaintext with
  | some ciphertext => .ok ⟨context.algorithmVersion, context.keyVersion, nonce, ciphertext⟩
  | none => .error .encryptionFailed

def decrypt (sys : Storage Cipher Digest) (crypto : Cryptography Plain Cipher) (context : EncryptionContext)
    (envelope : EncryptedEnvelope Cipher) : Except CryptoError Plain := do
  validateContext context
  validateEnvelope sys context envelope
  match crypto.decrypt envelope.nonce (associatedData context) envelope.ciphertext with
  | some plaintext => .ok plaintext
  | none => .error .authenticationFailed

/-- An envelope made under the current key version for a credential. -/
structure Sealed (crypto : Cryptography Plain Cipher) (id : CredentialId) (scope : CredentialScope)
    (secret : CredentialSecret) (envelope : EncryptedEnvelope Cipher) : Prop where
  algorithmVersion : envelope.algorithmVersion = Vault.algorithmVersion
  keyVersion : envelope.keyVersion = currentKeyVersion
  encrypted : crypto.encrypt envelope.nonce (associatedData (.new id scope currentKeyVersion))
    (crypto.toJson (encode secret)) = some envelope.ciphertext
  small : crypto.plaintextLen (crypto.toJson (encode secret)) ≤ maxPlaintextBytes

variable {sys : Storage Cipher Digest} {crypto : Cryptography Plain Cipher} {id : CredentialId}
  {scope : CredentialScope} {secret : CredentialSecret} {envelope : EncryptedEnvelope Cipher}

theorem sealed_of_encrypt {nonce : Nonce}
    (h : encryptWithNonce crypto (.new id scope currentKeyVersion) (crypto.toJson (encode secret)) nonce =
      .ok envelope) : Sealed crypto id scope secret envelope := by
  obtain ⟨_, -, h⟩ := Lib.bind_eq_ok h
  obtain ⟨_, hsize, h⟩ := Lib.bind_eq_ok h
  have hsmall : crypto.plaintextLen (crypto.toJson (encode secret)) ≤ maxPlaintextBytes := by
    unfold validatePlaintext at hsize
    split at hsize
    · cases hsize
    · exact Nat.le_of_not_lt ‹_›
  split at h
  · rename_i ciphertext hseal
    cases h
    exact ⟨rfl, rfl, hseal, hsmall⟩
  · cases h

theorem Sealed.decrypt (ideal : Ideal sys crypto) (h : Sealed crypto id scope secret envelope) :
    decrypt sys crypto (.new id scope envelope.keyVersion) envelope =
      .ok (crypto.toJson (encode secret)) := by
  have hlen : sys.ciphertextLen envelope.ciphertext = _ := ideal.encrypt_len _ _ _ _ h.encrypted
  have hsmall := h.small
  have hopen : crypto.decrypt envelope.nonce (associatedData (.new id scope currentKeyVersion))
      envelope.ciphertext = some (crypto.toJson (encode secret)) :=
    (ideal.decrypt_iff _ _ _ _ h.encrypted ..).mpr ⟨rfl, rfl, rfl⟩
  have henvelope : validateEnvelope sys (.new id scope currentKeyVersion) envelope = .ok () := by
    have hrange : (sys.ciphertextLen envelope.ciphertext < authenticationTagBytes ||
        maxPlaintextBytes + authenticationTagBytes < sys.ciphertextLen envelope.ciphertext : Bool) = false := by
      simp only [Bool.or_eq_false_iff, decide_eq_false_iff_not]
      omega
    have hkey : ¬ currentKeyVersion = 0 := by decide
    simp only [validateEnvelope, h.algorithmVersion, h.keyVersion, hrange, EncryptionContext.new, hkey,
      ne_eq, not_true_eq_false, decide_false, Bool.or_self, if_false, Bool.false_eq_true]
  unfold Vault.decrypt
  rw [h.keyVersion, show validateContext (.new id scope currentKeyVersion) = .ok () from rfl, henvelope]
  show (match crypto.decrypt envelope.nonce _ envelope.ciphertext with
    | some plaintext => Except.ok plaintext
    | none => .error CryptoError.authenticationFailed) = _
  rw [hopen]

theorem Sealed.fits (ideal : Ideal sys crypto) (h : Sealed crypto id scope secret envelope) :
    sys.fits envelope.ciphertext = true := by
  have hlen := ideal.encrypt_len _ _ _ _ h.encrypted
  have hsmall := h.small
  simp only [authenticationTagBytes, maxPlaintextBytes] at hlen hsmall
  rw [Storage.fits, minCiphertextBytes, maxCiphertextBytes, hlen, Bool.and_eq_true]
  constructor
  · exact decide_eq_true (Nat.le_add_left _ _)
  · exact decide_eq_true (by omega)

end

/-! ## A symbolic cipher

The assumptions can be met: a ciphertext that remembers what it was made of. -/

namespace Symbolic

abbrev Text := Nonce × List UInt8 × SecretPayload

def size : SecretPayload → Nat
  | .cookie _ cookies => (cookies.map fun cookie => cookie.name.utf8ByteSize + cookie.value.utf8ByteSize +
      cookie.host.utf8ByteSize + cookie.path.utf8ByteSize).sum
  | .token _ scheme value => scheme.utf8ByteSize + value.utf8ByteSize

def crypto : Cryptography SecretPayload Text where
  toJson := id
  fromJson := some
  plaintextLen := size
  encrypt nonce data plain := some (nonce, data, plain)
  decrypt nonce data cipher := if nonce = cipher.1 ∧ data = cipher.2.1 then some cipher.2.2 else none

def storage : Storage Text (List UInt8) where
  ciphertextLen cipher := size cipher.2.2 + authenticationTagBytes
  originSyntax origin := origin.toList.take 8 = "https://".toList
  originHost origin := some (String.ofList (origin.toList.drop 8))
  sha256 := id

theorem ideal : Ideal storage crypto where
  fromJson_toJson _ := rfl
  encrypt_len := by
    intro nonce data plain cipher h
    cases h
    rfl
  decrypt_iff := by
    intro nonce data plain cipher h nonce' data' plain'
    cases h
    show (if nonce' = nonce ∧ data' = data then some plain else none) = some plain' ↔ _
    constructor
    · intro h
      split at h
      · rename_i hsame
        exact ⟨hsame.1, hsame.2, (Option.some.inj h).symm⟩
      · cases h
    · rintro ⟨rfl, rfl, rfl⟩
      exact if_pos ⟨rfl, rfl⟩

end Symbolic

/-! ## Contexts never collide -/

def maxCredentialScopeBytes : Nat := 128
def maxCredentialScopeSegments : Nat := 8
def maxCredentialScopeSegmentBytes : Nat := 32
def minCredentialScopeSegments : Nat := 2

inductive CredentialScopeError where
  | empty
  | tooLong
  | invalidSegmentCount
  | invalidFormat
deriving DecidableEq

/-- The segment of an ASCII text, so its characters are its bytes. -/
def validScopeSegment : List Char → Bool
  | [] => false
  | c :: rest => (c :: rest).length ≤ maxCredentialScopeSegmentBytes && c.isLower &&
      rest.all fun c => c.isLower || c.isDigit

/-- `CredentialScope::parse` -/
def CredentialScope.parse (input : String) : Except CredentialScopeError CredentialScope :=
  let segments := input.toList.splitOn '.'
  if input = "" then .error .empty
  else if maxCredentialScopeBytes < input.utf8ByteSize then .error .tooLong
  else if input.toList.any fun c => 128 ≤ c.toNat then .error .invalidFormat
  else if segments.length < minCredentialScopeSegments || maxCredentialScopeSegments < segments.length then
    .error .invalidSegmentCount
  else if segments.any fun segment => !validScopeSegment segment then .error .invalidFormat
  else .ok input

theorem CredentialScope.size_le_of_parse {input : String} {scope : CredentialScope}
    (h : CredentialScope.parse input = .ok scope) : scope.utf8ByteSize ≤ maxCredentialScopeBytes := by
  simp only [CredentialScope.parse] at h
  repeat' split at h
  all_goals cases h
  exact Nat.le_of_not_lt ‹_›

/-- The identifier is a UUID, of sixteen bytes, and the scope was parsed. -/
structure EncryptionContext.Built (context : EncryptionContext) : Prop where
  uuid : context.recordId.uuid < 2 ^ 128
  parsed : ∃ input, CredentialScope.parse input = .ok context.scope

theorem EncryptionContext.Built.size {context : EncryptionContext} (h : context.Built) :
    context.scope.utf8ByteSize < 2 ^ 16 := by
  obtain ⟨input, hinput⟩ := h.parsed
  exact Nat.lt_of_le_of_lt (CredentialScope.size_le_of_parse hinput) (by decide)

theorem associatedData_inj {a b : EncryptionContext} (ha : a.Built) (hb : b.Built)
    (h : associatedData a = associatedData b) : a = b := by
  simp only [associatedData, List.append_assoc, List.append_cancel_left_eq] at h
  obtain ⟨halgorithm, h⟩ := beBytes_append_inj a.algorithmVersion.toNat_lt b.algorithmVersion.toNat_lt h
  obtain ⟨hkey, h⟩ := beBytes_append_inj a.keyVersion.toNat_lt b.keyVersion.toNat_lt h
  obtain ⟨huuid, h⟩ := beBytes_append_inj ha.uuid hb.uuid h
  obtain ⟨-, hscope⟩ := beBytes_append_inj ha.size hb.size h
  obtain ⟨⟨id, hid⟩, scope, algorithm, key⟩ := a
  obtain ⟨⟨id', hid'⟩, scope', algorithm', key'⟩ := b
  cases UInt16.toNat_inj.mp halgorithm
  cases UInt32.toNat_inj.mp hkey
  cases huuid
  cases String.toByteArray_inj.mp (ByteArray.ext (Array.toList_inj.mp hscope))
  rfl

/-- No two contexts share their associated data.  So an envelope opens in the context it was made for and
in no other, whatever its version fields have been changed to. -/
theorem contexts_never_collide {Plain Cipher Digest : Type} {sys : Storage Cipher Digest}
    {crypto : Cryptography Plain Cipher} (ideal : Ideal sys crypto) {a b : EncryptionContext}
    (ha : a.Built) (hb : b.Built) :
    a.scope.utf8ByteSize < 2 ^ 16 ∧ (associatedData a = associatedData b → a = b) ∧
    ∀ plaintext nonce envelope, encryptWithNonce crypto a plaintext nonce = .ok envelope →
      ∀ algorithmVersion keyVersion opened,
        decrypt sys crypto b { envelope with algorithmVersion, keyVersion } = .ok opened →
        b = a ∧ opened = plaintext := by
  refine ⟨ha.size, associatedData_inj ha hb, ?_⟩
  intro _ _ _ hsealed _ _ _ hopened
  obtain ⟨_, -, hsealed⟩ := Lib.bind_eq_ok hsealed
  obtain ⟨_, -, hsealed⟩ := Lib.bind_eq_ok hsealed
  obtain ⟨_, -, hopened⟩ := Lib.bind_eq_ok hopened
  obtain ⟨_, -, hopened⟩ := Lib.bind_eq_ok hopened
  split at hsealed
  · rename_i ciphertext hcipher
    cases hsealed
    split at hopened
    · rename_i plain hplain
      cases hopened
      obtain ⟨-, hdata, hplain⟩ := (ideal.decrypt_iff _ _ _ _ hcipher ..).mp hplain
      exact ⟨associatedData_inj hb ha hdata, hplain⟩
    · cases hopened
  · cases hsealed

theorem session_is_not_profile :
    let session := EncryptionContext.new ⟨1, by decide⟩ "site.session" currentKeyVersion
    let profile := EncryptionContext.new ⟨1, by decide⟩ "site.profile" currentKeyVersion
    session.Built ∧ profile.Built ∧ associatedData session ≠ associatedData profile := by
  intro session profile
  have hsession : session.Built := ⟨by decide, "site.session", by decide⟩
  have hprofile : profile.Built := ⟨by decide, "site.profile", by decide⟩
  refine ⟨hsession, hprofile, fun h => ?_⟩
  exact absurd ((contexts_never_collide Symbolic.ideal hsession hprofile).2.1 h) (by decide)

end AudioDown.Vault
