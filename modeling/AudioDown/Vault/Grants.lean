/-
# AudioDown.Vault.Grants — credential scope grants

`create_grant`, `revoke_grant` and `active_grant` of the credential repository, with the plugin table as far
as they read it.  A grant remembers the hash of the manifest it was given for and a hash of the origins the
credential had at that time; nothing marks it when either changes, and `active_grant` finds out by comparing.
-/
import AudioDown.Lib.Framing
import AudioDown.Vault.Store

namespace AudioDown.Vault

open Lib Supervisor

variable {Cipher Digest : Type}

/-! ## Origins -/

def originSetHash (sys : Storage Cipher Digest) (origins : List Origin) : Digest :=
  sys.sha256 (utf8 "audiodown-credential-origins\x00" ++ frames 4 (origins.map utf8))

/-- Origins that can be read are short, so the four bytes of their lengths tell them apart. -/
theorem originSetHash_injective {sys : Storage Cipher Digest} (collisionFree : Function.Injective sys.sha256)
    {a b : List Origin} (ha : a.all sys.readable = true) (hb : b.all sys.readable = true)
    (h : originSetHash sys a = originSetHash sys b) : a = b := by
  have short : ∀ {origins : List Origin}, origins.all sys.readable = true →
      ∀ bytes ∈ origins.map utf8, bytes.length < 256 ^ 4 := by
    intro origins horigins bytes hmem
    obtain ⟨origin, horigin, rfl⟩ := List.mem_map.mp hmem
    have hreadable := List.all_eq_true.mp horigins origin horigin
    simp only [Storage.readable, Bool.and_eq_true, decide_eq_true_eq] at hreadable
    rw [length_utf8]
    exact Nat.lt_of_le_of_lt hreadable.1.2 (by decide)
  have hframes := List.append_cancel_left (collisionFree h)
  have hbytes := frames_injective (by decide) (short ha) (short hb) hframes
  exact List.map_injective_iff.mpr (fun _ _ => utf8_injective) hbytes

/-- `decode_origins` -/
def loadOrigins (sys : Storage Cipher Digest) (origins : List Origin) : Except StorageError (List Origin) := do
  require (origins.all sys.readable) (.invalidData "stored credential origin is malformed")
  .ok origins

theorem loadOrigins_eq_ok {sys : Storage Cipher Digest} {origins loaded : List Origin} :
    loadOrigins sys origins = .ok loaded ↔ origins.all sys.readable = true ∧ loaded = origins := by
  unfold loadOrigins
  rw [require_bind_eq_ok, Except.ok.injEq, eq_comm (a := origins)]

/-- `content_scope_origins`, after the JSON has been read. -/
def contentScopeOrigins (declarations : CredentialDeclarations) (scope : CredentialScope) :
    Except StorageError (Option (List Origin)) :=
  match (declarations.requiredScopes ++ declarations.optionalScopes).find? (·.scope = scope) with
  | none => .ok none
  | some declaration => (normalizeOrigins declaration.targetOrigins).map some

/-- An origin that is declared for a scope. -/
def CredentialDeclarations.Declares (declarations : CredentialDeclarations) (scope : CredentialScope)
    (origin : Origin) : Prop :=
  ∃ declaration ∈ declarations.requiredScopes ++ declarations.optionalScopes,
    declaration.scope = scope ∧ origin ∈ declaration.targetOrigins

/-- What `validate_credential_declarations` makes sure of when a plugin is installed: no scope is declared
twice, and the origins of each are a set that can be used. -/
structure CredentialDeclarations.WellFormed (declarations : CredentialDeclarations) : Prop where
  distinct : ((declarations.requiredScopes ++ declarations.optionalScopes).map
    CredentialScopeDeclaration.scope).Nodup
  usable : ∀ declaration ∈ declarations.requiredScopes ++ declarations.optionalScopes,
    ∃ origins, normalizeOrigins declaration.targetOrigins = .ok origins

theorem contentScopeOrigins_eq_ok {declarations : CredentialDeclarations} (wf : declarations.WellFormed)
    (scope : CredentialScope) : ∃ found, contentScopeOrigins declarations scope = .ok found ∧
      ∀ origin, declarations.Declares scope origin ↔ ∃ declared, found = some declared ∧ origin ∈ declared := by
  unfold contentScopeOrigins
  cases hfind : (declarations.requiredScopes ++ declarations.optionalScopes).find? (·.scope = scope) with
  | none =>
    refine ⟨none, rfl, fun origin => ⟨?_, fun ⟨_, h, _⟩ => (nomatch h)⟩⟩
    rintro ⟨declaration, hmem, hscope, -⟩
    exact absurd hscope (by simpa using List.find?_eq_none.mp hfind declaration hmem)
  | some declaration =>
    have hmem := List.mem_of_find?_eq_some hfind
    have hscope : declaration.scope = scope := by simpa using List.find?_some hfind
    obtain ⟨declared, hdeclared⟩ := wf.usable declaration hmem
    have hperm := (normalizeOrigins_eq_ok hdeclared).1
    refine ⟨some declared, ?_, fun origin => ⟨?_, ?_⟩⟩
    · show (normalizeOrigins declaration.targetOrigins).map some = _
      rw [hdeclared]
      rfl
    · rintro ⟨other, hother, hsame, horigin⟩
      cases List.inj_on_of_nodup_map wf.distinct hother hmem (hsame.trans hscope.symm)
      exact ⟨declared, rfl, hperm.mem_iff.mpr horigin⟩
    · rintro ⟨_, heq, horigin⟩
      cases heq
      exact ⟨declaration, hmem, hscope, hperm.mem_iff.mp horigin⟩

/-! ## Plugins -/

namespace Store

def upserted (row other : PluginRow) : PluginRow := if other.pluginId = row.pluginId then row else other

theorem upserted_pluginId (row other : PluginRow) : (upserted row other).pluginId = other.pluginId := by
  unfold upserted
  split
  · exact Eq.symm ‹other.pluginId = row.pluginId›
  · rfl

/-- `PluginRepository::upsert` updates in place, so the grants of the plugin stay. -/
def upsertPlugin (row : PluginRow) (s : Store Cipher Digest) : Store Cipher Digest :=
  if absent : s.plugins.get row.pluginId = none then { s with plugins := s.plugins.add row absent }
  else { s with plugins := s.plugins.update (upserted row) (upserted_pluginId row) }

/-- `PluginRepository::delete`: refused while a credential has the plugin as its source; otherwise the
plugin's grants go along. -/
def deletePlugin (pluginId : PluginId) (s : Store Cipher Digest) : Except StorageError (Store Cipher Digest) :=
  match s.plugins.get pluginId with
  | none => .error .notFound
  | some _ =>
    if s.credentials.rows.any fun row => row.sourcePluginId = some pluginId then .error .database
    else .ok { s with
      plugins := s.plugins.remove fun row => row.pluginId = pluginId
      grants := s.grants.remove fun row => row.grant.pluginId = pluginId }

end Store

/-! ## Grants -/

namespace CredentialScopeGrantRecord

/-- A grant of this credential and scope to this plugin. -/
def isFor (grant : CredentialScopeGrantRecord) (pluginId : PluginId) (credentialId : CredentialId)
    (scope : CredentialScope) : Bool :=
  grant.pluginId = pluginId && grant.credentialId = credentialId && grant.scope = scope

/-- `validate_grant_record` -/
def valid (grant : CredentialScopeGrantRecord) : Bool :=
  grant.id ≠ 0 && grant.manifestHash ≠ "" && grant.manifestHash.utf8ByteSize ≤ 256 && grant.revokedAt = none

/-- The grant as it is stored and returned. -/
def stored (grant : CredentialScopeGrantRecord) : CredentialScopeGrantRecord :=
  { grant with targetOrigins := grant.targetOrigins.insertionSort (· ≤ ·) }

end CredentialScopeGrantRecord

def orNotFound {α : Type} : Option α → Except StorageError α
  | some value => .ok value
  | none => .error .notFound

theorem orNotFound_eq_ok {α : Type} {found : Option α} {value : α} (h : orNotFound found = .ok value) :
    found = some value := by
  cases found with
  | none => cases h
  | some other =>
    cases h
    rfl

/-- The origins a plugin declares for a scope it is to be granted. -/
def declaredOrigins (declarations : CredentialDeclarations) (scope : CredentialScope) :
    Except StorageError (List Origin) :=
  match contentScopeOrigins declarations scope with
  | .error e => .error e
  | .ok none => .error (.invalidData "content plugin does not declare the credential scope")
  | .ok (some origins) => .ok origins

namespace Store

/-- The grant a new one takes the place of is revoked. -/
def superseded (grant : CredentialScopeGrantRecord) (row : GrantRow Digest) : GrantRow Digest :=
  if row.grant.isFor grant.pluginId grant.credentialId grant.scope && row.grant.revokedAt = none then
    { row with grant.revokedAt := some grant.createdAt }
  else row

theorem superseded_id (grant : CredentialScopeGrantRecord) (row : GrantRow Digest) :
    (superseded grant row).id = row.id := by
  unfold superseded
  split <;> rfl

def insertGrant (s : Store Cipher Digest) (grant : CredentialScopeGrantRecord) (hash : Digest) :
    Except StorageError (Store Cipher Digest) :=
  if absent : (s.grants.update (superseded grant) (superseded_id grant)).get grant.id = none then
    .ok { s with grants := (s.grants.update (superseded grant) (superseded_id grant)).add ⟨grant, hash⟩ absent }
  else .error .conflict

def createGrant (sys : Storage Cipher Digest) (record : CredentialScopeGrantRecord) (s : Store Cipher Digest) :
    Except StorageError (Store Cipher Digest) := do
  require record.valid (.invalidData "credential grant record is invalid")
  let grantOrigins ← normalizeOrigins record.targetOrigins
  let plugin ← orNotFound (s.plugins.get record.pluginId)
  require (plugin.pluginType = .content && plugin.manifestHash = record.manifestHash && plugin.platformId ≠ "")
    (.invalidData "credential grant requires the current content plugin manifest")
  let credential ← orNotFound (s.credentials.get record.credentialId)
  require (credential.platformId = plugin.platformId && credential.scope = record.scope)
    (.invalidData "credential grant platform or scope does not match")
  let credentialOrigins ← loadOrigins sys credential.targetOrigins
  let declared ← declaredOrigins plugin.credentials record.scope
  require (grantOrigins.all fun origin => credentialOrigins.contains origin && declared.contains origin)
    (.invalidData "credential grant origins must be in the declared credential intersection")
  s.insertGrant { record with targetOrigins := grantOrigins } (originSetHash sys credentialOrigins)

def revoked (grantId : Uuid) (revokedAt : Timestamp) (row : GrantRow Digest) : GrantRow Digest :=
  if row.id = grantId && row.grant.revokedAt = none then { row with grant.revokedAt := some revokedAt } else row

theorem revoked_id (grantId : Uuid) (revokedAt : Timestamp) (row : GrantRow Digest) :
    (revoked grantId revokedAt row).id = row.id := by
  unfold revoked
  split <;> rfl

def revokeGrant (grantId : Uuid) (revokedAt : Timestamp) (s : Store Cipher Digest) :
    Except StorageError (Store Cipher Digest) :=
  if s.grants.rows.any fun row => row.id = grantId && row.grant.revokedAt = none then
    .ok { s with grants := s.grants.update (revoked grantId revokedAt) (revoked_id grantId revokedAt) }
  else .error .notFound

/-- The join of `active_grant`: an unrevoked grant with the plugin and the credential it is about, if these
still fit together. -/
def candidate (s : Store Cipher Digest) (pluginId : PluginId) (credentialId : CredentialId)
    (scope : CredentialScope) (row : GrantRow Digest) :
    Option (GrantRow Digest × PluginRow × CredentialRecord Cipher) :=
  if row.grant.isFor pluginId credentialId scope && row.grant.revokedAt = none then
    match s.plugins.get row.grant.pluginId, s.credentials.get row.grant.credentialId with
    | some plugin, some credential =>
      if plugin.pluginType = .content && plugin.platformId = credential.platformId &&
          plugin.manifestHash = row.grant.manifestHash && credential.scope = row.grant.scope then
        some (row, plugin, credential)
      else none
    | _, _ => none
  else none

/-- What `active_grant` makes of a joined row. -/
def confirmGrant [DecidableEq Digest] (sys : Storage Cipher Digest) (row : GrantRow Digest) (plugin : PluginRow)
    (credential : CredentialRecord Cipher) : Except StorageError (Option CredentialScopeGrantRecord) := do
  require (legible row.grant.createdAt) (.invalidData "stored credential timestamp is malformed")
  require (row.grant.revokedAt.all legible) (.invalidData "stored credential timestamp is malformed")
  let targetOrigins ← loadOrigins sys row.grant.targetOrigins
  let credentialOrigins ← loadOrigins sys credential.targetOrigins
  match ← contentScopeOrigins plugin.credentials row.grant.scope with
  | none => .ok none
  | some declared =>
    if targetOrigins = [] || row.credentialOriginsHash ≠ originSetHash sys credentialOrigins then .ok none
    else if targetOrigins.any fun origin => !credentialOrigins.contains origin || !declared.contains origin then
      .ok none
    else .ok (some { row.grant with targetOrigins := targetOrigins })

def activeGrant [DecidableEq Digest] (sys : Storage Cipher Digest) (pluginId : PluginId)
    (credentialId : CredentialId) (scope : CredentialScope) (s : Store Cipher Digest) :
    Except StorageError (Option CredentialScopeGrantRecord) :=
  match s.grants.rows.findSome? (s.candidate pluginId credentialId scope) with
  | none => .ok none
  | some (row, plugin, credential) => confirmGrant sys row plugin credential

end Store

/-! ## What they leave, and what they return -/

variable {sys : Storage Cipher Digest} {s t : Store Cipher Digest}

/-- Everything `create_grant` has checked and done. -/
structure Granted (sys : Storage Cipher Digest) (record : CredentialScopeGrantRecord)
    (s t : Store Cipher Digest) (credential : CredentialRecord Cipher) : Prop where
  unrevoked : record.revokedAt = none
  normalized : ∃ origins, normalizeOrigins record.targetOrigins = .ok origins
  found : s.credentials.get record.credentialId = some credential
  readable : credential.targetOrigins.all sys.readable = true
  covered : ∀ origin ∈ record.targetOrigins, origin ∈ credential.targetOrigins
  rows : t.grants.rows = s.grants.rows.map (Store.superseded record.stored) ++
    [⟨record.stored, originSetHash sys credential.targetOrigins⟩]
  credentials : t.credentials = s.credentials
  plugins : t.plugins = s.plugins

theorem normalizeOrigins_sorted {origins normalized : List Origin}
    (h : normalizeOrigins origins = .ok normalized) : normalized = origins.insertionSort (· ≤ ·) := by
  unfold normalizeOrigins at h
  simp only [require_bind_eq_ok, Except.ok.injEq] at h
  exact h.2.2.symm

theorem Store.createGrant_eq_ok {record : CredentialScopeGrantRecord} (h : s.createGrant sys record = .ok t) :
    ∃ credential, Granted sys record s t credential := by
  obtain ⟨hvalid, h⟩ := require_bind_eq_ok.mp h
  obtain ⟨origins, horigins, h⟩ := bind_eq_ok h
  obtain ⟨plugin, -, h⟩ := bind_eq_ok h
  obtain ⟨-, h⟩ := require_bind_eq_ok.mp h
  obtain ⟨credential, hcredential, h⟩ := bind_eq_ok h
  obtain ⟨-, h⟩ := require_bind_eq_ok.mp h
  obtain ⟨loaded, hloaded, h⟩ := bind_eq_ok h
  obtain ⟨declared, -, h⟩ := bind_eq_ok h
  obtain ⟨hsubset, h⟩ := require_bind_eq_ok.mp h
  obtain ⟨hreadable, rfl⟩ := loadOrigins_eq_ok.mp hloaded
  have hstored : { record with targetOrigins := origins } = record.stored := by
    rw [normalizeOrigins_sorted horigins]
    rfl
  rw [hstored] at h
  unfold Store.insertGrant at h
  split at h
  · cases h
    refine ⟨credential, ?_, ⟨origins, horigins⟩, orNotFound_eq_ok hcredential, hreadable, ?_, rfl, rfl, rfl⟩
    · simp only [CredentialScopeGrantRecord.valid, Bool.and_eq_true, decide_eq_true_eq] at hvalid
      exact hvalid.2
    · intro origin hmem
      have hall := List.all_eq_true.mp hsubset origin ((normalizeOrigins_eq_ok horigins).1.mem_iff.mpr hmem)
      rw [Bool.and_eq_true] at hall
      exact List.contains_iff_mem.mp hall.1
  · cases h

theorem Store.revokeGrant_eq_ok {grantId : Uuid} {revokedAt : Timestamp}
    (h : s.revokeGrant grantId revokedAt = .ok t) : t.credentials = s.credentials ∧ t.plugins = s.plugins ∧
      t.grants.rows = s.grants.rows.map (Store.revoked grantId revokedAt) := by
  unfold Store.revokeGrant at h
  split at h
  · cases h
    exact ⟨rfl, rfl, rfl⟩
  · cases h

theorem Store.deletePlugin_eq_ok {pluginId : PluginId} (h : s.deletePlugin pluginId = .ok t) :
    t.credentials = s.credentials ∧ t.plugins = s.plugins.remove (fun row => row.pluginId = pluginId) ∧
      t.grants.rows = s.grants.rows.filter fun row => !decide (row.grant.pluginId = pluginId) := by
  unfold Store.deletePlugin at h
  split at h
  · cases h
  · split at h
    · cases h
    · cases h
      exact ⟨rfl, rfl, rfl⟩

end AudioDown.Vault
