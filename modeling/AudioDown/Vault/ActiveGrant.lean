/-
# AudioDown.Vault.ActiveGrant — `active_grant` against the history

What `active_grant` returns, spelled out (`activeGrant_eq_some`), and then read against the history of all
transactions: soundness and completeness in one equivalence.
-/
import AudioDown.Vault.GrantLaw

namespace AudioDown.Vault

open Lib Supervisor

variable {Cipher Digest : Type}

/-! ## The join -/

/-- The rows that `active_grant` joins. -/
structure Joined (s : Store Cipher Digest) (row : GrantRow Digest) (plugin : PluginRow)
    (credential : CredentialRecord Cipher) : Prop where
  installed : s.plugins.get row.grant.pluginId = some plugin
  kept : s.credentials.get row.grant.credentialId = some credential
  content : plugin.pluginType = .content
  platform : plugin.platformId = credential.platformId
  manifest : plugin.manifestHash = row.grant.manifestHash
  scope : credential.scope = row.grant.scope

section
variable {s : Store Cipher Digest} {p : PluginId} {c : CredentialId} {scope : CredentialScope}
  {row : GrantRow Digest} {plugin : PluginRow} {credential : CredentialRecord Cipher}

theorem candidate_eq_some {joined : GrantRow Digest × PluginRow × CredentialRecord Cipher} :
    s.candidate p c scope row = some joined ↔ joined.1 = row ∧ row.Active p c scope ∧
      Joined s row joined.2.1 joined.2.2 := by
  unfold Store.candidate GrantRow.Active
  constructor
  · intro h
    split at h
    · rename_i hactive
      rw [Bool.and_eq_true, decide_eq_true_eq] at hactive
      split at h
      · rename_i found foundCredential hplugin hcredential
        split at h
        · rename_i hjoin
          simp only [Bool.and_eq_true, decide_eq_true_eq] at hjoin
          cases h
          exact ⟨rfl, hactive, hplugin, hcredential, hjoin.1.1.1, hjoin.1.1.2, hjoin.1.2, hjoin.2⟩
        · cases h
      · cases h
    · cases h
  · rintro ⟨rfl, ⟨hfor, hnone⟩, joined⟩
    rw [if_pos (by rw [hfor, hnone]; rfl), joined.installed, joined.kept]
    refine if_pos ?_
    simp only [Bool.and_eq_true, decide_eq_true_eq]
    exact ⟨⟨⟨joined.content, joined.platform⟩, joined.manifest⟩, joined.scope⟩

theorem findCandidate_eq_some (unique : ∀ row row', row ∈ s.grants.rows →
      row' ∈ s.grants.rows → row.Active p c scope → row'.Active p c scope → row = row') :
    s.grants.rows.findSome? (s.candidate p c scope) = some (row, plugin, credential) ↔ row ∈ s.grants.rows ∧
      row.Active p c scope ∧ Joined s row plugin credential := by
  constructor
  · intro h
    obtain ⟨other, hmem, hsome⟩ := List.exists_of_findSome?_eq_some h
    obtain ⟨rfl, hactive, joined⟩ := candidate_eq_some.mp hsome
    exact ⟨hmem, hactive, joined⟩
  · rintro ⟨hmem, hactive, joined⟩
    cases hfind : s.grants.rows.findSome? (s.candidate p c scope) with
    | none =>
      have hsome : s.candidate p c scope row = some (row, plugin, credential) :=
        candidate_eq_some.mpr ⟨rfl, hactive, joined⟩
      cases hsome.symm.trans (List.findSome?_eq_none_iff.mp hfind row hmem)
    | some found =>
      obtain ⟨other, hother, hsome⟩ := List.exists_of_findSome?_eq_some hfind
      obtain ⟨rfl, hactive', joined'⟩ := candidate_eq_some.mp hsome
      obtain ⟨foundRow, foundPlugin, foundCredential⟩ := found
      cases unique row foundRow hmem hother hactive hactive'
      cases joined.installed.symm.trans joined'.installed
      cases joined.kept.symm.trans joined'.kept
      rfl

end

/-! ## The checks -/

/-- What `active_grant` compares. -/
structure Confirmed (sys : Storage Cipher Digest) (row : GrantRow Digest) (plugin : PluginRow)
    (credential : CredentialRecord Cipher) (declared : List Origin) : Prop where
  createdAt : legible row.grant.createdAt = true
  revokedAt : row.grant.revokedAt.all legible = true
  readable : row.grant.targetOrigins.all sys.readable = true
  credentialReadable : credential.targetOrigins.all sys.readable = true
  declares : contentScopeOrigins plugin.credentials row.grant.scope = .ok (some declared)
  nonempty : row.grant.targetOrigins ≠ []
  hash : row.credentialOriginsHash = originSetHash sys credential.targetOrigins
  allowed : ∀ origin ∈ row.grant.targetOrigins, origin ∈ credential.targetOrigins ∧ origin ∈ declared

theorem confirmGrant_eq_some [DecidableEq Digest] {sys : Storage Cipher Digest} {row : GrantRow Digest}
    {plugin : PluginRow} {credential : CredentialRecord Cipher} {grant : CredentialScopeGrantRecord} :
    Store.confirmGrant sys row plugin credential = .ok (some grant) ↔
      grant = row.grant ∧ ∃ declared, Confirmed sys row plugin credential declared := by
  unfold Store.confirmGrant
  constructor
  · intro h
    obtain ⟨hcreated, h⟩ := require_bind_eq_ok.mp h
    obtain ⟨hrevoked, h⟩ := require_bind_eq_ok.mp h
    obtain ⟨targetOrigins, htarget, h⟩ := bind_eq_ok h
    obtain ⟨credentialOrigins, hcredential, h⟩ := bind_eq_ok h
    obtain ⟨hreadable, rfl⟩ := loadOrigins_eq_ok.mp htarget
    obtain ⟨hcredentialReadable, rfl⟩ := loadOrigins_eq_ok.mp hcredential
    obtain ⟨found, hfound, h⟩ := bind_eq_ok h
    cases found with
    | none => cases h
    | some declared =>
      simp only at h
      split at h
      · cases h
      · rename_i hsame
        simp only [Bool.or_eq_true, decide_eq_true_eq, not_or, ne_eq, not_not] at hsame
        split at h
        · cases h
        · rename_i hallowed
          cases h
          refine ⟨rfl, declared, hcreated, hrevoked, hreadable, hcredentialReadable, hfound, hsame.1, hsame.2, ?_⟩
          intro origin hmem
          by_contra hno
          refine hallowed (List.any_eq_true.mpr ⟨origin, hmem, ?_⟩)
          rw [not_and_or, ← List.contains_iff_mem, ← List.contains_iff_mem] at hno
          simpa only [Bool.or_eq_true, Bool.not_eq_true', Bool.not_eq_true] using hno
  · rintro ⟨rfl, declared, h⟩
    have hallowed : (row.grant.targetOrigins.any fun origin =>
        !credential.targetOrigins.contains origin || !declared.contains origin) = false := by
      rw [List.any_eq_false]
      intro origin hmem
      obtain ⟨hcredential, hdeclared⟩ := h.allowed origin hmem
      rw [List.contains_iff_mem.mpr hcredential, List.contains_iff_mem.mpr hdeclared]
      decide
    rw [h.createdAt, h.revokedAt, loadOrigins_eq_ok.mpr ⟨h.readable, rfl⟩,
      loadOrigins_eq_ok.mpr ⟨h.credentialReadable, rfl⟩, h.declares]
    show (if _ then _ else _) = _
    rw [if_neg]
    · rw [hallowed]
      rfl
    · simp only [Bool.or_eq_true, decide_eq_true_eq, not_or, ne_eq, not_not]
      exact ⟨h.nonempty, h.hash⟩

/-! ## The history -/

section
variable {sys : Storage Cipher Digest} {g : Granting Cipher Digest} {p : PluginId} {c : CredentialId}
  {scope : CredentialScope}

theorem Booked.unique (h : Booked sys g) (row row' : GrantRow Digest) (hmem : row ∈ g.store.grants.rows)
    (hmem' : row' ∈ g.store.grants.rows) (hactive : row.Active p c scope)
    (hactive' : row'.Active p c scope) : row = row' := by
  obtain ⟨record, origins, hstanding, rfl⟩ := (h.agree p c scope row).mp ⟨hmem, hactive⟩
  obtain ⟨record', origins', hstanding', rfl⟩ := (h.agree p c scope row').mp ⟨hmem', hactive'⟩
  cases hstanding.symm.trans hstanding'
  rfl

theorem eq_of_same_origins {a b : List Origin} (ha : a.Pairwise (· < ·)) (hb : b.Pairwise (· < ·))
    (h : ∀ origin, origin ∈ a ↔ origin ∈ b) : a = b := by
  have nodup : ∀ {l : List Origin}, l.Pairwise (· < ·) → l.Nodup := fun hl => hl.imp ne_of_lt
  have hperm : a.Perm b := (List.perm_ext_iff_of_nodup (nodup ha) (nodup hb)).mpr h
  exact hperm.eq_of_pairwise (fun x y _ _ hxy hyx => absurd hyx (lt_asymm hxy)) ha hb

/-- A returned grant is the one in force, and everything it was given for is still so. -/
theorem Booked.sound [DecidableEq Digest] (collisionFree : Function.Injective sys.sha256) (h : Booked sys g)
    {grant : CredentialScopeGrantRecord} (hactive : g.store.activeGrant sys p c scope = .ok (some grant)) :
    ∃ record origins plugin credential, grant = record.stored ∧
      standing p c scope g.history = some (record, origins) ∧ legible record.createdAt = true ∧
        Current g.store record origins plugin credential := by
  unfold Store.activeGrant at hactive
  split at hactive
  · cases hactive
  · rename_i row plugin credential hfind
    obtain ⟨hmem, active, joined⟩ := (findCandidate_eq_some h.unique).mp hfind
    obtain ⟨rfl, declared, confirmed⟩ := confirmGrant_eq_some.mp hactive
    obtain ⟨record, origins, hstanding, rfl⟩ := (h.agree p c scope row).mp ⟨hmem, active⟩
    have issued := h.issued record origins (mem_of_standing hstanding)
    have hsame : origins = credential.targetOrigins :=
      originSetHash_injective collisionFree issued.readable confirmed.credentialReadable confirmed.hash
    have hperm : record.stored.targetOrigins.Perm record.targetOrigins := List.perm_insertionSort _ _
    obtain ⟨found, hfound, hdeclares⟩ :=
      contentScopeOrigins_eq_ok (h.plugins _ plugin joined.installed) record.scope
    refine ⟨record, origins, plugin, credential, rfl, hstanding, confirmed.createdAt, joined.installed,
      joined.kept, joined.content, joined.platform, joined.manifest, joined.scope, ?_, ?_, ?_⟩
    · intro origin
      rw [hsame]
    · intro hnil
      exact confirmed.nonempty (hnil ▸ hperm).eq_nil
    · intro origin horigin
      refine (hdeclares origin).mpr ⟨declared, ?_, (confirmed.allowed origin (hperm.mem_iff.mpr horigin)).2⟩
      exact Except.ok.inj (hfound.symm.trans confirmed.declares)

theorem Booked.complete [DecidableEq Digest] (h : Booked sys g) {record : CredentialScopeGrantRecord}
    {origins : List Origin} {plugin : PluginRow} {credential : CredentialRecord Cipher}
    (hstanding : standing p c scope g.history = some (record, origins))
    (hcreated : legible record.createdAt = true) (current : Current g.store record origins plugin credential) :
    g.store.activeGrant sys p c scope = .ok (some record.stored) := by
  have issued := h.issued record origins (mem_of_standing hstanding)
  obtain ⟨hmem, active⟩ := (h.agree p c scope _).mpr ⟨record, origins, hstanding, rfl⟩
  have hsame : credential.targetOrigins = origins :=
    eq_of_same_origins (h.credentials _ credential current.kept) issued.sorted current.origins
  have hperm : record.stored.targetOrigins.Perm record.targetOrigins := List.perm_insertionSort _ _
  obtain ⟨found, hfound, hdeclares⟩ :=
    contentScopeOrigins_eq_ok (h.plugins _ plugin current.installed) record.scope
  have hfind : g.store.grants.rows.findSome? (g.store.candidate p c scope) =
      some (rowOf sys record origins, plugin, credential) :=
    (findCandidate_eq_some h.unique).mpr ⟨hmem, active, current.installed, current.kept, current.content,
      current.platform, current.manifest, current.scope⟩
  -- the scope is declared, since the grant has an origin
  obtain ⟨first, hfirst⟩ := List.exists_mem_of_ne_nil _ current.nonempty
  obtain ⟨declared, rfl, -⟩ := (hdeclares first).mp (current.declared first hfirst)
  have confirmed : Confirmed sys (rowOf sys record origins) plugin credential declared := by
    refine ⟨hcreated, ?_, ?_, hsame ▸ issued.readable, hfound, ?_, by rw [hsame]; rfl, ?_⟩
    · show record.revokedAt.all legible = true
      rw [issued.unrevoked]
      rfl
    · refine List.all_eq_true.mpr fun origin hmem => ?_
      exact List.all_eq_true.mp issued.readable origin (issued.covered origin (hperm.mem_iff.mp hmem))
    · intro hnil
      have hempty : record.stored.targetOrigins = [] := hnil
      exact current.nonempty (hempty ▸ hperm).nil_eq.symm
    · intro origin hmem
      have horigin := hperm.mem_iff.mp hmem
      obtain ⟨_, heq, hdeclared⟩ := (hdeclares origin).mp (current.declared origin horigin)
      cases heq
      exact ⟨hsame ▸ issued.covered origin horigin, hdeclared⟩
  unfold Store.activeGrant
  rw [hfind]
  exact confirmGrant_eq_some.mpr ⟨rfl, declared, confirmed⟩

/-- Nothing has ended a grant since: neither a revocation nor a deletion. -/
theorem spared_iff {record : CredentialScopeGrantRecord} (hfor : record.isFor p c scope = true)
    {newer : List GrantEvent} : (∀ event ∈ newer, event.spares record = true) ↔
      .revoked record.id ∉ newer ∧ .pluginDeleted p ∉ newer ∧ .credentialDeleted c ∉ newer := by
  simp only [CredentialScopeGrantRecord.isFor, Bool.and_eq_true, decide_eq_true_eq] at hfor
  obtain ⟨⟨rfl, rfl⟩, -⟩ := hfor
  constructor
  · intro h
    have ends : ∀ event, event.spares record = false → event ∉ newer := by
      intro event hends hmem
      rw [h event hmem] at hends
      cases hends
    exact ⟨ends _ (by simp [GrantEvent.spares]), ends _ (by simp [GrantEvent.spares]),
      ends _ (by simp [GrantEvent.spares])⟩
  · rintro ⟨hrevoked, hplugin, hcredential⟩ event hmem
    cases event with
    | created other origins => rfl
    | revoked id => exact decide_eq_true fun heq => hrevoked (heq ▸ hmem)
    | pluginDeleted id => exact decide_eq_true fun heq => hplugin (heq ▸ hmem)
    | credentialDeleted id => exact decide_eq_true fun heq => hcredential (heq ▸ hmem)

end

/-- After every sequence of transactions, `active_grant` returns a grant exactly if it is the latest created
one, it has not been revoked, plugin, credential and declarations are what they were, neither plugin nor
credential has been deleted since, and its time of creation can be read.  What it returns covers origins of
the credential only, and no second unrevoked grant exists. -/
theorem active_grant_iff [DecidableEq Digest] (sys : Storage Cipher Digest)
    (collisionFree : Function.Injective sys.sha256) (ops : List (GrantOp Cipher)) (g : Granting Cipher Digest)
    (run : Run (Granting.next sys) (fun _ op => op.WellFormed) Granting.empty ops g) (p : PluginId)
    (c : CredentialId) (scope : CredentialScope) :
    (∀ grant, g.store.activeGrant sys p c scope = .ok (some grant) ↔
      ∃ record origins newer plugin credential, grant = record.stored ∧
        Latest g.history p c scope record origins newer ∧ .revoked record.id ∉ newer ∧
        .pluginDeleted p ∉ newer ∧ .credentialDeleted c ∉ newer ∧ legible record.createdAt = true ∧
        Current g.store record origins plugin credential) ∧
    (∀ grant, g.store.activeGrant sys p c scope = .ok (some grant) →
      ∃ credential, g.store.credentials.get c = some credential ∧
        ∀ origin ∈ grant.targetOrigins, origin ∈ credential.targetOrigins) ∧
    ∀ row row', row ∈ g.store.grants.rows → row' ∈ g.store.grants.rows → row.Active p c scope →
      row'.Active p c scope → row = row' := by
  have booked : Booked sys g := run.invariant (fun _ _ _ h wf hstep => h.next wf hstep) booked_empty
  refine ⟨fun grant => ⟨?_, ?_⟩, ?_, booked.unique⟩
  · intro hactive
    obtain ⟨record, origins, plugin, credential, rfl, hstanding, hcreated, current⟩ :=
      booked.sound collisionFree hactive
    obtain ⟨newer, latest, hspared⟩ := standing_eq_some.mp hstanding
    obtain ⟨hrevoked, hplugin, hcredential⟩ := (spared_iff latest.isFor).mp hspared
    exact ⟨record, origins, newer, plugin, credential, rfl, latest, hrevoked, hplugin, hcredential, hcreated,
      current⟩
  · rintro ⟨record, origins, newer, plugin, credential, rfl, latest, hrevoked, hplugin, hcredential, hcreated,
      current⟩
    have hspared := (spared_iff latest.isFor).mpr ⟨hrevoked, hplugin, hcredential⟩
    exact booked.complete (standing_eq_some.mpr ⟨newer, latest, hspared⟩) hcreated current
  · intro grant hactive
    obtain ⟨record, origins, plugin, credential, rfl, hstanding, -, current⟩ :=
      booked.sound collisionFree hactive
    have issued := booked.issued record origins (mem_of_standing hstanding)
    obtain ⟨newer, latest, -⟩ := standing_eq_some.mp hstanding
    have hcredential : record.credentialId = c := by
      have hfor := latest.isFor
      simp only [CredentialScopeGrantRecord.isFor, Bool.and_eq_true, decide_eq_true_eq] at hfor
      exact hfor.1.2
    refine ⟨credential, hcredential ▸ current.kept, fun origin hmem => ?_⟩
    have horigin := (List.perm_insertionSort (· ≤ ·) record.targetOrigins).mem_iff.mp hmem
    exact (current.origins origin).mpr (issued.covered origin horigin)

namespace Demo

def tables : Storage Unit (List UInt8) where
  ciphertextLen _ := 16
  originSyntax _ := true
  originHost _ := none
  sha256 := fun bytes => bytes

def owner : CredentialId := ⟨7, by decide⟩

def credential : CredentialRecord Unit where
  id := owner
  kind := .token
  platformId := "qq"
  scope := "qq.login"
  sourcePluginId := none
  envelope := ⟨1, 1, [], ()⟩
  targetOrigins := ["https://qq.com"]
  status := .active
  accountIdHint := none
  displayName := none
  safeErrorSummary := none
  expiresAt := none
  statusCheckedAt := none
  revision := 1
  createdAt := 0
  updatedAt := 0

def plugin : PluginRow where
  pluginId := "player"
  pluginType := .content
  platformId := "qq"
  manifestHash := "m1"
  credentials := ⟨[⟨"qq.login", ["https://qq.com"]⟩], []⟩

def grant : CredentialScopeGrantRecord where
  id := 3
  pluginId := "player"
  manifestHash := "m1"
  credentialId := owner
  scope := "qq.login"
  targetOrigins := ["https://qq.com"]
  createdAt := 0
  revokedAt := none

def granting : List (GrantOp Unit) :=
  [.upsertPlugin plugin, .insertCredential credential, .createGrant grant]

def reinstalling : List (GrantOp Unit) :=
  granting ++ [.deletePlugin "player", .upsertPlugin plugin]

def after (ops : List (GrantOp Unit)) : Granting Unit (List UInt8) :=
  (ops.foldlM (Granting.next tables) .empty).getD .empty

theorem plugin_wellFormed : plugin.credentials.WellFormed := by
  refine ⟨List.nodup_singleton _, fun declaration hmem => ?_⟩
  cases List.mem_singleton.mp hmem
  exact ⟨["https://qq.com"], rfl⟩

def checkPlugin : GrantOp Unit → Bool
  | .upsertPlugin row => row = plugin
  | _ => true

theorem checkPlugin_sound (op : GrantOp Unit) (h : checkPlugin op = true) : op.WellFormed := by
  cases op with
  | upsertPlugin row =>
    cases of_decide_eq_true h
    exact plugin_wellFormed
  | insertCredential | updateCredential | clearSourcePlugin | deleteCredential | deletePlugin | createGrant
    | revokeGrant => trivial

theorem current_of {g : Granting Unit (List UInt8)} (hplugin : g.store.plugins.get "player" = some plugin)
    (hcredential : g.store.credentials.get owner = some credential) :
    Current g.store grant ["https://qq.com"] plugin credential := by
  refine ⟨hplugin, hcredential, rfl, rfl, rfl, rfl, fun _ => Iff.rfl, by decide, ?_⟩
  exact fun origin hmem => ⟨_, List.mem_singleton.mpr rfl, rfl, hmem⟩

end Demo

/-- The grant is the latest, was not revoked, and everything is as it was; but the plugin was away. -/
theorem reinstalled_plugin_has_no_grant :
    Run (Granting.next Demo.tables) (fun _ op => op.WellFormed) .empty Demo.reinstalling
        (Demo.after Demo.reinstalling) ∧
      Latest (Demo.after Demo.reinstalling).history "player" Demo.owner "qq.login" Demo.grant
        ["https://qq.com"] [.pluginDeleted "player"] ∧
      .revoked Demo.grant.id ∉ [GrantEvent.pluginDeleted "player"] ∧
      Current (Demo.after Demo.reinstalling).store Demo.grant ["https://qq.com"] Demo.plugin Demo.credential ∧
      (Demo.after Demo.reinstalling).store.activeGrant Demo.tables "player" Demo.owner "qq.login" = .ok none := by
  refine ⟨.of_checked (fun _ => Demo.checkPlugin_sound) rfl, ?_, by decide, Demo.current_of rfl rfl, rfl⟩
  refine ⟨⟨[], rfl⟩, rfl, fun other origins hmem => ?_⟩
  cases List.mem_singleton.mp hmem

theorem granted_is_active : ∃ record origins newer plugin credential, Demo.grant = record.stored ∧
      Latest (Demo.after Demo.granting).history "player" Demo.owner "qq.login" record origins newer ∧
      .revoked record.id ∉ newer ∧ .pluginDeleted "player" ∉ newer ∧ .credentialDeleted Demo.owner ∉ newer ∧
      legible record.createdAt = true ∧
      Current (Demo.after Demo.granting).store record origins plugin credential :=
  ((active_grant_iff Demo.tables (fun _ _ h => h) Demo.granting (Demo.after Demo.granting)
    (.of_checked (fun _ => Demo.checkPlugin_sound) rfl) "player" Demo.owner
    "qq.login").1 Demo.grant).mp rfl

end AudioDown.Vault
