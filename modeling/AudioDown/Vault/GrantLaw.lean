/-
# AudioDown.Vault.GrantLaw — when a grant is active

Credentials, plugins and grants are written in any order, by any sequence of transactions.  What has happened
to grants is kept in a history, newest first: which were created, with the credential's origins at that time,
which were revoked, and which plugins and credentials were deleted.

`standing` reads off the history the grant that is in force for a plugin, a credential and a scope; `Booked`
says that it is the one unrevoked row there is.  `active_grant` returns it exactly if the plugin, the
credential and the declarations are still, or again, what they were (`Current`), with one
exception: a plugin or a credential that was deleted has taken its grants along, and does not get them
back when it is installed or inserted again just as it was.
-/
import AudioDown.Lib.Pool
import AudioDown.Vault.Grants

namespace AudioDown.Vault

open Lib Supervisor

variable {Cipher Digest : Type}

/-! ## The system -/

inductive GrantEvent where
  | created (record : CredentialScopeGrantRecord) (credentialOrigins : List Origin)
  | revoked (grantId : Uuid)
  | pluginDeleted (pluginId : PluginId)
  | credentialDeleted (credentialId : CredentialId)
deriving DecidableEq

inductive GrantOp (Cipher : Type) where
  | insertCredential (record : CredentialRecord Cipher)
  | updateCredential (record : CredentialRecord Cipher)
  | clearSourcePlugin (credentialId : CredentialId) (now : Timestamp)
  | deleteCredential (credentialId : CredentialId)
  | upsertPlugin (row : PluginRow)
  | deletePlugin (pluginId : PluginId)
  | createGrant (record : CredentialScopeGrantRecord)
  | revokeGrant (grantId : Uuid) (revokedAt : Timestamp)

namespace GrantOp

def perform (sys : Storage Cipher Digest) (s : Store Cipher Digest) :
    GrantOp Cipher → Except StorageError (Store Cipher Digest)
  | .insertCredential record => s.insert sys record
  | .updateCredential record => (s.update sys record).map Prod.snd
  | .clearSourcePlugin id now => s.clearSourcePlugin id now
  | .deleteCredential id => s.delete id
  | .upsertPlugin row => .ok (s.upsertPlugin row)
  | .deletePlugin id => s.deletePlugin id
  | .createGrant record => s.createGrant sys record
  | .revokeGrant id time => s.revokeGrant id time

def events (s : Store Cipher Digest) : GrantOp Cipher → List GrantEvent
  | .createGrant record => match s.credentials.get record.credentialId with
      | some credential => [.created record credential.targetOrigins]
      | none => []
  | .revokeGrant id _ => [.revoked id]
  | .deletePlugin id => [.pluginDeleted id]
  | .deleteCredential id => [.credentialDeleted id]
  | _ => []

def WellFormed : GrantOp Cipher → Prop
  | .upsertPlugin row => row.credentials.WellFormed
  | _ => True

end GrantOp

structure Granting (Cipher Digest : Type) where
  store : Store Cipher Digest
  /-- newest first -/
  history : List GrantEvent

def Granting.empty : Granting Cipher Digest := ⟨.empty, []⟩

def Granting.next (sys : Storage Cipher Digest) (g : Granting Cipher Digest) (op : GrantOp Cipher) :
    Option (Granting Cipher Digest) :=
  match op.perform sys g.store with
  | .ok t => some ⟨t, op.events g.store ++ g.history⟩
  | .error _ => some g

/-! ## The claim -/

/-- `record` is the latest grant created for a plugin, a credential and a scope; `newer` is what has happened
since. -/
structure Latest (history : List GrantEvent) (pluginId : PluginId) (credentialId : CredentialId)
    (scope : CredentialScope) (record : CredentialScopeGrantRecord) (origins : List Origin)
    (newer : List GrantEvent) : Prop where
  split : ∃ older, history = newer ++ .created record origins :: older
  isFor : record.isFor pluginId credentialId scope = true
  newest : ∀ other otherOrigins, .created other otherOrigins ∈ newer →
    other.isFor pluginId credentialId scope = false

/-- Plugin, credential and declarations are what they were when the grant was given for `origins`. -/
structure Current (s : Store Cipher Digest) (record : CredentialScopeGrantRecord) (origins : List Origin)
    (plugin : PluginRow) (credential : CredentialRecord Cipher) : Prop where
  installed : s.plugins.get record.pluginId = some plugin
  kept : s.credentials.get record.credentialId = some credential
  content : plugin.pluginType = .content
  platform : plugin.platformId = credential.platformId
  manifest : plugin.manifestHash = record.manifestHash
  scope : credential.scope = record.scope
  origins : ∀ origin, origin ∈ credential.targetOrigins ↔ origin ∈ origins
  nonempty : record.targetOrigins ≠ []
  declared : ∀ origin ∈ record.targetOrigins, plugin.credentials.Declares record.scope origin

/-! ## The grant in force -/

def GrantEvent.spares (record : CredentialScopeGrantRecord) : GrantEvent → Bool
  | .created .. => true
  | .revoked id => record.id ≠ id
  | .pluginDeleted id => record.pluginId ≠ id
  | .credentialDeleted id => record.credentialId ≠ id

def standing (pluginId : PluginId) (credentialId : CredentialId) (scope : CredentialScope) :
    List GrantEvent → Option (CredentialScopeGrantRecord × List Origin)
  | [] => none
  | .created record origins :: older =>
      if record.isFor pluginId credentialId scope then some (record, origins)
      else standing pluginId credentialId scope older
  | event :: older => (standing pluginId credentialId scope older).filter fun st => event.spares st.1

section
variable {pluginId : PluginId} {credentialId : CredentialId} {scope : CredentialScope}
  {record : CredentialScopeGrantRecord} {origins : List Origin}

theorem standing_cons {event : GrantEvent} {older : List GrantEvent} (h : ∀ other otherOrigins,
      event = .created other otherOrigins → other.isFor pluginId credentialId scope = false) :
    standing pluginId credentialId scope (event :: older) =
      (standing pluginId credentialId scope older).filter fun st => event.spares st.1 := by
  cases event with
  | created other otherOrigins =>
    rw [standing, h other otherOrigins rfl]
    cases standing pluginId credentialId scope older <;> rfl
  | revoked | pluginDeleted | credentialDeleted => rfl

/-- The grant in force is the latest one that nothing has ended since. -/
theorem standing_eq_some {history : List GrantEvent} :
    standing pluginId credentialId scope history = some (record, origins) ↔
      ∃ newer, Latest history pluginId credentialId scope record origins newer ∧
      ∀ event ∈ newer, event.spares record = true := by
  induction history with
  | nil =>
    refine ⟨fun h => (nomatch h), ?_⟩
    rintro ⟨newer, ⟨⟨older, hsplit⟩, -, -⟩, -⟩
    cases newer <;> cases hsplit
  | cons event older ih =>
    by_cases hcreates : ∃ other otherOrigins, event = .created other otherOrigins ∧
        other.isFor pluginId credentialId scope = true
    · obtain ⟨other, otherOrigins, rfl, hfor⟩ := hcreates
      rw [standing, if_pos hfor, Option.some.injEq, Prod.mk.injEq]
      constructor
      · rintro ⟨rfl, rfl⟩
        exact ⟨[], ⟨⟨older, rfl⟩, hfor, fun _ _ h => (nomatch h)⟩, fun _ h => (nomatch h)⟩
      · rintro ⟨newer, ⟨⟨rest, hsplit⟩, -, hnewest⟩, -⟩
        cases newer with
        | nil =>
          cases hsplit
          exact ⟨rfl, rfl⟩
        | cons first newer =>
          cases hsplit
          have hfalse := hnewest other otherOrigins List.mem_cons_self
          rw [hfor] at hfalse
          cases hfalse
    · have hother : ∀ other otherOrigins, event = .created other otherOrigins →
          other.isFor pluginId credentialId scope = false := by
        intro other otherOrigins heq
        rw [← Bool.not_eq_true]
        exact fun hfor => hcreates ⟨other, otherOrigins, heq, hfor⟩
      rw [standing_cons hother, Option.filter_eq_some_iff, ih]
      constructor
      · rintro ⟨⟨newer, ⟨⟨rest, rfl⟩, hfor, hnewest⟩, hspared⟩, hspares⟩
        refine ⟨event :: newer, ⟨⟨rest, rfl⟩, hfor, ?_⟩, ?_⟩
        · intro other otherOrigins hmem
          rcases List.mem_cons.mp hmem with heq | hmem
          · exact hother other otherOrigins heq.symm
          · exact hnewest other otherOrigins hmem
        · intro e hmem
          rcases List.mem_cons.mp hmem with rfl | hmem
          · exact hspares
          · exact hspared e hmem
      · rintro ⟨newer, ⟨⟨rest, hsplit⟩, hfor, hnewest⟩, hspared⟩
        cases newer with
        | nil =>
          cases hsplit
          exact absurd hfor (by rw [hother record origins rfl]; decide)
        | cons first newer =>
          cases hsplit
          refine ⟨⟨newer, ⟨⟨rest, rfl⟩, hfor, ?_⟩, ?_⟩, hspared event List.mem_cons_self⟩
          · exact fun other otherOrigins hmem => hnewest other otherOrigins (List.mem_cons_of_mem _ hmem)
          · exact fun e hmem => hspared e (List.mem_cons_of_mem _ hmem)

theorem Latest.mem {history newer : List GrantEvent}
    (h : Latest history pluginId credentialId scope record origins newer) :
    .created record origins ∈ history := by
  obtain ⟨older, rfl⟩ := h.split
  exact List.mem_append_right _ List.mem_cons_self

theorem mem_of_standing {history : List GrantEvent}
    (h : standing pluginId credentialId scope history = some (record, origins)) :
    .created record origins ∈ history := by
  obtain ⟨newer, latest, -⟩ := standing_eq_some.mp h
  exact latest.mem

end

/-! ## The invariant -/

/-- What was true of every grant when it was created. -/
structure Issued (sys : Storage Cipher Digest) (record : CredentialScopeGrantRecord) (origins : List Origin) :
    Prop where
  unrevoked : record.revokedAt = none
  normalized : ∃ sorted, normalizeOrigins record.targetOrigins = .ok sorted
  readable : origins.all sys.readable = true
  sorted : origins.Pairwise (· < ·)
  covered : ∀ origin ∈ record.targetOrigins, origin ∈ origins

def rowOf (sys : Storage Cipher Digest) (record : CredentialScopeGrantRecord) (origins : List Origin) :
    GrantRow Digest :=
  ⟨record.stored, originSetHash sys origins⟩

def GrantRow.Active (row : GrantRow Digest) (pluginId : PluginId) (credentialId : CredentialId)
    (scope : CredentialScope) : Prop :=
  row.grant.isFor pluginId credentialId scope = true ∧ row.grant.revokedAt = none

def Agree (sys : Storage Cipher Digest) (rows : List (GrantRow Digest)) (history : List GrantEvent) : Prop :=
  ∀ pluginId credentialId scope row, (row ∈ rows ∧ row.Active pluginId credentialId scope) ↔
    ∃ record origins, standing pluginId credentialId scope history = some (record, origins) ∧
      row = rowOf sys record origins

structure Booked (sys : Storage Cipher Digest) (g : Granting Cipher Digest) : Prop where
  agree : Agree sys g.store.grants.rows g.history
  issued : ∀ record origins, .created record origins ∈ g.history → Issued sys record origins
  credentials : ∀ id row, g.store.credentials.get id = some row → row.targetOrigins.Pairwise (· < ·)
  plugins : ∀ id row, g.store.plugins.get id = some row → row.credentials.WellFormed

variable {sys : Storage Cipher Digest} {s t : Store Cipher Digest} {c : CredentialId} {p : PluginId}
  {history : List GrantEvent} {rows : List (GrantRow Digest)}

/-- Rows that stay unless an event ends them. -/
theorem Agree.event {rows' : List (GrantRow Digest)} {event : GrantEvent} (agree : Agree sys rows history)
    (creates : ∀ record origins, event ≠ .created record origins) (hrows : ∀ row,
      row.grant.revokedAt = none → (row ∈ rows' ↔ row ∈ rows ∧ event.spares row.grant = true)) :
    Agree sys rows' (event :: history) := by
  intro p c scope row
  rw [standing_cons fun other otherOrigins heq => absurd heq (creates other otherOrigins)]
  have hspares : ∀ record origins, event.spares (rowOf sys record origins).grant = event.spares record := by
    intro record origins
    cases event <;> rfl
  constructor
  · rintro ⟨hmem, hactive⟩
    obtain ⟨hold, hspared⟩ := (hrows row hactive.2).mp hmem
    obtain ⟨record, origins, hstanding, rfl⟩ := (agree p c scope row).mp ⟨hold, hactive⟩
    rw [hspares] at hspared
    exact ⟨record, origins, Option.filter_eq_some_iff.mpr ⟨hstanding, hspared⟩, rfl⟩
  · rintro ⟨record, origins, hstanding, rfl⟩
    obtain ⟨hold, hspared⟩ := Option.filter_eq_some_iff.mp hstanding
    obtain ⟨hmem, hactive⟩ := (agree p c scope _).mpr ⟨record, origins, hold, rfl⟩
    exact ⟨(hrows _ hactive.2).mpr ⟨hmem, (hspares record origins).trans hspared⟩, hactive⟩

theorem Agree.revoked (agree : Agree sys rows history) (grantId : Uuid) (revokedAt : Timestamp) :
    Agree sys (rows.map (Store.revoked grantId revokedAt)) (.revoked grantId :: history) := by
  refine agree.event (fun _ _ h => (nomatch h)) fun row hrow => ?_
  rw [List.mem_map]
  constructor
  · rintro ⟨old, hold, rfl⟩
    unfold Store.revoked at hrow ⊢
    split at hrow
    · cases hrow
    · rename_i hno
      rw [if_neg hno]
      refine ⟨hold, decide_eq_true fun hid => hno ?_⟩
      rw [Bool.and_eq_true]
      exact ⟨decide_eq_true hid, decide_eq_true hrow⟩
  · rintro ⟨hmem, hspared⟩
    refine ⟨row, hmem, if_neg fun hboth => ?_⟩
    rw [Bool.and_eq_true, decide_eq_true_eq] at hboth
    exact of_decide_eq_true hspared hboth.1

theorem Agree.deleted {event : GrantEvent}
    (agree : Agree sys rows history) (creates : ∀ record origins, event ≠ .created record origins) :
    Agree sys (rows.filter fun row => event.spares row.grant) (event :: history) :=
  agree.event creates fun _ _ => List.mem_filter

theorem isFor_of_isFor {grant other : CredentialScopeGrantRecord}
    {scope : CredentialScope} (hgrant : grant.isFor p c scope = true) (hother : other.isFor p c scope = true) :
    grant.isFor other.pluginId other.credentialId other.scope = true := by
  simp only [CredentialScopeGrantRecord.isFor, Bool.and_eq_true, decide_eq_true_eq] at hother
  obtain ⟨⟨rfl, rfl⟩, rfl⟩ := hother
  exact hgrant

theorem superseded_of_active {grant : CredentialScopeGrantRecord} {row : GrantRow Digest}
    {scope : CredentialScope} (hother : grant.isFor p c scope = false)
    (hactive : row.Active p c scope) : Store.superseded grant row = row := by
  unfold Store.superseded
  rw [if_neg]
  intro hboth
  have hrow := hactive.1
  simp only [Bool.and_eq_true, CredentialScopeGrantRecord.isFor, decide_eq_true_eq] at hboth hrow
  obtain ⟨⟨⟨hp, hc⟩, hs⟩, -⟩ := hboth
  rw [CredentialScopeGrantRecord.isFor, ← hp, ← hc, ← hs, hrow.1.1, hrow.1.2, hrow.2] at hother
  simp at hother

theorem Agree.created (agree : Agree sys rows history) {record : CredentialScopeGrantRecord}
    {origins : List Origin} (unrevoked : record.revokedAt = none) :
    Agree sys (rows.map (Store.superseded record.stored) ++ [rowOf sys record origins])
      (.created record origins :: history) := by
  intro p c scope row
  cases hfor : record.isFor p c scope with
  | true =>
    rw [standing, if_pos hfor]
    constructor
    · rintro ⟨hmem, hactive⟩
      rcases List.mem_append.mp hmem with hmem | hmem
      · -- the grants it takes the place of are revoked by now
        obtain ⟨old, -, rfl⟩ := List.mem_map.mp hmem
        exfalso
        obtain ⟨hisFor, hnone⟩ := hactive
        unfold Store.superseded at hisFor hnone
        split at hnone
        · cases hnone
        · rename_i hno
          rw [if_neg hno] at hisFor
          refine hno (Bool.and_eq_true_iff.mpr ⟨?_, decide_eq_true hnone⟩)
          exact isFor_of_isFor hisFor hfor
      · exact ⟨record, origins, rfl, List.mem_singleton.mp hmem⟩
    · rintro ⟨_, _, heq, rfl⟩
      cases heq
      exact ⟨List.mem_append_right _ (List.mem_singleton.mpr rfl), hfor, unrevoked⟩
  | false =>
    rw [standing, hfor]
    show _ ↔ ∃ r o, standing p c scope history = some (r, o) ∧ _
    rw [← agree p c scope row]
    constructor
    · rintro ⟨hmem, hactive⟩
      rcases List.mem_append.mp hmem with hmem | hmem
      · obtain ⟨old, hold, rfl⟩ := List.mem_map.mp hmem
        have hkept : Store.superseded record.stored old = old := by
          refine superseded_of_active hfor ⟨?_, ?_⟩
          · obtain ⟨hisFor, -⟩ := hactive
            unfold Store.superseded at hisFor
            split at hisFor <;> exact hisFor
          · obtain ⟨-, hnone⟩ := hactive
            unfold Store.superseded at hnone
            split at hnone
            · cases hnone
            · exact hnone
        rw [hkept] at hactive ⊢
        exact ⟨hold, hactive⟩
      · rw [List.mem_singleton.mp hmem] at hactive
        have hisFor : record.isFor p c scope = true := hactive.1
        rw [hfor] at hisFor
        cases hisFor
    · rintro ⟨hmem, hactive⟩
      refine ⟨List.mem_append_left _ (List.mem_map.mpr ⟨row, hmem, ?_⟩), hactive⟩
      exact superseded_of_active hfor hactive

/-! ### Every transaction keeps it -/

theorem booked_empty : Booked sys (Granting.empty : Granting Cipher Digest) where
  agree := by
    intro p c scope row
    exact ⟨fun h => (nomatch h.1), fun ⟨_, _, h, _⟩ => (nomatch h)⟩
  issued := fun _ _ h => (nomatch h)
  credentials := fun _ _ h => (nomatch h)
  plugins := fun _ _ h => (nomatch h)

theorem sorted_of_put {key : CredentialId} {new : CredentialRecord Cipher} {origins : List Origin}
    (sorted : ∀ id row, s.credentials.get id = some row → row.targetOrigins.Pairwise (· < ·))
    (normalized : normalizeOrigins origins = .ok new.targetOrigins)
    (hget : ∀ id, t.credentials.get id = if id = key then some new else s.credentials.get id) :
    ∀ id row, t.credentials.get id = some row → row.targetOrigins.Pairwise (· < ·) := by
  intro id row hrow
  rw [hget] at hrow
  split at hrow
  · cases hrow
    exact (normalizeOrigins_eq_ok normalized).2.1
  · exact sorted id row hrow

theorem wellFormed_of_upsert {new : PluginRow}
    (plugins : ∀ id row, s.plugins.get id = some row → row.credentials.WellFormed)
    (wf : new.credentials.WellFormed) : ∀ id row, (s.upsertPlugin new).plugins.get id = some row →
      row.credentials.WellFormed := by
  intro id row hrow
  unfold Store.upsertPlugin at hrow
  split at hrow
  · rename_i absent
    rw [show ({ s with plugins := s.plugins.add new absent } : Store Cipher Digest).plugins.get id =
      (s.plugins.add new absent).get id from rfl, Table.get_add] at hrow
    split at hrow
    · cases hrow
      exact wf
    · exact plugins id row hrow
  · rw [show ({ s with plugins := s.plugins.update (Store.upserted new) (Store.upserted_pluginId new) } :
      Store Cipher Digest).plugins.get id =
        (s.plugins.update (Store.upserted new) (Store.upserted_pluginId new)).get id from rfl,
      Table.get_update] at hrow
    obtain ⟨old, hold, rfl⟩ := Option.map_eq_some_iff.mp hrow
    unfold Store.upserted
    split
    · exact wf
    · exact plugins id old hold

theorem upsertPlugin_credentials {row : PluginRow} :
    (s.upsertPlugin row).credentials = s.credentials ∧ (s.upsertPlugin row).grants = s.grants := by
  unfold Store.upsertPlugin
  split <;> exact ⟨rfl, rfl⟩

theorem Booked.issued_cons {g : Granting Cipher Digest} {event : GrantEvent} (h : Booked sys g)
    (creates : ∀ record origins, event ≠ .created record origins) (record : CredentialScopeGrantRecord)
    (origins : List Origin) (hmem : .created record origins ∈ event :: g.history) :
    Issued sys record origins := by
  rcases List.mem_cons.mp hmem with heq | hmem
  · exact absurd heq.symm (creates record origins)
  · exact h.issued record origins hmem

theorem Booked.next {g g' : Granting Cipher Digest} {op : GrantOp Cipher} (h : Booked sys g)
    (wf : op.WellFormed) (hstep : g.next sys op = some g') : Booked sys g' := by
  unfold Granting.next at hstep
  cases hperform : op.perform sys g.store with
  | error e =>
    rw [hperform] at hstep
    cases hstep
    exact h
  | ok t =>
    rw [hperform] at hstep
    cases hstep
    cases op with
    | insertCredential record =>
      obtain ⟨-, hplugins, hgrants, _, inserted, hget⟩ := Store.insert_eq_ok hperform
      refine ⟨?_, h.issued, sorted_of_put h.credentials inserted.normalized hget, hplugins ▸ h.plugins⟩
      rw [hgrants]
      exact h.agree
    | updateCredential record =>
      obtain ⟨⟨revision, _⟩, hupdate, rfl⟩ := map_eq_ok hperform
      obtain ⟨-, hplugins, hgrants, _, _, -, updated, hget⟩ := Store.update_eq_ok hupdate
      refine ⟨?_, h.issued, sorted_of_put h.credentials updated.normalized hget, hplugins ▸ h.plugins⟩
      rw [hgrants]
      exact h.agree
    | clearSourcePlugin id now =>
      obtain ⟨hplugins, hgrants, hget⟩ := Store.clearSourcePlugin_eq_ok hperform
      refine ⟨?_, h.issued, ?_, hplugins ▸ h.plugins⟩
      · rw [hgrants]
        exact h.agree
      · intro other row hrow
        rw [hget] at hrow
        obtain ⟨old, hold, rfl⟩ := Option.map_eq_some_iff.mp hrow
        have hsorted := h.credentials other old hold
        unfold Store.cleared
        split <;> exact hsorted
    | deleteCredential id =>
      obtain ⟨hplugins, -, hget, hgrants⟩ := Store.delete_eq_ok hperform
      have hrows : t.grants.rows =
          g.store.grants.rows.filter fun row => !decide (row.grant.credentialId = id) := by
        rw [hgrants]
        rfl
      refine ⟨?_, h.issued_cons fun _ _ h => (by cases h), ?_, hplugins ▸ h.plugins⟩
      · show Agree sys t.grants.rows (.credentialDeleted id :: g.history)
        rw [hrows]
        have hagree : Agree sys (g.store.grants.rows.filter fun row =>
            (GrantEvent.credentialDeleted id).spares row.grant) (.credentialDeleted id :: g.history) :=
          h.agree.deleted fun _ _ h => by cases h
        simpa only [GrantEvent.spares, ne_eq, decide_not] using hagree
      · intro other row hrow
        rw [hget] at hrow
        split at hrow
        · cases hrow
        · exact h.credentials other row hrow
    | upsertPlugin row =>
      cases hperform
      refine ⟨?_, h.issued, ?_, wellFormed_of_upsert h.plugins wf⟩
      · show Agree sys (g.store.upsertPlugin row).grants.rows g.history
        rw [upsertPlugin_credentials.2]
        exact h.agree
      · rw [upsertPlugin_credentials.1]
        exact h.credentials
    | deletePlugin id =>
      obtain ⟨hcredentials, hplugins, hgrants⟩ := Store.deletePlugin_eq_ok hperform
      refine ⟨?_, h.issued_cons fun _ _ h => (by cases h), hcredentials ▸ h.credentials, ?_⟩
      · show Agree sys t.grants.rows (.pluginDeleted id :: g.history)
        rw [hgrants]
        have hagree : Agree sys (g.store.grants.rows.filter fun row =>
            (GrantEvent.pluginDeleted id).spares row.grant) (.pluginDeleted id :: g.history) :=
          h.agree.deleted fun _ _ h => by cases h
        simpa only [GrantEvent.spares, ne_eq, decide_not] using hagree
      · intro other row hrow
        rw [hplugins, Table.get_remove, Option.filter_eq_some_iff] at hrow
        exact h.plugins other row hrow.1
    | createGrant record =>
      obtain ⟨credential, granted⟩ := Store.createGrant_eq_ok hperform
      have hevents : GrantOp.events g.store (.createGrant record) =
          [.created record credential.targetOrigins] := by
        simp only [GrantOp.events, granted.found]
      rw [hevents]
      refine ⟨?_, ?_, granted.credentials ▸ h.credentials, granted.plugins ▸ h.plugins⟩
      · show Agree sys t.grants.rows (.created record credential.targetOrigins :: g.history)
        rw [granted.rows]
        exact h.agree.created granted.unrevoked
      · intro other otherOrigins hmem
        rcases List.mem_cons.mp hmem with heq | hmem
        · cases heq
          exact ⟨granted.unrevoked, granted.normalized, granted.readable,
            h.credentials _ credential granted.found, granted.covered⟩
        · exact h.issued other otherOrigins hmem
    | revokeGrant id time =>
      obtain ⟨hcredentials, hplugins, hgrants⟩ := Store.revokeGrant_eq_ok hperform
      refine ⟨?_, h.issued_cons fun _ _ h => (by cases h), hcredentials ▸ h.credentials,
        hplugins ▸ h.plugins⟩
      show Agree sys t.grants.rows (.revoked id :: g.history)
      rw [hgrants]
      exact h.agree.revoked id time

end AudioDown.Vault
