/-
# AudioDown.Vault.RoundTrip — what was stored is what is opened

Any number of calls that create, update, retain and delete credentials run interleaved, each step of each
call at any time.  Beside the tables a ledger is kept that no program reads: for each credential the secret,
status and expiry of the last write that went through.  `Faithful` ties the two together: the row of a
credential decrypts, under its own id and scope, to the secret the ledger has for it, and has its kind,
status and expiry.  So `open` returns that secret, or says why it does not.

The round trip rides on the years that RFC 3339 can write.  `create` and `update` accept an expiry in any
year; a row with one beyond 9999 is stored, and from then on it cannot be read, updated or opened.
-/
import AudioDown.Lib.Pool
import AudioDown.Vault.Service

namespace AudioDown.Vault

open Lib Supervisor

variable {Plain Cipher Digest : Type}

/-! ## The system -/

inductive VaultCall where
  | create (request : CredentialCreateRequest) (secret : CredentialSecret)
  | update (request : CredentialUpdateRequest) (secret : CredentialSecret)
  | retain (credentialId : CredentialId)
  | delete (credentialId : CredentialId)

def VaultCall.secret : VaultCall → Option CredentialSecret
  | .create _ secret => some secret
  | .update _ secret => some secret
  | .retain _ | .delete _ => none

/-- The program behind a call.  Who made it learns its result; nobody else does. -/
def VaultCall.program (sys : Storage Cipher Digest) (crypto : Cryptography Plain Cipher) :
    VaultCall → VaultProgram Cipher Unit
  | .create request secret => (Vault.create sys crypto request secret).bind fun _ => .ret ()
  | .update request secret => (Vault.update sys crypto request secret).bind fun _ => .ret ()
  | .retain id => (Vault.retain id).bind fun _ => .ret ()
  | .delete id => (deleteCredential id).bind fun _ => .ret ()

/-- What a write has left to be opened. -/
structure Written where
  secret : CredentialSecret
  status : CredentialStatus
  expiresAt : Option Timestamp
deriving DecidableEq

abbrev VaultTask (Cipher : Type) := Task VaultCall (VaultAct Cipher) VaultAct.Resp Unit

structure VaultState (Cipher Digest : Type) where
  store : Store Cipher Digest
  tasks : List (VaultTask Cipher)
  /-- the last write to each credential -/
  last : CredentialId → Option Written

def VaultState.empty : VaultState Cipher Digest := ⟨.empty, [], fun _ => none⟩

def noted (call : VaultCall) (last : CredentialId → Option Written) :
    (a : VaultAct Cipher) → a.Resp → CredentialId → Option Written
  | .insert record, .ok _ | .update record, .ok _ =>
      Function.update last record.id (call.secret.map fun secret => ⟨secret, record.status, record.expiresAt⟩)
  | .delete id, .ok _ => Function.update last id none
  | _, _ => last

inductive VaultLabel (Digest : Type) where
  | start (call : VaultCall)
  | step (task : Nat) (c : VaultChoice)
  /-- plugins come and go, and grants with them -/
  | outside (plugins : Table PluginRow.pluginId) (grants : Table (@GrantRow.id Digest))

def VaultState.next (sys : Storage Cipher Digest) (crypto : Cryptography Plain Cipher)
    (v : VaultState Cipher Digest) : VaultLabel Digest → Option (VaultState Cipher Digest)
  | .start call => some { v with tasks := v.tasks ++ [⟨call, call.program sys crypto⟩] }
  | .step i c =>
      match v.tasks[i]? with
      | some ⟨call, .act a k⟩ => some
          { store := (vaultStep sys a c v.store).2
            tasks := v.tasks.set i ⟨call, k (vaultStep sys a c v.store).1⟩
            last := noted call v.last a (vaultStep sys a c v.store).1 }
      | _ => none
  | .outside plugins grants => some { v with store := { v.store with plugins, grants } }

/-! ## The claim and its condition -/

/-- What `open` should return at a time. -/
def opensTo (last : Option Written) (now : Timestamp) : Except VaultError CredentialSecret :=
  match last with
  | none => .error .notFound
  | some written =>
    if statusAt written.status written.expiresAt now = .expired then .error .expired
    else if written.status = .revoked then .error .revoked
    else .ok written.secret

/-- The clock shows `now`, and the database works. -/
def atTime (now : Timestamp) : VaultAct Cipher → VaultChoice
  | .utcNow => .instant now
  | _ => .done

/-- `open`, called in a state of the vault. -/
def opened (sys : Storage Cipher Digest) (crypto : Cryptography Plain Cipher) (s : Store Cipher Digest)
    (id : CredentialId) (now : Timestamp) : Except VaultError CredentialSecret :=
  ((openSecret sys crypto id).run (vaultStep sys) (atTime now) s).1

def VaultCall.Datable : VaultCall → Prop
  | .create request _ => request.expiresAt.all legible = true
  | .update request _ => request.expiresAt.all legible = true ∧ request.statusCheckedAt.all legible = true
  | _ => True

def VaultAct.Datable (c : VaultChoice) (s : Store Cipher Digest) : VaultAct Cipher → Prop
  | .utcNow => legible c.time = true
  | .clearSourcePlugin id _ => ∀ row, s.credentials.get id = some row → row.revision + 1 < 2 ^ 63
  | _ => True

def Datable (v : VaultState Cipher Digest) : VaultLabel Digest → Prop
  | .start call => call.Datable
  | .step i c => ∀ call a k, v.tasks[i]? = some ⟨call, .act a k⟩ → a.Datable c v.store
  | .outside .. => True

/-! ## What a call writes -/

variable {sys : Storage Cipher Digest} {crypto : Cryptography Plain Cipher}

/-- A record that carries a secret. -/
structure Carries (sys : Storage Cipher Digest) (crypto : Cryptography Plain Cipher) (secret : CredentialSecret)
    (record : CredentialRecord Cipher) : Prop where
  envelope : Sealed crypto record.id record.scope secret record.envelope
  kind : record.kind = secret.kind
  origins : record.targetOrigins.all sys.readable = true
  expiresAt : record.expiresAt.all legible = true
  statusCheckedAt : record.statusCheckedAt.all legible = true
  updatedAt : legible record.updatedAt = true

def VaultCall.Outline (sys : Storage Cipher Digest) (crypto : Cryptography Plain Cipher) (call : VaultCall) :
    VaultAct Cipher → Prop
  | .insert record => legible record.createdAt = true ∧
      ∃ secret, call.secret = some secret ∧ Carries sys crypto secret record
  | .update record => ∃ secret, call.secret = some secret ∧ Carries sys crypto secret record
  | .clearSourcePlugin _ now => legible now = true
  | _ => True

def Told : (a : VaultAct Cipher) → a.Resp → Prop
  | .utcNow, now => legible now = true
  | _, _ => True

section
variable {P : VaultAct Cipher → Prop}

theorem encryptSecret_within (nonce : P .fillNonce) (id : CredentialId) (scope : CredentialScope)
    (secret : CredentialSecret) : (encryptSecret crypto id scope secret).Within Told P fun r =>
      ∀ envelope, r = .ok envelope → Sealed crypto id scope secret envelope := by
  unfold encryptSecret
  split
  · exact nofun
  · refine ⟨nonce, fun drawn _ => ?_⟩
    cases drawn with
    | none => exact nofun
    | some nonce =>
      dsimp only
      split
      · exact nofun
      · rename_i envelope hencrypt
        intro other h
        cases h
        exact sealed_of_encrypt hencrypt

theorem statusWithExpiry_within (clock : P .utcNow) (status : CredentialStatus)
    (expiresAt : Option Timestamp) : (statusWithExpiry status expiresAt).Within Told P fun _ => True := by
  unfold statusWithExpiry
  split
  · exact ⟨clock, fun _ _ => trivial⟩
  · trivial

theorem toMetadata_within (clock : P .utcNow) (record : CredentialRecord Cipher) :
    record.toMetadata.Within Told P fun _ => True :=
  (statusWithExpiry_within clock _ _).bind fun _ _ => trivial

theorem storedToRecord_within (clock : P .utcNow) (record : StoredCredential Cipher) :
    (storedToRecord record).Within Told P fun r => ∀ written, r = .ok written →
      written = record.toCredentialRecord := by
  refine (toMetadata_within clock _).bind fun metadata _ => ?_
  split
  · exact fun _ h => (nomatch h)
  · intro written h
    cases h
    rfl

theorem get_within (get : ∀ id, P (.get id)) (id : CredentialId) :
    (Repository.get id).Within Told P fun _ => True :=
  ⟨get id, fun _ _ => trivial⟩

theorem insert_within (clock : P .utcNow) (record : StoredCredential Cipher)
    (insert : P (.insert record.toCredentialRecord)) :
    (Repository.insert record).Within Told P fun _ => True := by
  refine (storedToRecord_within clock record).bind fun r hr => ?_
  cases r with
  | error e => trivial
  | ok written =>
    cases hr written rfl
    exact ⟨insert, fun _ _ => trivial⟩

theorem update_within (clock : P .utcNow) (record : StoredCredential Cipher) (expectedRevision : Nat)
    (update : P (.update record.toCredentialRecord)) :
    (Repository.update record expectedRevision).Within Told P fun _ => True := by
  unfold Repository.update
  split
  · trivial
  · refine (storedToRecord_within clock record).bind fun r hr => ?_
    cases r with
    | error e => trivial
    | ok written =>
      cases hr written rfl
      exact ⟨update, fun _ _ => trivial⟩

end

variable {a : VaultAct Cipher} {c : VaultChoice} {call : VaultCall} {id : CredentialId}
  {origins : List Origin} {row : CredentialRecord Cipher} {v : VaultState Cipher Digest}

theorem readable_of_requestOrigins (h : requestOrigins sys origins = true) :
    origins.all sys.readable = true := by
  unfold requestOrigins at h
  rw [Bool.and_eq_true] at h
  exact h.2

theorem create_within {request : CredentialCreateRequest} (secret : CredentialSecret)
    (dated : request.expiresAt.all legible = true) :
    (create sys crypto request secret).Within Told ((VaultCall.create request secret).Outline sys crypto)
      fun _ => True := by
  unfold create
  split
  · trivial
  · rename_i hvalid
    have horigins : request.targetOrigins.all sys.readable = true := by
      simp only [Bool.not_eq_true, Bool.not_eq_false', Bool.and_eq_true, CredentialCreateRequest.valid] at hvalid
      exact readable_of_requestOrigins hvalid.1.1.1.2
    refine ⟨trivial, fun uuid _ => ?_⟩
    beta_reduce
    split
    · trivial
    · rename_i id _
      refine ⟨trivial, fun now hnow => (encryptSecret_within trivial id _ secret).bind fun r hr => ?_⟩
      cases r with
      | error e => trivial
      | ok envelope =>
        refine (statusWithExpiry_within trivial _ _).bind fun status _ => ?_
        have carries : Carries sys crypto secret (request.record secret.kind id envelope status now) :=
          ⟨hr envelope rfl, rfl, horigins, dated, hnow, hnow⟩
        refine (insert_within trivial _ ⟨hnow, secret, rfl, carries⟩).bind fun r _ => ?_
        cases r <;> trivial

theorem updateCall_within {request : CredentialUpdateRequest} (secret : CredentialSecret)
    (dated : request.expiresAt.all legible = true) (checked : request.statusCheckedAt.all legible = true) :
    (update sys crypto request secret).Within Told ((VaultCall.update request secret).Outline sys crypto)
      fun _ => True := by
  unfold update
  split
  · trivial
  · rename_i hvalid
    have horigins : request.targetOrigins.all sys.readable = true := by
      simp only [Bool.not_eq_true, Bool.not_eq_false', Bool.and_eq_true, CredentialUpdateRequest.valid] at hvalid
      exact readable_of_requestOrigins hvalid.1.1.1.1.2
    refine (get_within (fun _ => trivial) _).bind fun r _ => ?_
    match r with
    | .error e => trivial
    | .ok none => trivial
    | .ok (some existing) =>
      show Prog.Within Told _ _ (if (_ || _) = true then _ else _)
      split
      · trivial
      · rename_i hmatches
        have hkind : existing.kind = secret.kind := by
          simp only [Bool.or_eq_true, decide_eq_true_eq, not_or, not_not] at hmatches
          exact hmatches.1
        refine ⟨trivial, fun now hnow => (encryptSecret_within trivial _ _ secret).bind fun r hr => ?_⟩
        cases r with
        | error e => trivial
        | ok envelope =>
          refine (statusWithExpiry_within trivial _ _).bind fun status _ => ?_
          refine (toMetadata_within trivial _).bind fun metadata _ => ?_
          have carries : Carries sys crypto secret
              (request.apply existing.toCredentialRecord envelope status now) :=
            ⟨hr envelope rfl, hkind, horigins, dated, checked, hnow⟩
          refine (update_within trivial _ _ ⟨secret, rfl, carries⟩).bind fun r _ => ?_
          cases r <;> trivial

theorem metadataGet_within {P : VaultAct Cipher → Prop} (clock : P .utcNow) (get : ∀ id, P (.get id))
    (id : CredentialId) : (metadataGet id).Within Told P fun _ => True := by
  refine (get_within get id).bind fun r _ => ?_
  match r with
  | .error e => trivial
  | .ok none => trivial
  | .ok (some record) => exact (toMetadata_within clock _).bind fun _ _ => trivial

theorem retain_within (id : CredentialId) :
    (retain id).Within Told ((VaultCall.retain id).Outline sys crypto) fun _ => True := by
  refine .bind (Q := fun _ => True) ⟨trivial, fun now hnow => ⟨hnow, fun _ _ => trivial⟩⟩ fun r _ => ?_
  cases r with
  | error e => trivial
  | ok _ =>
    refine (metadataGet_within trivial (fun _ => trivial) id).bind fun r _ => ?_
    match r with
    | .error e => trivial
    | .ok none => trivial
    | .ok (some metadata) => trivial

theorem VaultCall.within (dated : call.Datable) :
    (call.program sys crypto).Within Told (call.Outline sys crypto) fun _ => True := by
  cases call with
  | create request secret => exact .bind (create_within secret dated) fun _ _ => trivial
  | update request secret => exact .bind (updateCall_within secret dated.1 dated.2) fun _ _ => trivial
  | retain id => exact .bind (retain_within id) fun _ _ => trivial
  | delete id => exact ⟨trivial, fun _ _ => trivial⟩

/-! ## The invariant -/

/-- A row that holds what the ledger says. -/
structure Holds (sys : Storage Cipher Digest) (crypto : Cryptography Plain Cipher)
    (row : CredentialRecord Cipher) (written : Written) : Prop where
  envelope : Sealed crypto row.id row.scope written.secret row.envelope
  kind : row.kind = written.secret.kind
  status : row.status = written.status
  expiresAt : row.expiresAt = written.expiresAt
  legible : Legible sys row

structure Faithful (sys : Storage Cipher Digest) (crypto : Cryptography Plain Cipher)
    (v : VaultState Cipher Digest) : Prop where
  rows : ∀ id, Option.Rel (Holds sys crypto) (v.store.credentials.get id) (v.last id)
  tasks : ∀ task ∈ v.tasks, task.prog.Within Told (task.tag.Outline sys crypto) fun _ => True

/-- A record that carries a secret, with the origins sorted and some revision and time of creation. -/
theorem Carries.holds (ideal : Ideal sys crypto) {secret : CredentialSecret}
    {record : CredentialRecord Cipher} (h : Carries sys crypto secret record)
    (hnormal : normalizeOrigins record.targetOrigins = .ok origins) {revision : Nat} (hpos : revision ≠ 0)
    (hsmall : revision < 2 ^ 63) {createdAt : Timestamp} (hcreated : legible createdAt = true) :
    Holds sys crypto { record with targetOrigins := origins, revision := revision, createdAt := createdAt }
      ⟨secret, record.status, record.expiresAt⟩ := by
  refine ⟨h.envelope, h.kind, rfl, rfl, hpos, hsmall, h.envelope.fits ideal, ?_, ?_, h.expiresAt,
    h.statusCheckedAt, hcreated, h.updatedAt, ?_⟩
  · rw [h.envelope.algorithmVersion]
    decide
  · rw [h.envelope.keyVersion]
    decide
  · rw [List.all_eq_true]
    intro origin hmem
    exact List.all_eq_true.mp h.origins origin ((normalizeOrigins_eq_ok hnormal).1.mem_iff.mp hmem)

theorem Faithful.holds (h : Faithful sys crypto v) (hrow : v.store.credentials.get id = some row) :
    ∃ written, v.last id = some written ∧ Holds sys crypto row written := by
  have hrel := h.rows id
  rw [hrow] at hrel
  cases hlast : v.last id with
  | none =>
    rw [hlast] at hrel
    cases hrel
  | some written =>
    rw [hlast] at hrel
    cases hrel with
    | some holds => exact ⟨written, rfl, holds⟩

theorem rel_update {s t : Store Cipher Digest} {last : CredentialId → Option Written}
    {row : Option (CredentialRecord Cipher)} {written : Option Written}
    (rows : ∀ id, Option.Rel (Holds sys crypto) (s.credentials.get id) (last id))
    (hget : ∀ other, t.credentials.get other = if other = id then row else s.credentials.get other)
    (hrow : Option.Rel (Holds sys crypto) row written) (other : CredentialId) :
    Option.Rel (Holds sys crypto) (t.credentials.get other) (Function.update last id written other) := by
  rw [hget]
  by_cases heq : other = id
  · subst heq
    rw [if_pos rfl, Function.update_self]
    exact hrow
  · rw [if_neg heq, Function.update_of_ne heq]
    exact rows other

theorem rows_of_step (ideal : Ideal sys crypto) (h : Faithful sys crypto v)
    (outline : call.Outline sys crypto a) (dated : a.Datable c v.store) (id : CredentialId) :
    Option.Rel (Holds sys crypto) ((vaultStep sys a c v.store).2.credentials.get id)
      (noted call v.last a (vaultStep sys a c v.store).1 id) := by
  cases a with
  | utcNow | newUuid | fillNonce => exact h.rows id
  | get other =>
    rcases vaultStep_get sys c v.store other with ⟨e, he⟩ | ⟨found, -, he⟩
    · rw [he]
      exact h.rows id
    · rw [he]
      exact h.rows id
  | insert record =>
    obtain ⟨hcreated, secret, hsecret, carries⟩ := outline
    rcases vaultStep_insert sys c v.store record with ⟨e, he⟩ | ⟨t, hok, he⟩
    · rw [he]
      exact h.rows id
    · rw [he]
      obtain ⟨-, -, -, row, inserted, hget⟩ := Store.insert_eq_ok hok
      refine rel_update h.rows hget ?_ id
      rw [hsecret, inserted.eq]
      exact .some (carries.holds ideal inserted.normalized (by rw [inserted.first]; decide)
        (by rw [inserted.first]; decide) hcreated)
  | update record =>
    obtain ⟨secret, hsecret, carries⟩ := outline
    rcases vaultStep_update sys c v.store record with ⟨e, he⟩ | ⟨revision, t, hok, he⟩
    · rw [he]
      exact h.rows id
    · rw [he]
      obtain ⟨-, -, -, old, row, hold, updated, hget⟩ := Store.update_eq_ok hok
      refine rel_update h.rows hget ?_ id
      obtain ⟨_, -, holds⟩ := h.holds hold
      rw [hsecret, updated.eq]
      exact .some (carries.holds ideal updated.normalized (Nat.succ_ne_zero _) updated.small
        holds.legible.createdAt)
  | clearSourcePlugin cleared now =>
    rcases vaultStep_clear sys c v.store cleared now with ⟨e, he⟩ | ⟨t, hok, he⟩
    · rw [he]
      exact h.rows id
    · rw [he]
      obtain ⟨-, -, hget⟩ := Store.clearSourcePlugin_eq_ok hok
      show Option.Rel (Holds sys crypto) (t.credentials.get id) (v.last id)
      rw [hget]
      have hrel := h.rows id
      cases hrow : v.store.credentials.get id with
      | none =>
        rw [hrow] at hrel
        exact hrel
      | some row =>
        obtain ⟨written, hlast, holds⟩ := h.holds hrow
        rw [hlast]
        refine .some ?_
        unfold Store.cleared
        split
        · rename_i hid
          have hkey : row.id = id := Table.key_of_get hrow
          have hsmall := dated row (by rw [← hid, hkey]; exact hrow)
          exact ⟨holds.envelope, holds.kind, holds.status, holds.expiresAt,
            { holds.legible with
              positive := Nat.succ_ne_zero _
              revision := hsmall
              updatedAt := outline }⟩
        · exact holds
  | delete gone =>
    rcases vaultStep_delete sys c v.store gone with ⟨e, he⟩ | ⟨t, hok, he⟩
    · rw [he]
      exact h.rows id
    · rw [he]
      obtain ⟨-, -, hget, -⟩ := Store.delete_eq_ok hok
      exact rel_update h.rows hget .none id

theorem told_of_step {s : Store Cipher Digest} (dated : a.Datable c s) : Told a (vaultStep sys a c s).1 := by
  cases a with
  | utcNow => exact dated
  | newUuid | fillNonce | insert | update | get | clearSourcePlugin | delete => trivial

theorem faithful_empty : Faithful sys crypto (VaultState.empty : VaultState Cipher Digest) :=
  ⟨fun _ => .none, fun _ h => (nomatch h)⟩

theorem Faithful.next (ideal : Ideal sys crypto) {v' : VaultState Cipher Digest} {label : VaultLabel Digest}
    (h : Faithful sys crypto v) (dated : Datable v label) (hstep : v.next sys crypto label = some v') :
    Faithful sys crypto v' := by
  cases label with
  | start call =>
    cases hstep
    refine ⟨h.rows, fun task hmem => ?_⟩
    rcases List.mem_append.mp hmem with hmem | hmem
    · exact h.tasks task hmem
    · rw [List.mem_singleton.mp hmem]
      exact VaultCall.within dated
  | outside plugins grants =>
    cases hstep
    exact ⟨h.rows, h.tasks⟩
  | step i c =>
    simp only [VaultState.next] at hstep
    split at hstep
    · rename_i call a k htask
      cases hstep
      have hwithin := h.tasks _ (List.mem_of_getElem? htask)
      have hdated := dated call a k htask
      refine ⟨rows_of_step ideal h hwithin.1 hdated, fun task hmem => ?_⟩
      rcases List.mem_or_eq_of_mem_set hmem with hmem | rfl
      · exact h.tasks task hmem
      · exact hwithin.2 _ (told_of_step hdated)
    · cases hstep

/-! ## Opening -/

theorem run_statusWithExpiry (status : CredentialStatus) (expiresAt : Option Timestamp) (now : Timestamp)
    (s : Store Cipher Digest) : (statusWithExpiry status expiresAt).run (vaultStep sys) (atTime now) s =
      (statusAt status expiresAt now, s) := by
  unfold statusWithExpiry
  split
  · rfl
  · rename_i hno
    rw [statusAt_of_unasked hno]
    rfl

theorem openRecord_of_holds (ideal : Ideal sys crypto) {written : Written}
    (h : Holds sys crypto row written) : openRecord sys crypto row = .ok written.secret := by
  unfold openRecord
  rw [h.envelope.decrypt ideal]
  dsimp only
  rw [ideal.fromJson_toJson, h.kind]
  dsimp only
  rw [decode_encode]

theorem Faithful.opened (ideal : Ideal sys crypto) (h : Faithful sys crypto v)
    (id : CredentialId) (now : Timestamp) : opened sys crypto v.store id now = opensTo (v.last id) now := by
  unfold Vault.opened openSecret
  rw [Prog.run_bind]
  cases hrow : v.store.credentials.get id with
  | none =>
    have hlast : v.last id = none := by
      have hrel := h.rows id
      rw [hrow] at hrel
      cases hl : v.last id with
      | none => rfl
      | some written =>
        rw [hl] at hrel
        cases hrel
    have hget : v.store.get sys id = .ok none := by
      unfold Store.get
      rw [hrow]
    have hrun : (Repository.get id).run (vaultStep sys) (atTime now) v.store = (.ok none, v.store) := by
      show (((vaultStep sys (.get id) .done v.store).1.mapError mapRepositoryError).map _, _) = _
      simp only [vaultStep, hget]
      rfl
    rw [hrun, hlast]
    rfl
  | some row =>
    obtain ⟨written, hlast, holds⟩ := h.holds hrow
    have hget : v.store.get sys id = .ok (some row) := Store.get_eq_some.mpr ⟨hrow, holds.legible⟩
    have hrun : (Repository.get id).run (vaultStep sys) (atTime now) v.store =
        (.ok (some (recordToStored row)), v.store) := by
      show (((vaultStep sys (.get id) .done v.store).1.mapError mapRepositoryError).map _, _) = _
      simp only [vaultStep, hget]
      rfl
    rw [hrun, hlast]
    show (((statusWithExpiry row.status row.expiresAt).bind _).run ..).1 = _
    rw [Prog.run_bind, run_statusWithExpiry, holds.status, holds.expiresAt]
    show ((if statusAt written.status written.expiresAt now = .expired then .ret (.error .expired)
        else if row.status = .revoked then .ret (.error .revoked)
        else .ret (openRecord sys crypto row) : VaultProgram Cipher _).run ..).1 =
      if statusAt written.status written.expiresAt now = .expired then .error .expired
      else if written.status = .revoked then .error .revoked
      else .ok written.secret
    rw [holds.status, openRecord_of_holds ideal holds]
    split
    · rfl
    · split <;> rfl

/-- Along every run in which the times and revisions that are written can be read, opening a credential gives
exactly the secret of the last successful write, or why it is not to be had. -/
theorem opened_is_last_written (sys : Storage Cipher Digest) (crypto : Cryptography Plain Cipher)
    (ideal : Ideal sys crypto) (labels : List (VaultLabel Digest)) (v : VaultState Cipher Digest)
    (run : Run (VaultState.next sys crypto) Datable VaultState.empty labels v) (id : CredentialId)
    (now : Timestamp) : opened sys crypto v.store id now = opensTo (v.last id) now :=
  (run.invariant (fun _ _ _ h dated hstep => h.next ideal dated hstep)
    faithful_empty).opened ideal id now

namespace Demo

def request (expiresAt : Timestamp) : CredentialCreateRequest where
  platformId := "qq"
  scope := "qq.login"
  sourcePluginId := none
  targetOrigins := ["https://qq.com"]
  accountIdHint := none
  displayName := none
  expiresAt := some expiresAt

def creation (expiresAt : Timestamp) : List (VaultLabel (List UInt8)) :=
  [.start (.create (request expiresAt) secret), .step 0 (.uuid 7), .step 0 (.instant 0),
    .step 0 (.random (some [])), .step 0 (.instant 0), .step 0 (.instant 0), .step 0 .done]

def created (expiresAt : Timestamp) : VaultState Symbolic.Text (List UInt8) :=
  ((creation expiresAt).foldlM (VaultState.next Symbolic.storage Symbolic.crypto) .empty).getD .empty

def year10000 : Timestamp := 253402300800000000000

def checkDatable (v : VaultState Symbolic.Text (List UInt8)) : VaultLabel (List UInt8) → Bool
  | .start (.create request _) => request.expiresAt.all legible
  | .start _ => false
  | .step i c =>
      match v.tasks[i]? with
      | some ⟨_, .act .utcNow _⟩ => legible c.time
      | some ⟨_, .act (.clearSourcePlugin ..) _⟩ => false
      | _ => true
  | .outside .. => true

theorem checkDatable_sound (v : VaultState Symbolic.Text (List UInt8)) (label : VaultLabel (List UInt8))
    (h : checkDatable v label = true) : Datable v label := by
  cases label with
  | start call =>
    cases call with
    | create request secret => exact h
    | update | retain | delete => cases h
  | outside plugins grants => trivial
  | step i c =>
    intro call a k htask
    simp only [checkDatable, htask] at h
    cases a with
    | utcNow => exact h
    | clearSourcePlugin id now => cases h
    | newUuid | fillNonce | insert | update | get | delete => trivial

end Demo

/-- The expiry passes every check, the token is stored, and it can no longer be opened. -/
theorem expiry_in_year_10000_locks_token :
    Run (VaultState.next Symbolic.storage Symbolic.crypto) (fun _ _ => True) .empty
        (Demo.creation Demo.year10000) (Demo.created Demo.year10000) ∧
      (Demo.created Demo.year10000).last Demo.login = some ⟨Demo.secret, .active, some Demo.year10000⟩ ∧
      opened Symbolic.storage Symbolic.crypto (Demo.created Demo.year10000).store Demo.login 0 =
        .error .invalidRequest :=
  ⟨.of_foldlM rfl, rfl, rfl⟩

theorem opened_before_expiry :
    opened Symbolic.storage Symbolic.crypto (Demo.created 10).store Demo.login 5 = .ok Demo.secret :=
  (opened_is_last_written _ _ Symbolic.ideal (Demo.creation 10) (Demo.created 10)
    (.of_checked Demo.checkDatable_sound rfl) Demo.login 5).trans rfl

end AudioDown.Vault
