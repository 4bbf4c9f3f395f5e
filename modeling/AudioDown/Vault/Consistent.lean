/-
# AudioDown.Vault.Consistent — one read of a credential among its writers

`open_current` reads the metadata, opens the secret and reads the metadata again, in three transactions.
Between any two of its steps the credential may be updated, cleared of its source or deleted, any number of
times and by anyone; the writers are all transactions on the table that do not insert the credential itself,
whatever program they belong to.

Along any such run the row of a credential stays as it is, disappears for good, or gets a larger revision
(`later_of_step`).  So of two rows that were read one after the other, the second is the first or has a
larger revision, and a pair of metadata that agree in the revision encloses reads of one row.
-/
import AudioDown.Lib.Beside
import AudioDown.Lib.Pool
import AudioDown.Vault.Service

namespace AudioDown.Vault

open Lib
open Lib.Prog (StableUnder Beside)
open Supervisor

variable {Plain Cipher Digest : Type}

/-! ## The system -/

/-- The tables, and every version of one credential they have held. -/
structure Watched (Cipher Digest : Type) where
  store : Store Cipher Digest
  versions : List (CredentialRecord Cipher)

def Watched.after (id : CredentialId) (w : Watched Cipher Digest) (store : Store Cipher Digest) :
    Watched Cipher Digest :=
  ⟨store, w.versions ++ (store.credentials.get id).toList⟩

def watchedStep (sys : Storage Cipher Digest) (id : CredentialId) :
    Semantics (VaultAct Cipher) VaultAct.Resp VaultChoice (Watched Cipher Digest) :=
  fun a c w => ((vaultStep sys a c w.store).1, w.after id (vaultStep sys a c w.store).2)

def VaultAct.Concurrent (id : CredentialId) : VaultAct Cipher → Prop
  | .insert record => record.id ≠ id
  | _ => True

instance (id : CredentialId) (a : VaultAct Cipher) : Decidable (a.Concurrent id) := by
  unfold VaultAct.Concurrent
  split <;> infer_instance

/-- A call of `open_current` among the writers. -/
structure Reading (Cipher Digest : Type) where
  watched : Watched Cipher Digest
  call : VaultProgram Cipher (Except CredentialPortError (Option OpenedCredential))

inductive ReadingLabel (Cipher : Type) where
  | read (c : VaultChoice)
  | write (a : VaultAct Cipher) (c : VaultChoice)

def Reading.start (sys : Storage Cipher Digest) (crypto : Cryptography Plain Cipher) (id : CredentialId)
    (s : Store Cipher Digest) : Reading Cipher Digest :=
  ⟨⟨s, (s.credentials.get id).toList⟩, openCurrent sys crypto id⟩

def Reading.next (sys : Storage Cipher Digest) (id : CredentialId) (r : Reading Cipher Digest) :
    ReadingLabel Cipher → Option (Reading Cipher Digest)
  | .read c =>
      match r.call with
      | .ret _ => none
      | .act a k => some ⟨(watchedStep sys id a c r.watched).2, k (watchedStep sys id a c r.watched).1⟩
  | .write a c =>
      if a.Concurrent id then some { r with watched := (watchedStep sys id a c r.watched).2 } else none

/-! ## Revisions grow -/

variable {sys : Storage Cipher Digest} {crypto : Cryptography Plain Cipher} {id : CredentialId}

theorem later_of_step {a : VaultAct Cipher} {c : VaultChoice}
    {s : Store Cipher Digest} {row' : CredentialRecord Cipher} (h : a.Concurrent id)
    (hrow' : (vaultStep sys a c s).2.credentials.get id = some row') :
    ∃ row, s.credentials.get id = some row ∧ (row' = row ∨ row.revision < row'.revision) := by
  rcases vaultStep_cases sys c s a with hsame | hwrote
  · exact ⟨row', hsame ▸ hrow', .inl rfl⟩
  generalize (vaultStep sys a c s).2 = t at hrow' hwrote
  cases hwrote with
  | insert ok =>
    obtain ⟨-, -, -, row, -, hget⟩ := Store.insert_eq_ok ok
    rw [hget, if_neg (h.symm)] at hrow'
    exact ⟨row', hrow', .inl rfl⟩
  | update ok =>
    obtain ⟨-, -, -, old, row, hold, updated, hget⟩ := Store.update_eq_ok ok
    rw [hget] at hrow'
    split at hrow'
    · rename_i hid
      cases hrow'
      have hrevision : row'.revision = old.revision + 1 := by
        rw [updated.eq, updated.found]
      exact ⟨old, hid ▸ hold, .inr (by omega)⟩
    · exact ⟨row', hrow', .inl rfl⟩
  | clear ok =>
    obtain ⟨-, -, hget⟩ := Store.clearSourcePlugin_eq_ok ok
    rw [hget] at hrow'
    obtain ⟨row, hrow, rfl⟩ := Option.map_eq_some_iff.mp hrow'
    refine ⟨row, hrow, ?_⟩
    unfold Store.cleared
    split
    · exact .inr (Nat.lt_succ_self _)
    · exact .inl rfl
  | delete ok =>
    obtain ⟨-, -, hget, -⟩ := Store.delete_eq_ok ok
    rw [hget] at hrow'
    split at hrow'
    · cases hrow'
    · exact ⟨row', hrow', .inl rfl⟩

/-- A row read after another. -/
structure After (first second : CredentialRecord Cipher) : Prop where
  le : first.revision ≤ second.revision
  same : second.revision = first.revision → second = first

theorem After.refl (row : CredentialRecord Cipher) : After row row := ⟨Nat.le_refl _, fun _ => rfl⟩

theorem After.later {first row row' : CredentialRecord Cipher} (h : After first row)
    (hrow' : row' = row ∨ row.revision < row'.revision) : After first row' := by
  have hle := h.le
  rcases hrow' with rfl | hlt
  · exact h
  · exact ⟨by omega, fun heq => by omega⟩

theorem After.eq_of_revision_eq {first second third : CredentialRecord Cipher} (h₁ : After first second)
    (h₂ : After second third) (heq : first.revision = third.revision) : second = first ∧ third = first := by
  have hle₁ := h₁.le
  have hle₂ := h₂.le
  have hsecond : second = first := h₁.same (by omega)
  subst hsecond
  exact ⟨rfl, h₂.same heq.symm⟩

/-! ## What is known between the steps -/

def Kept (id : CredentialId) (w : Watched Cipher Digest) : Prop :=
  ∀ row, w.store.credentials.get id = some row → row ∈ w.versions

/-- `record` has been read. -/
structure Past (id : CredentialId) (record : CredentialRecord Cipher) (w : Watched Cipher Digest) : Prop where
  kept : Kept id w
  held : record ∈ w.versions
  since : ∀ row, w.store.credentials.get id = some row → After record row

def Meanwhile (sys : Storage Cipher Digest) (id : CredentialId) (w w' : Watched Cipher Digest) : Prop :=
  ∃ a c, VaultAct.Concurrent id a ∧ w' = (watchedStep sys id a c w).2

theorem kept_stable : StableUnder (Meanwhile sys id) (Kept id) := by
  rintro w _ - ⟨a, c, -, rfl⟩ row hrow
  refine List.mem_append_right _ ?_
  rw [Option.mem_toList]
  exact hrow

theorem past_stable (record : CredentialRecord Cipher) : StableUnder (Meanwhile sys id) (Past id record) := by
  intro w w' past step
  refine ⟨kept_stable w w' past.kept step, ?_, ?_⟩
  · obtain ⟨a, c, -, rfl⟩ := step
    exact List.mem_append_left _ past.held
  · obtain ⟨a, c, concurrent, rfl⟩ := step
    intro row hrow
    obtain ⟨old, hold, hlater⟩ := later_of_step concurrent hrow
    exact (past.since old hold).later hlater

/-! ## The reads -/

section
variable {A : Watched Cipher Digest → Prop} {w : Watched Cipher Digest} {B : CredentialRecord Cipher → Prop}

abbrev Reads (sys : Storage Cipher Digest) (id : CredentialId) {α : Type}
    (Q : α → Watched Cipher Digest → Prop) (p : VaultProgram Cipher α) (w : Watched Cipher Digest) : Prop :=
  p.Beside (watchedStep sys id) (fun _ _ _ => True) (Meanwhile sys id) Q w

theorem read_stable {α ρ : Type} (C : CredentialRecord Cipher → α → Prop) (returns : α → ρ) (r : ρ) :
    StableUnder (Meanwhile sys id) fun w => ∀ value, r = returns value →
      ∃ record, C record value ∧ B record ∧ Past id record w := by
  intro u v hu step value hvalue
  obtain ⟨record, hC, hB, past⟩ := hu value hvalue
  exact ⟨record, hC, hB, past_stable record u v past step⟩

theorem statusWithExpiry_reads (status : CredentialStatus) (expiresAt : Option Timestamp)
    (stable : StableUnder (Meanwhile sys id) A) (hw : A w) :
    Reads sys id (fun r w => (∃ now, r = statusAt status expiresAt now) ∧
      A w) (statusWithExpiry status expiresAt) w := by
  have kept : ∀ r, StableUnder (Meanwhile sys id) fun w =>
      (∃ now, r = statusAt status expiresAt now) ∧ A w := fun r => (StableUnder.const _).and stable
  unfold statusWithExpiry
  split
  · refine .act stable hw fun t c ht _ => .ret (kept _) ⟨⟨_, rfl⟩, ?_⟩
    exact stable t _ ht ⟨.utcNow, c, trivial, rfl⟩
  · rename_i hno
    exact .ret (kept _) ⟨⟨0, (statusAt_of_unasked hno 0).symm⟩, hw⟩

theorem toMetadata_reads (record : CredentialRecord Cipher) (stable : StableUnder (Meanwhile sys id) A)
    (hw : A w) : Reads sys id (fun metadata w => (∃ now, metadata = record.metadataAt now) ∧ A w)
      record.toMetadata w := by
  refine .bind (statusWithExpiry_reads _ _ stable hw) ?_
  rintro _ u ⟨⟨now, rfl⟩, hu⟩
  exact Beside.ret ((StableUnder.const _).and stable) ⟨⟨now, rfl⟩, hu⟩

/-- What a read of the row brings: the row is past, and has what every row has at that time. -/
theorem get_reads (stable : StableUnder (Meanwhile sys id) A) (hw : A w) (hkept : ∀ t, A t → Kept id t)
    (rows : ∀ t row, A t → t.store.credentials.get id = some row → B row) :
    Reads sys id (fun r w => ∀ stored, r = .ok (some stored) →
        ∃ record, stored = recordToStored record ∧ B record ∧ Past id record w) (Repository.get id) w := by
  refine Beside.act stable hw fun t c ht _ => Beside.ret (read_stable _ _ _) ?_
  intro stored hstored
  obtain ⟨found, hfound, heq⟩ := Lib.map_eq_ok hstored
  obtain ⟨record, rfl, rfl⟩ := Option.map_eq_some_iff.mp heq
  have hget : (vaultStep sys (.get id) c t.store).1 = .ok (some record) := by
    show (watchedStep sys id (.get id) c t).1 = _
    cases hr : (watchedStep sys id (.get id) c t).1 with
    | error e =>
      rw [hr] at hfound
      cases hfound
    | ok value =>
      rw [hr] at hfound
      cases hfound
      rfl
  have hrow : t.store.credentials.get id = some record := by
    rcases vaultStep_get sys c t.store id with ⟨e, h⟩ | ⟨found, hfound, h⟩
    · rw [h] at hget
      cases hget
    · rw [h] at hget
      cases hget
      exact (Store.get_eq_some.mp hfound).1
  have hmeanwhile : Meanwhile sys id t (watchedStep sys id (.get id) c t).2 := ⟨.get id, c, trivial, rfl⟩
  refine ⟨record, rfl, rows t record ht hrow, past_stable record t _ ⟨hkept t ht, ?_, ?_⟩ hmeanwhile⟩
  · exact hkept t ht record hrow
  · intro row hrow'
    rw [hrow] at hrow'
    cases hrow'
    exact .refl _

theorem metadataGet_reads (stable : StableUnder (Meanwhile sys id) A) (hw : A w)
    (hkept : ∀ t, A t → Kept id t) (rows : ∀ t row, A t → t.store.credentials.get id = some row → B row) :
    Reads sys id (fun r w => ∀ metadata, r = .ok (some metadata) → ∃ record,
    (∃ now, metadata = record.metadataAt now) ∧ B record ∧ Past id record w) (metadataGet id) w := by
  refine .bind (get_reads stable hw hkept rows) fun r t hr => ?_
  match r with
  | .error e => exact Beside.ret (read_stable _ _ _) fun _ h => (nomatch h)
  | .ok none => exact Beside.ret (read_stable _ _ _) fun _ h => (nomatch h)
  | .ok (some stored) =>
    obtain ⟨record, rfl, hB, past⟩ := hr stored rfl
    refine .bind (toMetadata_reads record (past_stable record) past) ?_
    rintro metadata u ⟨hmetadata, past⟩
    refine Beside.ret (read_stable _ _ _) fun value hvalue => ?_
    cases hvalue
    exact ⟨record, hmetadata, hB, past⟩

theorem openSecret_reads (stable : StableUnder (Meanwhile sys id) A) (hw : A w)
    (hkept : ∀ t, A t → Kept id t) (rows : ∀ t row, A t → t.store.credentials.get id = some row → B row) :
    Reads sys id (fun r w => ∀ secret, r = .ok secret → ∃ record, openRecord sys crypto record = .ok secret ∧
      B record ∧ Past id record w) (openSecret sys crypto id) w := by
  refine .bind (get_reads stable hw hkept rows) fun r t hr => ?_
  match r with
  | .error e => exact Beside.ret (read_stable _ _ _) fun _ h => (nomatch h)
  | .ok none => exact Beside.ret (read_stable _ _ _) fun _ h => (nomatch h)
  | .ok (some stored) =>
    obtain ⟨record, rfl, hB, past⟩ := hr stored rfl
    refine .bind (statusWithExpiry_reads _ _ (past_stable record) past) ?_
    rintro status u ⟨-, past⟩
    split
    · exact Beside.ret (read_stable _ _ _) fun _ h => (nomatch h)
    · split
      · exact Beside.ret (read_stable _ _ _) fun _ h => (nomatch h)
      · exact Beside.ret (read_stable _ _ _) fun secret hsecret => ⟨record, hsecret, hB, past⟩

end

/-! ## One revision -/

/-- Metadata and secret of one row. -/
structure OpenedFrom (sys : Storage Cipher Digest) (crypto : Cryptography Plain Cipher)
    (record : CredentialRecord Cipher) (opened : OpenedCredential) : Prop where
  metadata : ∃ now, opened.metadata = record.metadataAt now
  secret : openRecord sys crypto record = .ok opened.secret

/-- What `open_current` returns was read from one version. -/
def FromOneVersion (sys : Storage Cipher Digest) (crypto : Cryptography Plain Cipher)
    (r : Except CredentialPortError (Option OpenedCredential)) (w : Watched Cipher Digest) : Prop :=
  ∀ opened, r = .ok (some opened) → ∃ record ∈ w.versions, OpenedFrom sys crypto record opened

theorem fromOneVersion_stable (r : Except CredentialPortError (Option OpenedCredential)) :
    StableUnder (Meanwhile sys id) (FromOneVersion sys crypto r) := by
  rintro w _ hw ⟨a, c, -, rfl⟩ opened hopened
  obtain ⟨record, hmem, hfrom⟩ := hw opened hopened
  exact ⟨record, List.mem_append_left _ hmem, hfrom⟩

theorem fromOneVersion_none {r : Except CredentialPortError (Option OpenedCredential)}
    {w : Watched Cipher Digest} (h : ∀ opened, r ≠ .ok (some opened)) :
    Reads sys id (FromOneVersion sys crypto) (.ret r) w :=
  .ret (fromOneVersion_stable r) fun opened hopened => absurd hopened (h opened)

theorem openCurrent_reads {w : Watched Cipher Digest} (hw : Kept id w) :
    Reads sys id (FromOneVersion sys crypto) (openCurrent sys crypto id) w := by
  refine .bind (metadataGet_reads kept_stable hw (fun _ h => h)
    fun _ _ _ _ => trivial) fun r t hr => ?_
  match r with
  | .error e => exact fromOneVersion_none fun _ h => (nomatch h)
  | .ok none => exact fromOneVersion_none fun _ h => (nomatch h)
  | .ok (some before) =>
    obtain ⟨first, ⟨now₁, rfl⟩, -, past₁⟩ := hr before rfl
    refine .bind (openSecret_reads (past_stable first) past₁
      (fun _ h => h.kept) fun _ row h hrow => h.since row hrow) fun r t hr => ?_
    match r with
    | .error e => exact fromOneVersion_none fun _ h => (nomatch h)
    | .ok secret =>
      obtain ⟨second, hsecret, after₁, past₂⟩ := hr secret rfl
      refine .bind (metadataGet_reads (past_stable second) past₂
        (fun _ h => h.kept) fun _ row h hrow => h.since row hrow) fun r t hr => ?_
      match r with
      | .error e => exact fromOneVersion_none fun _ h => (nomatch h)
      | .ok none => exact fromOneVersion_none fun _ h => (nomatch h)
      | .ok (some after) =>
        obtain ⟨third, ⟨now₃, rfl⟩, after₂, past₃⟩ := hr after rfl
        show Reads sys id _ (if first.metadataAt now₁ ≠ third.metadataAt now₃ then _ else _) t
        split
        · exact fromOneVersion_none fun _ h => (nomatch h)
        · rename_i hsame
          have hrevision : first.revision = third.revision :=
            congrArg CredentialMetadata.revision (not_not.mp hsame)
          obtain ⟨rfl, rfl⟩ := after₁.eq_of_revision_eq after₂ hrevision
          refine .ret (fromOneVersion_stable _) fun opened hopened => ?_
          cases hopened
          exact ⟨_, past₃.held, ⟨_, rfl⟩, hsecret⟩

/-- Of every run of `open_current` among writers, what is left of the call has its outline. -/
theorem reading_keeps {r r' : Reading Cipher Digest} {label : ReadingLabel Cipher}
    (h : Reads sys id (FromOneVersion sys crypto) r.call r.watched) (hstep : r.next sys id label = some r') :
    Reads sys id (FromOneVersion sys crypto) r'.call r'.watched := by
  obtain ⟨w, call⟩ := r
  cases label with
  | read c =>
    cases call with
    | ret value => cases hstep
    | act a k =>
      cases hstep
      exact .own h trivial
  | write a c =>
    simp only [Reading.next] at hstep
    split at hstep
    · rename_i concurrent
      cases hstep
      exact .background h ⟨a, c, concurrent, rfl⟩
    · cases hstep

/-- Metadata and secret that `open_current` returns come from one and the same stored revision. -/
theorem open_current_reads_one_revision (sys : Storage Cipher Digest) (crypto : Cryptography Plain Cipher)
    (id : CredentialId) (s : Store Cipher Digest) (labels : List (ReadingLabel Cipher))
    (r : Reading Cipher Digest)
    (run : Run (Reading.next sys id) (fun _ _ => True) (Reading.start sys crypto id s) labels r)
    (opened : OpenedCredential) (returned : r.call = .ret (.ok (some opened))) :
    ∃ record ∈ r.watched.versions, OpenedFrom sys crypto record opened := by
  have start : Reads sys id (FromOneVersion sys crypto) (Reading.start sys crypto id s).call
      (Reading.start sys crypto id s).watched := by
    refine openCurrent_reads fun row hrow => ?_
    show row ∈ (s.credentials.get id).toList
    rw [Option.mem_toList]
    exact hrow
  have final := run.invariant (fun _ _ _ h _ hstep => reading_keeps h hstep) start
  rw [returned] at final
  exact final.returned opened rfl

namespace Demo

/-- A token as `create` would have stored it. -/
def stored : CredentialRecord Symbolic.Text where
  id := login
  kind := .token
  platformId := "qq"
  scope := "qq.login"
  sourcePluginId := none
  envelope := ⟨1, 1, [], ([], associatedData (.new login "qq.login" 1), encode secret)⟩
  targetOrigins := ["https://qq.com"]
  status := .active
  accountIdHint := none
  displayName := none
  safeErrorSummary := none
  expiresAt := none
  statusCheckedAt := none
  revision := 1
  createdAt := 0
  updatedAt := 0

def store : Store Symbolic.Text (List UInt8) :=
  ⟨⟨[stored], List.nodup_singleton _⟩, .empty, .empty⟩

/-- The source is cleared, and then the credential is read undisturbed. -/
def labels : List (ReadingLabel Symbolic.Text) :=
  [.write (.clearSourcePlugin login 5) .done, .read .done, .read .done, .read .done]

def start : Reading Symbolic.Text (List UInt8) := .start Symbolic.storage Symbolic.crypto login store

def final : Reading Symbolic.Text (List UInt8) :=
  (labels.foldlM (Reading.next Symbolic.storage login) start).getD start

end Demo

theorem opened_after_clear : ∃ opened, Demo.final.call = .ret (.ok (some opened)) ∧
      ∃ record ∈ Demo.final.watched.versions, OpenedFrom Symbolic.storage Symbolic.crypto record opened := by
  refine ⟨⟨_, Demo.secret⟩, rfl, ?_⟩
  exact open_current_reads_one_revision _ _ Demo.login Demo.store Demo.labels Demo.final (.of_foldlM rfl) _ rfl

end AudioDown.Vault
