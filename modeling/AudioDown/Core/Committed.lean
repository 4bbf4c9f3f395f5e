/-
# AudioDown.Core.Committed — the start of Core and committed installations

Once `complete_install` has succeeded an installation is committed: the record carries the artifact, and
the Supervisor's operation, finalized, only waits to be acknowledged.  If the acknowledgement is lost,
the next start of Core sees the operation again.  Reconciliation recognises a committed installation by
the record's status, `Installed`; but the cleanup that `main` runs first saves every record as `Stopped`
or `Disabled`, or `main` gives up.  So there is no start that spares a committed installation: what it
asks, having seen the finalized operation and stored its log, is to abort it (`startUp_aborts_committed`).
-/
import AudioDown.Core.Joint
import AudioDown.Core.Notes

namespace AudioDown.Core

open Lib Supervisor

section
variable (p : PluginId) (a : PluginInstallArtifact)

/-- A record of `p` that carries `a` and waits for no operation. -/
structure InstallPluginRecord.Carries (row : InstallPluginRecord) : Prop where
  plugin : row.pluginId = p
  artifact : artifactMatchesRecord a row = true
  status : row.status ≠ .installing
  operation : row.installOperationId = none

def CarriesIn (store : PluginStore) : Prop := ∃ row, store.get p = some row ∧ row.Carries p a

/-- The table has one that is not `Installed`. -/
def IdleIn (store : PluginStore) : Prop :=
  ∃ row, store.get p = some row ∧ row.Carries p a ∧ row.status ≠ .installed

/-- The requests of the cleanup, which saves records with `K` only. -/
def SavesJust (K : InstallPluginRecord → Prop) : CoreAct → Prop
  | .savePlugin record => K record
  | act => act.Plain

/-- The rows the cleanup reads in such a table. -/
def ReadsCarried : (act : CoreAct) → act.Resp → Prop
  | .getPlugin q, r => ∀ row, r = .ok (some row) → row.pluginId = q ∧ (q = p → row.Carries p a)
  | _, _ => True

/-- A program that runs alone on the table ends under `Q`. -/
abbrev RunsTo {α : Type} (Q : α → PluginStore → Prop) (store : PluginStore) (x : CoreProgram α) : Prop :=
  x.Along coreStep (fun _ => True) Eq (fun _ _ => True) Q store

/-- What the cleanup of `p` ends with. -/
def Cleaned (r : Except PluginManagementError Unit) (store : PluginStore) : Prop :=
  CarriesIn p a store ∧ (r = .ok () → IdleIn p a store)

end

/-! ## The cleanup -/

section
variable {p : PluginId} {a : PluginInstallArtifact} {store : PluginStore} {act : CoreAct} {c : CoreOutcome}
  {K : InstallPluginRecord → Prop} {listed : InstallPluginRecord} {records : List InstallPluginRecord}

theorem saving_just (changed : ∀ record status lastError lastUsedAt updatedAt, K record →
      (status = record.status ∨ status ≠ .installing) →
        K { record with status, lastError, lastUsedAt, updatedAt }) : Saving (SavesJust K) K where
  changed := changed
  saves _ h := h
  plain act h := by
    cases act with
    | savePlugin => exact h.elim
    | _ => exact h

theorem saving_carries :
    Saving (SavesJust (InstallPluginRecord.Carries p a)) (InstallPluginRecord.Carries p a) :=
  saving_just fun _ _ _ _ _ h hstatus =>
    ⟨h.plugin, h.artifact, hstatus.elim (fun same => same ▸ h.status) id, h.operation⟩

theorem carrier_of_step {row : InstallPluginRecord} (hrow : store.get p = some row) (just : SavesJust K act) :
    ∃ row', (coreStep act c store).2.get p = some row' ∧
      ((row.Carries p a → row'.Carries p a) ∧ row'.status = row.status ∨
        act = .savePlugin row' ∧ row'.pluginId = p ∧ K row') := by
  cases coreStep_row act c store p with
  | same hsame => exact ⟨row, hsame.trans hrow, .inl ⟨id, rfl⟩⟩
  | saved save hafter =>
    subst save
    exact ⟨_, hafter, .inr ⟨rfl, Table.key_of_get hafter, just⟩⟩
  | touched _ present hafter =>
    cases present.symm.trans hrow
    exact ⟨_, hafter, .inl ⟨fun h => ⟨h.plugin, h.artifact, h.status, h.operation⟩, rfl⟩⟩
  | inserted save | completed save | rolledBack save | deleted save =>
    subst save
    exact just.elim

theorem carriesIn_step (just : SavesJust (InstallPluginRecord.Carries p a) act) (h : CarriesIn p a store) :
    CarriesIn p a (coreStep act c store).2 := by
  obtain ⟨row, hrow, carries⟩ := h
  obtain ⟨row', hrow', hkept⟩ := carrier_of_step (c := c) hrow just
  exact ⟨row', hrow', hkept.elim (fun h => h.1 carries) (fun h => h.2.2)⟩

theorem readsCarried_step (act : CoreAct) (c : CoreOutcome) (h : CarriesIn p a store) :
    ReadsCarried p a act (coreStep act c store).1 := by
  cases act with
  | getPlugin q =>
    intro row hrow
    have hget : some row = store.get q := query_eq_ok hrow
    refine ⟨Table.key_of_get hget.symm, fun hq => ?_⟩
    obtain ⟨row', hrow', carries⟩ := h
    subst hq
    cases hget.trans hrow'
    exact carries
  | _ => trivial

theorem cleaned_bind {β : Type} {x : ManageM β} {f : β → ManageM Unit} {R : β → Prop}
    (hx : Keeps (ReadsCarried p a) (SavesJust (InstallPluginRecord.Carries p a)) R x) (hs : CarriesIn p a store)
    (hf : ∀ v t, R v → CarriesIn p a t → RunsTo (Cleaned p a) t (f v).run) :
    RunsTo (Cleaned p a) store (x >>= f).run := by
  have outline := Prog.Within.along coreStep hx (fun act c _ ht => readsCarried_step act c ht)
    (fun _ _ _ just ht => carriesIn_step just ht) hs
  refine outline.bind fun r t hr => ?_
  cases r with
  | error e =>
    rintro _ rfl
    exact ⟨hr.2, fun h => by cases h⟩
  | ok v => exact hf v t (hr.1 v rfl) hr.2

theorem cleaned_throw {error : PluginManagementError} (hs : CarriesIn p a store) :
    RunsTo (Cleaned p a) store (throw error : ManageM Unit).run := by
  rintro _ rfl
  exact ⟨hs, fun h => by cases h⟩

theorem cleaned_thrown {β : Type} {error : PluginManagementError} {f : β → ManageM Unit}
    (hs : CarriesIn p a store) : RunsTo (Cleaned p a) store ((throw error : ManageM β) >>= f).run :=
  cleaned_bind (R := fun _ => False) .throw hs fun _ _ h _ => h.elim

/-- The runtime of `p` is cleaned up: its record is saved as inactive, or the call fails. -/
theorem cleanupRuntimeForRecord_cleans (hlisted : listed.Carries p a) (hs : CarriesIn p a store) :
    RunsTo (Cleaned p a) store (cleanupRuntimeForRecord listed).run := by
  have rules := @saving_carries p a
  refine cleaned_bind (lockOperation_saves rules) hs fun _ t _ ht => ?_
  refine cleaned_bind (.lift (rules.ask trivial)) ht fun active t _ ht => ?_
  cases active with
  | true =>
    exact cleaned_bind (.lift (recordCleanupFailure_saves rules hlisted)) ht fun _ _ _ ht =>
      cleaned_thrown ht
  | false =>
    refine cleaned_bind (getRecord_saves rules fun row hrow => (hrow row rfl).2 hlisted.plugin) ht
      fun record t h ht => ?_
    refine cleaned_bind (.lift (rules.ask trivial)) ht fun late t _ ht => ?_
    cases late with
    | true => exact cleaned_thrown ht
    | false =>
      refine cleaned_bind (.lift (stopTransition_saves rules h)) ht fun r t hr ht => ?_
      obtain ⟨result, record⟩ := r
      cases result with
      | error e =>
        exact cleaned_bind (.lift (recordCleanupFailure_saves rules hr.1)) ht fun _ _ _ ht => cleaned_throw ht
      | ok _ =>
        have saved : InstallPluginRecord.Carries p a { record with status := inactiveStatus record.enabled } :=
          ⟨hr.1.plugin, hr.1.artifact, inactiveStatus_ne _, hr.1.operation⟩
        rintro _ rfl
        refine ⟨trivial, fun c _ => ?_⟩
        have carries := @carriesIn_step p a t (.savePlugin _) c saved ht
        cases answer : (coreStep (.savePlugin { record with status := inactiveStatus record.enabled }) c t).1 with
        | error e =>
          rintro _ rfl
          exact ⟨carries, fun h => by cases h⟩
        | ok _ =>
          rintro _ rfl
          refine ⟨carries, fun _ => ⟨_, ?_, saved, ?_⟩⟩
          · exact (PluginStore.get_upsert (statement_ok answer) p).trans (if_pos saved.plugin.symm)
          · show inactiveStatus record.enabled ≠ .installed
            cases record.enabled <;> decide

theorem cleanupRuntimeForRecord_keeps_idle (hlisted : listed.pluginId = p → listed.Carries p a)
    (hs : CarriesIn p a store) : RunsTo (fun r t => CarriesIn p a t ∧
      (r = .ok () → listed.pluginId = p ∨ IdleIn p a store → IdleIn p a t)) store
      (cleanupRuntimeForRecord listed).run := by
  by_cases hp : listed.pluginId = p
  · exact (cleanupRuntimeForRecord_cleans (hlisted hp) hs).weaken fun _ _ h => ⟨h.1, fun hok _ => h.2 hok⟩
  · have rules : Saving (SavesJust fun record => record.pluginId ≠ p) fun record => record.pluginId ≠ p :=
      saving_just fun _ _ _ _ _ h _ => h
    have outline : Keeps (ReadsCarried p a) _ _ (cleanupRuntimeForRecord listed) :=
      cleanupRuntimeForRecord_saves rules hp fun row hrow hrowp => hp ((hrow row rfl).1.symm.trans hrowp)
    refine (Prog.Within.along coreStep (J := fun t => CarriesIn p a t ∧ (IdleIn p a store → IdleIn p a t))
      outline (fun act c _ ht => readsCarried_step act c ht.1) ?_ ⟨hs, id⟩).weaken
        fun _ _ h => ⟨h.2.1, fun _ hidle => h.2.2 (hidle.resolve_left hp)⟩
    rintro act c t just ⟨⟨row, hrow, carries⟩, hidle⟩
    obtain ⟨row', hrow', ⟨hcarries, hstatus⟩ | ⟨-, hrowp, hne⟩⟩ := carrier_of_step (a := a) (c := c) hrow just
    · refine ⟨⟨row', hrow', hcarries carries⟩, fun h => ?_⟩
      obtain ⟨_, hrow₀, -, hne⟩ := hidle h
      cases hrow₀.symm.trans hrow
      exact ⟨row', hrow', hcarries carries, hstatus ▸ hne⟩
    · exact absurd hrowp hne

theorem cleanupEach_cleans (hrecords : ∀ record ∈ records, record.pluginId = p → record.Carries p a)
    (hs : CarriesIn p a store) :
    RunsTo (fun failures t => CarriesIn p a t ∧ (failures = 0 → (∃ record ∈ records, record.pluginId = p) ∨
      IdleIn p a store → IdleIn p a t)) store (cleanupEach records) := by
  induction records generalizing store with
  | nil =>
    rintro _ rfl
    exact ⟨hs, fun _ h => h.resolve_left (by simp)⟩
  | cons record records ih =>
    have later := fun {t : PluginStore} => @ih t fun r hr => hrecords r (List.mem_cons_of_mem _ hr)
    show RunsTo _ store (if _ then _ else _)
    split
    · rename_i installing
      refine (later hs).weaken fun failures t h => ⟨h.1, fun h0 hor => h.2 h0 (hor.imp_left ?_)⟩
      rintro ⟨r, hr, hrp⟩
      rcases List.mem_cons.mp hr with rfl | hr
      · exact absurd installing (hrecords r List.mem_cons_self hrp).status
      · exact ⟨r, hr, hrp⟩
    · refine (cleanupRuntimeForRecord_keeps_idle (hrecords record List.mem_cons_self) hs).bind
        fun result t ht => ?_
      refine (later ht.1).bind fun failures u hu => ?_
      rintro _ rfl
      refine ⟨hu.1, fun h0 hor => ?_⟩
      cases result with
      | error e => cases h0
      | ok _ =>
        refine hu.2 h0 ?_
        rcases hor with ⟨r, hr, hrp⟩ | hidle
        · rcases List.mem_cons.mp hr with rfl | hr
          · exact .inr (ht.2 rfl (.inl hrp))
          · exact .inl ⟨r, hr, hrp⟩
        · exact .inr (ht.2 rfl (.inr hidle))

/-- **A cleanup without failures leaves the record of `p` inactive.** -/
theorem cleanupAllRuntimes_cleans (hs : CarriesIn p a store) :
    RunsTo (fun r t => r = .ok 0 → IdleIn p a t) store cleanupAllRuntimes.run := by
  rintro _ rfl
  refine ⟨trivial, fun c _ => ?_⟩
  cases answer : (coreStep .listInstallRecords c store).1 with
  | error e =>
    rintro _ rfl h
    cases h
  | ok records =>
    have hlist : records = store.list := query_eq_ok answer
    obtain ⟨row, hrow, carries⟩ := hs
    have hmem : ∀ r, r ∈ records.insertionSort (fun a b => a.pluginId ≤ b.pluginId) ↔
        store.get r.pluginId = some r := fun r => by rw [List.mem_insertionSort, hlist, PluginStore.mem_list]
    refine (cleanupEach_cleans (fun r hr hrp => ?_) ⟨row, hrow, carries⟩).bind fun failures t ht => ?_
    · rw [hmem, hrp, hrow] at hr
      cases hr
      exact carries
    · rintro _ rfl hok
      cases hok
      exact ht.2 rfl (.inl ⟨row, (hmem row).mpr (carries.plugin ▸ hrow), carries.plugin⟩)

end

/-! ## Reconciliation -/

def Stored : (act : CoreAct) → act.Resp → Prop
  | .persistBuildLog .., r => r = .ok ()
  | _, _ => True

/-- The next request is the abort of `o`, but for those that store its log. -/
abbrev AbortsNext {α : Type} (p : PluginId) (o : Uuid) (x : CoreProgram α) : Prop :=
  x.Next Stored (fun act => ∃ log, act = .persistBuildLog o log) (.supervisor (.abortInstall p o))

/-- The answer that `o` is finalized. -/
def SaysFinalized (p : PluginId) (o : Uuid) (a : PluginInstallArtifact) : (act : CoreAct) → act.Resp → Prop
  | .supervisor (.installStatus _ _), r => ∃ report, r = .ok report ∧ Finalized p o a report
  | _, _ => False

/-- Once it is said that `o` is finalized, the next request is its abort. -/
abbrev Undoes {α : Type} (p : PluginId) (o : Uuid) (a : PluginInstallArtifact) (x : CoreProgram α) : Prop :=
  x.Follows (· = .supervisor (.installStatus p o)) (SaysFinalized p o a) (AbortsNext p o)

section
variable {p q : PluginId} {o o' : Uuid} {a : PluginInstallArtifact} {record : Option InstallPluginRecord}

theorem persistBuildLogs_next {α : Type} {logs : List PluginBuildLog} {f : Unit → InstallM α}
    (h : AbortsNext p o (f ()).run) : AbortsNext p o (persistBuildLogs o logs >>= f).run := by
  induction logs with
  | nil => exact h
  | cons log logs ih =>
    refine .inr ⟨⟨log, rfl⟩, ?_⟩
    rintro _ rfl
    exact ih

theorem reconcileOperation_idle {report : PluginInstallOperation} (finalized : Finalized p o a report)
    (idle : ∀ row, record = some row → row.status ≠ .installing ∧ row.status ≠ .installed) :
    reconcileOperation report.summary record = abortAndAckResult p o := by
  have hstate : report.summary.state = .finalized := finalized.state
  have installing : matchingInstalling report.summary record = none :=
    Option.filter_eq_none_iff.mpr fun row hrow => by simp [(idle row hrow).1]
  have installed : matchingInstalled report.summary record = none :=
    Option.filter_eq_none_iff.mpr fun row hrow => by simp [(idle row hrow).2]
  unfold reconcileOperation
  simp only [hstate, installing, installed]
  show abortAndAckResult report.pluginId report.operationId = _
  rw [finalized.plugin, finalized.operation]

theorem reconcileEntry_undoes
    (idle : q = p → ∀ row, record = some row → row.status ≠ .installing ∧ row.status ≠ .installed) :
    Undoes p o a (reconcileEntry q o' record).run := by
  by_cases same : q = p ∧ o' = o
  · obtain ⟨rfl, rfl⟩ := same
    refine ⟨fun _ r => ?_, fun r => ?_⟩
    · rintro ⟨report, rfl, finalized⟩
      have matched : operationIdentityMatches report q o' = true := by
        simp [operationIdentityMatches, finalized.plugin, finalized.operation]
      show AbortsNext q o' (ExceptT.run (do
        if !operationIdentityMatches report q o' then throw .runtimeUnavailable
        persistBuildLogs report.operationId report.buildLogs
        reconcileOperation report.summary record))
      simp only [matched, Bool.not_true, Bool.false_eq_true, if_false]
      rw [finalized.operation, reconcileOperation_idle finalized (idle rfl)]
      exact persistBuildLogs_next (.inl rfl)
    · cases r with
      | error e => trivial
      | ok detailed =>
        refine .of_uses (Prog.Within.uses (handled_keeps (fun act h => ?_) record))
        rcases h with ⟨_, rfl⟩ | rfl | rfl | rfl | rfl | rfl <;> exact fun h => by cases h
  · refine .of_uses (Prog.Within.uses (reconcileEntry_keeps (fun act h => ?_) record))
    rcases h with rfl | ⟨_, rfl⟩ | rfl | rfl | rfl | rfl | rfl
    · intro h
      cases h
      exact same ⟨rfl, rfl⟩
    all_goals exact fun h => by cases h

theorem reconcileEntries_undoes {entries : List Entry} (idle : ∀ q o' record, (q, o', record) ∈ entries →
      q = p → ∀ row, record = some row → row.status ≠ .installing ∧ row.status ≠ .installed)
    (firstError : Option InstallError) : Undoes p o a (reconcileEntries entries firstError) := by
  induction entries generalizing firstError with
  | nil => trivial
  | cons e entries ih =>
    obtain ⟨q, o', record⟩ := e
    exact Prog.Follows.bind (reconcileEntry_undoes (idle q o' record List.mem_cons_self))
      (fun _ h => h.bind _) fun _ => ih (fun q o' r hr => idle q o' r (List.mem_cons_of_mem _ hr)) _

/-- Reconciliation leaves an idle record alone: what it writes, it writes under the id of an operation. -/
theorem idleIn_step {store : PluginStore} {act : CoreAct} {c : CoreOutcome}
    (reconciles : act.Concerns q o' ∨ act = .supervisor .listInstallOperations ∨ act = .listInstallRecords)
    (h : IdleIn p a store) : IdleIn p a (coreStep act c store).2 := by
  obtain ⟨row, hrow, carries, hstatus⟩ := h
  refine ⟨row, ?_, carries, hstatus⟩
  cases coreStep_row act c store p with
  | same hsame => exact hsame.trans hrow
  | saved save | inserted save | deleted save | touched save =>
    subst save
    rcases reconciles with (h | ⟨_, h⟩ | h | h | h | h | h) | h | h <;> cases h
  | completed _ present operation | rolledBack _ present operation =>
    cases present.symm.trans hrow
    cases carries.operation.symm.trans operation

/-- Reconciliation asks for the operations and for the records, and undoes what it then sees. -/
theorem reconcile_shape : ∃ K, Prog.bind reconcileInstallOperations.run (fun _ => .ret true) =
      (.act (.supervisor .listInstallOperations) K : CoreProgram Bool) ∧ (∀ e, K (.error e) = .ret true) ∧
      ∀ operations, ∃ K', K (.ok operations) = .act .listInstallRecords K' ∧ (∀ e, K' (.error e) = .ret true) ∧
        ∀ records : List InstallPluginRecord, (∀ row ∈ records, row.pluginId = p →
          row.status ≠ .installing ∧ row.status ≠ .installed) → Undoes p o a (K' (.ok records)) := by
  refine ⟨_, rfl, fun _ => rfl, fun operations => ⟨_, rfl, fun _ => rfl, fun records idle => ?_⟩⟩
  have entries : Undoes p o a (reconcileEntries (listedEntries operations records ++
      unlistedEntries operations records) none) := by
    refine reconcileEntries_undoes (fun q o' record hmem hq row hrow => ?_) none
    subst hq hrow
    obtain ⟨hrow, hplugin⟩ := fromList_entries hmem row rfl
    exact idle row hrow hplugin
  show Undoes p o a (Prog.bind (Prog.bind (Prog.bind (reconcileEntries _ none) fun e =>
    .ret (Except.ok e : Except InstallError _)) _) _)
  refine .bind (.bind (.bind entries (fun _ h => h.bind _) fun _ => trivial) (fun _ h => h.bind _) fun r => ?_)
    (fun _ h => h.bind _) fun _ => trivial
  rcases r with _ | _ | _ <;> trivial

theorem reconcile_undoes {store : PluginStore} (idle : IdleIn p a store) (cs : List CoreOutcome) :
    let cut := (Prog.bind reconcileInstallOperations.run fun _ => .ret true).steps coreStep cs store
    IdleIn p a cut.2 ∧ ∀ k, cut.1 = .act (.supervisor (.installStatus p o)) k →
      ∀ report, Finalized p o a report → AbortsNext p o (k (.ok report)) := by
  have outline : Prog.Within (fun _ _ => True) (fun act => ∃ q o', act.Concerns q o' ∨
      act = .supervisor .listInstallOperations ∨ act = .listInstallRecords) (fun _ => True)
      (Prog.bind reconcileInstallOperations.run fun _ => .ret true : CoreProgram Bool) :=
    .bind (reconcileInstallOperations_keeps ⟨p, o, .inr (.inl rfl)⟩ ⟨p, o, .inr (.inr rfl)⟩
      fun _ _ _ q o' record _ => reconcileEntry_keeps (fun _ h => ⟨q, o', .inl h⟩) record) fun _ _ => trivial
  refine ⟨(outline.steps cs (Prog.admits_true _ _ _) (fun act c t h _ ht => ?_) idle).2, ?_⟩
  · obtain ⟨q, o', h⟩ := h
    exact ⟨trivial, idleIn_step h ht⟩
  intro k asks report finalized
  have returned : ∀ {cs : List CoreOutcome} {t : PluginStore},
      ((.ret true : CoreProgram Bool).steps coreStep cs t).1 ≠ .act (.supervisor (.installStatus p o)) k := by
    intro cs t
    cases cs <;> exact fun h => by cases h
  obtain ⟨K, hprog, hfailed, hlisted⟩ := @reconcile_shape p o a
  rw [hprog] at asks
  cases cs with
  | nil => cases asks
  | cons c cs =>
    simp only [Prog.steps] at asks
    cases hoperations : (coreStep (.supervisor .listInstallOperations) c store).1 with
    | error e =>
      rw [hoperations, hfailed] at asks
      exact absurd asks returned
    | ok operations =>
      obtain ⟨K', hprog', hfailed', hrest⟩ := hlisted operations
      rw [hoperations, hprog'] at asks
      cases cs with
      | nil => cases asks
      | cons c' cs =>
        simp only [Prog.steps] at asks
        cases hrecords : (coreStep .listInstallRecords c' store).1 with
        | error e =>
          have asks : ((K' (coreStep .listInstallRecords c' store).1).steps coreStep cs store).1 = _ := asks
          rw [hrecords, hfailed'] at asks
          exact absurd asks returned
        | ok records =>
          have asks : ((K' (coreStep .listInstallRecords c' store).1).steps coreStep cs store).1 = _ := asks
          have hlist : records = store.list := query_eq_ok hrecords
          rw [hrecords] at asks
          have undoes : Undoes p o a (K' (.ok records)) := hrest records fun row hmem hp => by
            obtain ⟨row', hrow', carries, hstatus⟩ := idle
            rw [hlist, PluginStore.mem_list, hp, hrow'] at hmem
            cases hmem
            exact ⟨carries.status, hstatus⟩
          have cut := undoes.steps coreStep cs store
          rw [asks] at cut
          exact cut.1 rfl _ ⟨report, rfl, finalized⟩

end

/-- **No start of Core spares a committed installation.**  Let the record of `p` carry `a` and wait for
no operation.  Whatever the cleanup and the reconciliation are answered: when the start asks for the
status of `o`, the record still carries `a`; and if it is told that `o` is finalized, its next request,
once the log is stored, is to abort `o`. -/
theorem startUp_aborts_committed {p : PluginId} {o : Uuid} {a : PluginInstallArtifact} {store : PluginStore}
    (carries : CarriesIn p a store) (outcomes : List CoreOutcome)
    {k : (CoreAct.supervisor (.installStatus p o)).Resp → CoreProgram Bool}
    (asks : (startUp.steps coreStep outcomes store).1 = .act (.supervisor (.installStatus p o)) k)
    {report : PluginInstallOperation} (finalized : Finalized p o a report) :
    CarriesIn p a (startUp.steps coreStep outcomes store).2 ∧ AbortsNext p o (k (.ok report)) := by
  obtain ⟨f, hstart, cleaned, gaveUp⟩ : ∃ f, startUp = Prog.bind cleanupAllRuntimes.run f ∧
      f (.ok 0) = Prog.bind reconcileInstallOperations.run (fun _ => .ret true) ∧
      ∀ r, r ≠ .ok 0 → f r = .ret false := by
    refine ⟨_, rfl, rfl, fun r hr => ?_⟩
    rcases r with e | _ | n
    · rfl
    · exact absurd rfl hr
    · rfl
  rw [hstart] at asks ⊢
  rcases Prog.steps_bind coreStep outcomes cleanupAllRuntimes.run store with
    ⟨act, k', hcut, hsteps⟩ | ⟨cs₁, cs₂, r, t, hcleanup, hsteps⟩
  · -- the cleanup asks the Supervisor for no status
    have cleanup : Keeps (fun _ _ => True) (SavesJust fun _ => True) (fun _ => True) cleanupAllRuntimes :=
      cleanupAllRuntimes_saves (saving_just fun _ _ _ _ _ _ _ => trivial)
        fun _ _ _ _ _ => ⟨trivial, fun _ _ => trivial⟩
    have outline : (Prog.steps coreStep outcomes cleanupAllRuntimes.run store).1.Within _ _ _ ∧ True :=
      Prog.Within.steps (I := fun _ => True) cleanup outcomes (Prog.admits_true _ _ _)
        (fun _ _ _ _ _ _ => ⟨trivial, trivial⟩) trivial
    rw [hcut] at outline
    cases hsteps.symm.trans asks
    exact outline.1.1.elim
  · have outline := (cleanupAllRuntimes_cleans carries).steps cs₁ fun _ _ => trivial
    rw [hcleanup] at outline
    have idle : r = .ok 0 → IdleIn p a t := outline t rfl
    rw [hsteps] at asks ⊢
    by_cases hr : r = .ok 0
    · subst hr
      rw [cleaned] at asks ⊢
      obtain ⟨⟨row, hrow, hcarries, -⟩, undone⟩ := reconcile_undoes (o := o) (idle rfl) cs₂
      exact ⟨⟨row, hrow, hcarries⟩, undone k asks report finalized⟩
    · rw [gaveUp r hr] at asks
      cases cs₂ <;> cases asks

/-! ## A committed installation and a restart of Core -/

/-- Plugin `p` is installed up to `complete_install`; the acknowledgement is still to be sent. -/
def committedRun : List JointLabel :=
  begunRun ++ works 2 2 ++ [.supervisor (.advance 2 (.built (.ok sampleOutput)))] ++ works 2 5 ++
    [.send 0 3] ++ works 3 1 ++
    [.receive 0, .core (.advance 0 (.done 4)), .core (.advance 0 (.done 4)), .send 0 5] ++
    works 4 12 ++ [.receive 0, .core (.advance 0 (.done 6))]

/-- What the cleanup is answered: the runtime of `p`, which is not running, is stopped, and the record
saved as `Stopped`. -/
def cleanupOutcomes : List CoreOutcome :=
  [.done 7, .flag true, .flag false, .done 7, .flag false, .runtime ⟨"p", .stopped, []⟩, .done 7, .done 7]

/-- What the Supervisor reports of operation 1. -/
def committedReport : PluginInstallOperation := ⟨1, "p", .finalized, some sampleArtifact, [], none, false⟩

/-- The start after `committedRun`, up to where it asks for the status of operation 1. -/
theorem startUp_aborts_committed_sample :
    ∃ store outcomes k report, CarriesIn "p" sampleArtifact store ∧
      (startUp.steps coreStep outcomes store).1 = .act (.supervisor (.installStatus "p" 1)) k ∧
      Finalized "p" 1 sampleArtifact report ∧
      CarriesIn "p" sampleArtifact (startUp.steps coreStep outcomes store).2 ∧
      AbortsNext "p" 1 (k (.ok report)) := by
  have carries : CarriesIn "p" sampleArtifact (jointAfter committedRun).core.store :=
    ⟨_, rfl, rfl, rfl, by decide, rfl⟩
  have asks : (startUp.steps coreStep
      (cleanupOutcomes ++ [.replied (.operations [committedReport.summary]), .done 8])
      (jointAfter committedRun).core.store).1 = .act (.supervisor (.installStatus "p" 1)) _ := rfl
  have finalized : Finalized "p" 1 sampleArtifact committedReport := ⟨rfl, rfl, rfl, rfl⟩
  exact ⟨_, _, _, _, carries, asks, finalized, startUp_aborts_committed carries _ asks finalized⟩

/-- A reconciliation up to where it has seen the status of operation 1. -/
def reconcileRun : List JointLabel :=
  [.core (.call .reconcileInstallOperations), .send 0 8] ++ works 5 1 ++
    [.receive 0, .core (.advance 0 (.done 8)), .send 0 9] ++ works 6 1 ++ [.receive 0]

/-- The acknowledgement is lost, Core crashes and starts again. -/
def restartedRun : List JointLabel :=
  [.lose 0, .core .crash, .core (.call .cleanupAllRuntimes)] ++
    cleanupOutcomes.map (fun c => .core (.advance 0 c)) ++ [.core .returned] ++ reconcileRun

/-- Operation `o`, while the Supervisor knows it, is a finalized installation of `a` for `p`. -/
def FinalizedIn (p : PluginId) (o : Uuid) (a : PluginInstallArtifact) (w : Supervisor.World) : Prop :=
  ∀ r ∈ w.state.operations[o]?, Finalized p o a r.operation

instance (p : PluginId) (o : Uuid) (a : PluginInstallArtifact) (report : PluginInstallOperation) :
    Decidable (Finalized p o a report) :=
  decidable_of_iff (report.pluginId = p ∧ report.operationId = o ∧ report.state = .finalized ∧
    report.artifact = some a) ⟨fun ⟨h₁, h₂, h₃, h₄⟩ => ⟨h₁, h₂, h₃, h₄⟩, fun h => ⟨h.1, h.2, h.3, h.4⟩⟩

instance (p : PluginId) (o : Uuid) (a : PluginInstallArtifact) (w : Supervisor.World) :
    Decidable (FinalizedIn p o a w) :=
  inferInstanceAs (Decidable (∀ r ∈ w.state.operations[o]?, Finalized p o a r.operation))

/-- **A start undoes a committed installation.**  `cleanup_all_runtimes` saves the record as `Stopped`;
`reconcile_install_operations` then takes the finalized operation for an orphan and aborts it, while the
record still carries the artifact. -/
theorem reconcile_aborts_committed :
    ∃ s₀ s, Run (Joint.next "inst") (fun _ label => label.FilesWork) Joint.initial committedRun s₀ ∧
      s₀.core.listening = true ∧
      Run (Joint.next "inst") (fun s _ => FinalizedIn "p" 1 sampleArtifact s.supervisor.world) s₀
        restartedRun s ∧
      (∃ t ∈ s.core.tasks, t.tag = .reconcileInstallOperations ∧
        t.prog.head = some (.supervisor (.abortInstall "p" 1))) ∧
      CarriesIn "p" sampleArtifact s.core.store := by
  have before : Run (Joint.next "inst") (fun _ label => label.FilesWork) Joint.initial committedRun
      (jointAfter committedRun) := Run.of_decide rfl
  have after : Run (Joint.next "inst") (fun s _ => FinalizedIn "p" 1 sampleArtifact s.supervisor.world)
      (jointAfter committedRun) restartedRun (jointAfter (committedRun ++ restartedRun)) := Run.of_decide rfl
  exact ⟨_, _, before, rfl, after, ⟨_, List.mem_cons_self, rfl, rfl⟩, ⟨_, rfl, rfl, rfl, by decide, rfl⟩⟩

end AudioDown.Core
