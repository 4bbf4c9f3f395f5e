/-
# AudioDown.Core.Manage — which records the management methods save

Every method that starts, stops, inspects or configures a plugin saves a record it has read, with
another status or the status it read, under the same plugin and the same operation.  So for any property
`K` of records that survives such changes (`Saving`): if the records a method reads have it, the
records it saves have it.
-/
import AudioDown.Core.Content
import AudioDown.Core.Outline

namespace AudioDown.Core

open Lib Supervisor

/-- The requests any management method may make: all but those that write a record, delete one, remove
a plugin's image or concern an installation. -/
def CoreAct.Plain : CoreAct → Prop
  | .savePlugin _ | .insertInstalling _ | .completeInstall .. | .rollbackInstall .. | .deletePlugin _
  | .removeRuntime _ | .supervisor _ => False
  | _ => True

/-- `K` survives what a transition changes of a record, and `P` allows to save records with `K`. -/
structure Saving (P : CoreAct → Prop) (K : InstallPluginRecord → Prop) : Prop where
  changed : ∀ record status lastError lastUsedAt updatedAt, K record →
    (status = record.status ∨ status ≠ .installing) →
      K { record with status, lastError, lastUsedAt, updatedAt }
  saves : ∀ record, K record → P (.savePlugin record)
  plain : ∀ a : CoreAct, a.Plain → P a

theorem inactiveStatus_ne (enabled : Bool) : inactiveStatus enabled ≠ .installing := by
  cases enabled <;> decide

section
variable {possible : (a : CoreAct) → a.Resp → Prop} {P : CoreAct → Prop}
  {K : InstallPluginRecord → Prop} {p : PluginId} {record : InstallPluginRecord}
  (rules : Saving P K)
include rules

theorem Saving.ask {a : CoreAct} (plain : a.Plain) : (ask a).Within possible P fun _ => True :=
  ask_within_any (rules.plain a plain)

theorem Saving.save (h : K record) : (Core.ask (.savePlugin record)).Within possible P fun _ => True :=
  ask_within_any (rules.saves record h)

/-! ## Reading and logging -/

theorem getRecord_saves {L : InstallPluginRecord → Prop}
    (reads : ∀ row, possible (.getPlugin p) (.ok (some row)) → L row) : Keeps possible P L (getRecord p) := by
  refine Keeps.bind (Keeps.orFail (ask_within (.getPlugin p) (rules.plain _ trivial)))
    fun row hrow => ?_
  cases row with
  | none => exact Keeps.throw
  | some record => exact Keeps.pure (reads record hrow)

theorem saveAndReload_saves (h : K record) :
    Keeps possible P (fun _ => possible (.savePlugin record) (.ok ())) (saveAndReload record) := by
  refine Keeps.bind (Keeps.orFail (ask_within (.savePlugin record) (rules.saves record h)))
    fun _ saved => ?_
  exact (getRecord_saves rules fun _ _ => trivial).weaken fun _ _ => saved

theorem persistRuntimeLogs_saves (logs : List String) :
    Keeps possible P (fun _ => True) (persistRuntimeLogs p logs) := by
  induction logs with
  | nil => exact .pure trivial
  | cons log logs ih =>
    exact Keeps.bind (Keeps.orFail (ask_within (.persistRuntimeLog p log) (rules.plain _ trivial)))
      fun _ _ => ih

theorem lockOperation_saves : Keeps possible P (fun _ => True) (lockOperation p) := by
  refine .bind (.lift (rules.ask trivial)) fun locked _ => ?_
  cases locked
  · exact .throw
  · exact .pure trivial

theorem refuseActiveCalls_saves : Keeps possible P (fun _ => True) (refuseActiveCalls p) := by
  refine .bind (.lift (rules.ask trivial)) fun active _ => ?_
  cases active
  · exact .pure trivial
  · exact .throw

theorem recordManagementFailure_saves (h : K record) :
    (recordManagementFailure record).Within possible P fun _ => True := by
  refine .bind (rules.ask trivial) fun now _ => ?_
  have saved : K { record with lastError := some runtimeActionFailed, updatedAt := now } :=
    rules.changed record _ _ _ _ h (.inl rfl)
  exact .bind (rules.save saved) fun _ _ => trivial

/-! ## Transitions -/

omit rules in
/-- A transition that hands back a record with `K`, and succeeds only under `Q`. -/
abbrev SavesTransition (possible : (a : CoreAct) → a.Resp → Prop) (P : CoreAct → Prop)
    (K : InstallPluginRecord → Prop) (Q : Prop) (x : Transition) : Prop :=
  x.Within possible P fun r => K r.2 ∧ (r.1 = .ok () → Q)

theorem stopTransition_saves (h : K record) : SavesTransition possible P K True (stopTransition record) := by
  refine .bind (rules.ask trivial) fun r _ => ?_
  cases r with
  | error e => exact ⟨h, fun _ => trivial⟩
  | ok stopped =>
    dsimp only
    cases validateRuntime stopped record.pluginId with
    | error e => exact ⟨h, fun _ => trivial⟩
    | ok _ =>
      dsimp only
      split
      · exact ⟨h, fun _ => trivial⟩
      · refine .bind (rules.ask trivial) fun now _ => ?_
        refine .bind ((persistRuntimeLogs_saves rules _).weaken fun _ _ => trivial)
          fun result _ => ?_
        exact ⟨rules.changed record _ _ _ _ h (.inr (inactiveStatus_ne _)), fun _ => trivial⟩

theorem stopStarted_saves (h : K record) : SavesTransition possible P K True (stopStarted record) := by
  refine .bind (rules.ask trivial) fun r _ => ?_
  cases r with
  | error e => exact ⟨h, fun _ => trivial⟩
  | ok stopped =>
    dsimp only
    cases validateRuntime stopped record.pluginId with
    | error e => exact ⟨h, fun _ => trivial⟩
    | ok _ =>
      dsimp only
      split
      · refine .bind (rules.ask trivial) fun now _ => ?_
        refine .bind ((persistRuntimeLogs_saves rules _).weaken fun _ _ => trivial)
          fun result _ => ?_
        exact ⟨rules.changed record _ _ _ _ h (.inr (inactiveStatus_ne _)), fun _ => trivial⟩
      · exact ⟨h, fun _ => trivial⟩

theorem rollbackStartedRuntime_saves (h : K record) (error : PluginManagementError) {Q : Prop} :
    SavesTransition possible P K Q (rollbackStartedRuntime record error) := by
  refine .bind (stopStarted_saves rules h) fun r hr => ?_
  refine .bind (rules.ask trivial) fun now _ => ?_
  obtain ⟨cleanup, stopped⟩ := r
  cases cleanup with
  | ok _ => exact ⟨rules.changed stopped _ _ _ _ hr.1 (.inl rfl), nofun⟩
  | error e =>
    show SavesTransition possible P K Q (if _ then _ else _)
    split
    · exact ⟨rules.changed stopped _ _ _ _ hr.1 (.inr (by simp)), nofun⟩
    · exact ⟨rules.changed stopped _ _ _ _ hr.1 (.inl rfl), nofun⟩

theorem startTransition_saves (h : K record) : SavesTransition possible P K (∃ state,
      possible (.startRuntime record.pluginId) (.ok state)) (startTransition record) := by
  generalize hQ : (∃ state, possible (.startRuntime record.pluginId) (.ok state)) = Q
  have logged : ∀ (logs : List String) (f : Except PluginManagementError Unit → Transition),
      (∀ r, SavesTransition possible P K Q (f r)) →
        SavesTransition possible P K Q ((persistRuntimeLogs record.pluginId logs).run >>= f) :=
    fun logs f hf =>
      .bind ((persistRuntimeLogs_saves rules logs).weaken fun _ _ => trivial)
        fun r _ => hf r
  have rollback : ∀ error, SavesTransition possible P K Q (rollbackStartedRuntime record error) :=
    fun error => rollbackStartedRuntime_saves rules h error
  refine .bind (ask_within (.startRuntime record.pluginId) (rules.plain _ trivial))
    fun r hr => ?_
  cases r with
  | error e => exact ⟨h, nofun⟩
  | ok started =>
    have answered : Q := hQ ▸ ⟨started, hr⟩
    dsimp only
    cases validateRuntime started record.pluginId with
    | error e => exact rollback _
    | ok _ =>
    refine logged _ _ fun r => ?_
    cases r with
    | error e => exact rollback _
    | ok _ =>
      refine .bind (rules.ask trivial) fun r _ => ?_
      cases r with
      | error e => exact rollback _
      | ok inspected =>
        dsimp only
        cases validateRuntime inspected record.pluginId with
        | error e => exact rollback _
        | ok _ =>
        dsimp only
        split
        · split
          · exact .bind (rules.ask trivial) fun now _ =>
              ⟨rules.changed record _ _ _ _ h (.inr (inactiveStatus_ne _)), fun _ => answered⟩
          · exact rollback _
        · refine logged _ _ fun r => ?_
          cases r with
          | error e => exact rollback _
          | ok _ =>
            exact .bind (rules.ask trivial) fun now _ =>
              ⟨rules.changed record _ _ _ _ h (.inr (by simp)), fun _ => answered⟩

/-! ## Methods that rewrite what they read -/

theorem transitionOr_saves {transition : Transition} {Q : Prop}
    {failed : InstallPluginRecord → InstallPluginRecord} (h : SavesTransition possible P K Q transition)
    (hfailed : ∀ record, K record → K (failed record)) :
    Keeps possible P (fun record => K record ∧ Q) (transitionOr transition failed) := by
  refine .bind (.lift h) fun r hr => ?_
  obtain ⟨result, record⟩ := r
  cases result with
  | ok _ => exact .pure ⟨hr.1, hr.2 rfl⟩
  | error e =>
    exact .bind (.lift (recordManagementFailure_saves rules (hfailed record hr.1)))
      fun _ _ => .throw

section
variable (reads : ∀ row, possible (.getPlugin p) (.ok (some row)) → K row)
include reads

theorem locked_saves {α : Type} {Q : α → Prop} {f : InstallPluginRecord → ManageM α}
    (h : ∀ record, K record → Keeps possible P Q (f record)) :
    Keeps possible P Q (do
      lockOperation p
      refuseActiveCalls p
      let record ← getRecord p
      f record) :=
  .bind (lockOperation_saves rules) fun _ _ =>
    .bind (refuseActiveCalls_saves rules) fun _ _ => .bind (getRecord_saves rules reads) h

theorem start_saves : Keeps possible P (fun _ => ∃ record record' state, K record ∧ K record' ∧ possible
      (.startRuntime record.pluginId) (.ok state) ∧ possible (.savePlugin record') (.ok ())) (start p) := by
  refine locked_saves rules reads fun record h => ?_
  have started : Keeps possible P (fun _ => ∃ record record' state, K record ∧ K record' ∧
      possible (.startRuntime record.pluginId) (.ok state) ∧ possible (.savePlugin record') (.ok ()))
      (transitionOr (startTransition record) id >>= saveAndReload) := by
    refine .bind (transitionOr_saves rules (startTransition_saves rules h) fun _ => id)
      fun record' h' => ?_
    obtain ⟨h', state, answered⟩ := h'
    exact (saveAndReload_saves rules h').weaken fun _ saved =>
      ⟨record, record', state, h, h', answered, saved⟩
  split
  · exact .thrown
  · exact started

theorem stop_saves : Keeps possible P (fun _ => True) (stop p) :=
  locked_saves rules reads fun _ h =>
    .bind (transitionOr_saves rules (stopTransition_saves rules h) fun _ => id)
      fun _ h => (saveAndReload_saves rules h.1).weaken fun _ _ => trivial

omit rules reads in
/-- `validate_runtime` accepts no runtime that is installing. -/
theorem status_of_validateRuntime {runtime : PluginRuntimeState}
    (h : validateRuntime runtime p = .ok ()) : runtime.status ≠ .installing := by
  unfold validateRuntime at h
  split at h
  · cases h
  · rename_i hvalid
    intro hstatus
    simp [hstatus] at hvalid

theorem inspectRuntime_saves : Keeps possible P (fun _ => True) (inspectRuntime p) := by
  refine .bind (lockOperation_saves rules) fun _ _ =>
    .bind (getRecord_saves rules reads) fun record h => ?_
  refine .bind (.lift (rules.ask trivial)) fun r _ => ?_
  cases r with
  | error e =>
    exact .bind (.lift (recordManagementFailure_saves rules h)) fun _ _ => .throw
  | ok runtime =>
    refine .bind (Q := fun _ => validateRuntime runtime p = .ok ()) ?_ fun _ hvalid => ?_
    · intro value hvalue
      cases value
      exact hvalue
    refine .bind (persistRuntimeLogs_saves rules _) fun _ _ => ?_
    refine .bind (.lift (rules.ask trivial)) fun now _ => ?_
    refine (saveAndReload_saves rules (rules.changed record _ _ _ _ h (.inr ?_))).weaken
      fun _ _ => trivial
    split
    · exact inactiveStatus_ne _
    · exact status_of_validateRuntime hvalid

/-- `uninstall` succeeds only if the record is saved, the runtime removed and the record deleted, in
this order. -/
theorem uninstall_saves (removes : P (.removeRuntime p))
    (deletes : ∀ result, possible (.removeRuntime p) (.ok result) → P (.deletePlugin p)) :
    Keeps possible P (fun _ => ∃ record result, K record ∧ possible (.savePlugin record) (.ok ()) ∧
      possible (.removeRuntime p) (.ok result) ∧ possible (.deletePlugin p) (.ok ())) (uninstall p) := by
  refine locked_saves rules reads fun record h => ?_
  refine Keeps.bind (transitionOr_saves rules (stopTransition_saves rules h) fun _ => id)
    fun record h => ?_
  refine Keeps.bind (Keeps.orFail (ask_within (.savePlugin record) (rules.saves record h.1)))
    fun _ saved => ?_
  have failed : ∀ {Q : Unit → Prop}, Keeps possible P Q (do
      ExceptT.lift (recordManagementFailure record)
      throw .runtimeUnavailable : ManageM Unit) :=
    Keeps.bind (Keeps.lift (recordManagementFailure_saves rules h.1)) fun _ _ => Keeps.throw
  refine Keeps.bind (Keeps.lift (ask_within (.removeRuntime p) removes)) fun r hr => ?_
  cases r with
  | error e => exact failed
  | ok removed =>
    show Keeps possible P _ (if _ then _ else _)
    split
    · exact failed
    · exact (Keeps.orFail (ask_within (.deletePlugin p) (deletes removed hr))).weaken
        fun _ hdeleted => ⟨record, removed, h.1, saved, hr, hdeleted⟩

end

/-! ## Settings -/

theorem settingsTransition_saves (command : SettingsCommand) (h : K record) :
    Keeps possible P K (settingsTransition command record) := by
  unfold settingsTransition
  split
  · exact (transitionOr_saves rules (stopTransition_saves rules h) fun _ _ => h).weaken
      fun _ => And.left
  · split
    · exact (transitionOr_saves rules (startTransition_saves rules h) fun _ _ => h).weaken
        fun _ => And.left
    · exact .pure h

/-- `update_settings` changes more of a record than a transition does. -/
theorem updateSettings_saves (command : SettingsCommand)
    (reads : ∀ row, possible (.getPlugin command.pluginId) (.ok (some row)) → K row)
    (configured : ∀ record, K record → K { record with
        enabled := command.enabled, runMode := command.runMode, priority := command.priority }) :
    Keeps possible P (fun _ => True) (updateSettings command) := by
  have saved : ∀ previous record : InstallPluginRecord, K record →
      Keeps possible P (fun _ => True) (saveSettings command previous record) := by
    intro previous record h
    refine .bind (.lift (rules.ask trivial)) fun now _ => ?_
    refine (saveAndReload_saves rules (rules.changed _ _ _ _ _ (configured record h) ?_)).weaken
      fun _ _ => trivial
    unfold settingsStatus
    split
    · exact .inr (by simp)
    · split
      · exact .inr (by simp)
      · exact .inl rfl
  unfold updateSettings
  split
  · exact .throw
  · refine .bind (lockOperation_saves rules) fun _ _ => ?_
    refine .bind (Q := fun _ => True) ?_ fun _ _ => ?_
    · split
      · exact refuseActiveCalls_saves rules
      · exact .pure trivial
    · exact .bind (getRecord_saves rules reads) fun previous h =>
        .bind (settingsTransition_saves rules command h) (saved previous)

/-! ## The lifecycle reconciler -/

theorem saveOr_saves {outcome : CoreProgram ReconcileOutcome} (h : K record)
    (houtcome : outcome.Within possible P fun _ => True) :
    (saveOr record outcome).Within possible P fun _ => True := by
  refine .bind (rules.save h) fun r _ => ?_
  cases r with
  | error e => trivial
  | ok _ => exact houtcome

theorem reconcileAlways_saves (h : K record) : (reconcileAlways record).Within possible P fun _ => True := by
  show Prog.Within possible P _ (if _ then _ else _)
  split
  · exact .bind (rules.ask trivial) fun _ _ => trivial
  refine .bind (rules.ask trivial) fun failures _ => ?_
  split
  · trivial
  refine .bind (startTransition_saves rules h) fun r hr => ?_
  obtain ⟨result, record⟩ := r
  cases result with
  | ok _ =>
    exact saveOr_saves rules hr.1 (.bind (rules.ask trivial) fun _ _ => trivial)
  | error e =>
    refine .bind (rules.ask trivial) fun failures _ => ?_
    refine .bind (rules.ask trivial) fun now _ => ?_
    refine .bind (rules.save (rules.changed record _ _ _ _ hr.1 ?_)) fun _ _ => trivial
    split
    · exact .inr (by simp)
    · exact .inl rfl

theorem reconcileOnDemand_saves (h : K record) (now : Timestamp) (idleTimeout : Nat) :
    (reconcileOnDemand record now idleTimeout).Within possible P fun _ => True := by
  show Prog.Within possible P _ (if _ then _ else _)
  split
  · trivial
  refine .bind (rules.ask trivial) fun active _ => ?_
  split
  · trivial
  split
  · trivial
  refine .bind (stopTransition_saves rules h) fun r hr => ?_
  obtain ⟨result, record⟩ := r
  cases result with
  | ok _ => exact saveOr_saves rules hr.1 trivial
  | error e =>
    exact .bind (recordManagementFailure_saves rules hr.1) fun _ _ => trivial

theorem tryReconcilePlugin_saves (reads : ∀ row, possible (.getPlugin p) (.ok (some row)) →
      row.status ≠ .installing → K row) (now : Timestamp) (idleTimeout : Nat) :
    (tryReconcilePlugin p now idleTimeout).Within possible P fun _ => True := by
  refine .bind (rules.ask trivial) fun locked _ => ?_
  split
  · trivial
  refine .bind (getRecord_saves rules reads) fun r hr => ?_
  cases r with
  | error e => trivial
  | ok record =>
    show Prog.Within possible P _ (if _ then _ else _)
    split
    · trivial
    · rename_i hchecked
      have h : K record := hr record rfl (by simp at hchecked; exact hchecked.2)
      cases record.runMode with
      | always => exact reconcileAlways_saves rules h
      | onDemand => exact reconcileOnDemand_saves rules h now idleTimeout

theorem reconcileDuePlugins_saves (reads : ∀ p row, possible (.getPlugin p) (.ok (some row)) →
      row.status ≠ .installing → K row) (now : Timestamp) (idleTimeout : Nat) :
    Keeps possible P (fun _ => True) (reconcileDuePlugins now idleTimeout) := by
  refine Keeps.bind (Keeps.orFail (ask_within .listInstallRecords (rules.plain _ trivial)))
    fun records _ => Keeps.lift ?_
  generalize (records.map InstallPluginRecord.pluginId).insertionSort (· ≤ ·) = pluginIds
  induction pluginIds with
  | nil => trivial
  | cons p pluginIds ih =>
    exact Prog.Within.bind (tryReconcilePlugin_saves rules (reads p) now idleTimeout) fun _ _ =>
      ih.bind fun _ _ => trivial

/-! ## The cleanup -/

theorem recordCleanupFailure_saves (h : K record) :
    (recordCleanupFailure record).Within possible P fun _ => True := by
  refine .bind (rules.ask trivial) fun now _ => ?_
  refine .bind (rules.save (rules.changed record _ _ _ _ h (.inr ?_)))
    fun _ _ => trivial
  -- a record that was installing becomes unhealthy or disabled
  split
  · split <;> decide
  · rename_i hstatus
    intro hinstalling
    rw [hinstalling] at hstatus
    exact hstatus (by decide)

theorem cleanupRuntimeForRecord_saves {listed : InstallPluginRecord} (hlisted : K listed)
    (reads : ∀ row, possible (.getPlugin listed.pluginId) (.ok (some row)) → K row) :
    Keeps possible P (fun _ => True) (cleanupRuntimeForRecord listed) := by
  refine .bind (lockOperation_saves rules) fun _ _ => ?_
  refine .bind (.lift (rules.ask trivial)) fun active _ => ?_
  cases active with
  | true =>
    refine .bind (.lift (recordCleanupFailure_saves rules hlisted)) fun _ _ => ?_
    exact .thrown
  | false =>
    refine .bind (getRecord_saves rules reads) fun record h => ?_
    refine .bind (.lift (rules.ask trivial)) fun late _ => ?_
    cases late with
    | true => exact .thrown
    | false =>
      refine .bind (.lift (stopTransition_saves rules h)) fun r hr => ?_
      obtain ⟨result, record⟩ := r
      cases result with
      | error e =>
        refine .bind (.lift (recordCleanupFailure_saves rules hr.1)) fun _ _ => ?_
        exact .throw
      | ok _ =>
        have saved : K { record with status := inactiveStatus record.enabled } :=
          rules.changed record _ _ _ _ hr.1 (.inr (inactiveStatus_ne _))
        exact Keeps.orFail (rules.save saved)

theorem cleanupEach_saves {records : List InstallPluginRecord}
    (h : ∀ record ∈ records, record.status ≠ .installing → K record ∧
      ∀ row, possible (.getPlugin record.pluginId) (.ok (some row)) → K row) :
    (cleanupEach records).Within possible P fun _ => True := by
  induction records with
  | nil => trivial
  | cons record records ih =>
    have rest := ih fun r hr => h r (List.mem_cons_of_mem _ hr)
    show Prog.Within possible P _ (if _ then _ else _)
    split
    · exact rest
    · rename_i hstatus
      obtain ⟨hlisted, reads⟩ := h record List.mem_cons_self hstatus
      exact .bind ((cleanupRuntimeForRecord_saves rules hlisted reads).weaken
        fun _ _ => trivial) fun _ _ => .bind rest fun _ _ => trivial

theorem cleanupAllRuntimes_saves (h : ∀ records, possible .listInstallRecords (.ok records) →
      ∀ record ∈ records, record.status ≠ .installing → K record ∧
      ∀ row, possible (.getPlugin record.pluginId) (.ok (some row)) → K row) :
    Keeps possible P (fun _ => True) cleanupAllRuntimes := by
  refine Keeps.bind (Keeps.orFail (ask_within .listInstallRecords (rules.plain _ trivial)))
    fun records hrecords => Keeps.lift (cleanupEach_saves rules ?_)
  intro record hrecord
  rw [List.mem_insertionSort] at hrecord
  exact h records hrecords record hrecord

/-! ## Invoking content -/

omit rules in
theorem contentOr_saves {β : Type} {error : ContentInvocationError}
    {x : CoreProgram (Except PluginManagerError β)} (hx : x.Within possible P fun _ => True) :
    Keeps possible P (fun _ => True) (contentOr x error) :=
  .mapErr hx

omit rules in
theorem contentLock_saves {x : CoreProgram Bool} {error : ContentInvocationError}
    (hx : x.Within possible P fun _ => True) : Keeps possible P (fun _ => True) (contentLock x error) := by
  refine .bind (.lift hx) fun locked _ => ?_
  cases locked
  · exact .throw
  · exact .pure trivial

theorem callRuntime_saves (method : ContentMethod) :
    Keeps possible P (fun _ => True) (callRuntime p method) := by
  have logged : ∀ event, Keeps possible P (fun _ => True) (persistContentCallLog p event) :=
    fun event => contentOr_saves (rules.ask trivial)
  refine .bind (logged _) fun _ _ => ?_
  refine .bind (.lift (rules.ask trivial)) fun now _ => ?_
  refine .bind (contentOr_saves (rules.ask trivial)) fun _ _ => ?_
  refine .bind (.lift (rules.ask trivial)) fun r _ => ?_
  cases r with
  | ok valid =>
    cases valid with
    | true => exact logged _
    | false => exact .bind (logged _) fun _ _ => .throw
  | error e => exact .bind (logged _) fun _ _ => .throw

theorem ensureStarted_saves (h : K record) : Keeps possible P (fun _ => True) (ensureStarted record) := by
  unfold ensureStarted
  split
  · refine .bind (.lift (startTransition_saves rules h)) fun r hr => ?_
    obtain ⟨result, record⟩ := r
    cases result with
    | ok _ => exact contentOr_saves (rules.save hr.1)
    | error e =>
      exact .bind (.lift (recordManagementFailure_saves rules hr.1)) fun _ _ => .throw
  · exact .pure trivial

/-- `invoke_content` refuses a record that is installing. -/
theorem invokeContent_saves (request : ContentInvocationRequest)
    (reads : ∀ row, possible (.getPlugin request.pluginId) (.ok (some row)) →
      row.status ≠ .installing → K row) : Keeps possible P (fun _ => True) (invokeContent request) := by
  unfold invokeContent
  split
  · exact .throw
  refine .bind (contentLock_saves (rules.ask trivial)) fun _ _ => ?_
  refine .bind (contentLock_saves (rules.ask trivial)) fun _ _ => ?_
  refine .bind (.lift (getRecord_saves rules reads)) fun r hr => ?_
  cases r with
  | error e => exact .throw
  | ok record =>
    refine .bind (fun _ _ => trivial) fun _ _ => ?_
    refine .bind (contentLock_saves (rules.ask trivial)) fun _ _ => ?_
    split
    · exact .throw
    · rename_i hchecked
      rw [not_or] at hchecked
      exact .bind (ensureStarted_saves rules (hr record rfl hchecked.1)) fun _ _ =>
        callRuntime_saves rules _

end

/-! ## Records up to what the methods change -/

/-- A property of records that survives every change but those of the plugin, of the operation, and of
the status to `installing`. -/
def Stable (K : InstallPluginRecord → Prop) : Prop :=
  ∀ r r', K r → r'.pluginId = r.pluginId → r'.installOperationId = r.installOperationId →
    (r'.status = r.status ∨ r'.status ≠ .installing) → K r'

/-- Requests that save no record without `K`, and leave installations to `install`. -/
def SavesOnly (K : InstallPluginRecord → Prop) : CoreAct → Prop
  | .savePlugin record => K record
  | .insertInstalling _ | .completeInstall .. | .rollbackInstall .. => False
  | _ => True

theorem Stable.saving {K : InstallPluginRecord → Prop} (stable : Stable K) : Saving (SavesOnly K) K where
  changed record status lastError lastUsedAt updatedAt h hstatus :=
    stable record _ h rfl rfl hstatus
  saves record h := h
  plain a h := by
    cases a with
    | savePlugin | insertInstalling | completeInstall | rollbackInstall => exact h.elim
    | _ => trivial

end AudioDown.Core
