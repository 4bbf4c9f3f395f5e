/-
# AudioDown.Core.Rows — an installing record names its operation

Reconciliation finds the operation of an installing record by the id in the record, so a record that is
installing and names no operation would be stuck.  `insert_installing` refuses to write one.  The other
statement that writes whole rows is `save_plugin`, and what the methods save is as purposeful as what
they read (`purposeful_stable`).  Hence the table never holds a stuck record, in any run of Core
(`CoreSystem.Purposeful.next`).
-/
import AudioDown.Core.Manage
import AudioDown.Core.Notes
import AudioDown.Core.System

namespace AudioDown.Core

open Lib Supervisor

def InstallPluginRecord.Purposeful (record : InstallPluginRecord) : Prop :=
  record.status = .installing → record.installOperationId ≠ none

def Answers : (a : CoreAct) → a.Resp → Prop
  | .listInstallRecords, r => ∀ records, r = .ok records → ∀ record ∈ records, record.Purposeful
  | .getPlugin _, r => ∀ record, r = .ok (some record) → record.Purposeful
  | _, _ => True

def Writes : CoreAct → Prop
  | .savePlugin record => record.Purposeful
  | _ => True

/-- A program that saves purposeful records only, and returns values satisfying `Q`. -/
abbrev Tame {α : Type} (Q : α → Prop) (x : CoreProgram α) : Prop := x.Within Answers Writes Q

/-! ## Records that stay purposeful -/

theorem purposeful_of_status {record : InstallPluginRecord} (h : record.status ≠ .installing) :
    record.Purposeful := fun hstatus => absurd hstatus h

theorem purposeful_stable : Stable InstallPluginRecord.Purposeful := by
  rintro r r' h - operation (status | status)
  · intro hstatus
    rw [operation]
    exact h (status ▸ hstatus)
  · exact purposeful_of_status status

/-! ## Every run -/

/-- The calls that rewrite plugin `p` without asking whether it is installing. -/
def CoreCall.Manages (p : PluginId) : CoreCall → Prop
  | .start q | .stop q | .inspectRuntime q | .uninstall q => q = p
  | .updateSettings command => command.pluginId = p
  | _ => False

/-- What a call saves has a stable property if what it rewrites has it.  The reconciler and
`invoke_content` look at the status of a record themselves, the cleanup lists the records first, and the
others rewrite what they read. -/
theorem program_saves {call : CoreCall} {possible : (a : CoreAct) → a.Resp → Prop}
    {P : CoreAct → Prop} {K : InstallPluginRecord → Prop} (stable : Stable K)
    (saves : ∀ record, K record → P (.savePlugin record)) (free : ∀ a : CoreAct, ¬ a.Saves → P a)
    (checks : ∀ p row, possible (.getPlugin p) (.ok (some row)) → row.status ≠ .installing → K row)
    (reads : ∀ p, call.Manages p → ∀ row, possible (.getPlugin p) (.ok (some row)) → K row)
    (cleans : call = .cleanupAllRuntimes → ∀ records, possible .listInstallRecords (.ok records) →
      ∀ record ∈ records, record.status ≠ .installing → K record ∧
      ∀ row, possible (.getPlugin record.pluginId) (.ok (some row)) → K row) :
    call.program.Within possible P fun _ => True := by
  have ran : ∀ {ε α : Type} {x : ExceptT ε CoreProgram α}, Keeps possible P (fun _ => True) x →
      (Prog.bind x.run fun _ => .ret ()).Within possible P fun _ => True := fun h =>
    .bind h fun _ _ => trivial
  have managed : ∀ {ε α : Type} {Q : α → Prop} {x : ExceptT ε CoreProgram α}, Keeps possible (SavesOnly K) Q x
      → (Prog.bind x.run fun _ => .ret ()).Within possible P fun _ => True := fun h =>
    ran ((h.weaken fun _ _ => trivial).mono fun a ha => by
      cases a with
      | savePlugin record => exact saves record ha
      | _ => exact free _ id)
  have rules := stable.saving
  cases call with
  | cleanupAllRuntimes => exact managed (cleanupAllRuntimes_saves rules (cleans rfl))
  | reconcileInstallOperations =>
    exact ran (reconcileInstallOperations_keeps (free _ id) (free _ id) fun _ _ _ _ _ record _ =>
      reconcileEntry_keeps (fun a about => free a about.not_saves) record)
  | install snapshotId p beginPolls buildPolls => exact ran (install_keeps free snapshotId _ _)
  | start p => exact managed (start_saves rules (reads p rfl))
  | stop p => exact managed (stop_saves rules (reads p rfl))
  | inspectRuntime p => exact managed (inspectRuntime_saves rules (reads p rfl))
  | updateSettings command => exact managed (updateSettings_saves rules command (reads _ rfl) fun record h =>
      stable record _ h rfl rfl (.inl rfl))
  | uninstall p => exact managed (uninstall_saves rules (reads p rfl) trivial fun _ _ => trivial)
  | reconcileDuePlugins now idleTimeout =>
    exact managed (reconcileDuePlugins_saves rules checks now idleTimeout)
  | invokeContent request => exact managed (invokeContent_saves rules request (checks _))

theorem program_tame (call : CoreCall) : Tame (fun _ => True) call.program := by
  refine program_saves purposeful_stable (fun _ h => h) (fun a ha => ?_) (fun _ row h _ => h row rfl)
    (fun _ _ row h => h row rfl) fun _ records h record hrecord _ =>
      ⟨h records rfl record hrecord, fun row hrow => hrow row rfl⟩
  cases a with
  | savePlugin => exact absurd trivial ha
  | _ => trivial

/-- Every row is purposeful, and every task keeps it so. -/
structure CoreSystem.Purposeful (s : CoreSystem) : Prop where
  rows : ∀ p row, s.store.get p = some row → row.Purposeful
  tasks : ∀ t ∈ s.tasks, Tame (fun _ => True) t.prog

section
variable {store : PluginStore} (rows : ∀ p row, store.get p = some row → row.Purposeful)
include rows

theorem coreStep_answers (a : CoreAct) (c : CoreOutcome) : Answers a (coreStep a c store).1 := by
  cases a with
  | listInstallRecords =>
    intro records hrecords record hmem
    have hlist : records = store.list := query_eq_ok hrecords
    rw [hlist, PluginStore.mem_list] at hmem
    exact rows _ record hmem
  | getPlugin p =>
    intro record hrecord
    have hget : some record = store.get p := query_eq_ok hrecord
    exact rows p record hget.symm
  | _ => trivial

theorem coreStep_purposeful {a : CoreAct} (writes : Writes a) (c : CoreOutcome) (p : PluginId)
    (row : InstallPluginRecord) (h : (coreStep a c store).2.get p = some row) : row.Purposeful := by
  cases coreStep_row a c store p with
  | same hsame => exact rows p row (hsame ▸ h)
  | saved save hsaved =>
    cases hsaved.symm.trans h
    subst save
    exact writes
  | inserted _ _ _ operation hinserted =>
    cases hinserted.symm.trans h
    exact fun _ => operation
  | completed _ _ _ hcompleted =>
    cases hcompleted.symm.trans h
    exact purposeful_of_status (by simp)
  | touched _ present htouched =>
    have touched := rows p _ present
    cases htouched.symm.trans h
    exact touched
  | rolledBack _ _ _ hnone | deleted _ hnone => cases hnone.symm.trans h

end

theorem CoreSystem.Purposeful.next {s s' : CoreSystem} {label : CoreLabel} (h : s.Purposeful)
    (hnext : s.next label = some s') : s'.Purposeful := by
  cases coreNext_cases hnext with
  | startingCall call =>
    refine ⟨h.rows, fun t ht => ?_⟩
    rw [List.mem_singleton.mp ht]
    exact program_tame call
  | call call =>
    refine ⟨h.rows, fun t ht => ?_⟩
    rcases List.mem_append.mp ht with ht | ht
    · exact h.tasks t ht
    · rw [List.mem_singleton.mp ht]
      exact program_tame call
  | returned => exact ⟨h.rows, fun t ht => absurd ht List.not_mem_nil⟩
  | listen => exact ⟨h.rows, h.tasks⟩
  | @advance i c call a k task =>
    have htame := h.tasks _ (List.mem_of_getElem? task)
    refine ⟨coreStep_purposeful h.rows htame.1 c, fun t ht => ?_⟩
    rcases List.mem_or_eq_of_mem_set ht with ht | rfl
    · exact h.tasks t ht
    · exact htame.2 _ (coreStep_answers h.rows a c)
  | crash => exact ⟨h.rows, fun t ht => absurd ht List.not_mem_nil⟩

theorem purposeful_initial : CoreSystem.initial.Purposeful :=
  ⟨fun _ _ h => (by cases h), fun _ ht => absurd ht List.not_mem_nil⟩

end AudioDown.Core
