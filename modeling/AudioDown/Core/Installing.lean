/-
# AudioDown.Core.Installing — a record is installing exactly while it names an operation

`insert_installing` writes a record that is installing and names its operation, and `complete_install`
takes back both at once.  What lies between is up to the methods that rewrite records.  The reconcilers,
the cleanup and `invoke_content` leave an installing record alone; `start`, `stop`, `inspect_runtime`,
`update_settings` and `uninstall` do not look, and give it another status under the same operation
(`stop_strands_operation`).  As long as none of them reads an installing record, the two agree in every
state Core can reach (`installing_iff_operation`).
-/
import AudioDown.Core.Joint

namespace AudioDown.Core

open Lib Supervisor

/-! ## Records -/

/-- A record that is installing names its operation, and no other record names one. -/
def InstallPluginRecord.Coherent (record : InstallPluginRecord) : Prop :=
  record.status = .installing ↔ record.installOperationId.isSome = true

def InstallPluginRecord.Settled (record : InstallPluginRecord) : Prop :=
  record.status ≠ .installing ∧ record.installOperationId = none

theorem InstallPluginRecord.Settled.coherent {record : InstallPluginRecord} (h : record.Settled) :
    record.Coherent := by
  simp [InstallPluginRecord.Coherent, h.1, h.2]

theorem InstallPluginRecord.Coherent.settled {record : InstallPluginRecord} (h : record.Coherent)
    (status : record.status ≠ .installing) : record.Settled := by
  refine ⟨status, ?_⟩
  rw [← Option.not_isSome_iff_eq_none]
  exact fun operation => status (h.mpr operation)

/-- A settled record of one of the plugins in `N`. -/
def SettledIn (N : PluginId → Prop) (record : InstallPluginRecord) : Prop :=
  record.Settled ∧ N record.pluginId

theorem settled_stable : Stable InstallPluginRecord.Settled := by
  rintro r r' ⟨status, operation⟩ - hoperation hstatus
  refine ⟨?_, hoperation.trans operation⟩
  rcases hstatus with hstatus | hstatus
  · rw [hstatus]
    exact status
  · exact hstatus

theorem settledIn_stable (N : PluginId → Prop) : Stable (SettledIn N) := by
  rintro r r' ⟨settled, plugin⟩ hplugin hoperation hstatus
  exact ⟨settled_stable r r' settled hplugin hoperation hstatus, hplugin ▸ plugin⟩

/-! ## Methods other than the cleanup -/

/-- What a coherent table answers a call that reads no installing record it would rewrite. -/
def CoherentAnswers (call : CoreCall) : (a : CoreAct) → a.Resp → Prop
  | .getPlugin p, r => ∀ row, r = .ok (some row) →
      row.Coherent ∧ (call.Manages p → row.status ≠ .installing)
  | _, _ => True

def WritesSettled : CoreAct → Prop
  | .savePlugin record => record.Settled
  | _ => True

theorem writesSettled_of_not_saves {a : CoreAct} (h : ¬ a.Saves) : WritesSettled a := by
  cases a with
  | savePlugin => exact absurd trivial h
  | _ => trivial

theorem writesSettled_of_savesOnly {K : InstallPluginRecord → Prop} (hK : ∀ r, K r → r.Settled)
    {a : CoreAct} (h : SavesOnly K a) : WritesSettled a := by
  cases a with
  | savePlugin record => exact hK record h
  | _ => trivial

theorem program_settled {call : CoreCall} (other : call ≠ .cleanupAllRuntimes) :
    call.program.Within (CoherentAnswers call) WritesSettled fun _ => True :=
  program_saves settled_stable (fun _ h => h) (fun _ => writesSettled_of_not_saves)
    (fun _ row h => (h row rfl).1.settled)
    (fun _ manages row h => (h row rfl).1.settled ((h row rfl).2 manages)) fun h => absurd h other

/-! ## The cleanup -/

/-- What the table answers the cleanup while the plugins in `N`, and no others, are not installing. -/
def CleanupAnswers (N : PluginId → Prop) : (a : CoreAct) → a.Resp → Prop
  | .listInstallRecords, r => ∀ records, r = .ok records → ∀ record ∈ records,
      record.Coherent ∧ (N record.pluginId ↔ record.status ≠ .installing)
  | .getPlugin p, r => ∀ row, r = .ok (some row) →
      row.pluginId = p ∧ row.Coherent ∧ (N p ↔ row.status ≠ .installing)
  | _, _ => True

theorem cleanup_settled (N : PluginId → Prop) :
    CoreCall.cleanupAllRuntimes.program.Within (CleanupAnswers N) (SavesOnly (SettledIn N))
      fun _ => True := by
  refine .bind (cleanupAllRuntimes_saves (settledIn_stable N).saving ?_) fun _ _ => trivial
  intro records listed record hrecord status
  obtain ⟨coherent, member⟩ := listed records rfl record hrecord
  have plugin : N record.pluginId := member.mpr status
  refine ⟨⟨coherent.settled status, plugin⟩, fun row read => ?_⟩
  obtain ⟨hplugin, hcoherent, hmember⟩ := read row rfl
  refine ⟨hcoherent.settled (hmember.mp plugin), ?_⟩
  rw [hplugin]
  exact plugin

/-- The cleanup under way: `N` is the set of plugins it may rewrite. -/
structure Cleaning (N : PluginId → Prop) (store : PluginStore) (prog : CoreProgram Unit) : Prop where
  fixed : ∀ p row, store.get p = some row → (N p ↔ row.status ≠ .installing)
  outline : prog.Within (CleanupAnswers N) (SavesOnly (SettledIn N)) fun _ => True

/-! ## One step -/

section
variable {store : PluginStore} (rows : ∀ p row, store.get p = some row → row.Coherent)
include rows

theorem coreStep_coherent {a : CoreAct} (writes : WritesSettled a) (c : CoreOutcome) (p : PluginId)
    (row : InstallPluginRecord) (h : (coreStep a c store).2.get p = some row) : row.Coherent := by
  cases coreStep_row a c store p with
  | same hsame => exact rows p row (hsame ▸ h)
  | saved save hsaved =>
    cases hsaved.symm.trans h
    subst save
    exact writes.coherent
  | inserted _ _ status operation hinserted =>
    cases hinserted.symm.trans h
    exact iff_of_true status (Option.isSome_iff_ne_none.mpr operation)
  | completed _ _ _ hcompleted =>
    cases hcompleted.symm.trans h
    exact iff_of_false (by simp) (by simp)
  | touched _ present htouched =>
    have touched := rows p _ present
    cases htouched.symm.trans h
    exact touched
  | rolledBack _ _ _ hnone | deleted _ hnone => cases hnone.symm.trans h

theorem coreStep_coherentAnswers {call : CoreCall} (a : CoreAct) (c : CoreOutcome)
    (considerate : ∀ p, a = .getPlugin p → call.Manages p → ∀ row, store.get p = some row →
      row.status ≠ .installing) : CoherentAnswers call a (coreStep a c store).1 := by
  cases a with
  | getPlugin p =>
    intro row hrow
    have hget : some row = store.get p := query_eq_ok hrow
    exact ⟨rows p row hget.symm, fun manages => considerate p rfl manages row hget.symm⟩
  | _ => trivial

theorem Cleaning.step {N : PluginId → Prop} {a : CoreAct} {k : a.Resp → CoreProgram Unit}
    (h : Cleaning N store (.act a k)) (c : CoreOutcome) :
    Cleaning N (coreStep a c store).2 (k (coreStep a c store).1) := by
  obtain ⟨fixed, saves, continues⟩ := h
  refine ⟨fun p row hrow => ?_, continues _ ?_⟩
  · cases coreStep_row a c store p with
    | same hsame => exact fixed p row (hsame ▸ hrow)
    | saved save hsaved =>
      have hkey : row.pluginId = p := Table.key_of_get hrow
      cases hsaved.symm.trans hrow
      subst save
      obtain ⟨settled, plugin⟩ : SettledIn N row := saves
      exact iff_of_true (hkey ▸ plugin) settled.1
    | touched _ present htouched =>
      have touched := fixed p _ present
      cases htouched.symm.trans hrow
      exact touched
    | inserted insert | completed insert | rolledBack insert =>
      -- the cleanup makes no such request
      subst insert
      exact saves.elim
    | deleted _ hnone => cases hnone.symm.trans hrow
  · cases a with
    | listInstallRecords =>
      intro records hrecords record hmem
      have hlist : records = store.list := query_eq_ok hrecords
      rw [hlist, PluginStore.mem_list] at hmem
      exact ⟨rows _ record hmem, fixed _ record hmem⟩
    | getPlugin p =>
      intro row hrow
      have hget : some row = store.get p := query_eq_ok hrow
      exact ⟨Table.key_of_get hget.symm, rows p row hget.symm, fixed p row hget.symm⟩
    | _ => trivial

end

/-! ## Every run -/

def Considerate (s : CoreSystem) : CoreLabel → Prop
  | .advance i _ => ∀ call p k, s.tasks[i]? = some ⟨call, .act (.getPlugin p) k⟩ →
      call.Manages p → ∀ row, s.store.get p = some row → row.status ≠ .installing
  | _ => True

/-- Every row is coherent, and every task keeps it so. -/
structure CoreSystem.Coherent (s : CoreSystem) : Prop where
  exclusive : ∀ t ∈ s.tasks, t.tag.starting = true → s.listening = false ∧ s.tasks = [t]
  rows : ∀ p row, s.store.get p = some row → row.Coherent
  tasks : ∀ t ∈ s.tasks, t.tag ≠ .cleanupAllRuntimes →
    t.prog.Within (CoherentAnswers t.tag) WritesSettled fun _ => True
  cleanup : ∀ t ∈ s.tasks, t.tag = .cleanupAllRuntimes → ∃ N, Cleaning N s.store t.prog

theorem coherent_initial : CoreSystem.initial.Coherent :=
  ⟨fun _ ht => absurd ht List.not_mem_nil, fun _ _ h => (by cases h),
    fun _ ht => absurd ht List.not_mem_nil, fun _ ht => absurd ht List.not_mem_nil⟩

section
variable {s : CoreSystem} {i : Nat} {c : CoreOutcome} {call : CoreCall} {a : CoreAct}
  {k : a.Resp → CoreProgram Unit}

theorem CoreSystem.Coherent.advance_other (h : s.Coherent) (task : s.tasks[i]? = some ⟨call, .act a k⟩)
    (other : call ≠ .cleanupAllRuntimes) (considerate : Considerate s (.advance i c))
    (hnext : s.next (.advance i c) = some (s.advanced i call a k c)) : (s.advanced i call a k c).Coherent := by
  have moved := h.tasks _ (List.mem_of_getElem? task) other
  have answers : CoherentAnswers call a (coreStep a c s.store).1 := by
    apply coreStep_coherentAnswers h.rows
    rintro p rfl
    exact considerate call p k task
  refine ⟨exclusive_next h.exclusive hnext, coreStep_coherent h.rows moved.1 c, ?_, ?_⟩
  · intro t ht hother
    rcases List.mem_or_eq_of_mem_set ht with ht | rfl
    · exact h.tasks t ht hother
    · exact moved.2 _ answers
  · intro t ht hcleanup
    rcases List.mem_or_eq_of_mem_set ht with ht | rfl
    · have alone := (h.exclusive t ht (by rw [hcleanup]; rfl)).2
      have hmoved := List.mem_of_getElem? task
      rw [alone, List.mem_singleton] at hmoved
      subst hmoved
      exact absurd hcleanup other
    · exact absurd hcleanup other

theorem CoreSystem.Coherent.advance_cleanup (h : s.Coherent)
    (task : s.tasks[i]? = some ⟨.cleanupAllRuntimes, .act a k⟩)
    (hnext : s.next (.advance i c) = some (s.advanced i .cleanupAllRuntimes a k c)) :
    (s.advanced i .cleanupAllRuntimes a k c).Coherent := by
  have mem := List.mem_of_getElem? task
  obtain ⟨N, cleaning⟩ := h.cleanup _ mem rfl
  have alone := (h.exclusive _ mem rfl).2
  have only : ∀ t ∈ (s.advanced i .cleanupAllRuntimes a k c).tasks,
      t = ⟨.cleanupAllRuntimes, k (coreStep a c s.store).1⟩ := by
    intro t ht
    have exclusive := exclusive_next h.exclusive hnext _ (List.mem_of_getElem? (List.getElem?_set_self (by
        rw [List.getElem?_eq_some_iff] at task; exact task.1))) rfl
    rw [exclusive.2, List.mem_singleton] at ht
    exact ht
  have writes : WritesSettled a := writesSettled_of_savesOnly (fun _ => And.left) cleaning.outline.1
  refine ⟨exclusive_next h.exclusive hnext, coreStep_coherent h.rows writes c, ?_, ?_⟩
  · intro t ht hother
    rw [only t ht] at hother
    exact absurd rfl hother
  · intro t ht _
    rw [only t ht]
    exact ⟨N, cleaning.step h.rows c⟩

end

theorem CoreSystem.Coherent.next {s s' : CoreSystem} {label : CoreLabel} (h : s.Coherent)
    (considerate : Considerate s label) (hnext : s.next label = some s') : s'.Coherent := by
  have exclusive := exclusive_next h.exclusive hnext
  cases coreNext_cases hnext with
  | startingCall call =>
    refine ⟨exclusive, h.rows, fun t ht other => ?_, fun t ht cleanup => ?_⟩
    · rw [List.mem_singleton.mp ht] at other ⊢
      exact program_settled other
    · rw [List.mem_singleton.mp ht] at cleanup ⊢
      have hcall : call = .cleanupAllRuntimes := cleanup
      subst hcall
      -- the plugins it may rewrite are those that are not installing now
      refine ⟨fun p => ∀ row, s.store.get p = some row → row.status ≠ .installing, ?_, cleanup_settled _⟩
      intro p row hrow
      constructor
      · exact fun settled => settled row hrow
      · intro status row' hrow'
        cases hrow.symm.trans hrow'
        exact status
  | call call later =>
    refine ⟨exclusive, h.rows, fun t ht other => ?_, fun t ht cleanup => ?_⟩
    · rcases List.mem_append.mp ht with ht | ht
      · exact h.tasks t ht other
      · rw [List.mem_singleton.mp ht] at other ⊢
        exact program_settled other
    · rcases List.mem_append.mp ht with ht | ht
      · exact h.cleanup t ht cleanup
      · rw [List.mem_singleton.mp ht] at cleanup
        have hcall : call = .cleanupAllRuntimes := cleanup
        subst hcall
        cases later
  | returned =>
    exact ⟨exclusive, h.rows, fun t ht => absurd ht List.not_mem_nil,
      fun t ht => absurd ht List.not_mem_nil⟩
  | listen => exact ⟨exclusive, h.rows, h.tasks, h.cleanup⟩
  | @advance i c call a k task =>
    by_cases cleanup : call = .cleanupAllRuntimes
    · subst cleanup
      exact h.advance_cleanup task hnext
    · exact h.advance_other task cleanup considerate hnext
  | crash =>
    exact ⟨exclusive, h.rows, fun t ht => absurd ht List.not_mem_nil,
      fun t ht => absurd ht List.not_mem_nil⟩

/-- **A record is installing exactly while it names its operation**, in every state Core reaches by
steps none of which lets `start`, `stop`, `inspect_runtime`, `update_settings` or `uninstall` read an
installing record, whatever fails and wherever Core crashes. -/
theorem installing_iff_operation {labels : List CoreLabel} {s : CoreSystem}
    (run : Run CoreSystem.next Considerate CoreSystem.initial labels s) {p : PluginId}
    {row : InstallPluginRecord} (h : s.store.get p = some row) :
    row.status = .installing ↔ row.installOperationId.isSome = true := by
  have coherent : s.Coherent :=
    run.invariant (fun _ _ _ hi considerate hnext => hi.next considerate hnext) coherent_initial
  exact coherent.rows p row h

/-! ## An operation that is left behind -/

/-- What the Supervisor answers about operation 1 of plugin `p`. -/
def sampleReply (state : Supervisor.PluginInstallOperationState) : CoreOutcome :=
  .replied (.operation (.ok ⟨1, "p", state, some sampleOutput.artifact, [], none, false⟩))

/-- Core starts and installs plugin `p`; the reply to `finalize_install` is lost. -/
def interruptedInstall : List CoreLabel :=
  [.listen, .call (.install 7 "p" 0 1), .advance 0 (.flag true),
    .advance 0 (.staged (.ok sampleStaged)), .advance 0 (.done 0), .advance 0 (.granted (.ok none)),
    .advance 0 (.prepared (.ok 1)), .advance 0 (sampleReply .accepted), .advance 0 (sampleReply .built),
    .advance 0 (.done 4), .advance 0 (.done 4), .advance 0 .failed]

def stoppedMeanwhile : List CoreLabel :=
  interruptedInstall ++ [.call (.stop "p"), .advance 1 (.flag true), .advance 1 (.flag false),
    .advance 1 (.done 5), .advance 1 (.runtime ⟨"p", .stopped, []⟩), .advance 1 (.done 6),
    .advance 1 (.done 6), .advance 1 (.done 6)]

def coreAfter (labels : List CoreLabel) : CoreSystem :=
  (labels.foldlM CoreSystem.next CoreSystem.initial).getD CoreSystem.initial

def checkConsiderate (s : CoreSystem) : CoreLabel → Bool
  | .advance i _ => s.tasks[i]?.any fun t => t.tag = .install 7 "p" 0 1
  | _ => true

theorem considerate_of_check (s : CoreSystem) (label : CoreLabel)
    (h : checkConsiderate s label = true) : Considerate s label := by
  cases label with
  | advance i c =>
    intro call p k task manages
    simp only [checkConsiderate, task, Option.any_some, decide_eq_true_eq] at h
    subst h
    exact manages.elim
  | _ => trivial

/-- The install leaves a record behind that is installing and names operation 1. -/
theorem installing_after_lost_reply :
    ∃ labels s row, Run CoreSystem.next Considerate CoreSystem.initial labels s ∧
      s.store.get "p" = some row ∧ row.installOperationId = some 1 ∧ row.status = .installing := by
  have run : Run CoreSystem.next Considerate CoreSystem.initial interruptedInstall
      (coreAfter interruptedInstall) := Run.of_checked considerate_of_check rfl
  have hrow : (coreAfter interruptedInstall).store.get "p" =
      some (installRecord sampleStaged 1 sampleOutput.artifact 4) := rfl
  exact ⟨_, _, _, run, hrow, rfl, (installing_iff_operation run hrow).mpr rfl⟩

/-- **`stop` strands the operation**: it reads the installing record and saves it as stopped with the
operation in it, and reconciliation no longer takes it for the record of a pending install. -/
theorem stop_strands_operation :
    ∃ labels s row, Run CoreSystem.next (fun _ _ => True) CoreSystem.initial labels s ∧
      s.store.get "p" = some row ∧ row.status = .stopped ∧ row.installOperationId = some 1 :=
  ⟨stoppedMeanwhile, coreAfter stoppedMeanwhile,
    { installRecord sampleStaged 1 sampleOutput.artifact 4 with status := .stopped, updatedAt := 6 },
    Run.of_foldlM rfl, rfl, rfl, rfl⟩

end AudioDown.Core
