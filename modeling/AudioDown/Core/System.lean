/-
# AudioDown.Core.System — Core as a transition system

What Core asks of its table the table answers (`coreStep`); everything else it asks is answered by the
environment: the Supervisor's replies, the runtimes, the clock, the per-plugin locks.  A call of Core is
a task.  Before Core listens, `main` makes two calls one after the other, `cleanup_all_runtimes` and, if
nothing failed, `reconcile_install_operations`; the first it makes again after Core has stopped
listening.  While Core listens, the other calls interleave freely.  A crash loses every task and keeps
the table.
-/
import AudioDown.Core.Content

namespace AudioDown.Core

open Lib Supervisor

/-- How the environment answers a step of Core. -/
inductive CoreOutcome where
  /-- it succeeds, at this time -/
  | done (now : Timestamp)
  /-- the statement fails, or no reply arrives -/
  | failed
  /-- the statement takes effect at this time, but reports a failure -/
  | failedAfter (now : Timestamp)
  /-- the Supervisor's reply -/
  | replied (reply : Reply)
  | staged (result : Except InstallError StagedPlugin)
  | granted (result : Except InstallError (Option Uuid))
  | prepared (result : Except InstallError Uuid)
  | runtime (state : PluginRuntimeState)
  | removed (result : PluginRemoveResult)
  | invoked (valid : Bool)
  | flag (value : Bool)
  | count (value : Nat)

def CoreOutcome.now : CoreOutcome → Timestamp
  | .done now | .failedAfter now => now
  | _ => 0

def CoreOutcome.query {α : Type} (c : CoreOutcome) (value : α) : Except PluginManagerError α :=
  match c with
  | .failed | .failedAfter _ => .error .pluginStateUnavailable
  | _ => .ok value

def PluginStore.statement (store : PluginStore) (c : CoreOutcome)
    (result : Except StorageError PluginStore) : Except PluginManagerError Unit × PluginStore :=
  match c, result with
  | .failed, _ => (.error .pluginStateUnavailable, store)
  | _, .error _ => (.error .pluginStateUnavailable, store)
  | .failedAfter _, .ok changed => (.error .pluginStateUnavailable, changed)
  | _, .ok changed => (.ok (), changed)

def coreStep : (a : CoreAct) → CoreOutcome → PluginStore → a.Resp × PluginStore
  | .listInstallRecords, c, store => (c.query store.list, store)
  | .getPlugin p, c, store => (c.query (store.get p), store)
  | .savePlugin record, c, store => store.statement c (store.upsert record)
  | .deletePlugin p, c, store => store.statement c (store.delete p)
  | .insertInstalling record, c, store => store.statement c (store.insertInstalling record)
  | .completeInstall p o, c, store =>
      -- the adapter reads the row back after the update
      let (result, store) := store.statement c (store.completeInstall p o c.now)
      (match result, store.get p with
        | .ok (), some record => .ok record
        | _, _ => .error .pluginStateUnavailable, store)
  | .rollbackInstall p o, c, store => store.statement c (store.rollbackInstall p o)
  | .persistBuildLog .., c, store => (c.query (), store)
  | .persistRuntimeLog .., c, store => (c.query (), store)
  | .persistContentCallLog .., c, store => (c.query (), store)
  | .touch p lastUsedAt, c, store => store.statement c (store.touch p lastUsedAt c.now)
  | .supervisor call, c, store =>
      (match c with
        | .replied reply => call.answer reply
        | _ => .error .runtimeUnavailable, store)
  | .startRuntime _, c, store | .stopRuntime _, c, store | .inspectRuntime _, c, store =>
      (match c with
        | .runtime state => .ok state
        | _ => .error .runtimeUnavailable, store)
  | .removeRuntime _, c, store =>
      (match c with
        | .removed result => .ok result
        | _ => .error .runtimeUnavailable, store)
  | .invokeRuntime .., c, store =>
      (match c with
        | .invoked valid => .ok valid
        | _ => .error .runtimeUnavailable, store)
  | .loadPlugin .., c, store =>
      (match c with
        | .staged result => result
        | _ => .error .snapshotNotFound, store)
  | .grantLifecycleRisk _, c, store =>
      (match c with
        | .granted result => result
        | _ => .ok none, store)
  | .prepareInstall .., c, store =>
      (match c with
        | .prepared result => result
        | _ => .error .internal, store)
  | .tryOperationLock _, c, store | .contentStartupLock _, c, store
  | .beginActiveCall _, c, store =>
      (match c with
        | .flag value => value
        | _ => true, store)
  | .hasActiveCalls _, c, store | .timesOut, c, store =>
      (match c with
        | .flag value => value
        | _ => false, store)
  | .automaticStartFailureCount _, c, store | .incrementAutomaticStartFailures _, c, store =>
      (match c with
        | .count value => value
        | _ => 0, store)
  | .resetAutomaticStartFailures _, _, store => ((), store)
  | .utcNow, c, store => (c.now, store)

/-! ## What a step does to a row -/

/-- What step `a` can turn the row of plugin `q` into. -/
inductive RowEffect (a : CoreAct) (q : PluginId) (before after : Option InstallPluginRecord) :
    Prop where
  | same (h : after = before)
  | saved {record : InstallPluginRecord} (save : a = .savePlugin record) (h : after = some record)
  | inserted {record : InstallPluginRecord} (insert : a = .insertInstalling record)
      (absent : before = none) (status : record.status = .installing)
      (operation : record.installOperationId ≠ none) (h : after = some record)
  | completed {o : Uuid} {row : InstallPluginRecord} {now : Timestamp}
      (complete : a = .completeInstall q o) (present : before = some row)
      (operation : row.installOperationId = some o)
      (h : after = some { row with status := .installed, installOperationId := none, updatedAt := now })
  | rolledBack {o : Uuid} {row : InstallPluginRecord} (rollback : a = .rollbackInstall q o)
      (present : before = some row) (operation : row.installOperationId = some o) (h : after = none)
  | touched {row : InstallPluginRecord} {lastUsedAt now : Timestamp}
      (touch : a = .touch q lastUsedAt) (present : before = some row)
      (h : after = some { row with lastUsedAt := some lastUsedAt, updatedAt := now })
  | deleted (delete : a = .deletePlugin q) (h : after = none)

variable {c : CoreOutcome} {label : CoreLabel} {s s' : CoreSystem} {store : PluginStore}

theorem statement_ok {result : Except StorageError PluginStore}
    (h : (store.statement c result).1 = .ok ()) : result = .ok (store.statement c result).2 := by
  unfold PluginStore.statement at h ⊢
  split at h
  · cases h
  · cases h
  · cases h
  · rfl

theorem statement_cases (store : PluginStore) (c : CoreOutcome) (result : Except StorageError PluginStore) :
    (store.statement c result).2 = store ∨ result = .ok (store.statement c result).2 := by
  unfold PluginStore.statement
  split
  · exact .inl rfl
  · exact .inl rfl
  · exact .inr rfl
  · exact .inr rfl

theorem coreStep_row (a : CoreAct) (c : CoreOutcome) (store : PluginStore) (q : PluginId) :
    RowEffect a q (store.get q) ((coreStep a c store).2.get q) := by
  cases a with
  | savePlugin record =>
    rcases statement_cases store c (store.upsert record) with h | h
    · exact .same (by rw [coreStep, h])
    · have hget := PluginStore.get_upsert h q
      rw [coreStep, hget]
      split
      · exact .saved rfl rfl
      · exact .same rfl
  | insertInstalling record =>
    rcases statement_cases store c (store.insertInstalling record) with h | h
    · exact .same (by rw [coreStep, h])
    · obtain ⟨hstatus, hop, habsent, hget⟩ := PluginStore.get_insertInstalling h
      rw [coreStep, hget q]
      split
      · rename_i hq
        exact .inserted rfl (by rw [hq, habsent]) hstatus hop rfl
      · exact .same rfl
  | completeInstall p o =>
    have hstore : (coreStep (.completeInstall p o) c store).2 =
        (store.statement c (store.completeInstall p o c.now)).2 := rfl
    rw [hstore]
    rcases statement_cases store c (store.completeInstall p o c.now) with h | h
    · exact .same (by rw [h])
    · obtain ⟨⟨row, hrow, hop, hget⟩, hothers⟩ := PluginStore.get_completeInstall h
      by_cases hq : q = p
      · subst hq
        exact .completed rfl hrow hop hget
      · exact .same (hothers q hq)
  | rollbackInstall p o =>
    rcases statement_cases store c (store.rollbackInstall p o) with h | h
    · exact .same (by rw [coreStep, h])
    · obtain ⟨⟨row, hrow, hop⟩, hget⟩ := PluginStore.get_rollbackInstall h
      rw [coreStep, hget q]
      split
      · rename_i hq
        subst hq
        exact .rolledBack rfl hrow hop rfl
      · exact .same rfl
  | touch p lastUsedAt =>
    rcases statement_cases store c (store.touch p lastUsedAt c.now) with h | h
    · exact .same (by rw [coreStep, h])
    · rw [coreStep, PluginStore.get_touch h q]
      cases hrow : store.get q with
      | none => exact .same rfl
      | some row =>
        by_cases hq : q = p
        · subst hq
          exact @RowEffect.touched _ _ _ _ row lastUsedAt c.now rfl rfl (by simp)
        · exact .same (by simp [hq])
  | deletePlugin p =>
    rcases statement_cases store c (store.delete p) with h | h
    · exact .same (by rw [coreStep, h])
    · rw [coreStep, PluginStore.get_delete h q]
      split
      · rename_i hq
        subst hq
        exact .deleted rfl rfl
      · exact .same rfl
  | _ => exact .same rfl

theorem coreStep_completeInstall {p : PluginId} {o : Uuid}
    {row : InstallPluginRecord} (hrow : store.get p = some row) (hop : row.installOperationId = some o)
    (now : Timestamp) : ∃ store', coreStep (.completeInstall p o) (.done now) store =
        (.ok { row with status := .installed, installOperationId := none, updatedAt := now }, store') ∧
      store'.get p = some { row with status := .installed, installOperationId := none, updatedAt := now } ∧
      ∀ q, q ≠ p → store'.get q = store.get q := by
  obtain ⟨store', hstore⟩ : ∃ store', store.completeInstall p o now = .ok store' := by
    unfold PluginStore.completeInstall
    rw [if_pos (PluginStore.affectsOne_iff.mpr ⟨row, hrow, hop⟩)]
    exact ⟨_, rfl⟩
  obtain ⟨⟨before, hbefore, _, hget⟩, hothers⟩ := PluginStore.get_completeInstall hstore
  cases hbefore.symm.trans hrow
  refine ⟨store', ?_, hget, hothers⟩
  simp only [coreStep, CoreOutcome.now, hstore, PluginStore.statement, hget]

theorem query_eq_ok {α : Type} {value value' : α} (h : c.query value = .ok value') : value' = value := by
  unfold CoreOutcome.query at h
  split at h
  · cases h
  · cases h
  · exact (Except.ok.inj h).symm

/-! ## Calls -/

/-- The methods of `PluginManagerService` that touch installations. -/
inductive CoreCall where
  | cleanupAllRuntimes
  | reconcileInstallOperations
  | install (snapshotId : Uuid) (pluginId : PluginId) (beginPolls buildPolls : Nat)
  | start (pluginId : PluginId)
  | stop (pluginId : PluginId)
  | inspectRuntime (pluginId : PluginId)
  | updateSettings (command : SettingsCommand)
  | invokeContent (request : ContentInvocationRequest)
  | uninstall (pluginId : PluginId)
  | reconcileDuePlugins (now : Timestamp) (idleTimeout : Nat)
deriving DecidableEq

/-- The calls `main` makes while Core does not listen. -/
def CoreCall.starting : CoreCall → Bool
  | .cleanupAllRuntimes | .reconcileInstallOperations => true
  | _ => false

/-- The program behind a call; who made it gets the result. -/
def CoreCall.program : CoreCall → CoreProgram Unit
  | .cleanupAllRuntimes => Prog.bind Core.cleanupAllRuntimes.run fun _ => .ret ()
  | .reconcileInstallOperations => Prog.bind Core.reconcileInstallOperations.run fun _ => .ret ()
  | .install snapshotId p beginPolls buildPolls =>
      Prog.bind (Core.install snapshotId p beginPolls buildPolls).run fun _ => .ret ()
  | .start p => Prog.bind (Core.start p).run fun _ => .ret ()
  | .stop p => Prog.bind (Core.stop p).run fun _ => .ret ()
  | .inspectRuntime p => Prog.bind (Core.inspectRuntime p).run fun _ => .ret ()
  | .updateSettings command => Prog.bind (Core.updateSettings command).run fun _ => .ret ()
  | .invokeContent request => Prog.bind (Core.invokeContent request).run fun _ => .ret ()
  | .uninstall p => Prog.bind (Core.uninstall p).run fun _ => .ret ()
  | .reconcileDuePlugins now idleTimeout =>
      Prog.bind (Core.reconcileDuePlugins now idleTimeout).run fun _ => .ret ()

abbrev CoreTask := Task CoreCall CoreAct CoreAct.Resp Unit

def CoreCall.task (call : CoreCall) : CoreTask := ⟨call, call.program⟩

/-! ## The system -/

structure CoreSystem where
  store : PluginStore
  /-- whether Core listens -/
  listening : Bool
  tasks : List CoreTask

def CoreSystem.initial : CoreSystem := ⟨Table.empty, false, []⟩

inductive CoreLabel where
  /-- a call arrives -/
  | call (call : CoreCall)
  /-- a call made while Core does not listen has returned -/
  | returned
  /-- Core listens -/
  | listen
  /-- task `task` takes its next step -/
  | advance (task : Nat) (outcome : CoreOutcome)
  /-- the process dies -/
  | crash

def CoreSystem.next (s : CoreSystem) : CoreLabel → Option CoreSystem
  | .call call =>
      if call.starting then
        if !s.listening && s.tasks.isEmpty then some { s with tasks := [call.task] } else none
      else if s.listening then some { s with tasks := s.tasks ++ [call.task] } else none
  | .returned =>
      match s.listening, s.tasks with
      | false, [⟨_, .ret ()⟩] => some { s with tasks := [] }
      | _, _ => none
  | .listen => if !s.listening && s.tasks.isEmpty then some { s with listening := true } else none
  | .advance i outcome =>
      (Pool.step coreStep (fun _ _ => []) i outcome s.store s.tasks).map
        fun (store, tasks) => { s with store, tasks }
  | .crash => some ⟨s.store, false, []⟩

/-- The system after task `i` has taken its step. -/
def CoreSystem.advanced (s : CoreSystem) (i : Nat) (call : CoreCall) (a : CoreAct)
    (k : a.Resp → CoreProgram Unit) (c : CoreOutcome) : CoreSystem :=
  { s with
    store := (coreStep a c s.store).2
    tasks := s.tasks.set i ⟨call, k (coreStep a c s.store).1⟩ }

/-- What a label does. -/
inductive CoreNext (s : CoreSystem) : CoreLabel → CoreSystem → Prop where
  | startingCall (call : CoreCall) (starting : call.starting = true) (quiet : s.listening = false)
      (idle : s.tasks = []) : CoreNext s (.call call) { s with tasks := [call.task] }
  | call (call : CoreCall) (later : call.starting = false) (listening : s.listening = true) :
      CoreNext s (.call call) { s with tasks := s.tasks ++ [call.task] }
  | returned (quiet : s.listening = false) : CoreNext s .returned { s with tasks := [] }
  | listen (quiet : s.listening = false) (idle : s.tasks = []) :
      CoreNext s .listen { s with listening := true }
  | advance {i : Nat} {c : CoreOutcome} {call : CoreCall} {a : CoreAct}
      {k : a.Resp → CoreProgram Unit} (task : s.tasks[i]? = some ⟨call, .act a k⟩) :
      CoreNext s (.advance i c) (s.advanced i call a k c)
  | crash : CoreNext s .crash ⟨s.store, false, []⟩

theorem coreNext_cases (h : s.next label = some s') : CoreNext s label s' := by
  cases label with
  | call call =>
    simp only [CoreSystem.next] at h
    split at h
    · rename_i starting
      split at h
      · rename_i hidle
        simp only [Bool.and_eq_true, Bool.not_eq_true', List.isEmpty_iff] at hidle
        cases h
        exact .startingCall call starting hidle.1 hidle.2
      · cases h
    · rename_i later
      split at h
      · cases h
        exact .call call (by simpa using later) ‹_›
      · cases h
  | returned =>
    simp only [CoreSystem.next] at h
    split at h
    · cases h
      exact .returned ‹_›
    · cases h
  | listen =>
    simp only [CoreSystem.next] at h
    split at h
    · rename_i hidle
      simp only [Bool.and_eq_true, Bool.not_eq_true', List.isEmpty_iff] at hidle
      cases h
      exact .listen hidle.1 hidle.2
    · cases h
  | advance i c =>
    simp only [CoreSystem.next, Option.map_eq_some_iff] at h
    obtain ⟨⟨store, tasks⟩, hstep, rfl⟩ := h
    obtain ⟨call, a, k, htask, rfl, rfl⟩ := Lib.Pool.step_eq_some hstep
    rw [List.append_nil]
    exact .advance htask
  | crash =>
    cases h
    exact .crash

theorem exclusive_next (h : ∀ t ∈ s.tasks, t.tag.starting = true → s.listening = false ∧ s.tasks = [t])
    (hnext : s.next label = some s') :
    ∀ t ∈ s'.tasks, t.tag.starting = true → s'.listening = false ∧ s'.tasks = [t] := by
  intro t ht starting
  cases coreNext_cases hnext with
  | startingCall call _ quiet =>
    rw [List.mem_singleton.mp ht]
    exact ⟨quiet, rfl⟩
  | call call later listening =>
    rcases List.mem_append.mp ht with ht | ht
    · cases (h t ht starting).1.symm.trans listening
    · rw [List.mem_singleton.mp ht] at starting
      cases later.symm.trans starting
  | returned => cases ht
  | listen quiet idle =>
    have hnone : t ∈ s.tasks := ht
    rw [idle] at hnone
    cases hnone
  | @advance i c call act k task =>
    -- the moved task was alone before, and is alone after
    have alone : ∀ u ∈ s.tasks, u.tag.starting = true → s.tasks = [⟨call, .act act k⟩] ∧ i = 0 := by
      intro u hu hstarting
      have hlist := (h u hu hstarting).2
      rw [hlist] at task
      obtain ⟨hlt, heq⟩ := List.getElem?_eq_some_iff.mp task
      have hi : i = 0 := by simpa using hlt
      subst hi
      exact ⟨by rw [hlist, ← heq]; rfl, rfl⟩
    have before : ∃ u ∈ s.tasks, u.tag.starting = true := by
      rcases List.mem_or_eq_of_mem_set ht with hmem | rfl
      · exact ⟨t, hmem, starting⟩
      · exact ⟨_, List.mem_of_getElem? task, starting⟩
    obtain ⟨u, hu, hstarting⟩ := before
    obtain ⟨hlist, rfl⟩ := alone u hu hstarting
    have hset : (s.advanced 0 call act k c).tasks = [⟨call, k (coreStep act c s.store).1⟩] := by
      show s.tasks.set 0 _ = _
      rw [hlist]
      rfl
    refine ⟨(h u hu hstarting).1, ?_⟩
    rw [hset] at ht ⊢
    rw [List.mem_singleton.mp ht]
  | crash => cases ht

end AudioDown.Core
