/-
# AudioDown.Core.Outline — which requests a method of Core issues

Outlines of Core's methods by the rules of `AudioDown.Lib.Method`.  The methods of reconciliation are
outlined once, for any `P` that allows the requests about the entry at hand.
-/
import AudioDown.Core.Lifecycle

namespace AudioDown.Core

open Lib Supervisor

variable {possible : (a : CoreAct) → a.Resp → Prop} {P : CoreAct → Prop} {α : Type}

variable {ε' : Type} {R : Except ε' α → Prop} {x : CoreProgram (Except ε' α)}

theorem Keeps.orElse {error : InstallError} (h : x.Within possible P R) :
    Keeps possible P (fun value => R (.ok value)) (orElse x error) := .mapErr h

theorem Keeps.orFail {error : PluginManagementError} (h : x.Within possible P R) :
    Keeps possible P (fun value => R (.ok value)) (orFail x error) := .mapErr h

theorem ask_within (a : CoreAct) (h : P a) : (ask a).Within possible P fun r => possible a r :=
  ⟨h, fun _ hr => hr⟩

theorem ask_within_any {a : CoreAct} (h : P a) : (ask a).Within possible P fun _ => True :=
  (ask_within a h).weaken fun _ _ => trivial

theorem runtime_keeps (call : SupervisorCall) (h : P (.supervisor call)) :
    Keeps possible P (fun value => possible (.supervisor call) (.ok value)) (runtime call) :=
  Keeps.orElse (ask_within (.supervisor call) h)

theorem runtime_keeps_any (call : SupervisorCall) (h : P (.supervisor call)) :
    Keeps possible P (fun _ => True) (runtime call) :=
  (runtime_keeps call h).weaken fun _ _ => trivial

section
variable {p : PluginId} {o : Uuid}

theorem acknowledge_keeps (h : P (.supervisor (.acknowledgeInstall p o))) :
    Keeps possible P (fun _ => True) (acknowledge p o) :=
  .bind (runtime_keeps_any _ h) fun _ _ => .guard

theorem abortInstall_keeps (h : P (.supervisor (.abortInstall p o))) :
    Keeps possible P (fun _ => True) (abortInstall p o) :=
  .bind (runtime_keeps_any _ h) fun _ _ => .guard

theorem abortAndAckResult_keeps (abort : P (.supervisor (.abortInstall p o)))
    (acknowledge : P (.supervisor (.acknowledgeInstall p o))) :
    Keeps possible P (fun _ => True) (abortAndAckResult p o) :=
  .bind (abortInstall_keeps abort) fun _ _ => acknowledge_keeps acknowledge

theorem persistBuildLogs_keeps (h : ∀ log, P (.persistBuildLog o log)) (logs : List PluginBuildLog) :
    Keeps possible P (fun _ => True) (persistBuildLogs o logs) := by
  induction logs with
  | nil => exact .pure trivial
  | cons log logs ih =>
    exact Keeps.bind (Keeps.orElse (ask_within (.persistBuildLog o log) (h log))) fun _ _ => ih

/-- The requests reconciliation makes about operation `o` of plugin `p` once it has seen its status. -/
def CoreAct.Handles (p : PluginId) (o : Uuid) (a : CoreAct) : Prop :=
  (∃ log, a = .persistBuildLog o log) ∨ a = .supervisor (.finalizeInstall p o) ∨
    a = .supervisor (.abortInstall p o) ∨ a = .supervisor (.acknowledgeInstall p o) ∨
    a = .completeInstall p o ∨ a = .rollbackInstall p o

/-- All its requests about `o`. -/
def CoreAct.Concerns (p : PluginId) (o : Uuid) (a : CoreAct) : Prop :=
  a = .supervisor (.installStatus p o) ∨ a.Handles p o

def CoreAct.Saves : CoreAct → Prop
  | .savePlugin _ => True
  | _ => False

theorem CoreAct.Concerns.not_saves {a : CoreAct} (h : a.Concerns p o) : ¬ a.Saves := by
  rcases h with rfl | ⟨_, rfl⟩ | rfl | rfl | rfl | rfl | rfl <;> exact id

variable (about : ∀ a, CoreAct.Handles p o a → P a)
include about

theorem complete_keeps : Keeps possible P (fun _ => True) (do
    let _ ← orElse (ask (.completeInstall p o)) .internal
    acknowledge p o) :=
  Keeps.bind (Keeps.orElse (ask_within (.completeInstall p o) (about _ (by simp [CoreAct.Handles]))))
    fun _ _ => acknowledge_keeps (about _ (by simp [CoreAct.Handles]))

theorem reconcileOperation_keeps {operation : PluginInstallOperationSummary}
    (hp : operation.pluginId = p) (ho : operation.operationId = o) (record : Option InstallPluginRecord) :
    Keeps possible P (fun _ => True) (reconcileOperation operation record) := by
  subst hp ho
  have complete := @complete_keeps possible P _ _ about
  have abort : Keeps possible P (fun _ => True) (abortAndAckResult operation.pluginId operation.operationId) :=
    abortAndAckResult_keeps (about _ (by simp [CoreAct.Handles])) (about _ (by simp [CoreAct.Handles]))
  have acknowledged : Keeps possible P (fun _ => True) (acknowledge operation.pluginId operation.operationId) :=
    acknowledge_keeps (about _ (by simp [CoreAct.Handles]))
  unfold reconcileOperation
  cases operation.state with
  | accepted | building =>
    cases matchingInstalling operation record with
    | some row => exact .pure trivial
    | none => exact abort
  | built =>
    cases matchingInstalling operation record with
    | some row =>
      show Keeps possible P _ (if _ then _ else _)
      split
      · exact .thrown
      · refine .bind (runtime_keeps_any _ (about _ (by simp [CoreAct.Handles]))) fun _ _ => ?_
        split
        · exact .thrown
        · exact complete
    | none => exact abort
  | finalized =>
    cases matchingInstalling operation record with
    | some row =>
      show Keeps possible P _ (if _ then _ else _)
      split
      · exact .thrown
      · exact complete
    | none =>
      dsimp only
      cases matchingInstalled operation record with
      | some row => exact acknowledged
      | none => exact abort
  | failed | aborted =>
    refine .bind (abortInstall_keeps (about _ (by simp [CoreAct.Handles]))) fun _ _ => ?_
    cases matchingInstalling operation record with
    | some row =>
      refine .bind (Keeps.orElse (ask_within (.rollbackInstall _ _) ?_)) fun _ _ => acknowledged
      exact about _ (by simp [CoreAct.Handles])
    | none => exact acknowledged

theorem handled_keeps {detailed : PluginInstallOperation} (record : Option InstallPluginRecord) :
    Keeps possible P (fun _ => True) (do
      if !operationIdentityMatches detailed p o then throw .runtimeUnavailable
      persistBuildLogs detailed.operationId detailed.buildLogs
      reconcileOperation detailed.summary record) := by
  split
  · exact .thrown
  · rename_i same
    simp only [operationIdentityMatches, Bool.not_eq_true', Bool.not_eq_false, Bool.and_eq_true,
      decide_eq_true_eq] at same
    refine .bind (persistBuildLogs_keeps (fun log => about _ ?_) _)
      fun _ _ => reconcileOperation_keeps about same.1 same.2 record
    exact .inl ⟨log, by rw [same.2]⟩

omit about in
theorem reconcileEntry_keeps (about : ∀ a, CoreAct.Concerns p o a → P a) (record : Option InstallPluginRecord) :
    Keeps possible P (fun _ => True) (reconcileEntry p o record) :=
  .bind (runtime_keeps_any _ (about _ (.inl rfl))) fun _ _ => handled_keeps (fun a h => about a (.inr h)) record

end

theorem reconcileEntries_keeps {entries : List Entry} (each : ∀ p o record, (p, o, record) ∈ entries →
      Keeps possible P (fun _ => True) (reconcileEntry p o record)) (firstError : Option InstallError) :
    (reconcileEntries entries firstError).Within possible P fun _ => True := by
  induction entries generalizing firstError with
  | nil => trivial
  | cons e entries ih =>
    obtain ⟨p, o, record⟩ := e
    exact .bind ((each p o record List.mem_cons_self).weaken fun _ _ => trivial)
      fun _ _ => ih (fun p o record hmem => each p o record (List.mem_cons_of_mem _ hmem)) _

theorem reconcileInstallOperations_keeps (list : P (.supervisor .listInstallOperations))
    (rows : P .listInstallRecords) (each : ∀ operations records, possible .listInstallRecords (.ok records) →
      ∀ p o record, (p, o, record) ∈ listedEntries operations records ++ unlistedEntries operations records →
          Keeps possible P (fun _ => True) (reconcileEntry p o record)) :
    Keeps possible P (fun _ => True) reconcileInstallOperations := by
  refine Keeps.bind (runtime_keeps_any _ list) fun operations _ => ?_
  refine Keeps.bind (Keeps.orElse (ask_within .listInstallRecords rows))
    fun records hrecords => ?_
  · refine Keeps.bind (Keeps.lift (reconcileEntries_keeps (each operations records hrecords) none))
      fun firstError _ => ?_
    cases firstError with
    | some error => exact Keeps.throw
    | none => exact Keeps.pure trivial

end AudioDown.Core
