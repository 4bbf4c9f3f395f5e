/-
# AudioDown.Core.Joint — Core and the Supervisor together

Core's calls and the Supervisor's tasks run side by side.  A request of Core is sent, runs as a task of
the Supervisor, and its reply is received; at any time a reply may be lost, and either process may
crash.  A crash of the Supervisor loses the requests it was serving; a crash of Core loses its calls,
while the Supervisor goes on with what was sent.

A joint run is a run of each side (`joint_steps`).
-/
import AudioDown.Core.Convergence
import AudioDown.Core.Rows
import AudioDown.Supervisor.Journal

namespace AudioDown.Core

open Lib (Run)
open Supervisor

structure Joint where
  core : CoreSystem
  supervisor : System
  /-- the Supervisor's task that serves the request of a call of Core -/
  serving : Nat → Option Nat

def Joint.initial : Joint := ⟨CoreSystem.initial, System.initial, fun _ => none⟩

def Joint.world (s : Joint) : CoreWorld := ⟨s.supervisor.world, s.core.store⟩

inductive JointLabel where
  /-- Core does something by itself -/
  | core (label : CoreLabel)
  /-- so does the Supervisor -/
  | supervisor (label : Label)
  /-- a call of Core sends the request it has come to, and the Supervisor reads its clock -/
  | send (task : Nat) (now : Timestamp)
  /-- it receives the reply -/
  | receive (task : Nat)
  /-- it learns that there will be none -/
  | lose (task : Nat)

/-- The request a call of Core has come to. -/
def CoreSystem.request (s : CoreSystem) (i : Nat) : Option SupervisorCall :=
  match s.tasks[i]? with
  | some ⟨_, .act (.supervisor call) _⟩ => some call
  | _ => none

/-- The reply to it, once its task has returned. -/
def Joint.reply (s : Joint) (i : Nat) : Option Reply :=
  match (s.serving i).bind fun j => s.supervisor.tasks[j]? with
  | some ⟨_, .ret reply⟩ => some reply
  | _ => none

def Joint.next (iid : String) (s : Joint) : JointLabel → Option Joint
  | .core (.advance i c) =>
      -- requests are answered by the Supervisor
      if (s.core.request i).isSome then none
      else (s.core.next (.advance i c)).map fun core => { s with core }
  | .core label =>
      (s.core.next label).map fun core =>
        { s with core, serving := match label with
          | .crash | .returned => fun _ => none
          | _ => s.serving }
  | .supervisor (.call _) => none
  | .supervisor label =>
      (s.supervisor.next iid label).map fun supervisor =>
        { s with supervisor, serving := match label with
          | .crash | .crashDuring .. => fun _ => none
          | _ => s.serving }
  | .send i now =>
      match s.core.request i, s.serving i with
      | some call, none =>
          (s.supervisor.next iid (.call (call.request now))).map fun supervisor =>
            { s with supervisor
                     serving := Function.update s.serving i (some s.supervisor.tasks.length) }
      | _, _ => none
  | .receive i =>
      match s.reply i with
      | some reply =>
          (s.core.next (.advance i (.replied reply))).map fun core =>
            { s with core, serving := Function.update s.serving i none }
      | none => none
  | .lose i =>
      if (s.core.request i).isSome then
        (s.core.next (.advance i .failed)).map fun core =>
          { s with core, serving := Function.update s.serving i none }
      else none

/-- Outside of crashes, the Supervisor's files can be read and written. -/
def JointLabel.FilesWork : JointLabel → Prop
  | .supervisor label => label.FilesWork
  | _ => True

instance : DecidablePred JointLabel.FilesWork := fun label => by
  cases label <;> unfold JointLabel.FilesWork <;> infer_instance

/-- What a joint label does.  A step by one side ends the serving of requests only if it ends the calls
or the tasks themselves. -/
inductive JointNext (iid : String) (s : Joint) : JointLabel → Joint → Prop where
  | core {label : CoreLabel} {core : CoreSystem} {serving : Nat → Option Nat}
      (own : ∀ i c, label = .advance i c → s.core.request i = none)
      (step : s.core.next label = some core)
      (kept : ∀ i j, serving i = some j →
        s.serving i = some j ∧ label ≠ .crash ∧ label ≠ .returned) :
      JointNext iid s (.core label) { s with core, serving }
  | supervisor {label : Label} {supervisor : System} {serving : Nat → Option Nat}
      (step : s.supervisor.next iid label = some supervisor)
      (kept : ∀ i j, serving i = some j →
        s.serving i = some j ∧ label ≠ .crash ∧ ∀ task c, label ≠ .crashDuring task c) :
      JointNext iid s (.supervisor label) { s with supervisor, serving }
  | send {i : Nat} {now : Timestamp} {call : SupervisorCall} {supervisor : System}
      (request : s.core.request i = some call) (free : s.serving i = none)
      (step : s.supervisor.next iid (.call (call.request now)) = some supervisor) :
      JointNext iid s (.send i now)
        { s with supervisor
                 serving := Function.update s.serving i (some s.supervisor.tasks.length) }
  | receive {i : Nat} {reply : Reply} {core : CoreSystem} (replied : s.reply i = some reply)
      (step : s.core.next (.advance i (.replied reply)) = some core) :
      JointNext iid s (.receive i)
        { s with core, serving := Function.update s.serving i none }
  | lose {i : Nat} {core : CoreSystem} (waiting : (s.core.request i).isSome = true)
      (step : s.core.next (.advance i .failed) = some core) :
      JointNext iid s (.lose i)
        { s with core, serving := Function.update s.serving i none }

variable {label : JointLabel}

theorem jointNext_cases {iid : String} {s s' : Joint}
    (h : s.next iid label = some s') : JointNext iid s label s' := by
  cases label with
  | core label =>
    cases label with
    | advance i c =>
      simp only [Joint.next] at h
      split at h
      · cases h
      · rename_i own
        obtain ⟨core, hcore, rfl⟩ := Option.map_eq_some_iff.mp h
        refine .core (fun j c' hj => ?_) hcore fun _ _ hserving => ⟨hserving, by simp, by simp⟩
        cases hj
        exact Option.not_isSome_iff_eq_none.mp own
    | call | listen =>
      simp only [Joint.next, Option.map_eq_some_iff] at h
      obtain ⟨core, hcore, rfl⟩ := h
      exact .core nofun hcore fun _ _ hserving => ⟨hserving, by simp, by simp⟩
    | returned | crash =>
      simp only [Joint.next, Option.map_eq_some_iff] at h
      obtain ⟨core, hcore, rfl⟩ := h
      exact .core nofun hcore nofun
  | supervisor label =>
    cases label with
    | call request => cases h
    | crash | crashDuring =>
      simp only [Joint.next, Option.map_eq_some_iff] at h
      obtain ⟨supervisor, hsupervisor, rfl⟩ := h
      exact .supervisor hsupervisor nofun
    | _ =>
      simp only [Joint.next, Option.map_eq_some_iff] at h
      obtain ⟨supervisor, hsupervisor, rfl⟩ := h
      exact .supervisor hsupervisor fun _ _ hserving => ⟨hserving, by simp, by simp⟩
  | send i now =>
    simp only [Joint.next] at h
    split at h
    · rename_i request free
      obtain ⟨supervisor, hsupervisor, rfl⟩ := Option.map_eq_some_iff.mp h
      exact .send request free hsupervisor
    · cases h
  | receive i =>
    simp only [Joint.next] at h
    split at h
    · rename_i replied
      obtain ⟨core, hcore, rfl⟩ := Option.map_eq_some_iff.mp h
      exact .receive replied hcore
    · cases h
  | lose i =>
    simp only [Joint.next] at h
    split at h
    · rename_i waiting
      obtain ⟨core, hcore, rfl⟩ := Option.map_eq_some_iff.mp h
      exact .lose waiting hcore
    · cases h

/-- **A joint step is a step of each side, or of one.** -/
theorem joint_steps {iid : String} {s s' : Joint} (files : label.FilesWork) (h : s.next iid label = some s') :
    (s'.core = s.core ∨ ∃ l, s.core.next l = some s'.core) ∧ (s'.supervisor = s.supervisor ∨ ∃ l : Label,
    l.FilesWork ∧ s.supervisor.next iid l = some s'.supervisor) := by
  cases jointNext_cases h with
  | core _ step => exact ⟨.inr ⟨_, step⟩, .inl rfl⟩
  | supervisor step => exact ⟨.inl rfl, .inr ⟨_, files, step⟩⟩
  | send _ _ step => exact ⟨.inl rfl, .inr ⟨.call _, trivial, step⟩⟩
  | receive _ step | lose _ step => exact ⟨.inr ⟨_, step⟩, .inl rfl⟩

/-! ## Every joint run -/

structure Joint.Sound (iid : String) (s : Joint) : Prop where
  core : s.core.Purposeful
  supervisor : s.supervisor.Journalled iid

section
variable {iid : String} {s s' : Joint}

theorem Joint.Sound.next (h : s.Sound iid) (files : label.FilesWork)
    (hnext : s.next iid label = some s') : s'.Sound iid := by
  obtain ⟨hcore, hsupervisor⟩ := joint_steps files hnext
  constructor
  · rcases hcore with hsame | ⟨l, hl⟩
    · rw [hsame]
      exact h.core
    · exact h.core.next hl
  · rcases hsupervisor with hsame | ⟨l, hfiles, hl⟩
    · rw [hsame]
      exact h.supervisor
    · exact h.supervisor.next (hfiles.written _) hl

theorem joint_sound {labels : List JointLabel}
    (run : Run (Joint.next iid) (fun _ label => label.FilesWork) Joint.initial labels s) : s.Sound iid :=
  run.invariant (fun _ _ _ h files hnext => h.next files hnext) ⟨purposeful_initial, journalled_initial⟩

theorem Joint.Sound.regular (h : s.Sound iid) (serving : s.supervisor.phase = .serving) :
    Regular iid s.world where
  named := h.supervisor.journal.keyed.inMemory
  owned o r hr := h.supervisor.journal.owned o r (h.supervisor.journal.mirrored o r hr)
  closed o r hr := h.supervisor.journal.closed o r (h.supervisor.journal.mirrored o r hr)
  room := by
    have hcount : (Supervisor.openIds s.supervisor.world.state.operations).length ≤
        0 + (Supervisor.openIds s.supervisor.world.records).length :=
      Supervisor.length_openIds_le [] fun o r hr hack =>
        .inr ⟨r, (h.supervisor.serving serving o).symm.trans hr, hack⟩
    have hroom := h.supervisor.journal.room
    rw [← length_openIds]
    show (Supervisor.openIds s.supervisor.world.state.operations).length ≤ _
    omega
  waiting p row hrow := h.core.rows p row hrow

/-- **When reconciliation converges.**  In every run of installs, with crashes of either side and lost
replies, and whenever the Supervisor is up: one undisturbed reconciliation brings both sides together
exactly if the state before it is reconcilable. -/
theorem reconcile_converges_iff {labels : List JointLabel}
    (run : Run (Joint.next iid) (fun _ label => label.FilesWork) Joint.initial labels s)
    (serving : s.supervisor.phase = .serving) (now : Timestamp) :
    ReconcileLaw iid now s.world ↔ Reconcilable iid s.world :=
  ((joint_sound run).regular serving).reconcileLaw_iff now

end

/-! ## Requests and the tasks that serve them -/

/-- A task of Core that waits for the Supervisor stays as it is while Core does something else. -/
theorem waiting_kept {s s' : CoreSystem} {label : CoreLabel} {i : Nat} {tag : CoreCall}
    {call : SupervisorCall} {k : (CoreAct.supervisor call).Resp → CoreProgram Unit}
    (waiting : s.tasks[i]? = some ⟨tag, .act (.supervisor call) k⟩) (h : s.next label = some s')
    (elsewhere : ∀ c, label ≠ .advance i c) (crash : label ≠ .crash) (returned : label ≠ .returned) :
    s'.tasks[i]? = some ⟨tag, .act (.supervisor call) k⟩ := by
  cases coreNext_cases h with
  | startingCall call starting quiet idle =>
    rw [idle] at waiting
    cases waiting
  | call call =>
    rw [List.getElem?_append_left (List.getElem?_eq_some_iff.mp waiting).1, waiting]
  | returned => exact absurd rfl returned
  | listen => exact waiting
  | @advance j c _ _ _ task =>
    have hne : j ≠ i := fun hj => elsewhere c (by rw [hj])
    show (s.tasks.set j _)[i]? = _
    rw [List.getElem?_set_ne hne, waiting]
  | crash => exact absurd rfl crash

theorem served_kept {iid : String} {s s' : System} {label : Label} {j : Nat} {t : SupervisorTask}
    (task : s.tasks[j]? = some t) (serving : s.phase = .serving) (h : s.next iid label = some s')
    (crash : label ≠ .crash) (crashDuring : ∀ i c, label ≠ .crashDuring i c) :
    s'.phase = .serving ∧ ∃ prog, s'.tasks[j]? = some ⟨t.tag, prog⟩ := by
  have old : j < s.tasks.length := (List.getElem?_eq_some_iff.mp task).1
  cases Supervisor.next_cases h with
  | boot _ down => cases down.symm.trans serving
  | ready opening => cases opening.symm.trans serving
  | call request =>
    refine ⟨serving, t.prog, ?_⟩
    rw [List.getElem?_append_left old, task]
  | @advance i c tag act k moved =>
    refine ⟨serving, ?_⟩
    show ∃ prog, (s.tasks.set i _ ++ _)[j]? = _
    rw [List.getElem?_append_left (by rwa [List.length_set])]
    by_cases hij : i = j
    · subst hij
      cases moved.symm.trans task
      exact ⟨_, List.getElem?_set_self old⟩
    · exact ⟨_, (List.getElem?_set_ne hij).trans task⟩
  | crash => exact absurd rfl crash
  | crashDuring => exact absurd rfl (crashDuring _ _)
  | removePlugin | outside => exact ⟨serving, _, task⟩

/-- The task that serves a request of Core: Core still waits, and the task was started for it. -/
structure Joint.Serves (s : Joint) (i j : Nat) (tag : CoreCall) (call : SupervisorCall)
    (t : SupervisorTask) : Prop where
  waiting : ∃ k, s.core.tasks[i]? = some ⟨tag, .act (.supervisor call) k⟩
  phase : s.supervisor.phase = .serving
  task : s.supervisor.tasks[j]? = some t
  started : ∃ now, t.tag = .request (call.request now)

/-- The calls of a start run alone, before Core listens; and requests are served by their own tasks. -/
structure Joint.Orderly (s : Joint) : Prop where
  exclusive : ∀ t ∈ s.core.tasks, t.tag.starting = true → s.core.listening = false ∧ s.core.tasks = [t]
  served : ∀ i j, s.serving i = some j → ∃ tag call t, s.Serves i j tag call t

theorem orderly_initial : Joint.initial.Orderly :=
  ⟨fun _ ht => absurd ht List.not_mem_nil, nofun⟩

section
variable {iid : String} {s s' : Joint} {label : JointLabel} {i j : Nat} {tag : CoreCall}
  {call : SupervisorCall} {t : SupervisorTask}

theorem Joint.Serves.core {l : CoreLabel} {core : CoreSystem} {serving : Nat → Option Nat}
    (h : s.Serves i j tag call t) (step : s.core.next l = some core)
    (elsewhere : ∀ c, l ≠ .advance i c) (crash : l ≠ .crash) (returned : l ≠ .returned) :
    Joint.Serves { s with core, serving } i j tag call t := by
  obtain ⟨k, waiting⟩ := h.waiting
  exact ⟨⟨k, waiting_kept waiting step elsewhere crash returned⟩, h.phase, h.task, h.started⟩

theorem Joint.Serves.supervisor {l : Label} {supervisor : System} {serving : Nat → Option Nat}
    (h : s.Serves i j tag call t) (step : s.supervisor.next iid l = some supervisor)
    (crash : l ≠ .crash) (crashDuring : ∀ n c, l ≠ .crashDuring n c) :
    ∃ t', Joint.Serves { s with supervisor, serving } i j tag call t' := by
  obtain ⟨phase, prog, htask⟩ := served_kept h.task h.phase step crash crashDuring
  exact ⟨_, h.waiting, phase, htask, h.started⟩

theorem Joint.Orderly.served_of_next (h : s.Orderly) (hnext : s.next iid label = some s')
    (hserving : s'.serving i = some j) : ∃ tag call t, s'.Serves i j tag call t := by
  cases jointNext_cases hnext with
  | @core label core serving own step kept =>
    obtain ⟨hold, crash, returned⟩ := kept i j hserving
    obtain ⟨tag, call, t, hserves⟩ := h.served i j hold
    have elsewhere : ∀ c, label ≠ .advance i c := by
      intro c hl
      obtain ⟨k, waiting⟩ := hserves.waiting
      have hnone := own i c hl
      simp [CoreSystem.request, waiting] at hnone
    exact ⟨tag, call, t, hserves.core step elsewhere crash returned⟩
  | supervisor step kept =>
    obtain ⟨hold, crash, crashDuring⟩ := kept i j hserving
    obtain ⟨tag, call, t, hserves⟩ := h.served i j hold
    exact ⟨tag, call, hserves.supervisor step crash crashDuring⟩
  | @send n now call supervisor request free step =>
    by_cases hn : i = n
    · -- the request just sent
      subst hn
      have hj : s.supervisor.tasks.length = j := by simpa using hserving
      subst hj
      unfold CoreSystem.request at request
      split at request
      · rename_i tag call' k waiting
        cases request
        cases Supervisor.next_cases step with
        | call _ serving =>
          exact ⟨tag, call, (Tag.request (call.request now)).task iid,
            ⟨⟨k, waiting⟩, serving, by simp, now, rfl⟩⟩
        | outside _ _ _ _ _ external => exact external.elim
      · cases request
    · have hold : s.serving i = some j := by
        have hupdate := hserving
        simp only [Function.update_of_ne hn] at hupdate
        exact hupdate
      obtain ⟨tag, call, t, hserves⟩ := h.served i j hold
      exact ⟨tag, call, hserves.supervisor step (by simp) (by simp)⟩
  | @receive n _ _ _ step | @lose n _ _ step =>
    -- the request answered is no longer served
    by_cases hn : i = n
    · subst hn
      simp at hserving
    · have hold : s.serving i = some j := by
        have hupdate := hserving
        simp only [Function.update_of_ne hn] at hupdate
        exact hupdate
      obtain ⟨tag, call, t, hserves⟩ := h.served i j hold
      refine ⟨tag, call, t, hserves.core step (fun c hc => hn ?_) (by simp) (by simp)⟩
      cases hc
      rfl

theorem Joint.Orderly.next (h : s.Orderly) (hnext : s.next iid label = some s') : s'.Orderly := by
  constructor
  · cases jointNext_cases hnext with
    | core _ step | receive _ step | lose _ step => exact exclusive_next h.exclusive step
    | supervisor | send => exact h.exclusive
  · exact fun i j => h.served_of_next hnext

end

/-! ## Two installations -/

/-- What inspection has staged of the plugin the runs below install. -/
def sampleStaged : StagedPlugin :=
  ⟨"p", .content, ["content.search"], "1.0.0", "platform", sampleOutput.artifact.repositoryId,
    sampleOutput.artifact.commitSha, sampleOutput.artifact.sourceHash, sampleOutput.artifact.manifestHash⟩

def sampleArtifact : PluginInstallArtifact := sampleOutput.artifact

/-- Task `task` of the Supervisor takes `n` steps. -/
def works (task n : Nat) : List JointLabel := List.replicate n (.supervisor (.advance task .done))

/-- The Supervisor opens its manager; Core cleans up, reconciles and listens. -/
def startedRun : List JointLabel :=
  [.supervisor (.boot 0)] ++ works 0 5 ++ [.supervisor .ready,
    .core (.call .cleanupAllRuntimes), .core (.advance 0 (.done 0)), .core .returned,
    .core (.call .reconcileInstallOperations), .send 0 0] ++ works 0 1 ++ [.receive 0,
    .core (.advance 0 (.done 0)), .core .returned, .core .listen]

/-- An install of plugin `p` begins operation 1. -/
def begunRun : List JointLabel :=
  startedRun ++ [.core (.call (.install 7 "p" 0 1)), .core (.advance 0 (.flag true)),
    .core (.advance 0 (.staged (.ok sampleStaged))), .core (.advance 0 (.done 0)),
    .core (.advance 0 (.granted (.ok none))), .core (.advance 0 (.prepared (.ok 1))),
    .supervisor (.prepare 1 ⟨none⟩), .send 0 1] ++ works 1 2 ++ [.receive 0]

/-- The build succeeds, the record is inserted, the operation finalized; then Core crashes. -/
def finalizedRun : List JointLabel :=
  begunRun ++ works 2 2 ++ [.supervisor (.advance 2 (.built (.ok sampleOutput)))] ++ works 2 5 ++
    [.send 0 3] ++ works 3 1 ++
    [.receive 0, .core (.advance 0 (.done 4)), .core (.advance 0 (.done 4)), .send 0 5] ++
    works 4 12 ++ [.core .crash]

/-- The build fails; Core sees it, asks for an abort, is refused, and the install returns. -/
def failedRun : List JointLabel :=
  begunRun ++ works 2 2 ++ [.supervisor (.advance 2 (.built (.error ⟨"BUILD_FAILED", []⟩)))] ++
    works 2 3 ++ [.send 0 3] ++ works 3 1 ++ [.receive 0, .send 0 4] ++ works 4 2 ++ [.receive 0]

/-- Where a list of labels leads, from the start. -/
def jointAfter (labels : List JointLabel) : Joint :=
  (labels.foldlM (Joint.next "inst") Joint.initial).getD Joint.initial

theorem finalizedRun_run : Run (Joint.next "inst")
      (fun _ label => label.FilesWork) Joint.initial finalizedRun (jointAfter finalizedRun) :=
  .of_decide rfl

theorem failedRun_run : Run (Joint.next "inst") (fun _ label => label.FilesWork) Joint.initial
    failedRun (jointAfter failedRun) :=
  .of_decide rfl

/-- A crash between finalizing and completing is repaired by the next reconciliation. -/
theorem reconcile_converges_after_crash :
    ∃ labels s, Run (Joint.next "inst") (fun _ label => label.FilesWork) Joint.initial labels s ∧
      s.supervisor.phase = .serving ∧ ReconcileLaw "inst" 6 s.world := by
  have serving : (jointAfter finalizedRun).supervisor.phase = .serving := rfl
  refine ⟨finalizedRun, jointAfter finalizedRun, finalizedRun_run, serving, ?_⟩
  refine (reconcile_converges_iff finalizedRun_run serving 6).mpr ?_
  have regular := (joint_sound finalizedRun_run).regular serving
  rw [regular.reconcilable_iff]
  have entries : entriesOf "inst" (jointAfter finalizedRun).world =
      [("p", 1, some (installRecord sampleStaged 1 sampleOutput.artifact 4))] := rfl
  intro p o record hmem
  rw [entries, List.mem_singleton] at hmem
  cases hmem
  exact ⟨_, rfl, rfl, .inl ⟨_, rfl, rfl⟩⟩

/-- **Reconciliation stays stuck on a failed build**: `abort` refuses a failed operation, so it can be
neither given up nor acknowledged, and every reconciliation returns an error. -/
theorem reconcile_stuck_on_failed_build :
    ∃ labels s, Run (Joint.next "inst") (fun _ label => label.FilesWork) Joint.initial labels s ∧
      s.supervisor.phase = .serving ∧ ¬ ReconcileLaw "inst" 6 s.world := by
  refine ⟨failedRun, jointAfter failedRun, failedRun_run, rfl, ?_⟩
  rintro ⟨hok, -⟩
  have herror : (alone "inst" 6 reconcileInstallOperations (jointAfter failedRun).world).1 =
      .error .runtimeUnavailable := rfl
  rw [herror] at hok
  cases hok

end AudioDown.Core
