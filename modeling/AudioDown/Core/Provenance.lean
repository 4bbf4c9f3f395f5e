/-
# AudioDown.Core.Provenance — an installation is completed on the Supervisor's word

A record leaves `Installing` in two places: at the end of `install`, and when a reconciliation finds an
installation that was interrupted.  In both the call that completes it has been told before, by the
Supervisor, that the operation the record waits for is finalized, with the record's own image and
hashes.

Reconciliation compares the reported artifact with the record.  `install` compares it with what was
staged, which has no image; that the image is the one it put into the record is a fact about the
Supervisor, which never reports two artifacts of one operation (`System.Tracks`).
-/
import AudioDown.Core.Joint
import AudioDown.Supervisor.Tracking

namespace AudioDown.Core

open Lib Supervisor

/-! ## Observed runs -/

/-- Both sides, with the notes of Core's calls beside its tasks. -/
structure Observed where
  joint : Joint
  notes : List Notes

def Observed.initial : Observed := ⟨Joint.initial, []⟩

def Joint.outcome (s : Joint) : JointLabel → Option (Nat × CoreOutcome)
  | .core (.advance i c) => some (i, c)
  | .receive i => (s.reply i).map fun reply => (i, .replied reply)
  | .lose i => some (i, .failed)
  | _ => none

/-- What call `i` has learned when its step ends with `c`. -/
def CoreSystem.learned (s : CoreSystem) (i : Nat) (c : CoreOutcome) (n : Notes) : Notes :=
  match s.tasks[i]? with
  | some ⟨_, .act a _⟩ => n.note a (coreStep a c s.store).1
  | _ => n

def Observed.notesAfter (s : Observed) : JointLabel → List Notes
  | .core (.call _) => s.notes ++ [Notes.blank]
  | .core .returned | .core .crash => []
  | label =>
      match s.joint.outcome label with
      | some (i, c) => s.notes.modify i (s.joint.core.learned i c)
      | none => s.notes

def Observed.next (iid : String) (s : Observed) (label : JointLabel) : Option Observed :=
  (s.joint.next iid label).map fun joint => ⟨joint, s.notesAfter label⟩

/-- What a label does, seen from Core's calls. -/
inductive ObservedNext (iid : String) (s s' : Observed) (label : JointLabel) : Prop where
  /-- a call takes a step; what the Supervisor reports to it, the task that serves it has returned -/
  | advance {i : Nat} {c : CoreOutcome} {tag : CoreCall} {a : CoreAct}
      {k : a.Resp → CoreProgram Unit} {n : Notes}
      (task : s.joint.core.tasks[i]? = some ⟨tag, .act a k⟩) (noted : s.notes[i]? = some n)
      (own : (∀ call, a ≠ .supervisor call) → label = .core (.advance i c))
      (heard : ∀ call, a = .supervisor call →
        ∀ report ∈ call.reported (coreStep (.supervisor call) c s.joint.core.store).1,
          ∃ (j : Nat) (t : Tag), s.joint.serving i = some j ∧
            s.joint.supervisor.tasks[j]? = some ⟨t, .ret (.operation (.ok report))⟩)
      (core : s'.joint.core = s.joint.core.advanced i tag a k c)
      (supervisor : s'.joint.supervisor = s.joint.supervisor)
      (notes : s'.notes = s.notes.set i (n.note a (coreStep a c s.joint.core.store).1))
  /-- a call begins -/
  | call (call : CoreCall) (called : label = .core (.call call))
      (store : s'.joint.core.store = s.joint.core.store)
      (tasks : s'.joint.core.tasks = s.joint.core.tasks ++ [call.task])
      (supervisor : s'.joint.supervisor = s.joint.supervisor)
      (notes : s'.notes = s.notes ++ [Notes.blank])
  /-- all calls end -/
  | ended (store : s'.joint.core.store = s.joint.core.store) (tasks : s'.joint.core.tasks = [])
      (supervisor : s'.joint.supervisor = s.joint.supervisor) (notes : s'.notes = [])
  /-- Core listens -/
  | listen (store : s'.joint.core.store = s.joint.core.store)
      (tasks : s'.joint.core.tasks = s.joint.core.tasks)
      (supervisor : s'.joint.supervisor = s.joint.supervisor) (notes : s'.notes = s.notes)
  /-- the Supervisor does something, perhaps on a request of a call -/
  | supervisor {l : Label} (core : s'.joint.core = s.joint.core) (notes : s'.notes = s.notes)
      (step : s.joint.supervisor.next iid l = some s'.joint.supervisor)
      (sent : ∀ p o now, l = .call (.acknowledge p o now) →
        ∃ (i : Nat) (tag : CoreCall) (k : _),
          s.joint.core.tasks[i]? = some ⟨tag, .act (.supervisor (.acknowledgeInstall p o)) k⟩)

section
variable {iid : String} {s s' : Observed} {label : JointLabel}

theorem returned_of_reply {j : Joint} {i : Nat} {reply : Supervisor.Reply}
    (replied : j.reply i = some reply) {call : SupervisorCall} {report : PluginInstallOperation}
    (hreport : report ∈ call.reported (call.answer reply)) : ∃ (n : Nat) (t : Tag), j.serving i = some n ∧
      j.supervisor.tasks[n]? = some ⟨t, .ret (.operation (.ok report))⟩ := by
  unfold Joint.reply at replied
  split at replied
  · rename_i t reply' htask
    cases replied
    obtain ⟨n, hserving, htask⟩ := Option.bind_eq_some_iff.mp htask
    refine ⟨n, t, hserving, ?_⟩
    rw [htask]
    cases call <;> cases reply with
    | operation r =>
      cases r with
      | ok operation =>
        simp [SupervisorCall.answer, SupervisorCall.reported] at hreport
        try rw [hreport]
      | error e => simp [SupervisorCall.answer, SupervisorCall.reported] at hreport
    | operations | unit => simp [SupervisorCall.answer, SupervisorCall.reported] at hreport
  · cases replied

theorem request_eq_some {core : CoreSystem} {i : Nat} {call : SupervisorCall}
    (h : core.request i = some call) : ∃ tag k, core.tasks[i]? = some ⟨tag, .act (.supervisor call) k⟩ := by
  unfold CoreSystem.request at h
  split at h
  · rename_i tag call' k task
    cases h
    exact ⟨tag, k, task⟩
  · cases h

theorem observed_advance {i : Nat} {c : CoreOutcome} {core : CoreSystem}
    (lengths : s.notes.length = s.joint.core.tasks.length)
    (step : s.joint.core.next (.advance i c) = some core)
    (hcore : s'.joint.core = core) (hsupervisor : s'.joint.supervisor = s.joint.supervisor)
    (hnotes : s'.notes = s.notes.modify i (s.joint.core.learned i c))
    (own : s.joint.core.request i = none → label = .core (.advance i c))
    (heard : ∀ call, s.joint.core.request i = some call →
      ∀ report ∈ call.reported (coreStep (.supervisor call) c s.joint.core.store).1, ∃ (j : Nat) (t : Tag),
        s.joint.serving i = some j ∧ s.joint.supervisor.tasks[j]? = some ⟨t, .ret (.operation (.ok report))⟩) :
    ObservedNext iid s s' label := by
  cases coreNext_cases step with
  | @advance _ _ tag a k task =>
    have hlt : i < s.notes.length := lengths ▸ (List.getElem?_eq_some_iff.mp task).1
    refine .advance task (List.getElem?_eq_getElem hlt) (fun other => own ?_) (fun call hcall => ?_)
      hcore hsupervisor ?_
    · unfold CoreSystem.request
      rw [task]
      split
      · rename_i call _ heq
        cases heq
        exact absurd rfl (other call)
      · rfl
    · subst hcall
      exact heard call (by simp [CoreSystem.request, task])
    · rw [hnotes, List.modify_eq_set_getElem? , List.getElem?_eq_getElem hlt]
      simp [CoreSystem.learned, task]

theorem observedNext_cases (orderly : s.joint.Orderly) (lengths : s.notes.length = s.joint.core.tasks.length)
    (h : s.next iid label = some s') : ObservedNext iid s s' label := by
  obtain ⟨joint, hjoint, rfl⟩ := Option.map_eq_some_iff.mp h
  cases jointNext_cases hjoint with
  | @core l core serving own step kept =>
    cases l with
    | advance i c =>
      refine observed_advance lengths step rfl rfl rfl (fun _ => rfl) fun call hcall => ?_
      cases (own i c rfl).symm.trans hcall
    | call call =>
      cases coreNext_cases step with
      | startingCall _ _ _ idle =>
        exact .call call rfl rfl (by rw [idle]; rfl) rfl rfl
      | call => exact .call call rfl rfl rfl rfl rfl
    | returned => cases coreNext_cases step with | returned => exact .ended rfl rfl rfl rfl
    | crash => cases coreNext_cases step with | crash => exact .ended rfl rfl rfl rfl
    | listen => cases coreNext_cases step with | listen => exact .listen rfl rfl rfl rfl
  | @supervisor l _ _ step kept =>
    refine .supervisor rfl rfl step fun p o now hl => ?_
    subst hl
    cases hjoint
  | @send i now call _ request free step =>
    refine .supervisor rfl rfl step fun p o now' hl => ?_
    obtain ⟨tag, k, task⟩ := request_eq_some request
    cases call with
    | acknowledgeInstall p' o' =>
      cases hl
      exact ⟨i, tag, k, task⟩
    | _ => cases hl
  | @receive i reply core replied step =>
    refine observed_advance lengths step rfl rfl ?_ (fun hnone => ?_)
      fun call _ report hreport => returned_of_reply replied hreport
    · simp [Observed.notesAfter, Joint.outcome, replied]
    · -- a reply answers a request
      obtain ⟨j, hj⟩ : ∃ j, s.joint.serving i = some j := by
        cases hserving : s.joint.serving i with
        | some j => exact ⟨j, rfl⟩
        | none => simp [Joint.reply, hserving] at replied
      obtain ⟨tag, call, t, hserves⟩ := orderly.served i j hj
      obtain ⟨k, waiting⟩ := hserves.waiting
      simp [CoreSystem.request, waiting] at hnone
  | @lose i core waiting step =>
    refine observed_advance lengths step rfl rfl rfl (fun hnone => ?_)
      fun call _ report hreport => ?_
    · rw [hnone] at waiting
      cases waiting
    · cases call <;> cases hreport

end

/-! ## The runs -/

/-- An id nobody has used: no record, no request and no task of the Supervisor, no call of Core and no
row of the table knows it. -/
structure Observed.Fresh (o : Uuid) (s : Observed) : Prop where
  supervisor : s.joint.supervisor.Unused o
  calls : ∀ n ∈ s.notes, n.operation ≠ some o
  rows : ∀ p row, s.joint.core.store.get p = some row → row.installOperationId ≠ some o

def CoreCall.Installs : CoreCall → Prop
  | .install .. | .reconcileInstallOperations => True
  | _ => False

/-- Runs of `install` and of `reconcile_install_operations`.  Any step may fail, any reply may get lost,
and both processes may crash; the ids `prepare_install` draws are new. -/
def Allowed (s : Observed) : JointLabel → Prop
  | .core (.call call) => call.Installs
  | .core (.advance i (.prepared (.ok o))) =>
      (∃ tag staged risk k, s.joint.core.tasks[i]? = some ⟨tag, .act (.prepareInstall staged risk) k⟩) →
        s.Fresh o
  | _ => True

def CoreCall.Permits : CoreCall → Notes → CoreAct → Prop
  | .install .. => InstallAsks
  | .reconcileInstallOperations => ReconcileAsks
  | _ => fun _ _ => False

theorem program_traces {call : CoreCall} (h : call.Installs) :
    call.program.Traces Notes.note call.Permits (fun _ _ => True) Notes.blank := by
  cases call with
  | install snapshotId p beginPolls buildPolls =>
    exact .bind (install_noted snapshotId beginPolls buildPolls) fun _ _ _ => trivial
  | reconcileInstallOperations => exact .bind reconcile_noted fun _ _ _ => trivial
  | _ => exact h.elim

/-- Call `i` of Core, with its notes. -/
structure Observed.At (s : Observed) (i : Nat) (t : CoreTask) (n : Notes) : Prop where
  task : s.joint.core.tasks[i]? = some t
  noted : s.notes[i]? = some n

/-- The records a reconciliation has listed: one a plugin, and those that name an operation have not
changed since. -/
structure ListedFrom (store : PluginStore) (records : List InstallPluginRecord) : Prop where
  unique : ∀ record ∈ records, ∀ record' ∈ records, record.pluginId = record'.pluginId → record = record'
  current : ∀ p row o, store.get p = some row → row.installOperationId = some o → row ∈ records

structure Observed.Grounded (iid : String) (s : Observed) : Prop where
  orderly : s.joint.Orderly
  sane : s.joint.supervisor.Sane iid
  lengths : s.notes.length = s.joint.core.tasks.length
  /-- every call goes on as its notes permit -/
  outlines : ∀ i t n, s.At i t n → t.prog.Traces Notes.note t.tag.Permits (fun _ _ => True) n
  /-- an operation is handed out to one installation -/
  bare : ∀ i t n, s.At i t n → t.tag = .reconcileInstallOperations → n.operation = none
  apart : ∀ i j t u n m o, s.At i t n → s.At j u m → n.operation = some o → m.operation = some o → i = j
  /-- until it is acknowledged, its reports have one artifact -/
  tracked : ∀ i t n o, s.At i t n → n.operation = some o → n.acknowledging = false →
    (∀ p, t.prog.head ≠ some (.supervisor (.acknowledgeInstall p o))) →
      ∃ a, s.joint.supervisor.Tracks iid o a ∧ ∀ report ∈ n.reports, report.Bears a
  /-- and the record that waits for it has that artifact -/
  rows : ∀ i t n p row o, s.At i t n → n.operation = some o → s.joint.core.store.get p = some row →
    row.installOperationId = some o →
      ∃ report ∈ n.reports, ∃ a, report.artifact = some a ∧ artifactMatchesRecord a row = true
  listed : ∀ i t n records, s.At i t n → t.tag = .reconcileInstallOperations →
    n.records = some records → ListedFrom s.joint.core.store records

/-! ### What a step notes -/

section
variable {a : CoreAct} {r : a.Resp} {n : Notes} {c : CoreOutcome} {store : PluginStore}

theorem mem_reports_note {report : PluginInstallOperation} (h : report ∈ n.reports) :
    report ∈ (n.note a r).reports := by
  cases a with
  | supervisor call => exact List.mem_append_right _ h
  | prepareInstall | listInstallRecords => cases r <;> exact h
  | _ => exact h

theorem acknowledging_note (h : (n.note a r).acknowledging = false) :
    n.acknowledging = false ∧ ∀ p o, a ≠ .supervisor (.acknowledgeInstall p o) := by
  cases a with
  | supervisor call =>
    simp only [Notes.note, Bool.or_eq_false_iff] at h
    refine ⟨h.1, fun p o hcall => ?_⟩
    cases hcall
    cases h.2
  | prepareInstall | listInstallRecords => cases r <;> exact ⟨h, by simp⟩
  | _ => exact ⟨h, by simp⟩

theorem reported_of_note {report : PluginInstallOperation}
    (h : report ∈ (n.note a (coreStep a c store).1).reports) : report ∈ n.reports ∨
      ∃ call, a = .supervisor call ∧ report ∈ call.reported (coreStep (.supervisor call) c store).1 := by
  cases a with
  | supervisor call =>
    rcases List.mem_append.mp h with h | h
    · exact .inr ⟨call, rfl, h⟩
    · exact .inl h
  | prepareInstall | listInstallRecords =>
    generalize (coreStep _ c store).1 = r at h
    cases r <;> exact .inl h
  | _ => exact .inl h

theorem records_of_note {records : List InstallPluginRecord}
    (h : (n.note a (coreStep a c store).1).records = some records) :
    n.records = some records ∨ (a = .listInstallRecords ∧ records = store.list) := by
  cases a with
  | listInstallRecords =>
    cases hquery : (coreStep .listInstallRecords c store).1 with
    | ok listed =>
      rw [hquery] at h
      cases h
      exact .inr ⟨rfl, query_eq_ok hquery⟩
    | error e =>
      rw [hquery] at h
      exact .inl h
  | prepareInstall =>
    generalize (coreStep _ c store).1 = r at h
    cases r <;> exact .inl h
  | _ => exact .inl h

/-- The operation is old, or `prepare_install` has just handed it out. -/
theorem operation_of_note {o : Uuid} (h : (n.note a (coreStep a c store).1).operation = some o) :
    n.operation = some o ∨ ∃ staged risk, a = .prepareInstall staged risk ∧ c = .prepared (.ok o) := by
  cases a with
  | prepareInstall staged risk =>
    cases hanswer : (coreStep (.prepareInstall staged risk) c store).1 with
    | ok o' =>
      rw [hanswer] at h
      cases h
      refine .inr ⟨staged, risk, rfl, ?_⟩
      simp only [coreStep] at hanswer
      split at hanswer
      · rw [hanswer]
      · cases hanswer
    | error e =>
      rw [hanswer] at h
      exact .inl h
  | listInstallRecords =>
    generalize (coreStep _ c store).1 = r at h
    cases r <;> exact .inl h
  | _ => exact .inl h

end

/-! ### One step -/

section
variable {iid : String} {s s' : Observed} {label : JointLabel}

theorem permits_cases {tag : CoreCall} {n : Notes} {a : CoreAct} (h : tag.Permits n a) :
    InstallAsks n a ∨ (tag = .reconcileInstallOperations ∧ ReconcileAsks n a) := by
  cases tag with
  | install => exact .inl h
  | reconcileInstallOperations => exact .inr ⟨rfl, h⟩
  | _ => exact h.elim

/-- A row that names an operation was there before, or has just been inserted by an installation. -/
theorem named_row_of_step {tag : CoreCall} {n : Notes} {a : CoreAct} {c : CoreOutcome} {store : PluginStore}
    {p : PluginId} {row : InstallPluginRecord} {o : Uuid} (permits : tag.Permits n a)
    (hrow : (coreStep a c store).2.get p = some row) (names : row.installOperationId = some o) :
    store.get p = some row ∨ (a = .insertInstalling row ∧ InstallAsks n a) := by
  cases coreStep_row a c store p with
  | same hsame => exact .inl (hsame ▸ hrow)
  | inserted insert _ _ _ hafter =>
    cases hafter.symm.trans hrow
    subst insert
    rcases permits_cases permits with asks | ⟨-, asks⟩
    · exact .inr ⟨rfl, asks⟩
    · exact asks.elim
  | saved act | touched act =>
    subst act
    rcases permits_cases permits with asks | ⟨-, asks⟩ <;> exact asks.elim
  | completed _ _ _ hafter =>
    cases hafter.symm.trans hrow
    cases names
  | rolledBack _ _ _ hafter | deleted _ hafter => cases hafter.symm.trans hrow

section
variable {i : Nat} {c : CoreOutcome} {tag : CoreCall} {a : CoreAct} {k : a.Resp → CoreProgram Unit}
  {n : Notes} (h : s.Grounded iid) (allowed : Allowed s label)
  (task : s.joint.core.tasks[i]? = some ⟨tag, .act a k⟩) (noted : s.notes[i]? = some n)
  (own : (∀ call, a ≠ .supervisor call) → label = .core (.advance i c))
  (heard : ∀ call, a = .supervisor call →
    ∀ report ∈ call.reported (coreStep (.supervisor call) c s.joint.core.store).1, ∃ (j : Nat) (t : Tag),
      s.joint.serving i = some j ∧ s.joint.supervisor.tasks[j]? = some ⟨t, .ret (.operation (.ok report))⟩)
  (core : s'.joint.core = s.joint.core.advanced i tag a k c)
  (supervisor : s'.joint.supervisor = s.joint.supervisor)
  (notes : s'.notes = s.notes.set i (n.note a (coreStep a c s.joint.core.store).1))

include task noted core notes in
theorem at_advanced {j : Nat} {t : CoreTask} {m : Notes} (hat : s'.At j t m) :
    (j = i ∧ t = ⟨tag, k (coreStep a c s.joint.core.store).1⟩ ∧
      m = n.note a (coreStep a c s.joint.core.store).1) ∨ (j ≠ i ∧ s.At j t m) := by
  obtain ⟨htask, hnoted⟩ := hat
  rw [core] at htask
  rw [notes] at hnoted
  replace htask : (s.joint.core.tasks.set i ⟨tag, k (coreStep a c s.joint.core.store).1⟩)[j]? =
    some t := htask
  by_cases hj : j = i
  · subst hj
    rw [List.getElem?_set_self (List.getElem?_eq_some_iff.mp task).1] at htask
    rw [List.getElem?_set_self (List.getElem?_eq_some_iff.mp noted).1] at hnoted
    exact .inl ⟨rfl, (Option.some.inj htask).symm, (Option.some.inj hnoted).symm⟩
  · rw [List.getElem?_set_ne (Ne.symm hj)] at htask hnoted
    exact .inr ⟨hj, htask, hnoted⟩

include h task noted in
theorem permits_advanced : tag.Permits n a := (h.outlines i _ n ⟨task, noted⟩).1

include h allowed task noted own in
/-- The operation of the call is the one it had, or a fresh one that nothing has been reported of. -/
theorem operation_advanced {o : Uuid}
    (ho : (n.note a (coreStep a c s.joint.core.store).1).operation = some o) :
    n.operation = some o ∨ (s.Fresh o ∧ tag ≠ .reconcileInstallOperations ∧
      ∀ report, report ∉ (n.note a (coreStep a c s.joint.core.store).1).reports) := by
  rcases operation_of_note ho with hold | ⟨staged, risk, rfl, rfl⟩
  · exact .inl hold
  · have hlabel := own (by simp)
    subst hlabel
    refine .inr ⟨allowed ⟨tag, staged, risk, k, task⟩, ?_⟩
    rcases permits_cases (permits_advanced h task noted) with asks | ⟨-, asks⟩
    · refine ⟨?_, fun report hreport => ?_⟩
      · rintro rfl
        exact permits_advanced h task noted
      · rcases reported_of_note hreport with hold | ⟨call, hcall, -⟩
        · rw [asks.2] at hold
          cases hold
        · cases hcall
    · exact asks.elim

include h task noted heard in
/-- What is reported to the call about its own operation has the artifact that is tracked. -/
theorem heard_bears {o : Uuid} {artifact : Option PluginInstallArtifact}
    (tracks : s.joint.supervisor.Tracks iid o artifact) (holds : n.operation = some o)
    {call : SupervisorCall} (hcall : a = .supervisor call) {report : PluginInstallOperation}
    (hreport : report ∈ call.reported (coreStep (.supervisor call) c s.joint.core.store).1) :
    report.Bears artifact := by
  obtain ⟨j, t, hserving, hreturned⟩ := heard call hcall report hreport
  subst hcall
  obtain ⟨tag', call', u, hserves⟩ := h.orderly.served i j hserving
  obtain ⟨k', waiting⟩ := hserves.waiting
  cases task.symm.trans waiting
  obtain ⟨now, hstarted⟩ := hserves.started
  cases hserves.task.symm.trans hreturned
  have about : call.operation = some o := by
    rcases permits_cases (permits_advanced h task noted) with asks | ⟨rfl, -⟩
    · exact asks.2.trans holds
    · cases (h.bare i _ n ⟨task, noted⟩ rfl).symm.trans holds
  have hrequest : (call.request now).operation = call.operation := by cases call <;> rfl
  have hmem := List.mem_of_getElem? hreturned
  rw [show t = .request (call.request now) from hstarted] at hmem
  exact tracks.reply hmem (hrequest.trans about)

include h allowed task noted own heard core supervisor notes in
theorem tracked_advanced {j : Nat} {t : CoreTask} {m : Notes} {o : Uuid} (hat : s'.At j t m)
    (holds : m.operation = some o) (waits : m.acknowledging = false)
    (quiet : ∀ p, t.prog.head ≠ some (.supervisor (.acknowledgeInstall p o))) :
    ∃ artifact, s'.joint.supervisor.Tracks iid o artifact ∧ ∀ report ∈ m.reports, report.Bears artifact := by
  rw [supervisor]
  rcases at_advanced task noted core notes hat with ⟨rfl, rfl, rfl⟩ | ⟨-, hat⟩
  · rcases operation_advanced h allowed task noted own holds with hold | ⟨fresh, -, none⟩
    · obtain ⟨hack, hne⟩ := acknowledging_note waits
      obtain ⟨artifact, tracks, bears⟩ := h.tracked j _ n o ⟨task, noted⟩ hold hack
        fun p hhead => hne p o (Option.some.inj hhead)
      refine ⟨artifact, tracks, fun report hreport => ?_⟩
      rcases reported_of_note hreport with hreport | ⟨call, hcall, hreport⟩
      · exact bears report hreport
      · exact heard_bears h task noted heard tracks hold hcall hreport
    · exact ⟨Option.none, fresh.supervisor.tracks h.sane, fun report hreport => absurd hreport (none report)⟩
  · exact h.tracked j t m o hat holds waits quiet

include h allowed task noted own core notes in
theorem rows_advanced {j : Nat} {t : CoreTask} {m : Notes} {o : Uuid} {p : PluginId}
    {row : InstallPluginRecord} (hat : s'.At j t m) (holds : m.operation = some o)
    (hrow : s'.joint.core.store.get p = some row) (names : row.installOperationId = some o) :
    ∃ report ∈ m.reports, ∃ artifact, report.artifact = some artifact ∧
      artifactMatchesRecord artifact row = true := by
  rw [core] at hrow
  have permits := permits_advanced h task noted
  rcases named_row_of_step permits hrow names with hbefore | ⟨rfl, -, hheld, hsame, report, hreport, hcarries⟩
  · rcases at_advanced task noted core notes hat with ⟨rfl, rfl, rfl⟩ | ⟨-, hat⟩
    · rcases operation_advanced h allowed task noted own holds with hold | ⟨fresh, -, -⟩
      · obtain ⟨report, hreport, hcarries⟩ := h.rows j _ n p row o ⟨task, noted⟩ hold hbefore names
        exact ⟨report, mem_reports_note hreport, hcarries⟩
      · exact absurd names (fresh.rows p row hbefore)
    · exact h.rows j t m p row o hat holds hbefore names
  · -- the row that has just been inserted belongs to the call that moved
    have hold : n.operation = some o := hsame.symm.trans names
    rcases at_advanced task noted core notes hat with ⟨rfl, rfl, rfl⟩ | ⟨hne, hat⟩
    · exact ⟨report, hreport, hcarries⟩
    · exact absurd (h.apart j i _ _ m n o hat ⟨task, noted⟩ holds hold) hne

include h task noted core notes in
theorem listed_advanced {j : Nat} {t : CoreTask} {m : Notes} {records : List InstallPluginRecord}
    (hat : s'.At j t m) (htag : t.tag = .reconcileInstallOperations)
    (hrecords : m.records = some records) : ListedFrom s'.joint.core.store records := by
  have permits := permits_advanced h task noted
  rcases at_advanced task noted core notes hat with ⟨rfl, rfl, rfl⟩ | ⟨hne, hat⟩
  · have hnone := h.bare j _ n ⟨task, noted⟩ htag
    rw [core]
    rcases records_of_note hrecords with hold | ⟨rfl, rfl⟩
    · have listed := h.listed j _ n records ⟨task, noted⟩ htag hold
      refine ⟨listed.unique, fun p row o hrow names => ?_⟩
      rcases named_row_of_step permits hrow names with hrow | ⟨rfl, -, hheld, -⟩
      · exact listed.current p row o hrow names
      · exact absurd hnone hheld
    · refine ⟨fun record hmem record' hmem' hplugin => ?_, fun p row o hrow names => ?_⟩
      · rw [PluginStore.mem_list] at hmem hmem'
        rw [hplugin, hmem'] at hmem
        exact (Option.some.inj hmem).symm
      · have hkey := Lib.Table.key_of_get hrow
        exact PluginStore.mem_list.mpr (hkey ▸ hrow)
  · -- a reconciliation runs alone
    have hlist := (h.orderly.exclusive t (List.mem_of_getElem? hat.task) (by rw [htag]; rfl)).2
    have hi := (List.getElem?_eq_some_iff.mp task).1
    have hj := (List.getElem?_eq_some_iff.mp hat.task).1
    rw [hlist, List.length_singleton] at hi hj
    omega

include h allowed task noted own heard core supervisor notes in
theorem Observed.Grounded.advanced (orderly : s'.joint.Orderly) : s'.Grounded iid where
  orderly := orderly
  sane := supervisor ▸ h.sane
  lengths := by
    rw [notes, core, List.length_set, h.lengths]
    exact (List.length_set ..).symm
  outlines j t m hat := by
    rcases at_advanced task noted core notes hat with ⟨rfl, rfl, rfl⟩ | ⟨-, hat⟩
    · exact (h.outlines j _ n ⟨task, noted⟩).2 _
    · exact h.outlines j t m hat
  bare j t m hat htag := by
    rcases at_advanced task noted core notes hat with ⟨rfl, rfl, rfl⟩ | ⟨-, hat⟩
    · refine Option.eq_none_iff_forall_ne_some.mpr fun o ho => ?_
      rcases operation_advanced h allowed task noted own ho with hold | ⟨-, hne, -⟩
      · cases (h.bare j _ n ⟨task, noted⟩ htag).symm.trans hold
      · exact hne htag
    · exact h.bare j t m hat htag
  apart j l t u m m' o hat hat' holds holds' := by
    -- a fresh id is no other call's
    have moved : ∀ {l u m'}, s.At l u m' → l ≠ i → m'.operation = some o →
        (n.note a (coreStep a c s.joint.core.store).1).operation ≠ some o := by
      intro l u m' hat' hne holds' holds
      rcases operation_advanced h allowed task noted own holds with hold | ⟨fresh, -, -⟩
      · exact hne (h.apart l i u _ m' n o hat' ⟨task, noted⟩ holds' hold)
      · exact fresh.calls m' (List.mem_of_getElem? hat'.noted) holds'
    rcases at_advanced task noted core notes hat with ⟨rfl, rfl, rfl⟩ | ⟨hne, hat⟩
    · rcases at_advanced task noted core notes hat' with ⟨rfl, -, -⟩ | ⟨hne', hat'⟩
      · rfl
      · exact absurd holds (moved hat' hne' holds')
    · rcases at_advanced task noted core notes hat' with ⟨rfl, rfl, rfl⟩ | ⟨-, hat'⟩
      · exact absurd holds' (moved hat hne holds)
      · exact h.apart j l t u m m' o hat hat' holds holds'
  tracked j t m o hat := tracked_advanced h allowed task noted own heard core supervisor notes hat
  rows j t m p row o hat := rows_advanced h allowed task noted own core notes hat
  listed j t m records hat := listed_advanced h task noted core notes hat

end

/-- A step in which no call moves: calls stay, begin or end, and the Supervisor goes on tracking. -/
theorem Observed.Grounded.still (h : s.Grounded iid) (orderly : s'.joint.Orderly)
    (sane : s'.joint.supervisor.Sane iid) (lengths : s'.notes.length = s'.joint.core.tasks.length)
    (store : s'.joint.core.store = s.joint.core.store) (old : ∀ i t n, s'.At i t n →
      s.At i t n ∨ (n = Notes.blank ∧ ∃ call : CoreCall, call.Installs ∧ t = call.task))
    (tracks : ∀ i t n o a, s.At i t n → n.operation = some o →
      (∀ p, t.prog.head ≠ some (.supervisor (.acknowledgeInstall p o))) → s.joint.supervisor.Tracks iid o a →
          ∃ a', (a = none ∨ a' = a) ∧ s'.joint.supervisor.Tracks iid o a') : s'.Grounded iid := by
  have held : ∀ {i t n} {o : Uuid}, s'.At i t n → n.operation = some o → s.At i t n := by
    intro i t n o hat holds
    rcases old i t n hat with hat | ⟨rfl, -⟩
    · exact hat
    · cases holds
  refine ⟨orderly, sane, lengths, fun i t n hat => ?_, fun i t n hat htag => ?_,
    fun i j t u n m o hat hat' holds holds' => ?_, fun i t n o hat holds waits quiet => ?_,
    fun i t n p row o hat holds hrow names => ?_, fun i t n records hat htag hrecords => ?_⟩
  · rcases old i t n hat with hat | ⟨rfl, call, hcall, rfl⟩
    · exact h.outlines i t n hat
    · exact program_traces hcall
  · rcases old i t n hat with hat | ⟨rfl, -⟩
    · exact h.bare i t n hat htag
    · rfl
  · exact h.apart i j t u n m o (held hat holds) (held hat' holds') holds holds'
  · have hat := held hat holds
    obtain ⟨a, htracks, bears⟩ := h.tracked i t n o hat holds waits quiet
    obtain ⟨a', later, htracks'⟩ := tracks i t n o a hat holds quiet htracks
    exact ⟨a', htracks', fun report hreport => (bears report hreport).mono later⟩
  · exact h.rows i t n p row o (held hat holds) holds (store ▸ hrow) names
  · rcases old i t n hat with hat | ⟨rfl, -⟩
    · exact store ▸ h.listed i t n records hat htag hrecords
    · cases hrecords

theorem Observed.Grounded.holder (h : s.Grounded iid) {i j : Nat}
    {t : CoreTask} {n : Notes} {o : Uuid} {p : PluginId} {tag : CoreCall}
    {k : (CoreAct.supervisor (.acknowledgeInstall p o)).Resp → CoreProgram Unit}
    (hat : s.At i t n) (holds : n.operation = some o)
    (asking : s.joint.core.tasks[j]? = some ⟨tag, .act (.supervisor (.acknowledgeInstall p o)) k⟩) :
    t.prog.head = some (.supervisor (.acknowledgeInstall p o)) := by
  have hj : j < s.notes.length := h.lengths ▸ (List.getElem?_eq_some_iff.mp asking).1
  have hat' : s.At j _ _ := ⟨asking, List.getElem?_eq_getElem hj⟩
  have same : i = j := by
    rcases permits_cases (h.outlines j _ _ hat').1 with asks | ⟨rfl, -⟩
    · exact h.apart i j _ _ _ _ o hat hat' holds asks.2.symm
    · -- a reconciliation runs alone
      have hlist := (h.orderly.exclusive _ (List.mem_of_getElem? asking) rfl).2
      have hi := (List.getElem?_eq_some_iff.mp hat.task).1
      have hj := (List.getElem?_eq_some_iff.mp asking).1
      rw [hlist, List.length_singleton] at hi hj
      omega
  subst same
  cases hat.task.symm.trans asking
  rfl

theorem Observed.Grounded.next (h : s.Grounded iid) (allowed : Allowed s label)
    (hnext : s.next iid label = some s') : s'.Grounded iid := by
  have orderly : s'.joint.Orderly := by
    obtain ⟨joint, hjoint, rfl⟩ := Option.map_eq_some_iff.mp hnext
    exact h.orderly.next hjoint
  cases observedNext_cases h.orderly h.lengths hnext with
  | advance task noted own heard core supervisor notes =>
    exact h.advanced allowed task noted own heard core supervisor notes orderly
  | call call called store tasks supervisor notes =>
    subst called
    refine h.still orderly (supervisor ▸ h.sane) ?_ store (fun i t n hat => ?_)
      fun i t n o a _ _ _ tracks => ⟨a, .inr rfl, supervisor ▸ tracks⟩
    · rw [notes, tasks, List.length_append, List.length_append, h.lengths]
      rfl
    · obtain ⟨htask, hnoted⟩ := hat
      rw [tasks] at htask
      rw [notes] at hnoted
      by_cases hi : i < s.joint.core.tasks.length
      · rw [List.getElem?_append_left hi] at htask
        rw [List.getElem?_append_left (h.lengths ▸ hi)] at hnoted
        exact .inl ⟨htask, hnoted⟩
      · have hle := Nat.le_of_not_lt hi
        rw [List.getElem?_append_right hle] at htask
        rw [List.getElem?_append_right (h.lengths ▸ hle)] at hnoted
        refine .inr ⟨List.mem_singleton.mp (List.mem_of_getElem? hnoted), call, allowed, ?_⟩
        exact List.mem_singleton.mp (List.mem_of_getElem? htask)
  | ended store tasks supervisor notes =>
    refine h.still orderly (supervisor ▸ h.sane) (by rw [notes, tasks]; rfl) store
      (fun i t n hat => ?_) fun i t n o a _ _ _ tracks => ⟨a, .inr rfl, supervisor ▸ tracks⟩
    have htask := hat.task
    rw [tasks] at htask
    cases htask
  | listen store tasks supervisor notes =>
    refine h.still orderly (supervisor ▸ h.sane) (by rw [notes, tasks, h.lengths]) store
      (fun i t n hat => .inl ⟨tasks ▸ hat.task, notes ▸ hat.noted⟩)
      fun i t n o a _ _ _ tracks => ⟨a, .inr rfl, supervisor ▸ tracks⟩
  | supervisor core notes step sent =>
    refine h.still orderly (h.sane.next step) (by rw [notes, core, h.lengths]) (by rw [core])
      (fun i t n hat => .inl ⟨core ▸ hat.task, notes ▸ hat.noted⟩)
      fun i t n o a hat holds quiet tracks => ?_
    refine tracks.next h.sane step fun p now hlabel => ?_
    obtain ⟨j, tag, k, asking⟩ := sent p o now hlabel
    exact quiet p (h.holder hat holds asking)

end

theorem grounded_initial (iid : String) : Observed.initial.Grounded iid := by
  have empty : ∀ i t n, ¬ Observed.initial.At i t n := fun i t n hat => by cases hat.task
  exact {
    orderly := orderly_initial
    sane := Supervisor.sane_initial
    lengths := rfl
    outlines := fun i t n hat => (empty i t n hat).elim
    bare := fun i t n hat => (empty i t n hat).elim
    apart := fun i j t u n m o hat => (empty i t n hat).elim
    tracked := fun i t n o hat => (empty i t n hat).elim
    rows := fun i t n p row o hat => (empty i t n hat).elim
    listed := fun i t n records hat => (empty i t n hat).elim }

theorem observed_grounded {iid : String} {s : Observed} {labels : List JointLabel}
    (run : Run (Observed.next iid) Allowed Observed.initial labels s) : s.Grounded iid :=
  run.invariant (fun _ _ _ h allowed hnext => h.next allowed hnext) (grounded_initial iid)

/-! ## Completion -/

section
variable {iid : String} {s s' : Observed} {p : PluginId} {o : Uuid}
  {row : InstallPluginRecord}

/-- The grounds on which `complete_install` is asked for the row it finds. -/
theorem Observed.Grounded.grounds (h : s.Grounded iid) {i : Nat} {tag : CoreCall}
    {n : Notes} {k : (CoreAct.completeInstall p o).Resp → CoreProgram Unit}
    (hat : s.At i ⟨tag, .act (.completeInstall p o) k⟩ n)
    (hrow : s.joint.core.store.get p = some row) (names : row.installOperationId = some o) :
    ∃ report ∈ n.reports, ∃ a, Finalized p o a report ∧ artifactMatchesRecord a row = true := by
  rcases permits_cases (h.outlines i _ n hat).1 with asks | ⟨htag, asks⟩
  · -- an installation: the artifact of the record is the one that was finalized
    obtain ⟨waits, holds, report, hreport, a, finalized⟩ := asks
    obtain ⟨artifact, -, bears⟩ := h.tracked i _ n o hat holds waits fun q => by simp
    obtain ⟨built, hbuilt, a', ha', carries⟩ := h.rows i _ n p row o hat holds hrow names
    have ofReport : artifact = some a := by
      rcases (bears report hreport).artifact with hnone | hsome
      · cases finalized.artifact.symm.trans hnone
      · exact hsome.symm.trans finalized.artifact
    have ofBuilt : artifact = some a' := by
      rcases (bears built hbuilt).artifact with hnone | hsome
      · cases ha'.symm.trans hnone
      · exact hsome.symm.trans ha'
    cases ofReport.symm.trans ofBuilt
    exact ⟨report, hreport, a, finalized, carries⟩
  · -- a reconciliation: the row is still the record it has compared
    obtain ⟨records, hrecords, record, hrecord, hplugin, -, report, hreport, a, finalized, carries⟩ := asks
    have listed := h.listed i _ n records hat htag hrecords
    have hmem := listed.current p row o hrow names
    have hkey := Lib.Table.key_of_get hrow
    rw [listed.unique record hrecord row hmem (hplugin.trans hkey.symm)] at carries
    exact ⟨report, hreport, a, finalized, carries⟩

/-- **A plugin becomes installed only after finalization.**  In every run of installations and
reconciliations, with failures, lost replies and crashes anywhere: a record leaves `Installing` only in
`complete_install`, for the very operation the record names, asked for by a call to which the Supervisor
has reported that operation of that plugin as finalized, with an artifact whose image and hashes are
those of the record. -/
theorem installed_after_finalized {labels : List JointLabel} {label : JointLabel}
    {after : InstallPluginRecord} (run : Run (Observed.next iid) Allowed Observed.initial labels s)
    (taken : s.next iid label = some s')
    (hrow : s.joint.core.store.get p = some row) (installing : row.status = .installing)
    (hafter : s'.joint.core.store.get p = some after) (left : after.status ≠ .installing) :
    ∃ i tag o k n, s.At i ⟨tag, .act (.completeInstall p o) k⟩ n ∧ row.installOperationId = some o ∧
      after = { row with status := .installed, installOperationId := none, updatedAt := after.updatedAt } ∧
      ∃ report ∈ n.reports, ∃ a, Finalized p o a report ∧ artifactMatchesRecord a row = true := by
  have h := observed_grounded run
  have unchanged : s'.joint.core.store.get p ≠ s.joint.core.store.get p := by
    intro hsame
    rw [hafter, hrow] at hsame
    cases hsame
    exact left installing
  cases observedNext_cases h.orderly h.lengths taken with
  | @advance i c tag a k n task noted own heard core supervisor notes =>
    have permits := permits_advanced h task noted
    have hstore : s'.joint.core.store = (coreStep a c s.joint.core.store).2 := by rw [core]; rfl
    rw [hstore] at hafter unchanged
    cases coreStep_row a c s.joint.core.store p with
    | same hsame => exact absurd hsame unchanged
    | @completed o row' now complete present operation hcompleted =>
      subst complete
      cases present.symm.trans hrow
      cases hcompleted.symm.trans hafter
      exact ⟨i, tag, o, k, n, ⟨task, noted⟩, operation, rfl, h.grounds ⟨task, noted⟩ hrow operation⟩
    | inserted _ absent => cases absent.symm.trans hrow
    | rolledBack _ _ _ hnone | deleted _ hnone => cases hnone.symm.trans hafter
    | saved act | touched act =>
      subst act
      rcases permits_cases permits with asks | ⟨-, asks⟩ <;> exact asks.elim
  | call _ _ store | ended store | listen store => exact absurd (by rw [store]) unchanged
  | supervisor core => exact absurd (by rw [core]) unchanged

end

/-! ### An installation, up to its completion -/

/-- Whether a task of the Supervisor knows operation `o`. -/
def knows (o : Uuid) (t : Supervisor.SupervisorTask) : Bool :=
  (match t.tag with
    | .request request => request.operation = some o
    | .build _ o' => o' = o
    | _ => false) ||
  (match t.prog.head with
    | some (.forget ids) => decide (o ∈ ids)
    | _ => false)

def checkFresh (o : Uuid) (s : Observed) : Bool :=
  (s.joint.supervisor.world.inMemory o).isNone && (s.joint.supervisor.world.onDisk o).isNone &&
    s.joint.supervisor.tasks.all (fun t => !knows o t) &&
    s.notes.all (fun n => n.operation ≠ some o) &&
    s.joint.core.store.rows.all fun row => row.installOperationId ≠ some o

def checkAllowed (s : Observed) : JointLabel → Bool
  | .core (.call call) => (call matches .install .. | .reconcileInstallOperations)
  | .core (.advance _ (.prepared (.ok o))) => checkFresh o s
  | _ => true

theorem fresh_of_check {o : Uuid} {s : Observed} (h : checkFresh o s = true) : s.Fresh o := by
  simp only [checkFresh, Bool.and_eq_true, List.all_eq_true, Bool.not_eq_true', decide_eq_true_eq,
    Option.isNone_iff_eq_none] at h
  obtain ⟨⟨⟨⟨inMemory, onDisk⟩, tasks⟩, notes⟩, rows⟩ := h
  refine ⟨⟨inMemory, onDisk, ?_, ?_, ?_⟩, notes, fun p row hrow => ?_⟩
  · intro t ht request htag habout
    have hknows := tasks t ht
    simp [knows, htag, habout] at hknows
  · intro t ht p htag
    have hknows := tasks t ht
    simp [knows, htag] at hknows
  · intro t ht ids hhead hmem
    have hknows := tasks t ht
    simp [knows, hhead, hmem] at hknows
  · exact rows row (Lib.Table.get_eq_some.mp hrow).1

theorem allowed_of_check (s : Observed) (label : JointLabel) (h : checkAllowed s label = true) :
    Allowed s label := by
  cases label with
  | core label =>
    cases label with
    | call call => cases call <;> trivial
    | advance i c =>
      cases c with
      | prepared result =>
        cases result with
        | ok o => exact fun _ => fresh_of_check h
        | error e => trivial
      | _ => trivial
    | _ => trivial
  | _ => trivial

/-- Plugin `p` is installed, up to the completion of its record. -/
def finalizingRun : List JointLabel :=
  [.supervisor (.boot 0)] ++ works 0 5 ++ [.supervisor .ready,
    .core (.call .reconcileInstallOperations), .send 0 0] ++ works 0 1 ++ [.receive 0,
    .core (.advance 0 (.done 0)), .core .returned, .core .listen,
    .core (.call (.install 7 "p" 0 1)), .core (.advance 0 (.flag true)),
    .core (.advance 0 (.staged (.ok sampleStaged))), .core (.advance 0 (.done 0)),
    .core (.advance 0 (.granted (.ok none))), .core (.advance 0 (.prepared (.ok 1))),
    .supervisor (.prepare 1 ⟨none⟩), .send 0 1] ++ works 1 2 ++ [.receive 0] ++ works 2 2 ++
    [.supervisor (.advance 2 (.built (.ok sampleOutput)))] ++ works 2 5 ++ [.send 0 3] ++ works 3 1 ++
    [.receive 0, .core (.advance 0 (.done 4)), .core (.advance 0 (.done 4)), .send 0 5] ++
    works 4 12 ++ [.receive 0]

def observedAfter (labels : List JointLabel) : Observed :=
  (labels.foldlM (Run.checked (Observed.next "inst") checkAllowed) Observed.initial).getD Observed.initial

/-- The installation completes its record, for operation 1. -/
theorem sample_installed_after_finalized :
    ∃ i tag o k n, (observedAfter finalizingRun).At i ⟨tag, .act (.completeInstall "p" o) k⟩ n ∧
      (installRecord sampleStaged 1 sampleArtifact 4).installOperationId = some o ∧
      ∃ report ∈ n.reports, ∃ a, Finalized "p" o a report ∧
        artifactMatchesRecord a (installRecord sampleStaged 1 sampleArtifact 4) = true := by
  have run : Run (Observed.next "inst") Allowed Observed.initial finalizingRun
      (observedAfter finalizingRun) := Run.of_checked allowed_of_check rfl
  obtain ⟨i, tag, o, k, n, hat, names, -, hreport⟩ :=
    @installed_after_finalized "inst" _ _ "p" (installRecord sampleStaged 1 sampleArtifact 4) _
      (.core (.advance 0 (.done 6))) _ run rfl rfl rfl rfl (by decide)
  exact ⟨i, tag, o, k, n, hat, names, hreport⟩

end AudioDown.Core
