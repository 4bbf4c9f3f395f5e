/-
# AudioDown.Core.Notes — on what grounds Core asks

What `install` and `reconcile_install_operations` ask depends on the answers they got before.  The notes
of a call keep those answers that matter for completing an installation: the id it was handed out, the
operations the Supervisor reported, the records it listed.  The outlines say that each question is
asked on the grounds its notes give, whatever the answers are.
-/
import AudioDown.Core.Outline

namespace AudioDown.Core

open Lib Supervisor

/-! ## What a call has learned -/

/-- What a call of Core keeps of the answers it got. -/
structure Notes where
  /-- the id `prepare_install` gave it -/
  operation : Option Uuid
  /-- the operations the Supervisor has reported to it -/
  reports : List PluginInstallOperation
  /-- the table, as it was listed -/
  records : Option (List InstallPluginRecord)
  /-- whether it has asked for an acknowledgement -/
  acknowledging : Bool
deriving DecidableEq

def Notes.blank : Notes := ⟨none, [], none, false⟩

def SupervisorCall.operation : SupervisorCall → Option Uuid
  | .beginInstall _ o | .installStatus _ o | .finalizeInstall _ o | .abortInstall _ o
  | .acknowledgeInstall _ o => some o
  | .listInstallOperations => none

def SupervisorCall.reported : (call : SupervisorCall) → Except PluginManagerError call.Result →
    List PluginInstallOperation
  | .listInstallOperations, _ => []
  | .beginInstall .., r | .installStatus .., r | .finalizeInstall .., r | .abortInstall .., r
  | .acknowledgeInstall .., r =>
      match r with
      | .ok operation => [operation]
      | .error _ => []

def SupervisorCall.acknowledges : SupervisorCall → Bool
  | .acknowledgeInstall .. => true
  | _ => false

def Notes.note : (a : CoreAct) → a.Resp → Notes → Notes
  | .prepareInstall .., r, n =>
      match r with
      | .ok o => { n with operation := some o }
      | .error _ => n
  | .listInstallRecords, r, n =>
      match r with
      | .ok records => { n with records := some records }
      | .error _ => n
  | .supervisor call, r, n =>
      { n with
        reports := call.reported r ++ n.reports
        acknowledging := n.acknowledging || call.acknowledges }
  | _, _, n => n

/-- A report that operation `o` is finalized, for plugin `p` and with artifact `a`. -/
structure Finalized (p : PluginId) (o : Uuid) (a : PluginInstallArtifact)
    (report : PluginInstallOperation) : Prop where
  plugin : report.pluginId = p
  operation : report.operationId = o
  state : report.state = .finalized
  artifact : report.artifact = some a

/-- What an installation asks, given its notes: it speaks of its own operation, inserts a record of an
artifact that was reported to it, and completes it after a report that the operation is finalized. -/
def InstallAsks (n : Notes) : CoreAct → Prop
  | .prepareInstall .. => n.operation = none ∧ n.reports = []
  | .supervisor call => n.operation ≠ none ∧ call.operation = n.operation
  | .insertInstalling row => n.acknowledging = false ∧ n.operation ≠ none ∧
      row.installOperationId = n.operation ∧
        ∃ report ∈ n.reports, ∃ a, report.artifact = some a ∧ artifactMatchesRecord a row = true
  | .completeInstall p o => n.acknowledging = false ∧ n.operation = some o ∧
      ∃ report ∈ n.reports, ∃ a, Finalized p o a report
  | .savePlugin _ | .deletePlugin _ | .rollbackInstall .. | .touch .. => False
  | _ => True

/-- What a reconciliation asks: it completes a listed record after a report that its operation is
finalized with the record's artifact. -/
def ReconcileAsks (n : Notes) : CoreAct → Prop
  | .completeInstall p o => ∃ records, n.records = some records ∧ ∃ record ∈ records,
      record.pluginId = p ∧ record.installOperationId = some o ∧
        ∃ report ∈ n.reports, ∃ a, Finalized p o a report ∧ artifactMatchesRecord a record = true
  | .prepareInstall .. | .insertInstalling _ | .savePlugin _ | .deletePlugin _ | .touch .. => False
  | _ => True

/-! ### The outline of `install` -/

section
variable {n : Notes} {p : PluginId} {o : Uuid}

/-- The notes of an installation that still holds its operation. -/
structure Notes.Holds (o : Uuid) (n : Notes) : Prop where
  operation : n.operation = some o
  waiting : n.acknowledging = false

/-- An answer to a question about `o` other than an acknowledgement leaves it held, and is noted. -/
theorem Notes.Holds.note {call : SupervisorCall} {r : Except PluginManagerError call.Result}
    (h : n.Holds o) (other : call.acknowledges = false) : (n.note (.supervisor call) r).Holds o :=
  ⟨h.operation, by simp [Notes.note, h.waiting, other]⟩

theorem asks_own {call : SupervisorCall} (h : n.operation = some o) (about : call.operation = some o) :
    InstallAsks n (.supervisor call) :=
  ⟨by simp [h], about.trans h.symm⟩

theorem persistBuildLogs_traces {Asks : Notes → CoreAct → Prop}
    (free : ∀ n log, Asks n (.persistBuildLog o log)) (logs : List PluginBuildLog) :
    (persistBuildLogs o logs).run.Traces Notes.note Asks (fun _ n' => n' = n) n := by
  refine Prog.Uses.traces (S := fun a => ∃ log, a = .persistBuildLog o log)
    (persistBuildLogs_keeps (fun log => ⟨log, rfl⟩) logs).uses ?_ ?_ rfl
  · rintro a n' ⟨log, rfl⟩ -
    exact free n' log
  · rintro a r n' ⟨log, rfl⟩ hn'
    exact hn'

theorem persistBuildLogs_noted {Asks : Notes → CoreAct → Prop} (free : ∀ n log, Asks n (.persistBuildLog o log))
    (logs : List PluginBuildLog) : Noted Notes.note Asks (fun _ n' => n' = n) n (persistBuildLogs o logs) :=
  (persistBuildLogs_traces free logs).weaken fun _ _ hn' _ _ => hn'

theorem abortAndAck_traces (h : n.operation = some o) :
    (abortAndAckResult p o).run.Traces Notes.note InstallAsks (fun _ n' => n'.operation = some o) n := by
  refine Prog.Uses.traces (S := fun a => ∃ call : SupervisorCall, a = .supervisor call ∧
    call.operation = some o) ?_ ?_ ?_ h
  · exact (abortAndAckResult_keeps ⟨_, rfl, rfl⟩ ⟨_, rfl, rfl⟩).uses
  · rintro a n' ⟨call, rfl, about⟩ hn'
    exact asks_own hn' about
  · rintro a r n' ⟨call, rfl, about⟩ hn'
    exact hn'

theorem giveUp_noted {α : Type} (h : n.operation = some o) (logs : List PluginBuildLog) (error : InstallError) :
    Noted Notes.note InstallAsks (fun _ _ => False) n (giveUp p o logs error : InstallM α) := by
  refine .bind (.lift (persistBuildLogs_traces (fun _ _ => trivial) logs)) ?_
  rintro logResult n' rfl
  refine .bind (Q := fun _ _ => True) ?_ fun _ n' _ => ?_
  · exact (abortAndAck_traces h).weaken fun _ _ _ _ _ => trivial
  · refine .bind (Q := fun _ _ => True) ?_ fun _ _ _ => .throw
    cases logResult with
    | ok _ => exact .pure trivial
    | error e => exact .throw

/-- The operation is held, and this report of it has come in. -/
structure Notes.Knows (o : Uuid) (report : PluginInstallOperation) (n : Notes) : Prop extends n.Holds o where
  reported : report ∈ n.reports

theorem status_traces (h : n.Holds o) :
    (ask (.supervisor (.installStatus p o))).Traces Notes.note InstallAsks (fun r n' =>
      n'.Holds o ∧ ∀ report, r = .ok report → n'.Knows o report) n := by
  refine ⟨asks_own h.operation rfl, fun r => ⟨h.note rfl, ?_⟩⟩
  rintro report rfl
  exact ⟨h.note rfl, List.mem_cons_self⟩

variable {operation : PluginInstallOperation}

theorem builtOr_noted {staged : StagedPlugin} {logs : List PluginBuildLog}
    {pending : InstallM (PluginInstallOperation × List PluginBuildLog)} (h : n.Knows o operation)
    (hpending : Noted Notes.note InstallAsks (fun r n' => n'.Knows o r.1) n pending) :
    Noted Notes.note InstallAsks (fun r n' => n'.Knows o r.1) n
      (builtOr staged o operation logs pending) := by
  have givenUp : ∀ error, Noted .note InstallAsks (fun (r : PluginInstallOperation × List PluginBuildLog)
      n' => n'.Knows o r.1) n (giveUp staged.pluginId o logs error) := fun error =>
    (giveUp_noted h.operation logs error).weaken fun _ _ hfalse => hfalse.elim
  unfold builtOr
  split
  · exact .throw
  · cases operation.state with
    | built => exact .pure h
    | failed | aborted => exact givenUp _
    | finalized => exact .throw
    | accepted | building => exact hpending

theorem waitUntilBuilt_noted (staged : StagedPlugin) (polls : Nat)
    (seen : List PluginBuildLog) (h : n.Knows o operation) :
    Noted Notes.note InstallAsks (fun r n' => n'.Knows o r.1) n
      (waitUntilBuilt staged o polls operation seen) := by
  induction polls generalizing operation seen n with
  | zero =>
    exact builtOr_noted h ((giveUp_noted h.operation _ _).weaken fun _ _ hfalse => hfalse.elim)
  | succ polls ih =>
    refine builtOr_noted h (.bind (.lift (status_traces h.toHolds)) fun r n' hn' => ?_)
    cases r with
    | ok report => exact ih _ (hn'.2 report rfl)
    | error e => exact .bind (persistBuildLogs_noted (fun _ _ => trivial) _) fun _ _ _ => .throw

theorem recoverAmbiguousBegin_noted (polls : Nat) (h : n.Holds o) :
    Noted Notes.note InstallAsks (fun report n' => n'.Knows o report) n
      (recoverAmbiguousBegin p o polls) := by
  induction polls generalizing n with
  | zero =>
    refine .bind (.lift (status_traces h)) fun r n' hn' => ?_
    cases r with
    | ok report => exact .pure (hn'.2 report rfl)
    | error e => exact .bind (.lift (abortAndAck_traces hn'.1.operation)) fun _ _ _ => .throw
  | succ polls ih =>
    refine .bind (.lift (status_traces h)) fun r n' hn' => ?_
    cases r with
    | ok report => exact .pure (hn'.2 report rfl)
    | error e => exact ih hn'.1

theorem complete_noted {a : PluginInstallArtifact} {report : PluginInstallOperation}
    (h : n.Knows o report) (finalized : Finalized p o a report) :
    Noted Notes.note InstallAsks (fun _ _ => True) n (do
      let completed ← orElse (ask (.completeInstall p o)) .internal
      acknowledge p o
      return completed) := by
  refine .bind (Q := fun _ n' => n' = n) (.mapErr ⟨?_, fun r _ _ => rfl⟩) ?_
  · exact ⟨h.waiting, h.operation, report, h.reported, a, finalized⟩
  · rintro completed n' rfl
    refine .bind (Q := fun _ _ => True) ?_ fun _ _ _ => .pure trivial
    refine .bind (Q := fun _ _ => True) (.mapErr ⟨asks_own h.operation rfl, ?_⟩) ?_
    · exact fun _ _ _ => trivial
    · intro acknowledged n' _
      split
      · exact .throw
      · exact .pure trivial

theorem installBuilt_noted (staged : StagedPlugin) {built : PluginInstallOperation}
    (logs : List PluginBuildLog) (h : n.Knows o built) :
    Noted Notes.note InstallAsks (fun _ _ => True) n (installBuilt p staged o built logs) := by
  have abandoned : ∀ error : InstallError, Noted .note InstallAsks (fun _ _ => True) n (do
      let _ ← ExceptT.lift (abortAndAckResult p o).run
      persistBuildLogs o logs
      throw error : InstallM InstallPluginRecord) := fun error =>
    .bind (.lift (abortAndAck_traces h.operation)) fun _ _ _ =>
      .bind (persistBuildLogs_noted (fun _ _ => trivial) logs) fun _ _ _ => .throw
  unfold installBuilt
  split
  · exact abandoned _
  · rename_i artifact hartifact
    obtain ⟨hsome, hmatches⟩ := Option.filter_eq_some_iff.mp hartifact
    refine .bind (Q := fun _ n' => n' = n) (.lift ⟨trivial, fun _ => rfl⟩) ?_
    rintro now n rfl
    refine .bind (.lift ⟨?_, fun _ => rfl⟩) ?_
    · exact ⟨h.waiting, by simp [h.operation], h.operation.symm, built, h.reported, artifact, hsome,
        installRecord_matches hmatches o now⟩
    · rintro r n rfl
      cases r with
      | error e => exact abandoned _
      | ok _ =>
        refine .bind (persistBuildLogs_noted (fun _ _ => trivial) logs) ?_
        rintro _ n' rfl
        refine .bind (Q := fun report n' => n'.Knows o report)
          (.mapErr ⟨asks_own h.operation rfl, ?_⟩) fun report n' hn' => ?_
        · rintro r report rfl
          exact ⟨h.toHolds.note rfl, List.mem_cons_self⟩
        split
        · exact .thrown
        · rename_i accepted
          simp only [operationIdentityMatches, Bool.or_eq_true, decide_eq_true_eq, Bool.not_eq_true',
            not_or, Bool.not_eq_false, Bool.and_eq_true, ne_eq, not_not, Option.any_eq_true] at accepted
          obtain ⟨⟨hstate, hplugin, hoperation⟩, a, ha, -⟩ := accepted
          exact complete_noted hn' ⟨hplugin, hoperation, hstate, ha⟩

theorem install_noted (snapshotId : Uuid) (beginPolls buildPolls : Nat) :
    Noted Notes.note InstallAsks (fun _ _ => True) Notes.blank
      (install snapshotId p beginPolls buildPolls) := by
  refine .bind (.lift ⟨trivial, fun _ => rfl⟩) ?_
  rintro locked n rfl
  cases locked with
  | false => exact .thrown
  | true =>
    refine .bind (Q := fun _ n' => n' = .blank) ⟨trivial, fun r _ _ => rfl⟩ ?_
    rintro staged n rfl
    refine .bind (Q := fun _ n' => n'.operation = none ∧ n'.reports = [] ∧ n'.acknowledging = false)
      (.mapErr ⟨trivial, fun r records _ => ?_⟩) ?_
    · cases r <;> exact ⟨rfl, rfl, rfl⟩
    rintro records n ⟨hoperation, hreports, hacknowledging⟩
    cases records.find? fun record => record.pluginId = p with
    | some existing =>
      show Noted _ _ _ _ (if _ then _ else _)
      split
      · exact .throw
      · exact .throw
    | none =>
      refine .bind (Q := fun _ n' => n' = n) ⟨trivial, fun r _ _ => rfl⟩ ?_
      rintro riskGrantId n rfl
      refine .bind (Q := fun o n' => n'.Holds o) ⟨⟨hoperation, hreports⟩, ?_⟩ fun o n' hn' => ?_
      · rintro r o rfl
        exact ⟨rfl, hacknowledging⟩
      refine .bind (Q := fun r n'' => n''.Holds o ∧ ∀ report, r = .ok report → n''.Knows o report)
        (.lift ⟨asks_own hn'.operation rfl, fun r => ⟨hn'.note rfl, ?_⟩⟩) fun r n'' hn'' => ?_
      · rintro report rfl
        exact ⟨hn'.note rfl, List.mem_cons_self⟩
      cases r with
      | ok initial =>
        refine .bind (.pure (hn''.2 initial rfl)) fun initial m hm => ?_
        exact .bind (waitUntilBuilt_noted staged buildPolls [] hm) fun r _ knows =>
          installBuilt_noted staged r.2 knows
      | error e =>
        refine .bind (recoverAmbiguousBegin_noted beginPolls hn''.1) fun initial m hm => ?_
        exact .bind (waitUntilBuilt_noted staged buildPolls [] hm) fun r _ knows =>
          installBuilt_noted staged r.2 knows

theorem install_keeps {possible : (a : CoreAct) → a.Resp → Prop} {P : CoreAct → Prop}
    (free : ∀ a : CoreAct, ¬ a.Saves → P a) (snapshotId : Uuid) (beginPolls buildPolls : Nat) :
    Keeps possible P (fun _ => True) (install snapshotId p beginPolls buildPolls) := by
  refine ((install_noted snapshotId beginPolls buildPolls).uses fun n a asks => free a ?_).within.weaken
    fun _ _ _ _ => trivial
  cases a with
  | savePlugin => exact asks.elim
  | _ => exact id

end

/-! ### The outline of reconciliation -/

section
variable {n : Notes} {p : PluginId} {o : Uuid} {records : List InstallPluginRecord}

def FromList (records : List InstallPluginRecord) (p : PluginId)
    (record : Option InstallPluginRecord) : Prop :=
  ∀ row, record = some row → row ∈ records ∧ row.pluginId = p

theorem uses_noted {α : Type} {x : InstallM α} (h : x.run.Uses fun a => ∀ n, ReconcileAsks n a) :
    Noted Notes.note ReconcileAsks (fun _ _ => True) n x :=
  (h.traces (I := fun _ => True) (fun _ n ha _ => ha n) (fun _ _ _ _ _ => trivial) trivial).weaken
    fun _ _ _ _ _ => trivial

theorem acknowledge_reconciles : (acknowledge p o).run.Uses fun a => ∀ n, ReconcileAsks n a :=
  (acknowledge_keeps fun _ => trivial).uses

theorem abortAndAck_reconciles : (abortAndAckResult p o).run.Uses fun a => ∀ n, ReconcileAsks n a :=
  (abortAndAckResult_keeps (fun _ => trivial) fun _ => trivial).uses

theorem complete_reconciles {row : InstallPluginRecord} {report : PluginInstallOperation}
    {a : PluginInstallArtifact} (listed : n.records = some records) (hrow : row ∈ records)
    (hplugin : row.pluginId = p) (hoperation : row.installOperationId = some o)
    (reported : report ∈ n.reports) (finalized : Finalized p o a report)
    (carries : artifactMatchesRecord a row = true) :
    Noted Notes.note ReconcileAsks (fun _ _ => True) n (do
      let _ ← orElse (ask (.completeInstall p o)) .internal
      acknowledge p o) := by
  refine .bind (Q := fun _ _ => True) (.mapErr ⟨?_, fun _ _ _ => trivial⟩) fun _ _ _ =>
    uses_noted acknowledge_reconciles
  exact ⟨records, listed, row, hrow, hplugin, hoperation, report, reported, a, finalized, carries⟩

variable {record : Option InstallPluginRecord}

theorem reconcileOperation_noted {detailed : PluginInstallOperation} (listed : n.records = some records)
    (reported : detailed ∈ n.reports) (from_list : FromList records detailed.pluginId record) :
    Noted Notes.note ReconcileAsks (fun _ _ => True) n (reconcileOperation detailed.summary record) := by
  have abort : Noted .note ReconcileAsks (fun _ _ => True) n
      (abortAndAckResult detailed.pluginId detailed.operationId) := uses_noted abortAndAck_reconciles
  unfold reconcileOperation
  cases hstate : detailed.summary.state with
  | accepted | building =>
    cases matchingInstalling detailed.summary record with
    | some row => exact .pure trivial
    | none => exact abort
  | built =>
    cases hmatching : matchingInstalling detailed.summary record with
    | none => exact abort
    | some row =>
      obtain ⟨rfl, -, hoperation⟩ := matchingInstalling_eq_some.mp hmatching
      obtain ⟨hrow, hplugin⟩ := from_list row rfl
      show Noted _ _ _ _ (if _ then _ else _)
      split
      · exact .thrown
      · refine .bind (Q := fun report n' => n'.records = some records ∧ report ∈ n'.reports)
          (.mapErr ⟨trivial, ?_⟩) ?_
        · rintro r report rfl
          exact ⟨listed, List.mem_cons_self⟩
        · rintro report n' ⟨listed', reported'⟩
          split
          · exact .thrown
          · rename_i accepted
            simp only [operationIdentityMatches, Bool.or_eq_true, decide_eq_true_eq, Bool.not_eq_true',
              not_or, Bool.not_eq_false, Bool.and_eq_true, ne_eq, not_not, carriesArtifact_iff] at accepted
            obtain ⟨⟨hfinalized, hp, ho⟩, a, ha, hcarries⟩ := accepted
            exact complete_reconciles listed' hrow hplugin hoperation reported' ⟨hp, ho, hfinalized, ha⟩ hcarries
  | finalized =>
    cases hmatching : matchingInstalling detailed.summary record with
    | some row =>
      obtain ⟨rfl, -, hoperation⟩ := matchingInstalling_eq_some.mp hmatching
      obtain ⟨hrow, hplugin⟩ := from_list row rfl
      show Noted _ _ _ _ (if _ then _ else _)
      split
      · exact .thrown
      · rename_i accepted
        simp only [Bool.not_eq_true', Bool.not_eq_false, carriesArtifact_iff] at accepted
        obtain ⟨a, ha, hcarries⟩ := accepted
        exact complete_reconciles listed hrow hplugin hoperation reported ⟨rfl, rfl, hstate, ha⟩ hcarries
    | none =>
      dsimp only
      cases matchingInstalled detailed.summary record with
      | some row => exact uses_noted acknowledge_reconciles
      | none => exact abort
  | failed | aborted =>
    refine .bind (uses_noted (abortInstall_keeps fun _ => trivial).uses) fun _ _ _ => ?_
    cases matchingInstalling detailed.summary record with
    | some row =>
      exact .bind (Q := fun _ _ => True) (.mapErr ⟨trivial, fun _ _ _ => trivial⟩)
        fun _ _ _ => uses_noted acknowledge_reconciles
    | none => exact uses_noted acknowledge_reconciles

theorem reconcileEntry_noted (listed : n.records = some records) (from_list : FromList records p record) :
    Noted Notes.note ReconcileAsks (fun _ _ => True) n (reconcileEntry p o record) := by
  refine .bind (Q := fun report n' => n'.records = some records ∧ report ∈ n'.reports) (.mapErr ⟨trivial, ?_⟩) ?_
  · rintro r report rfl
    exact ⟨listed, List.mem_cons_self⟩
  · rintro detailed n' ⟨listed', reported⟩
    split
    · exact .thrown
    · rename_i same
      simp only [operationIdentityMatches, Bool.not_eq_true', Bool.not_eq_false, Bool.and_eq_true,
        decide_eq_true_eq] at same
      refine .bind (persistBuildLogs_noted (fun _ _ => trivial) _) ?_
      rintro _ n'' rfl
      exact reconcileOperation_noted listed' reported (same.1 ▸ from_list)

theorem reconcileEntries_traces {entries : List Entry}
    (from_list : ∀ p o record, (p, o, record) ∈ entries → FromList records p record)
    (firstError : Option InstallError) (listed : n.records = some records) :
    (reconcileEntries entries firstError).Traces Notes.note ReconcileAsks (fun _ _ => True) n := by
  induction entries generalizing firstError n with
  | nil => trivial
  | cons entry entries ih =>
    obtain ⟨p, o, record⟩ := entry
    -- an entry lists nothing again, also when it fails
    have uses : (reconcileEntry p o record).run.Uses fun a => a ≠ .listInstallRecords := by
      refine (reconcileEntry_keeps (fun a h => ?_) record).uses
      rcases h with rfl | ⟨_, rfl⟩ | rfl | rfl | rfl | rfl | rfl <;> simp
    have kept : ∀ (a : CoreAct) (r : a.Resp) (n : Notes), a ≠ .listInstallRecords →
        n.records = some records → (n.note a r).records = some records := by
      intro a r n ha hn
      cases a with
      | listInstallRecords => exact absurd rfl ha
      | prepareInstall => cases r <;> exact hn
      | _ => exact hn
    have entry := reconcileEntry_noted (o := o) listed (from_list p o record List.mem_cons_self)
    exact (entry.keeps uses kept listed).bind fun r n' hn' =>
      ih (fun p o record hmem => from_list p o record (List.mem_cons_of_mem _ hmem)) _ hn'.2

theorem fromList_entries {operations : List PluginInstallOperationSummary} {record : Option InstallPluginRecord}
    (hmem : (p, o, record) ∈ listedEntries operations records ++ unlistedEntries operations records) :
    FromList records p record := by
  rintro row rfl
  rcases List.mem_append.mp hmem with hmem | hmem
  · simp only [listedEntries, List.mem_map, Prod.mk.injEq] at hmem
    obtain ⟨operation, -, rfl, -, hfound⟩ := hmem
    exact ⟨List.mem_of_find?_eq_some hfound, by simpa using List.find?_some hfound⟩
  · simp only [unlistedEntries, List.mem_filterMap] at hmem
    obtain ⟨found, hfound, hentry⟩ := hmem
    split at hentry
    · split at hentry
      · cases hentry
      · cases hentry
        exact ⟨hfound, rfl⟩
    · cases hentry

theorem reconcile_noted :
    Noted Notes.note ReconcileAsks (fun _ _ => True) Notes.blank reconcileInstallOperations := by
  refine .bind (Q := fun _ _ => True) (.mapErr ⟨trivial, fun _ _ _ => trivial⟩)
    fun operations _ _ => ?_
  refine .bind (Q := fun records n' => n'.records = some records)
    (.mapErr ⟨trivial, ?_⟩) fun (records : List InstallPluginRecord) n' listed => ?_
  · rintro r records rfl
    rfl
  refine .bind (.lift (reconcileEntries_traces (fun p o record => fromList_entries) none listed)) ?_
  · intro firstError _ _
    cases firstError with
    | some error => exact .throw
    | none => exact .pure trivial

end

end AudioDown.Core
