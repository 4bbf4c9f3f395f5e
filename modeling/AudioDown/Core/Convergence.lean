/-
# AudioDown.Core.Convergence — when one reconciliation brings both sides together

`ReconcileLaw` says what a reconciliation is for: with every message delivered and nothing failing it
returns `Ok`, and afterwards an operation is unacknowledged only while it is on its way with a record
waiting for it, and a record waits only for such an operation.  `Reconcilable` is a condition on the
two sides before the call.  In every regular state the law holds exactly if the state is reconcilable
(`reconcileLaw_iff`).
-/
import AudioDown.Core.Reconcile

namespace AudioDown.Core

open Lib (Table)
open Supervisor

/-! ## The law -/

def Underway (s : CoreWorld) (o : Uuid) (r : StoredOperation) : Prop :=
  s.world.inMemory o = some r ∧ r.operation.acknowledged = false ∧
    (r.operation.state = .accepted ∨ r.operation.state = .building) ∧
    WaitsFor o (s.store.get r.operation.pluginId)

/-- What both sides look like after a reconciliation. -/
structure Converged (s : CoreWorld) : Prop where
  operations : ∀ o r, s.world.inMemory o = some r → r.operation.acknowledged = false → Underway s o r
  records : ∀ p row, s.store.get p = some row → row.status = .installing →
    ∃ o r, row.installOperationId = some o ∧ r.operation.pluginId = p ∧ Underway s o r

def ReconcileLaw (iid : String) (now : Timestamp) (s : CoreWorld) : Prop :=
  (alone iid now reconcileInstallOperations s).1 = .ok () ∧
    Converged (alone iid now reconcileInstallOperations s).2

/-- Every unacknowledged operation settles against the record of its plugin, and every record waits for
an operation that the Supervisor knows and that settles. -/
structure Reconcilable (iid : String) (s : CoreWorld) : Prop where
  operations : ∀ o r, s.world.inMemory o = some r → r.operation.acknowledged = false →
    Settles iid s.world r (s.store.get r.operation.pluginId)
  records : ∀ p row o, s.store.get p = some row → row.status = .installing →
    row.installOperationId = some o → EntrySettles iid s.world p o (some row)

/-- What the runs of both sides guarantee of every state (`AudioDown.Core.Joint`). -/
structure Regular (iid : String) (s : CoreWorld) : Prop where
  named : ∀ o r, s.world.inMemory o = some r → r.operation.operationId = o
  owned : ∀ o r, s.world.inMemory o = some r → r.installationId = iid
  closed : ∀ o r, s.world.inMemory o = some r → r.operation.acknowledged = true →
    r.operation.state.isTerminal = true
  room : ((valuesOf s.world.state.operations).filter fun r =>
    !r.operation.acknowledged).length ≤ maxUnacknowledgedOperations
  waiting : ∀ p row, s.store.get p = some row → row.status = .installing → row.installOperationId ≠ none

section
variable {iid : String} {now : Timestamp} {s : CoreWorld}

/-! ## What the Supervisor lists -/

/-- The summaries `list` answers with. -/
def reported (iid : String) (w : World) : List PluginInstallOperationSummary :=
  ((w.state.unacknowledged iid).map fun r => r.operation.summary).take maxOperationListItems

theorem Regular.reported_eq (h : Regular iid s) : reported iid s.world =
      (s.world.state.unacknowledged iid).map fun r => r.operation.summary := by
  have howned : ((valuesOf s.world.state.operations).filter fun r =>
      r.installationId = iid && !r.operation.acknowledged) =
      (valuesOf s.world.state.operations).filter fun r => !r.operation.acknowledged := by
    apply List.filter_congr
    intro r hr
    obtain ⟨o, hm⟩ := mem_valuesOf.mp hr
    simp [h.owned o r hm]
  apply List.take_of_length_le
  rw [List.length_map]
  unfold Supervisor.OperationState.unacknowledged
  rw [List.length_insertionSort, howned]
  exact h.room

theorem Regular.mem_unacknowledged (h : Regular iid s) {r : StoredOperation} :
    r ∈ s.world.state.unacknowledged iid ↔ s.world.inMemory r.operation.operationId = some r ∧
      r.operation.acknowledged = false := by
  unfold Supervisor.OperationState.unacknowledged
  rw [List.mem_insertionSort, List.mem_filter, mem_valuesOf]
  constructor
  · rintro ⟨⟨o, hm⟩, hr⟩
    rw [h.named o r hm]
    simp only [Bool.and_eq_true, Bool.not_eq_true'] at hr
    exact ⟨hm, hr.2⟩
  · rintro ⟨hm, hack⟩
    exact ⟨⟨_, hm⟩, by simp [h.owned _ r hm, hack]⟩

theorem Regular.unacknowledged_distinct (h : Regular iid s) :
    (s.world.state.unacknowledged iid).Pairwise fun r r' =>
      r.operation.operationId ≠ r'.operation.operationId := by
  have hall := (valuesOf_distinct h.named).sublist (List.filter_sublist (p := fun r : StoredOperation =>
      decide (r.installationId = iid) && !r.operation.acknowledged))
  exact (List.perm_insertionSort _ _).symm.pairwise hall fun h => h.symm

/-! ## The entries -/

/-- The entries of both loops, read in state `s`. -/
def entriesOf (iid : String) (s : CoreWorld) : List Entry :=
  listedEntries (reported iid s.world) s.store.list ++ unlistedEntries (reported iid s.world) s.store.list

/-- The Supervisor lists operation `o` for plugin `p`. -/
def Listed (s : CoreWorld) (p : PluginId) (o : Uuid) : Prop :=
  ∃ r, s.world.inMemory o = some r ∧ r.operation.pluginId = p ∧ r.operation.acknowledged = false

theorem Regular.mem_reported (h : Regular iid s) {operation : PluginInstallOperationSummary} :
    operation ∈ reported iid s.world ↔ ∃ o r, s.world.inMemory o = some r ∧ r.operation.acknowledged = false ∧
        r.operation.summary = operation := by
  rw [h.reported_eq, List.mem_map]
  constructor
  · rintro ⟨r, hr, rfl⟩
    obtain ⟨hm, hack⟩ := h.mem_unacknowledged.mp hr
    exact ⟨_, r, hm, hack, rfl⟩
  · rintro ⟨o, r, hm, hack, rfl⟩
    exact ⟨r, h.mem_unacknowledged.mpr ⟨by rwa [h.named o r hm], hack⟩, rfl⟩

variable {o : Uuid} {p : PluginId} {record : Option InstallPluginRecord} {s' : CoreWorld}

theorem Regular.mem_listed (h : Regular iid s) :
    (p, o, record) ∈ listedEntries (reported iid s.world) s.store.list ↔ Listed s p o ∧
      record = s.store.get p := by
  unfold listedEntries
  simp only [PluginStore.find?_list, List.mem_map, h.mem_reported, Prod.mk.injEq]
  constructor
  · rintro ⟨_, ⟨o', r, hm, hack, rfl⟩, rfl, rfl, rfl⟩
    have ho : r.operation.summary.operationId = o' := h.named o' r hm
    rw [ho]
    exact ⟨⟨r, hm, rfl, hack⟩, rfl⟩
  · rintro ⟨⟨r, hm, rfl, hack⟩, rfl⟩
    exact ⟨r.operation.summary, ⟨o, r, hm, hack, rfl⟩, rfl, h.named o r hm, rfl⟩

theorem Regular.any_reported (h : Regular iid s) : ((reported iid s.world).any fun operation =>
      operation.pluginId = p && operation.operationId = o) = true ↔ Listed s p o := by
  rw [List.any_eq_true]
  simp only [h.mem_reported, Bool.and_eq_true, decide_eq_true_eq]
  constructor
  · rintro ⟨_, ⟨o', r, hm, hack, rfl⟩, hp, ho⟩
    have ho' : o' = o := (h.named o' r hm).symm.trans ho
    subst ho'
    exact ⟨r, hm, hp, hack⟩
  · rintro ⟨r, hm, hp, hack⟩
    exact ⟨r.operation.summary, ⟨o, r, hm, hack, rfl⟩, hp, h.named o r hm⟩

theorem Regular.mem_unlisted (h : Regular iid s) :
    (p, o, record) ∈ unlistedEntries (reported iid s.world) s.store.list ↔ ¬ Listed s p o ∧
      WaitsFor o record ∧ s.store.get p = record := by
  unfold unlistedEntries
  rw [List.mem_filterMap]
  constructor
  · rintro ⟨row, hrow, hentry⟩
    rw [PluginStore.mem_list] at hrow
    split at hentry
    · rename_i o' hstatus hop
      split at hentry
      · cases hentry
      · rename_i hlisted
        rw [h.any_reported] at hlisted
        cases hentry
        exact ⟨hlisted, ⟨row, rfl, hstatus, hop⟩, hrow⟩
    · cases hentry
  · rintro ⟨hlisted, ⟨row, rfl, hstatus, hop⟩, hget⟩
    have hkey : row.pluginId = p := Table.key_of_get hget
    refine ⟨row, PluginStore.mem_list.mpr (by rwa [hkey]), ?_⟩
    simp only [hstatus, hop, hkey]
    rw [if_neg (by rwa [h.any_reported])]

theorem Regular.mem_entriesOf (h : Regular iid s) : (p, o, record) ∈ entriesOf iid s ↔
      record = s.store.get p ∧ (Listed s p o ∨ WaitsFor o record) := by
  unfold entriesOf
  rw [List.mem_append, h.mem_listed, h.mem_unlisted]
  constructor
  · rintro (⟨hlisted, hrecord⟩ | ⟨-, waits, hrecord⟩)
    · exact ⟨hrecord, .inl hlisted⟩
    · exact ⟨hrecord.symm, .inr waits⟩
  · rintro ⟨hrecord, hlisted | waits⟩
    · exact .inl ⟨hlisted, hrecord⟩
    · by_cases hlisted : Listed s p o
      · exact .inl ⟨hlisted, hrecord⟩
      · exact .inr ⟨hlisted, waits, hrecord.symm⟩

theorem Regular.entriesOf_apart (h : Regular iid s) :
    (entriesOf iid s).Pairwise fun e e' => ¬ (e'.1 = e.1 ∧ e'.2.1 = e.2.1) := by
  unfold entriesOf
  rw [List.pairwise_append]
  refine ⟨?_, ?_, ?_⟩
  · unfold listedEntries
    rw [h.reported_eq, List.map_map, List.pairwise_map]
    exact h.unacknowledged_distinct.imp fun hne hsame => hne hsame.2.symm
  · -- a plugin has one row
    have hrows : s.store.list.Pairwise fun row row' => row.pluginId ≠ row'.pluginId :=
      (List.perm_insertionSort _ _).symm.pairwise (List.pairwise_map.mp s.store.unique) fun h => h.symm
    refine List.Pairwise.filterMap _ (fun row row' hne e he e' he' hsame => ?_) hrows
    have hfirst : ∀ (row : InstallPluginRecord) (e : Entry),
        e ∈ unlistedEntries (reported iid s.world) [row] → e.1 = row.pluginId := by
      intro row e hmem
      obtain ⟨_, hrow, hentry⟩ := List.mem_filterMap.mp hmem
      obtain rfl := List.mem_singleton.mp hrow
      split at hentry
      · split at hentry
        · cases hentry
        · cases hentry
          rfl
      · cases hentry
    have first := hfirst row e (List.mem_filterMap.mpr ⟨row, List.mem_singleton_self _, he⟩)
    have second := hfirst row' e' (List.mem_filterMap.mpr ⟨row', List.mem_singleton_self _, he'⟩)
    exact hne (first.symm.trans (hsame.1.symm.trans second))
  · rintro ⟨p, o, record⟩ hmem ⟨p', o', record'⟩ hmem' ⟨hp, ho⟩
    obtain ⟨hlisted, -⟩ := h.mem_listed.mp hmem
    obtain ⟨hunlisted, -⟩ := h.mem_unlisted.mp hmem'
    simp only at hp ho
    subst hp ho
    exact hunlisted hlisted

theorem Regular.snapshot (h : Regular iid s) : Snapshot s.store.get (entriesOf iid s) s where
  records _ _ _ hmem := (h.mem_entriesOf.mp hmem).1
  apart := h.entriesOf_apart
  current _ _ _ hmem _ := (h.mem_entriesOf.mp hmem).1.symm
  named := h.named
  closed := h.closed

/-! ## The whole call -/

theorem serve_list (w : World) : serve iid .list w = (.operations (reported iid w), w) := rfl

theorem reconcile_alone {result : Option InstallError}
    (h : loop iid now (entriesOf iid s) none s = (result, s')) :
    alone iid now reconcileInstallOperations s = (result.elim (.ok ()) .error, s') := by
  have hlist : alone iid now (runtime .listInstallOperations) s =
      (.ok (reported iid s.world), s) := runtime_ok (serve_list _) rfl
  have hrecords : alone iid now (orElse (ask .listInstallRecords) .internal) s =
      (.ok s.store.list, s) := alone_orElse_ok rfl
  unfold entriesOf at h
  unfold reconcileInstallOperations
  rw [alone_bind_ok hlist, alone_bind_ok hrecords, alone_bind_ok (alone_lift h)]
  cases result <;> rfl

theorem Regular.reconcilable_iff (h : Regular iid s) :
    Reconcilable iid s ↔ ∀ p o record, (p, o, record) ∈ entriesOf iid s →
      EntrySettles iid s.world p o record := by
  constructor
  · rintro reconcilable p o record hmem
    obtain ⟨rfl, ⟨r, hm, rfl, hack⟩ | ⟨row, hget, hstatus, hop⟩⟩ := h.mem_entriesOf.mp hmem
    · exact ⟨r, hm, rfl, reconcilable.operations o r hm hack⟩
    · rw [hget]
      exact reconcilable.records p row o hget hstatus hop
  · intro settle
    refine ⟨fun o r hm hack => ?_, fun p row o hget hstatus hop => ?_⟩
    · obtain ⟨r', hm', -, hsettles⟩ := settle r.operation.pluginId o _
        (h.mem_entriesOf.mpr ⟨rfl, .inl ⟨r, hm, rfl, hack⟩⟩)
      cases hm.symm.trans hm'
      exact hsettles
    · exact settle p o (some row) (h.mem_entriesOf.mpr ⟨hget.symm, .inr ⟨row, rfl, hstatus, hop⟩⟩)

theorem Regular.converged (h : Regular iid s)
    (effect : LoopEffect s.store.get (entriesOf iid s) s s') : Converged s' := by
  -- an entry that is done and whose operation is unacknowledged is underway
  have underway : ∀ {p o r}, EntryDone s' p o (s.store.get p) → s'.world.inMemory o = some r →
      r.operation.acknowledged = false → Underway s' o r := by
    intro p o r hdone hm hack
    obtain ⟨r', hm', hp', hend⟩ := hdone
    cases hm.symm.trans hm'
    rcases hend with ⟨hack', -⟩ | ⟨waits, hget, -, hstate⟩
    · rw [hack] at hack'
      cases hack'
    · exact ⟨hm, hack, hstate, by rwa [hp', hget]⟩
  constructor
  · intro o r hm hack
    by_cases hentry : ∃ p record, (p, o, record) ∈ entriesOf iid s
    · obtain ⟨p, record, hmem⟩ := hentry
      have hdone := effect.done p o record hmem
      rw [(h.mem_entriesOf.mp hmem).1] at hdone
      exact underway hdone hm hack
    · -- an operation without an entry is acknowledged already
      push Not at hentry
      rw [effect.operations o hentry] at hm
      exact absurd (h.mem_entriesOf.mpr ⟨rfl, .inl ⟨r, hm, rfl, hack⟩⟩) (hentry r.operation.pluginId _)
  · intro p row hget hstatus
    -- the row waited for some operation before, and its entry is done
    have hbefore : ∃ o, (p, o, s.store.get p) ∈ entriesOf iid s ∧ WaitsFor o (s.store.get p) := by
      rcases effect.store p with hsame | ⟨o, record, hmem, waits⟩
      · rw [hget] at hsame
        obtain ⟨o, hop⟩ := Option.ne_none_iff_exists'.mp (h.waiting p row hsame.symm hstatus)
        have waits : WaitsFor o (s.store.get p) := ⟨row, hsame.symm, hstatus, hop⟩
        exact ⟨o, h.mem_entriesOf.mpr ⟨rfl, .inr waits⟩, waits⟩
      · obtain rfl := (h.mem_entriesOf.mp hmem).1
        exact ⟨o, hmem, waits⟩
    obtain ⟨o, hmem, waits⟩ := hbefore
    have hdone := effect.done p o _ hmem
    have hends := hdone
    obtain ⟨r, hm, hp, ⟨-, hcleared⟩ | ⟨waits', hrow, hack, -⟩⟩ := hends
    · exact absurd hstatus (hcleared waits row hget)
    · obtain ⟨row', hrow', -, hop'⟩ := waits'
      rw [← hrow, hget] at hrow'
      cases hrow'
      exact ⟨o, r, hop', hp, underway hdone hm hack⟩

/-- **One reconciliation brings both sides together exactly if they can be reconciled.** -/
theorem Regular.reconcileLaw_iff (h : Regular iid s) (now : Timestamp) :
    ReconcileLaw iid now s ↔ Reconcilable iid s := by
  rw [h.reconcilable_iff]
  unfold ReconcileLaw
  constructor
  · rintro ⟨hok, -⟩ p o record hmem
    by_contra hunsettled
    have herror := loop_refused h.snapshot now ⟨p, o, record, hmem, hunsettled⟩ none
    rw [reconcile_alone (Prod.mk.eta).symm] at hok
    cases hloop : (loop iid now (entriesOf iid s) none s).1 with
    | none => exact herror hloop
    | some error =>
      rw [hloop] at hok
      cases hok
  · intro settle
    obtain ⟨s', hloop, effect⟩ := loop_concludes h.snapshot now settle none
    rw [reconcile_alone hloop]
    exact ⟨rfl, h.converged effect⟩

end

end AudioDown.Core
