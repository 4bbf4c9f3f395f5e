/-
# AudioDown.Core.Reconcile — what one reconciliation does to both sides

`reconcile_install_operations` asks the Supervisor for the operations nobody has acknowledged, adds the
installing records that wait for an operation not on that list, and works the entries off one by one.
With every message delivered and nothing failing, an entry succeeds exactly if it *settles*
(`EntrySettles`): a condition on the operation's state, the record of its plugin and the directories.
An entry touches its own operation and its own plugin only, so entries do not disturb one another and
the whole call succeeds exactly if every entry settles at the start (`reconcile_alone`).
-/
import AudioDown.Core.Alone

namespace AudioDown.Core

open Lib (Prog)
open Supervisor

/-! ## When an entry settles -/

def WaitsFor (o : Uuid) (record : Option InstallPluginRecord) : Prop :=
  ∃ row, record = some row ∧ row.status = .installing ∧ row.installOperationId = some o

theorem matchingInstalling_eq_none {operation : PluginInstallOperationSummary}
    {record : Option InstallPluginRecord} :
    matchingInstalling operation record = none ↔ ¬ WaitsFor operation.operationId record := by
  rw [Option.eq_none_iff_forall_ne_some]
  simp only [ne_eq, matchingInstalling_eq_some, WaitsFor, not_exists]

/-- What reconciling the operation `r` against the record of its plugin needs, by the operation's
state. -/
def Settles (iid : String) (w : World) (r : StoredOperation) (record : Option InstallPluginRecord) : Prop :=
  match r.operation.state with
  | .accepted | .building | .aborted => True
  | .built => ∀ row, matchingInstalling r.operation.summary record = some row →
      ∃ a, r.operation.artifact = some a ∧ artifactMatchesRecord a row = true ∧
        w.Finalizable iid r.operation.pluginId r.operation.operationId a
  | .finalized =>
      (∃ row, matchingInstalling r.operation.summary record = some row ∧
        carriesArtifact r.operation.artifact row = true) ∨
      (matchingInstalled r.operation.summary record).isSome = true
  | .failed => False

/-- The Supervisor knows the entry's operation, for the entry's plugin, and it settles. -/
def EntrySettles (iid : String) (w : World) (p : PluginId) (o : Uuid)
    (record : Option InstallPluginRecord) : Prop :=
  ∃ r, w.inMemory o = some r ∧ r.operation.pluginId = p ∧ Settles iid w r record

/-! ## What an entry touches -/

/-- Between `s` and `s'` only operation `o` has changed, and plugin `p` only if its record waits for
`o`. -/
structure Touched (p : PluginId) (o : Uuid) (record : Option InstallPluginRecord)
    (s s' : CoreWorld) : Prop where
  operations : ∀ o', o' ≠ o → s'.world.inMemory o' = s.world.inMemory o'
  candidates : ∀ o', o' ≠ o → s'.world.candidates o' = s.world.candidates o'
  installed : ∀ p', p' = p ∧ WaitsFor o record ∨ s'.world.installed p' = s.world.installed p'
  rows : ∀ p', p' = p ∧ WaitsFor o record ∨ s'.store.get p' = s.store.get p'

/-- How an entry ends: its operation is acknowledged and no record waits for it, or the operation is
still on its way and the record goes on waiting. -/
def Concluded (p : PluginId) (o : Uuid) (record : Option InstallPluginRecord) (s s' : CoreWorld) : Prop :=
  ∃ r, s'.world.inMemory o = some r ∧ r.operation.pluginId = p ∧ r.operation.operationId = o ∧
    ((r.operation.acknowledged = true ∧ r.operation.state.isTerminal = true ∧
        (WaitsFor o record → ∀ row, s'.store.get p = some row → row.status ≠ .installing)) ∨
      (s' = s ∧ WaitsFor o record ∧ r.operation.acknowledged = false ∧
        (r.operation.state = .accepted ∨ r.operation.state = .building)))

theorem Touched.refl (p : PluginId) (o : Uuid) (record : Option InstallPluginRecord)
    (s : CoreWorld) : Touched p o record s s :=
  ⟨fun _ _ => rfl, fun _ _ => rfl, fun _ => .inr rfl, fun _ => .inr rfl⟩

section
variable {iid : String} {now : Timestamp} {p : PluginId} {o : Uuid}
  {record : Option InstallPluginRecord} {s s₁ : CoreWorld} {r : StoredOperation}

theorem acknowledge_concludes (touched : Touched p o record s s₁)
    (hm : s₁.world.inMemory o = some r) (hp : r.operation.pluginId = p)
    (ho : r.operation.operationId = o) (terminal : r.operation.state.isTerminal = true)
    (cleared : WaitsFor o record → ∀ row, s₁.store.get p = some row → row.status ≠ .installing) :
    ∃ s', alone iid now (acknowledge p o) s₁ = (.ok (), s') ∧ Touched p o record s s' ∧
      Concluded p o record s s' := by
  refine ⟨_, acknowledge_alone hm hp ho terminal, ⟨?_, touched.candidates, touched.installed, touched.rows⟩, ?_⟩
  · intro o' ho'
    rw [← touched.operations o' ho']
    exact (getElem?_insert_uuid ..).trans (if_neg ho'.symm)
  · refine ⟨_, (getElem?_insert_uuid ..).trans (if_pos rfl), hp, ho, .inl ⟨rfl, terminal, ?_⟩⟩
    exact cleared

/-- `abort_and_ack_result`, for an operation no record waits for. -/
theorem abortAndAck_concludes (hm : s.world.inMemory o = some r)
    (hp : r.operation.pluginId = p) (ho : r.operation.operationId = o)
    (hs : r.operation.state.isTerminal = false ∨ r.operation.state = .aborted)
    (alien : ¬ WaitsFor o record) : ∃ s', alone iid now (abortAndAckResult p o) s = (.ok (), s') ∧
      Touched p o record s s' ∧ Concluded p o record s s' := by
  obtain ⟨r', w', habort, hp', ho', hs', hm', hothers, hcandidates, hinstalled⟩ :=
    @abortInstall_alone iid now s p o r hm hp ho hs
  have touched : Touched p o record s { s with world := w' } :=
    ⟨hothers, hcandidates, fun _ => .inr (by rw [hinstalled]), fun _ => .inr rfl⟩
  unfold abortAndAckResult
  rw [alone_bind_ok habort]
  exact acknowledge_concludes touched hm' hp' ho' (by rw [hs']; rfl) fun h => absurd h alien

/-! ## The statements of an entry -/

variable {row : InstallPluginRecord}

theorem completeInstall_alone (hrow : s.store.get p = some row)
    (hop : row.installOperationId = some o) : ∃ completed store', alone iid now
        (orElse (ask (.completeInstall p o)) .internal) s = (.ok completed, { s with store := store' }) ∧
      (∀ q, q ≠ p → store'.get q = s.store.get q) ∧
      ∀ row', store'.get p = some row' → row'.status ≠ .installing := by
  obtain ⟨store', hstep, hget, hothers⟩ := coreStep_completeInstall hrow hop now
  refine ⟨{ row with status := .installed, installOperationId := none, updatedAt := now }, store',
    alone_orElse_ok ?_, hothers, ?_⟩
  · show ((coreStep (.completeInstall p o) (.done now) s.store).1,
      ({ s with store := (coreStep (.completeInstall p o) (.done now) s.store).2 } : CoreWorld)) = _
    rw [hstep]
  · intro row' hrow'
    rw [hget] at hrow'
    cases hrow'
    simp

theorem rollbackInstall_alone (hrow : s.store.get p = some row) (hop : row.installOperationId = some o) :
    ∃ store', alone iid now (orElse (ask (.rollbackInstall p o)) .internal) s =
        (.ok (), { s with store := store' }) ∧
      ∀ q, store'.get q = if q = p then none else s.store.get q := by
  obtain ⟨store', hstore⟩ : ∃ store', s.store.rollbackInstall p o = .ok store' := by
    unfold PluginStore.rollbackInstall
    rw [if_pos (PluginStore.affectsOne_iff.mpr ⟨row, hrow, hop⟩)]
    exact ⟨_, rfl⟩
  refine ⟨store', alone_orElse_ok ?_, (PluginStore.get_rollbackInstall hstore).2⟩
  show ((coreStep (.rollbackInstall p o) (.done now) s.store).1,
    ({ s with store := (coreStep (.rollbackInstall p o) (.done now) s.store).2 } : CoreWorld)) = _
  simp only [coreStep, hstore, PluginStore.statement]

theorem finalizeInstall_alone {a : PluginInstallArtifact} (hm : s.world.inMemory o = some r)
    (hp : r.operation.pluginId = p) (hs : r.operation.state = .built)
    (ha : r.operation.artifact = some a) (hfin : s.world.Finalizable iid p o a) :
    ∃ w', alone iid now (runtime (.finalizeInstall p o)) s =
        (.ok (r.withState .finalized none now).operation, { s with world := w' }) ∧
      w'.inMemory o = some (r.withState .finalized none now) ∧
      (∀ o', o' ≠ o → w'.inMemory o' = s.world.inMemory o') ∧
      (∀ o', o' ≠ o → w'.candidates o' = s.world.candidates o') ∧
      ∀ p', p' ≠ p → w'.installed p' = s.world.installed p' := by
  refine ⟨_, runtime_ok (serve_method rfl (finalize_alone_built hm hp hs ha hfin)) rfl, ?_, ?_, ?_, ?_⟩
  · exact (getElem?_insert_uuid ..).trans (if_pos rfl)
  · intro o' ho'
    show ((s.world.placed p o).state.operations.insert o _)[o']? = _
    rw [getElem?_insert_uuid, if_neg ho'.symm, placed_state]
    rfl
  · intro o' ho'
    unfold World.placed
    split
    · rfl
    · exact Function.update_of_ne ho' _ _
  · intro p' hp'
    unfold World.placed
    split
    · rfl
    · exact Function.update_of_ne hp' _ _

/-! ## One entry -/

theorem complete_concludes (touched : Touched p o record s s₁)
    (hm : s₁.world.inMemory o = some r) (hp : r.operation.pluginId = p)
    (ho : r.operation.operationId = o) (terminal : r.operation.state.isTerminal = true)
    (waits : WaitsFor o record) (hrow : s₁.store.get p = some row)
    (hop : row.installOperationId = some o) :
    ∃ s', alone iid now (do
        let _ ← orElse (ask (.completeInstall p o)) .internal
        acknowledge p o) s₁ = (.ok (), s') ∧
      Touched p o record s s' ∧ Concluded p o record s s' := by
  obtain ⟨completed, store', hcomplete, hothers, hcleared⟩ :=
    @completeInstall_alone iid now p o s₁ row hrow hop
  have touched' : Touched p o record s { s₁ with store := store' } := by
    refine ⟨touched.operations, touched.candidates, touched.installed, fun p' => ?_⟩
    by_cases hp' : p' = p
    · exact .inl ⟨hp', waits⟩
    · exact .inr ((hothers p' hp').trans ((touched.rows p').resolve_left fun h => hp' h.1))
  rw [alone_bind_ok hcomplete]
  exact acknowledge_concludes touched' hm hp ho terminal fun _ => hcleared

theorem matchingInstalling_of_waits (ho : r.operation.operationId = o)
    (hrecord : record = some row) (hstatus : row.status = .installing)
    (hop : row.installOperationId = some o) : matchingInstalling r.operation.summary record = some row :=
  matchingInstalling_eq_some.mpr ⟨hrecord, hstatus, by rw [hop, ← ho]; rfl⟩

theorem matchingInstalling_of_not_waits (ho : r.operation.operationId = o)
    (alien : ¬ WaitsFor o record) : matchingInstalling r.operation.summary record = none :=
  matchingInstalling_eq_none.mpr (by rwa [show r.operation.summary.operationId = o from ho])

theorem reconcileOperation_concludes (hm : s.world.inMemory o = some r)
    (hp : r.operation.pluginId = p) (ho : r.operation.operationId = o)
    (closed : r.operation.acknowledged = true → r.operation.state.isTerminal = true)
    (settles : Settles iid s.world r record) (current : WaitsFor o record → s.store.get p = record) :
    ∃ s', alone iid now (reconcileOperation r.operation.summary record) s = (.ok (), s') ∧
      Touched p o record s s' ∧ Concluded p o record s s' := by
  have hplugin : r.operation.summary.pluginId = p := hp
  have hoperation : r.operation.summary.operationId = o := ho
  have hstate : r.operation.summary.state = r.operation.state := rfl
  have hartifact : r.operation.summary.artifact = r.operation.artifact := rfl
  unfold reconcileOperation
  rw [hplugin, hoperation, hstate, hartifact]
  unfold Settles at settles
  have unacknowledged : r.operation.state.isTerminal = false → r.operation.acknowledged = false := by
    intro pending
    by_contra hack
    rw [closed (by simpa using hack)] at pending
    cases pending
  by_cases waits : WaitsFor o record
  · obtain ⟨row, hrecord, hstatus, hop⟩ := waits
    have waits : WaitsFor o record := ⟨row, hrecord, hstatus, hop⟩
    have hrow : s.store.get p = some row := (current waits).trans hrecord
    rw [matchingInstalling_of_waits ho hrecord hstatus hop] at settles ⊢
    cases hs : r.operation.state with
    | accepted =>
      exact ⟨s, rfl, .refl .., r, hm, hp, ho, .inr ⟨rfl, waits, unacknowledged (by rw [hs]; rfl), .inl hs⟩⟩
    | building =>
      exact ⟨s, rfl, .refl .., r, hm, hp, ho, .inr ⟨rfl, waits, unacknowledged (by rw [hs]; rfl), .inr hs⟩⟩
    | built =>
      rw [hs] at settles
      obtain ⟨a, ha, hmatches, hfin⟩ := settles row rfl
      rw [hp, ho] at hfin
      have hcarries : carriesArtifact r.operation.artifact row = true :=
        carriesArtifact_iff.mpr ⟨a, ha, hmatches⟩
      obtain ⟨w', hfinalize, hm', hothers, hcandidates, hinstalled⟩ :=
        @finalizeInstall_alone iid now p o s r a hm hp hs ha hfin
      have touched : Touched p o record s { s with world := w' } := by
        refine ⟨hothers, hcandidates, fun p' => ?_, fun _ => .inr rfl⟩
        by_cases hp' : p' = p
        · exact .inl ⟨hp', waits⟩
        · exact .inr (hinstalled p' hp')
      simp only [hcarries, Bool.not_true, Bool.false_eq_true, if_false]
      rw [alone_bind_ok hfinalize]
      simp only [Supervisor.StoredOperation.withState, operationIdentityMatches, hp, ho, hcarries,
        ne_eq, not_true_eq_false, decide_true, decide_false, Bool.and_true, Bool.not_true,
        Bool.or_false, Bool.false_eq_true, if_false]
      exact complete_concludes touched hm' hp ho rfl waits hrow hop
    | finalized =>
      rw [hs] at settles
      have hcarries : carriesArtifact r.operation.artifact row = true := by
        rcases settles with ⟨_, hrow', hcarries⟩ | hinstalled
        · cases hrow'
          exact hcarries
        · simp [matchingInstalled, hrecord, Option.filter, hstatus] at hinstalled
      simp only [hcarries, Bool.not_true, Bool.false_eq_true, if_false]
      exact complete_concludes (.refl ..) hm hp ho (by rw [hs]; rfl) waits hrow hop
    | failed =>
      rw [hs] at settles
      exact settles.elim
    | aborted =>
      obtain ⟨r', w', habort, hp', ho', hs', hm', hothers, hcandidates, hinstalled⟩ :=
        @abortInstall_alone iid now s p o r hm hp ho (.inr hs)
      have hrow' : ({ s with world := w' } : CoreWorld).store.get p = some row := hrow
      obtain ⟨store', hrollback, hstore⟩ :=
        @rollbackInstall_alone iid now p o { s with world := w' } row hrow' hop
      have touched : Touched p o record s { world := w', store := store' } := by
        refine ⟨hothers, hcandidates, fun _ => .inr (by rw [hinstalled]), fun p' => ?_⟩
        by_cases hp' : p' = p
        · exact .inl ⟨hp', waits⟩
        · exact .inr ((hstore p').trans (if_neg hp'))
      rw [alone_bind_ok habort, alone_bind_ok hrollback]
      refine acknowledge_concludes touched hm' hp' ho' (by rw [hs']; rfl) fun _ row' hrow' => ?_
      rw [show store'.get p = none from (hstore p).trans (if_pos rfl)] at hrow'
      cases hrow'
  · rw [matchingInstalling_of_not_waits ho waits] at settles ⊢
    cases hs : r.operation.state with
    | accepted | building | built =>
      exact abortAndAck_concludes hm hp ho (.inl (by rw [hs]; rfl)) waits
    | finalized =>
      rw [hs] at settles
      rcases settles with ⟨_, hrow', _⟩ | hinstalled
      · cases hrow'
      · obtain ⟨row, hinstalled⟩ := Option.isSome_iff_exists.mp hinstalled
        simp only [hinstalled]
        exact acknowledge_concludes (.refl ..) hm hp ho (by rw [hs]; rfl) fun h => absurd h waits
    | failed =>
      rw [hs] at settles
      exact settles.elim
    | aborted => exact abortAndAck_concludes hm hp ho (.inr hs) waits

theorem reconcileOperation_refused (hm : s.world.inMemory o = some r) (hp : r.operation.pluginId = p)
    (ho : r.operation.operationId = o) (unsettled : ¬ Settles iid s.world r record) :
    ∃ error, alone iid now (reconcileOperation r.operation.summary record) s = (.error error, s) := by
  have hplugin : r.operation.summary.pluginId = p := hp
  have hoperation : r.operation.summary.operationId = o := ho
  have hstate : r.operation.summary.state = r.operation.state := rfl
  have hartifact : r.operation.summary.artifact = r.operation.artifact := rfl
  unfold reconcileOperation
  rw [hplugin, hoperation, hstate, hartifact]
  unfold Settles at unsettled
  cases hs : r.operation.state with
  | accepted | building | aborted =>
    rw [hs] at unsettled
    exact absurd trivial unsettled
  | built =>
    simp only [hs] at unsettled
    push Not at unsettled
    obtain ⟨row, hmatch, unsettled⟩ := unsettled
    simp only [hmatch]
    cases hcarries : carriesArtifact r.operation.artifact row with
    | false => exact ⟨.artifactMismatch, rfl⟩
    | true =>
      -- the artifact is the record's, so what is missing is a directory to finalize
      obtain ⟨a, ha, hmatches⟩ := carriesArtifact_iff.mp hcarries
      have hfin := unsettled a ha hmatches
      rw [hp, ho] at hfin
      refine ⟨.runtimeUnavailable, ?_⟩
      simp only [Bool.not_true, Bool.false_eq_true, if_false]
      rw [alone_bind_error (runtime_error (serve_method rfl (finalize_alone_built_error hm hp hs ha hfin)) rfl)]
  | finalized =>
    simp only [hs] at unsettled
    push Not at unsettled
    cases hmatch : matchingInstalling r.operation.summary record with
    | some row =>
      have hcarries : carriesArtifact r.operation.artifact row = false := by
        simpa using unsettled.1 row hmatch
      simp only [hcarries]
      exact ⟨.artifactMismatch, rfl⟩
    | none =>
      have hinstalled : matchingInstalled r.operation.summary record = none := by
        simpa using unsettled.2
      simp only [hinstalled]
      refine ⟨.runtimeUnavailable, ?_⟩
      unfold abortAndAckResult
      rw [alone_bind_error (abortInstall_alone_error hm hp (.inr hs))]
  | failed =>
    refine ⟨.runtimeUnavailable, ?_⟩
    rw [alone_bind_error (abortInstall_alone_error hm hp (.inl hs))]

theorem reconcileEntry_alone (hm : s.world.inMemory o = some r) (hp : r.operation.pluginId = p)
    (ho : r.operation.operationId = o) : alone iid now (reconcileEntry p o record) s =
      alone iid now (reconcileOperation r.operation.summary record) s := by
  unfold reconcileEntry
  rw [alone_bind_ok (runtime_status hm hp)]
  simp only [operationIdentityMatches, hp, ho, decide_true, Bool.and_true, Bool.not_true,
    Bool.false_eq_true, if_false]
  rw [alone_bind_ok (persistBuildLogs_alone _)]

theorem reconcileEntry_refused (now : Timestamp)
    (named : ∀ o r, s.world.inMemory o = some r → r.operation.operationId = o)
    (unsettled : ¬ EntrySettles iid s.world p o record) :
    ∃ error, alone iid now (reconcileEntry p o record) s = (.error error, s) := by
  by_cases known : ∃ r, s.world.inMemory o = some r ∧ r.operation.pluginId = p
  · obtain ⟨r, hm, hp⟩ := known
    rw [reconcileEntry_alone hm hp (named o r hm)]
    exact reconcileOperation_refused hm hp (named o r hm) fun h => unsettled ⟨r, hm, hp, h⟩
  · refine ⟨.runtimeUnavailable, ?_⟩
    unfold reconcileEntry
    rw [alone_bind_error (runtime_status_error fun r hm hp => known ⟨r, hm, hp⟩)]

end

/-! ## Entries do not disturb one another -/

theorem WaitsFor.unique {o o' : Uuid} {record : Option InstallPluginRecord}
    (h : WaitsFor o record) (h' : WaitsFor o' record) : o = o' := by
  obtain ⟨row, rfl, -, hop⟩ := h
  obtain ⟨row', hrow, -, hop'⟩ := h'
  cases hrow
  exact Option.some.inj (hop.symm.trans hop')

def EntryDone (s : CoreWorld) (p : PluginId) (o : Uuid) (record : Option InstallPluginRecord) : Prop :=
  ∃ r, s.world.inMemory o = some r ∧ r.operation.pluginId = p ∧ ((r.operation.acknowledged = true ∧
        (WaitsFor o record → ∀ row, s.store.get p = some row → row.status ≠ .installing)) ∨
      (WaitsFor o record ∧ s.store.get p = record ∧ r.operation.acknowledged = false ∧
        (r.operation.state = .accepted ∨ r.operation.state = .building)))

section
variable {iid : String} {rows : PluginId → Option InstallPluginRecord}
  {p p' : PluginId} {o o' : Uuid} {s s' : CoreWorld}

/-- A plugin whose record waits for another operation keeps its row and its directory. -/
theorem Touched.of_waits (touched : Touched p o (rows p) s s') (different : o' ≠ o)
    (waits : WaitsFor o' (rows p')) :
    s'.store.get p' = s.store.get p' ∧ s'.world.installed p' = s.world.installed p' := by
  have alien : ¬ (p' = p ∧ WaitsFor o (rows p)) := by
    rintro ⟨rfl, h⟩
    exact different (waits.unique h)
  exact ⟨(touched.rows p').resolve_left alien, (touched.installed p').resolve_left alien⟩

theorem Touched.settles_iff (touched : Touched p o (rows p) s s') (different : o' ≠ o)
    (named : ∀ o r, s.world.inMemory o = some r → r.operation.operationId = o) :
    EntrySettles iid s'.world p' o' (rows p') ↔ EntrySettles iid s.world p' o' (rows p') := by
  unfold EntrySettles
  rw [touched.operations o' different]
  refine exists_congr fun r => and_congr_right fun hm => and_congr_right fun hp => ?_
  have ho := named o' r hm
  unfold Settles
  cases r.operation.state with
  | accepted | building | aborted | failed | finalized => exact Iff.rfl
  | built =>
    refine forall_congr' fun row => imp_congr_right fun hmatch => ?_
    have waits : WaitsFor o' (rows p') :=
      ⟨row, ho ▸ matchingInstalling_eq_some.mp hmatch⟩
    have hinstalled := (touched.of_waits different waits).2
    have hcandidate := touched.candidates o' different
    simp only [World.Finalizable, World.Attested, World.directory, hp, ho, hinstalled, hcandidate]

theorem Touched.keeps_done (touched : Touched p o (rows p) s s') (different : o' ≠ o)
    (done : EntryDone s p' o' (rows p')) : EntryDone s' p' o' (rows p') := by
  obtain ⟨r, hm, hp, hdone⟩ := done
  refine ⟨r, (touched.operations o' different).trans hm, hp, ?_⟩
  rcases hdone with ⟨hack, hcleared⟩ | ⟨waits, hrow, hstate⟩
  · refine .inl ⟨hack, fun waits row hrow => ?_⟩
    rw [(touched.of_waits different waits).1] at hrow
    exact hcleared waits row hrow
  · exact .inr ⟨waits, (touched.of_waits different waits).1.trans hrow, hstate⟩

variable {record : Option InstallPluginRecord}

theorem Concluded.done (h : Concluded p o record s s')
    (current : WaitsFor o record → s.store.get p = record) : EntryDone s' p o record := by
  obtain ⟨r, hm, hp, -, hend⟩ := h
  refine ⟨r, hm, hp, hend.imp (fun h => ⟨h.1, h.2.2⟩) ?_⟩
  rintro ⟨rfl, waits, hstate⟩
  exact ⟨waits, current waits, hstate⟩

theorem Concluded.closed (h : Concluded p o record s s') (touched : Touched p o record s s')
    (closed : ∀ o r, s.world.inMemory o = some r → r.operation.acknowledged = true →
      r.operation.state.isTerminal = true) : ∀ o r, s'.world.inMemory o = some r →
      r.operation.acknowledged = true → r.operation.state.isTerminal = true := by
  intro o' r' hm' hack
  by_cases ho : o' = o
  · subst ho
    obtain ⟨r, hm, -, -, ⟨-, terminal, -⟩ | ⟨-, -, hopen, -⟩⟩ := h
    · cases hm.symm.trans hm'
      exact terminal
    · cases hm.symm.trans hm'
      rw [hopen] at hack
      cases hack
  · exact closed o' r' ((touched.operations o' ho).symm.trans hm') hack

theorem Concluded.named (h : Concluded p o record s s') (touched : Touched p o record s s')
    (named : ∀ o r, s.world.inMemory o = some r → r.operation.operationId = o) :
    ∀ o r, s'.world.inMemory o = some r → r.operation.operationId = o := by
  intro o' r' hm'
  by_cases ho : o' = o
  · subst ho
    obtain ⟨r, hm, -, hname, -⟩ := h
    cases hm.symm.trans hm'
    exact hname
  · exact named o' r' ((touched.operations o' ho).symm.trans hm')

/-- The same for every other entry, also one that names the same operation for another plugin. -/
theorem Concluded.settles_iff (h : Concluded p o (rows p) s s') (touched : Touched p o (rows p) s s')
    (settled : EntrySettles iid s.world p o (rows p))
    (named : ∀ o r, s.world.inMemory o = some r → r.operation.operationId = o) (apart : ¬ (p' = p ∧ o' = o)) :
    EntrySettles iid s'.world p' o' (rows p') ↔ EntrySettles iid s.world p' o' (rows p') := by
  by_cases different : o' = o
  · subst different
    have hplugin : p' ≠ p := fun hp => apart ⟨hp, rfl⟩
    obtain ⟨r, hm, hp, -⟩ := settled
    obtain ⟨r', hm', hp', -⟩ := h
    constructor
    · rintro ⟨r'', hm'', hp'', -⟩
      cases hm'.symm.trans hm''
      exact absurd (hp''.symm.trans hp') hplugin
    · rintro ⟨r'', hm'', hp'', -⟩
      cases hm.symm.trans hm''
      exact absurd (hp''.symm.trans hp) hplugin
  · exact touched.settles_iff different named

end

/-! ## The loops -/

section
variable {iid : String} {now : Timestamp} {rows : PluginId → Option InstallPluginRecord}
  {entries : List Entry}

def loop (iid : String) (now : Timestamp) (entries : List Entry)
    (firstError : Option InstallError) (s : CoreWorld) : Option InstallError × CoreWorld :=
  Prog.run (coreExec iid) (fun _ => now) (reconcileEntries entries firstError) s

theorem loop_cons (p : PluginId) (o : Uuid) (record : Option InstallPluginRecord)
    (firstError : Option InstallError) (s : CoreWorld) :
    loop iid now ((p, o, record) :: entries) firstError s =
      loop iid now entries (firstError.or (errorOf (alone iid now (reconcileEntry p o record) s).1))
      (alone iid now (reconcileEntry p o record) s).2 :=
  Prog.run_bind ..

theorem loop_error (entries : List Entry) (error : InstallError) (s : CoreWorld) :
    (loop iid now entries (some error) s).1 = some error := by
  induction entries generalizing s with
  | nil => rfl
  | cons e entries ih =>
    obtain ⟨p, o, record⟩ := e
    rw [loop_cons]
    exact ih _

/-- Entries made from one reading of both sides. -/
structure Snapshot (rows : PluginId → Option InstallPluginRecord) (entries : List Entry)
    (s : CoreWorld) : Prop where
  records : ∀ p o record, (p, o, record) ∈ entries → record = rows p
  apart : entries.Pairwise fun e e' => ¬ (e'.1 = e.1 ∧ e'.2.1 = e.2.1)
  current : ∀ p o record, (p, o, record) ∈ entries → WaitsFor o record → s.store.get p = record
  named : ∀ o r, s.world.inMemory o = some r → r.operation.operationId = o
  closed : ∀ o r, s.world.inMemory o = some r → r.operation.acknowledged = true →
    r.operation.state.isTerminal = true

variable {o : Uuid} {p : PluginId} {record : Option InstallPluginRecord} {s : CoreWorld}

theorem Snapshot.tail {s' : CoreWorld} (h : Snapshot rows ((p, o, record) :: entries) s)
    (touched : Touched p o record s s') (concluded : Concluded p o record s s') :
    Snapshot rows entries s' := by
  obtain rfl := h.records p o record List.mem_cons_self
  refine ⟨fun p' o' record' hmem => h.records p' o' record' (List.mem_cons_of_mem _ hmem),
    (List.pairwise_cons.mp h.apart).2, fun p' o' record' hmem waits => ?_,
    concluded.named touched h.named, concluded.closed touched h.closed⟩
  have hcurrent := h.current p' o' record' (List.mem_cons_of_mem _ hmem) waits
  obtain rfl := h.records p' o' record' (List.mem_cons_of_mem _ hmem)
  by_cases different : o' = o
  · -- the same operation, so another plugin
    have hplugin : p' ≠ p := fun hp =>
      (List.pairwise_cons.mp h.apart).1 _ hmem ⟨hp, different⟩
    exact ((touched.rows p').resolve_left fun h => hplugin h.1).trans hcurrent
  · exact (touched.of_waits different waits).1.trans hcurrent

theorem Snapshot.head (h : Snapshot rows ((p, o, record) :: entries) s)
    (now : Timestamp) (settles : EntrySettles iid s.world p o record) :
    ∃ s', alone iid now (reconcileEntry p o record) s = (.ok (), s') ∧ Touched p o record s s' ∧
      Concluded p o record s s' := by
  obtain ⟨r, hm, hp, hsettles⟩ := settles
  have ho := h.named o r hm
  rw [reconcileEntry_alone hm hp ho]
  exact reconcileOperation_concludes hm hp ho (h.closed o r hm) hsettles (h.current p o record List.mem_cons_self)

theorem loop_refused (h : Snapshot rows entries s) (now : Timestamp)
    (unsettled : ∃ p o record, (p, o, record) ∈ entries ∧ ¬ EntrySettles iid s.world p o record)
    (firstError : Option InstallError) : (loop iid now entries firstError s).1 ≠ none := by
  induction entries generalizing s firstError with
  | nil =>
    obtain ⟨_, _, _, hmem, -⟩ := unsettled
    exact absurd hmem List.not_mem_nil
  | cons e entries ih =>
    obtain ⟨p, o, record⟩ := e
    rw [loop_cons]
    by_cases settles : EntrySettles iid s.world p o record
    · obtain ⟨s', hrun, touched, concluded⟩ := h.head now settles
      rw [hrun]
      refine ih (h.tail touched concluded) ?_ _
      obtain ⟨p', o', record', hmem, hunsettled⟩ := unsettled
      rcases List.mem_cons.mp hmem with heq | hrest
      · cases heq
        exact absurd settles hunsettled
      · refine ⟨p', o', record', hrest, ?_⟩
        have apart := (List.pairwise_cons.mp h.apart).1 _ hrest
        obtain rfl := h.records p o record List.mem_cons_self
        obtain rfl := h.records p' o' record' hmem
        rwa [concluded.settles_iff touched settles h.named apart]
    · obtain ⟨error, herror⟩ := reconcileEntry_refused now h.named settles
      rw [herror]
      cases firstError with
      | none =>
        rw [show Option.or none (errorOf (.error error : Except InstallError Unit)) = some error
          from rfl, loop_error]
        simp
      | some first =>
        rw [show Option.or (some first) (errorOf (.error error : Except InstallError Unit)) =
          some first from rfl, loop_error]
        simp

/-- What the loops leave behind once every entry has settled. -/
structure LoopEffect (rows : PluginId → Option InstallPluginRecord) (entries : List Entry)
    (s s' : CoreWorld) : Prop where
  operations : ∀ o, (∀ p record, (p, o, record) ∉ entries) → s'.world.inMemory o = s.world.inMemory o
  store : ∀ p, s'.store.get p = s.store.get p ∨ ∃ o record, (p, o, record) ∈ entries ∧ WaitsFor o record
  kept : ∀ p o, (∀ p' record, (p', o, record) ∉ entries) → EntryDone s p o (rows p) →
    EntryDone s' p o (rows p)
  done : ∀ p o record, (p, o, record) ∈ entries → EntryDone s' p o record

theorem loop_concludes (h : Snapshot rows entries s) (now : Timestamp)
    (settle : ∀ p o record, (p, o, record) ∈ entries →
      EntrySettles iid s.world p o record) (firstError : Option InstallError) :
    ∃ s', loop iid now entries firstError s = (firstError, s') ∧ LoopEffect rows entries s s' := by
  induction entries generalizing s firstError with
  | nil =>
    refine ⟨s, rfl, fun _ _ => rfl, fun _ => .inl rfl, fun _ _ _ done => done, ?_⟩
    intro p o record hmem
    exact absurd hmem List.not_mem_nil
  | cons e entries ih =>
    obtain ⟨p, o, record⟩ := e
    have settles := settle p o record List.mem_cons_self
    obtain ⟨s₁, hrun, touched, concluded⟩ := h.head now settles
    have current := h.current p o record List.mem_cons_self
    obtain rfl := h.records p o record List.mem_cons_self
    have rest : ∀ p' o' record', (p', o', record') ∈ entries →
        EntrySettles iid s₁.world p' o' record' := by
      intro p' o' record' hmem
      have hsettles := settle p' o' record' (List.mem_cons_of_mem _ hmem)
      have apart := (List.pairwise_cons.mp h.apart).1 _ hmem
      obtain rfl := h.records p' o' record' (List.mem_cons_of_mem _ hmem)
      rwa [concluded.settles_iff touched settles h.named apart]
    -- no other entry is for this operation: it would be for another plugin, and not settle
    have once : ∀ p' record', (p', o, record') ∉ entries := by
      intro p' record' hmem
      obtain ⟨r, hm, hp, -⟩ := settles
      obtain ⟨r', hm', hp', -⟩ := settle p' o record' (List.mem_cons_of_mem _ hmem)
      cases hm.symm.trans hm'
      exact (List.pairwise_cons.mp h.apart).1 _ hmem ⟨hp'.symm.trans hp, rfl⟩
    obtain ⟨s', hloop, effect⟩ := ih (h.tail touched concluded) rest firstError
    refine ⟨s', ?_, ?_, ?_, ?_, ?_⟩
    · rw [loop_cons, hrun]
      cases firstError <;> exact hloop
    · intro o' hnone
      have different : o' ≠ o := by
        rintro rfl
        exact hnone p (rows p) List.mem_cons_self
      rw [effect.operations o' fun p' record' hmem => hnone p' record' (List.mem_cons_of_mem _ hmem),
        touched.operations o' different]
    · intro p'
      rcases effect.store p' with hsame | ⟨o', record', hmem, waits⟩
      · rcases touched.rows p' with ⟨rfl, waits⟩ | hrow
        · exact .inr ⟨o, rows p', List.mem_cons_self, waits⟩
        · exact .inl (hsame.trans hrow)
      · exact .inr ⟨o', record', List.mem_cons_of_mem _ hmem, waits⟩
    · intro p' o' hnone hdone
      have different : o' ≠ o := by
        rintro rfl
        exact hnone p (rows p) List.mem_cons_self
      exact effect.kept p' o' (fun p'' record' hmem => hnone p'' record' (List.mem_cons_of_mem _ hmem))
        (touched.keeps_done different hdone)
    · intro p' o' record' hmem
      rcases List.mem_cons.mp hmem with heq | hmem
      · cases heq
        exact effect.kept p o once (concluded.done current)
      · exact effect.done p' o' record' hmem

end

end AudioDown.Core
