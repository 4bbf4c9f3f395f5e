/-
# AudioDown.Supervisor.Ledger — what the operation records add up to

`begin` refuses a second running operation and a 257th unacknowledged one, gives every operation the
next sequence number, and `list` reports in that order what is not acknowledged.  These checks look at
memory; the facts they are for are about the records on disk, which crashes leave and restarts read
back.  They hold under a condition on files, ids and the sequence counter, a saturating `u64`.
-/
import AudioDown.Supervisor.Journal

namespace AudioDown.Supervisor

open Lib

/-! ## The records on disk -/

/-- At most one operation is running, and sequence numbers differ. -/
structure World.Ledger (w : World) : Prop where
  single : ∀ o o' r r', w.onDisk o = some r → w.onDisk o' = some r' →
    r.operation.state.isTerminal = false → r'.operation.state.isTerminal = false → o = o'
  distinct : ∀ o o' r r', w.onDisk o = some r → w.onDisk o' = some r' →
    r.sequence = r'.sequence → o = o'
  bounded : ∀ o r, w.onDisk o = some r → r.sequence < 2 ^ 64 - 1

def World.Counted (w : World) : Prop :=
  ∀ o r, w.onDisk o = some r → r.sequence < w.state.nextSequence

variable {o : Uuid} {now : Timestamp}

section
variable {iid : String} {a : Act} {c : Outcome} {w : World}

/-- What a record that is on disk after a step was before it, unless the step is a `begin`. -/
theorem exec_disk_origin (hregister : ∀ p o now, a ≠ .register p o now) (keyed : w.Keyed)
    (mirrored : w.Mirrored) {r' : StoredOperation} (h : (exec iid a c w).2.onDisk o = some r') :
    ∃ r, w.onDisk o = some r ∧ r'.sequence = r.sequence ∧
      (r.operation.state.isTerminal = true → r'.operation.state.isTerminal = true) := by
  by_cases hload : a = .loadState
  · subst hload
    rw [World.onDisk, exec_loadState_records] at h
    exact ⟨r', h, rfl, id⟩
  rcases (exec_effect iid a c w).record hload keyed o with
    ⟨-, hdisk⟩ | ⟨-, -, -, hdisk⟩ | ⟨hreg, -⟩ | ⟨hbefore, hchange, -, ⟨-, hdisk⟩ | ⟨-, hdisk⟩⟩
  · exact ⟨r', hdisk ▸ h, rfl, id⟩
  · cases hdisk.symm.trans h
  · exact absurd hreg (hregister _ _ _)
  · cases hdisk.symm.trans h
    refine ⟨_, mirrored o _ hbefore, hchange.identity.2.2.2, fun hterminal => ?_⟩
    cases hchange with
    | setState _ _ allowed =>
      rw [← allowed hterminal]
      exact hterminal
    | setBuilt _ _ building =>
      rw [building] at hterminal
      cases hterminal
    | setFailed => rfl
    | acknowledge => exact hterminal
  · exact ⟨r', hdisk ▸ h, rfl, id⟩

theorem register_records (p : PluginId) (o : Uuid) (now : Timestamp) :
    (exec iid (.register p o now) c w).2.records = w.records ∨ (w.inMemory o = none ∧
        (∀ r ∈ valuesOf w.state.operations, r.operation.state.isTerminal = true) ∧
        (exec iid (.register p o now) c w).2.records = w.records.insert o
          (acceptedOperation iid p o now w.state.nextSequence) ∧
        (exec iid (.register p o now) c w).2.state.nextSequence =
          nextSequenceAfter w.state.nextSequence) := by
  generalize hw : (exec iid (.register p o now) c w).2 = w'
  have heffect := exec_effect iid (.register p o now) c w
  rw [hw] at heffect
  cases heffect with
  | nothing => exact .inl rfl
  | setter h =>
    rcases h with rfl | ⟨_, _, _, _, hchange, -⟩
    · exact .inl rfl
    · cases hchange
  | registered fresh idle _ accepted =>
    subst accepted
    exact .inr ⟨fresh, idle, rfl, rfl⟩
  | registerFailed fresh idle _ written =>
    rcases written with hsame | ⟨-, hwritten⟩
    · exact .inl hsame
    · exact .inr ⟨fresh, idle, hwritten, rfl⟩

theorem exec_nextSequence (hload : a ≠ .loadState) :
    (exec iid a c w).2.state.nextSequence = w.state.nextSequence ∨
      (exec iid a c w).2.state.nextSequence = nextSequenceAfter w.state.nextSequence := by
  have forgotten : ∀ (ids : List Uuid) (w : World),
      (ids.foldl .forgetOne w).state.nextSequence = w.state.nextSequence := by
    intro ids
    induction ids with
    | nil => exact fun _ => rfl
    | cons id ids ih => exact fun w => ih (w.forgetOne id)
  generalize hw : (exec iid a c w).2 = w'
  have heffect := exec_effect iid a c w
  rw [hw] at heffect
  cases heffect with
  | setter h =>
    rcases h with rfl | ⟨_, _, _, _, _, rfl⟩
    · exact .inl rfl
    · exact .inl (by rw [persistRecord_state])
  | registered | registerFailed => exact .inr rfl
  | forgot => exact .inl (forgotten _ w)
  | loaded => exact absurd rfl hload
  | @removed directory => cases directory <;> exact .inl rfl
  | _ => exact .inl rfl

theorem lt_nextSequenceAfter {n m : Nat} (h : n < m) (bounded : n < 2 ^ 64 - 1) :
    n < nextSequenceAfter m := by
  unfold nextSequenceAfter
  omega

/-- Every record on disk in `w'` was there in `w`, under the same number, and no less over. -/
def Descends (w w' : World) : Prop :=
  ∀ o r', w'.onDisk o = some r' → ∃ r, w.onDisk o = some r ∧ r'.sequence = r.sequence ∧
    (r.operation.state.isTerminal = true → r'.operation.state.isTerminal = true)

theorem World.Ledger.descend {w' : World} (h : w.Ledger) (descends : Descends w w') : w'.Ledger where
  single o o' r r' hr hr' hrunning hrunning' := by
    obtain ⟨q, hq, -, hterminal⟩ := descends o r hr
    obtain ⟨q', hq', -, hterminal'⟩ := descends o' r' hr'
    refine h.single o o' q q' hq hq' ?_ ?_
    · by_contra hne
      rw [hterminal (by simpa using hne)] at hrunning
      cases hrunning
    · by_contra hne
      rw [hterminal' (by simpa using hne)] at hrunning'
      cases hrunning'
  distinct o o' r r' hr hr' hsequence := by
    obtain ⟨q, hq, hsame, -⟩ := descends o r hr
    obtain ⟨q', hq', hsame', -⟩ := descends o' r' hr'
    exact h.distinct o o' q q' hq hq' (by rw [← hsame, hsequence, hsame'])
  bounded o r hr := by
    obtain ⟨q, hq, hsame, -⟩ := descends o r hr
    rw [hsame]
    exact h.bounded o q hq

/-- What `begin` can rely on when it adds a record. -/
structure World.Ready (w : World) : Prop where
  inStep : w.InStep
  counted : w.Counted
  below : w.state.nextSequence < 2 ^ 64 - 1

theorem World.Ledger.insert {w' : World} (h : w.Ledger) (ready : w.Ready)
    (idle : ∀ r ∈ valuesOf w.state.operations, r.operation.state.isTerminal = true)
    {p : PluginId} (records : w'.records = w.records.insert o
      (acceptedOperation iid p o now w.state.nextSequence)) : w'.Ledger := by
  have hdisk : ∀ o', w'.onDisk o' = if o = o' then
      some (acceptedOperation iid p o now w.state.nextSequence) else w.onDisk o' := by
    intro o'
    rw [World.onDisk, records, getElem?_insert_uuid, World.onDisk]
  have ended : ∀ o' r, w.onDisk o' = some r → r.operation.state.isTerminal = true := by
    intro o' r hr
    exact idle r (mem_valuesOf.mpr ⟨o', (ready.inStep o').trans hr⟩)
  -- each record is the new one, or an old one
  have cases_of : ∀ o' r, w'.onDisk o' = some r →
      (o = o' ∧ r.sequence = w.state.nextSequence) ∨ (o ≠ o' ∧ w.onDisk o' = some r) := by
    intro o' r hr
    rw [hdisk] at hr
    split at hr
    · cases hr
      exact .inl ⟨‹_›, rfl⟩
    · exact .inr ⟨‹_›, hr⟩
  constructor
  · intro o₁ o₂ r₁ r₂ h₁ h₂ hrunning₁ hrunning₂
    rcases cases_of o₁ r₁ h₁ with ⟨rfl, -⟩ | ⟨-, hold⟩
    · rcases cases_of o₂ r₂ h₂ with ⟨hsame, -⟩ | ⟨-, hold⟩
      · exact hsame
      · rw [ended o₂ r₂ hold] at hrunning₂
        cases hrunning₂
    · rw [ended o₁ r₁ hold] at hrunning₁
      cases hrunning₁
  · intro o₁ o₂ r₁ r₂ h₁ h₂ hsequence
    rcases cases_of o₁ r₁ h₁ with ⟨rfl, hnew⟩ | ⟨-, hold⟩
    · rcases cases_of o₂ r₂ h₂ with ⟨hsame, -⟩ | ⟨-, hold⟩
      · exact hsame
      · have := ready.counted o₂ r₂ hold
        omega
    · rcases cases_of o₂ r₂ h₂ with ⟨rfl, hnew⟩ | ⟨-, hold'⟩
      · have := ready.counted o₁ r₁ hold
        omega
      · exact h.distinct o₁ o₂ r₁ r₂ hold hold' hsequence
  · intro o' r hr
    rcases cases_of o' r hr with ⟨-, hnew⟩ | ⟨-, hold⟩
    · rw [hnew]
      exact ready.below
    · exact h.bounded o' r hold

theorem World.Ledger.step (h : w.Ledger) (keyed : w.Keyed) (mirrored : w.Mirrored)
    (ready : ∀ o, a.Creates o w → w.Ready) : (exec iid a c w).2.Ledger := by
  by_cases hregister : ∃ p o now, a = .register p o now
  · obtain ⟨p, o, now, rfl⟩ := hregister
    rcases @register_records iid c w p o now with hsame | ⟨hfresh, hidle, hrecords, -⟩
    · refine h.descend fun o' r hr => ⟨r, ?_, rfl, id⟩
      rwa [World.onDisk, hsame] at hr
    · exact h.insert (ready o ⟨⟨p, now, rfl⟩, hfresh⟩) hidle hrecords
  · push Not at hregister
    exact h.descend fun o r' hr' => exec_disk_origin hregister keyed mirrored hr'

/-- `load_state` sets the counter ahead of what it loads. -/
theorem foldl_load_nextSequence (records : List StoredOperation) (state : OperationState) :
    state.nextSequence ≤ (records.foldl OperationState.load state).nextSequence ∧
      ∀ r ∈ records, nextSequenceAfter r.sequence ≤
        (records.foldl OperationState.load state).nextSequence := by
  induction records generalizing state with
  | nil => simp
  | cons r records ih =>
    obtain ⟨hstate, hrest⟩ := ih (state.load r)
    have hload : (state.load r).nextSequence =
        max state.nextSequence (nextSequenceAfter r.sequence) := rfl
    rw [List.foldl_cons]
    refine ⟨by omega, fun q hq => ?_⟩
    rcases List.mem_cons.mp hq with rfl | hq
    · omega
    · exact hrest q hq

theorem World.Ledger.counted (h : w.Ledger) :
    ({ w with state := loadState w.readOperationsDir } : World).Counted := by
  intro o r hr
  have hmem : r ∈ (w.readOperationsDir.filterMap fun entry =>
      if entry.extension = some "json" then entry.content else none) := by
    rw [List.mem_filterMap]
    refine ⟨.record r, ?_, rfl⟩
    rw [World.readOperationsDir, List.mem_append]
    exact .inl (List.mem_map.mpr ⟨r, mem_valuesOf.mpr ⟨o, hr⟩, rfl⟩)
  have hnext := (foldl_load_nextSequence _ {}).2 r
    ((List.mem_insertionSort fun a b : StoredOperation => a.sequence ≤ b.sequence).mpr hmem)
  have hbounded := h.bounded o r hr
  refine lt_of_lt_of_le ?_ hnext
  unfold nextSequenceAfter
  omega

theorem World.Counted.step (h : w.Counted) (ledger : w.Ledger) (keyed : w.Keyed)
    (mirrored : w.Mirrored) (below : ∀ o, a.Creates o w → w.state.nextSequence < 2 ^ 64 - 1) :
    (exec iid a c w).2.Counted := by
  by_cases hload : a = .loadState
  · subst hload
    simp only [exec]
    split
    · exact h
    · exact ledger.counted
  -- records that were there
  have old : ∀ o r, w.onDisk o = some r →
      r.sequence < (exec iid a c w).2.state.nextSequence := by
    intro o r hr
    rcases @exec_nextSequence iid a c w hload with hsame | hnext
    · rw [hsame]
      exact h o r hr
    · rw [hnext]
      exact lt_nextSequenceAfter (h o r hr) (ledger.bounded o r hr)
  intro o r hr
  by_cases hregister : ∃ p o now, a = .register p o now
  · obtain ⟨p, o', now, rfl⟩ := hregister
    rcases @register_records iid c w p o' now with hsame | ⟨hfresh, -, hrecords, hnext⟩
    · rw [World.onDisk, hsame] at hr
      exact old o r hr
    · rw [World.onDisk, hrecords, getElem?_insert_uuid] at hr
      split at hr
      · cases hr
        rw [hnext]
        have hbelow := below o' ⟨⟨p, now, rfl⟩, hfresh⟩
        show w.state.nextSequence < nextSequenceAfter w.state.nextSequence
        unfold nextSequenceAfter
        omega
      · exact old o r hr
  · push Not at hregister
    obtain ⟨q, hq, hsequence, -⟩ := exec_disk_origin hregister keyed mirrored hr
    rw [hsequence]
    exact old o q hq

end

/-! ## Forgetting -/

def Act.listing : (a : Act) → a.Resp → Option (List Uuid) → Option (List Uuid)
  | .expired _, ids, _ => some ids
  | _, _, _ => none

/-- `forget` removes what has just been listed. -/
def ForgetsListed (listed : Option (List Uuid)) (a : Act) : Prop :=
  ∀ ids, a = .forget ids → listed = some ids

abbrev Listing {α : Type} (listed : Option (List Uuid)) (x : Program α) : Prop :=
  x.Traces Act.listing ForgetsListed (fun _ _ => True) listed

theorem cleanupAcknowledged_traces (now : Timestamp) (listed : Option (List Uuid)) :
    Listing listed (cleanupAcknowledged now) := by
  refine ⟨fun ids h => (by cases h), fun ids => ⟨fun ids' h => ?_, fun _ => trivial⟩⟩
  cases h
  rfl

theorem program_traces (iid : String) (tag : Tag) : Listing none (tag.program iid) := by
  have reply : ∀ {x : Call Unit} {listed}, Listing listed x →
      Listing listed (.bind x fun r => (.ret (.unit r) : Program Reply)) := fun hx =>
    hx.bind fun _ _ _ => trivial
  have quietly : ∀ {α : Type} {x : Program α}, Prog.Uses (fun a => ∀ listed, ForgetsListed listed a) x →
      ∀ listed, Listing listed x := fun hx _ =>
    hx.traces (fun _ listed ha _ => ha listed) (fun _ _ _ _ _ => trivial) trivial
  by_cases hcleanup : ∃ now, tag = .request (.cleanupAcknowledged now)
  · obtain ⟨now, rfl⟩ := hcleanup
    exact reply (cleanupAcknowledged_traces now none)
  by_cases hopening : ∃ now, tag = .opening now
  · obtain ⟨now, rfl⟩ := hopening
    -- nothing is forgotten before the records have been gone through
    have never : ∀ {α : Type} {x : Program α}, Prog.Uses (fun a => ∀ ids, a ≠ .forget ids) x →
        ∀ listed, Listing listed x := fun hx =>
      quietly (hx.mono fun a ha _ ids hids => absurd hids (ha ids))
    have restart : Prog.Uses (fun a => ∀ ids, a ≠ .forget ids)
        (reconcileRestart iid now) := by
      refine reconcileRestart_uses (fun a ha ids hids => ?_) ?_ ?_ ?_ ?_
      · rw [hids] at ha
        exact ha
      all_goals
        intros
        simp
    have rest : ∀ listed, Listing listed (do
        reconcileRestart iid now
        cleanupAcknowledged now : Call Unit) := fun listed =>
      (never restart listed).bind fun r listed' _ => by
        cases r with
        | error e => trivial
        | ok _ => exact cleanupAcknowledged_traces now listed'
    refine reply ⟨fun ids h => (by cases h), fun r => ?_⟩
    cases r with
    | error e => trivial
    | ok _ =>
      refine ⟨fun ids h => (by cases h), fun r => ?_⟩
      cases r with
      | error e => trivial
      | ok _ => exact rest _
  · refine quietly ((program_allowed iid tag).mono fun a ha listed ids hids => ?_) none
    subst hids
    exact (ha.elim hcleanup hopening).elim

/-- A task about to remove records removes acknowledged ones. -/
structure Sweeps (w : World) (t : SupervisorTask) : Prop where
  traces : ∃ listed, Listing listed t.prog
  acknowledged : ∀ ids, t.prog.head = some (.forget ids) → ∀ o ∈ ids, ∀ r, w.inMemory o = some r →
    r.operation.acknowledged = true

theorem sweeps_start (iid : String) (w : World) (tag : Tag) : Sweeps w (tag.task iid) := by
  have traces := program_traces iid tag
  refine ⟨⟨none, traces⟩, fun ids hhead => ?_⟩
  have hprog : (tag.task iid).prog = tag.program iid := rfl
  rw [hprog] at hhead
  cases hp : tag.program iid with
  | ret v => rw [hp] at hhead; cases hhead
  | act a k =>
    rw [hp] at hhead traces
    cases hhead
    cases traces.1 ids rfl

section
variable {iid : String} {a : Act} {c : Outcome} {w : World} {tag : Tag}
  {k : a.Resp → Program Reply}

theorem acknowledged_of_expired (h : o ∈ w.state.expired now) :
    ∃ r, w.inMemory o = some r ∧ r.operation.acknowledged = true := by
  simp only [OperationState.expired, List.mem_map, List.mem_filter, Bool.and_eq_true,
    Prod.exists, exists_and_right, exists_eq_right] at h
  obtain ⟨r, hr, ⟨hack, -⟩, -⟩ := h
  exact ⟨r, Std.TreeMap.mem_toList_iff_getElem?_eq_some.mp hr, hack⟩

theorem Listing.expired {listed : Option (List Uuid)} (h : Listing listed (.act a k)) {ids : List Uuid}
    (hhead : (k (exec iid a c w).1).head = some (.forget ids)) :
    ∃ now, a = .expired now ∧ w.state.expired now = ids := by
  have hnext := h.2 (exec iid a c w).1
  generalize hprog : k (exec iid a c w).1 = rest at hnext hhead
  cases rest with
  | ret v => cases hhead
  | act b k' =>
    cases hhead
    have hlisting := hnext.1 ids rfl
    cases a with
    | expired now => exact ⟨now, rfl, Option.some.inj hlisting⟩
    | _ => cases hlisting

theorem Sweeps.moved (h : Sweeps w ⟨tag, .act a k⟩) :
    Sweeps (exec iid a c w).2 ⟨tag, k (exec iid a c w).1⟩ := by
  obtain ⟨listed, htraces⟩ := h.traces
  refine ⟨⟨_, htraces.2 _⟩, fun ids hhead o ho r hr => ?_⟩
  obtain ⟨now, rfl, rfl⟩ := htraces.expired hhead
  obtain ⟨q, hq, hack⟩ := acknowledged_of_expired ho
  cases hq.symm.trans hr
  exact hack

/-- Another task.  Setters keep an operation acknowledged; only a `begin` makes an unacknowledged one. -/
theorem Sweeps.other {t : SupervisorTask} (h : Sweeps w t) (hload : a ≠ .loadState) (keyed : w.Keyed)
    (fresh : ∀ o, a.Creates o w → ∀ ids, t.prog.head = some (.forget ids) → o ∉ ids) :
    Sweeps (exec iid a c w).2 t := by
  refine ⟨h.traces, fun ids hhead o ho r hr => ?_⟩
  rcases (exec_effect iid a c w).record hload keyed o with
    ⟨hmem, -⟩ | ⟨-, -, hmem, -⟩ | ⟨hregister, hnone, -⟩ | ⟨hbefore, hchange, hmem, -⟩
  · exact h.acknowledged ids hhead o ho r (hmem ▸ hr)
  · cases hmem.symm.trans hr
  · exact absurd ho (fresh o ⟨⟨_, _, hregister⟩, hnone⟩ ids hhead)
  · cases hmem.symm.trans hr
    have hack := h.acknowledged ids hhead o ho _ hbefore
    by_contra hopen
    rw [hchange.keeps_open (by simpa using hopen)] at hack
    cases hack

end

/-! ## Every run -/

/-- The condition on a step: record files are written unless the process dies, and an operation is
begun anew only while the counter has room and no cleanup is about to remove its id. -/
def LedgerSafe (s : System) (label : Label) : Prop :=
  RecordsWritten s label ∧ ∀ i c, label = .advance i c ∨ label = .crashDuring i c →
    ∀ tag a k o, s.tasks[i]? = some ⟨tag, .act a k⟩ → a.Creates o s.world →
      s.world.state.nextSequence < 2 ^ 64 - 1 ∧
        ∀ t ∈ s.tasks, ∀ ids, t.prog.head = some (.forget ids) → o ∉ ids

structure System.Ledgered (iid : String) (s : System) : Prop where
  journalled : s.Journalled iid
  ledger : s.world.Ledger
  counted : s.phase = .serving → s.world.Counted
  opening : s.phase = .opening → ∀ t ∈ s.tasks, Opening iid World.Counted s.world t.prog
  sweeps : ∀ t ∈ s.tasks, Sweeps s.world t

section
variable {iid : String} {s s' : System} {i : Nat} {c : Outcome} {tag : Tag} {a : Act}
  {k : a.Resp → Program Reply}

theorem System.Ledgered.ready (h : s.Ledgered iid)
    (htask : s.tasks[i]? = some ⟨tag, .act a k⟩) (creates : a.Creates o s.world)
    (below : s.world.state.nextSequence < 2 ^ 64 - 1) : s.world.Ready := by
  obtain ⟨⟨p, now, hregister⟩, -⟩ := creates
  have serving := h.journalled.manned.register_serving htask hregister
  exact ⟨h.journalled.serving serving, h.counted serving, below⟩

theorem System.Ledgered.advanced (h : s.Ledgered iid)
    (htask : s.tasks[i]? = some ⟨tag, .act a k⟩) (safe : LedgerSafe s (.advance i c)) :
    (s.advanced iid i tag a k c).Ledgered iid := by
  have fresh := fun o => safe.2 i c (.inl rfl) tag a k o htask
  have keyed := h.journalled.journal.keyed
  have mirrored := h.journalled.journal.mirrored
  have manned := h.journalled.manned
  have counts : s.world.Counted → (exec iid a c s.world).2.Counted := fun hcounted =>
    hcounted.step h.ledger keyed mirrored fun o creates => (fresh o creates).1
  refine ⟨h.journalled.advanced (safe.1 _ _ _ htask) htask,
    h.ledger.step keyed mirrored fun o creates => h.ready htask creates (fresh o creates).1,
    fun serving => counts (h.counted serving), ?_, ?_⟩
  · intro hs t ht
    have hphase : s.phase = .opening := hs
    rcases Lib.Pool.mem_of_step ht with rfl | ⟨j, hj, ht⟩ | ht
    · exact (h.opening hphase _ (List.mem_of_getElem? htask)).step h.ledger.counted counts
    · cases hphase.symm.trans (manned.staffed.phase_of_two htask ht hj)
    · obtain ⟨p, o, rfl, -⟩ := mem_forked ht
      obtain ⟨now, htag⟩ : ∃ now, tag = .request (.begin p o now) := manned.step_allowed htask
      have hserving := manned.staffed.phase_of_mem (List.mem_of_getElem? htask) fun now' hopening => by
        rw [show tag = Tag.opening now' from hopening] at htag
        cases htag
      cases hphase.symm.trans hserving
  · intro t ht
    rcases Lib.Pool.mem_of_step ht with rfl | ⟨j, hj, ht⟩ | ht
    · exact (h.sweeps _ (List.mem_of_getElem? htask)).moved
    · have serving := manned.staffed.phase_of_two htask ht hj
      have hmem := List.mem_of_getElem? ht
      exact (h.sweeps t hmem).other (manned.not_load htask serving) keyed fun o creates =>
        (fresh o creates).2 t hmem
    · obtain ⟨p, o, -, rfl⟩ := mem_forked ht
      exact sweeps_start iid _ _

theorem System.Ledgered.next {label : Label} (h : s.Ledgered iid)
    (safe : LedgerSafe s label) (hnext : s.next iid label = some s') : s'.Ledgered iid := by
  have journalled := h.journalled.next safe.1 hnext
  have lost : ∀ {w : World}, w.Ledger → (System.crashed w).Journalled iid →
      (System.crashed w).Ledgered iid := fun hledger hjournalled =>
    ⟨hjournalled, ⟨hledger.single, hledger.distinct, hledger.bounded⟩, fun hs => (by cases hs),
      fun hs => (by cases hs), fun t ht => (by cases ht)⟩
  have same : ∀ {w' : World}, SameJournal s.world w' →
      { s with world := w' }.Journalled iid →
      { s with world := w' }.Ledgered iid := by
    intro w' hsame hjournalled
    have counts : s.world.Counted → w'.Counted := by
      intro hcounted o r hr
      rw [hsame.1]
      exact hcounted o r (hsame.onDisk o ▸ hr)
    refine ⟨hjournalled, h.ledger.descend fun o r hr => ⟨r, hsame.onDisk o ▸ hr, rfl, id⟩,
      fun hs => counts (h.counted hs),
      fun hs t ht => (h.opening hs t ht).imp id (Or.imp id counts), fun t ht => ?_⟩
    have hsweeps := h.sweeps t ht
    exact ⟨hsweeps.traces, fun ids hhead o ho r hr =>
      hsweeps.acknowledged ids hhead o ho r (hsame.inMemory o ▸ hr)⟩
  cases next_cases hnext with
  | boot now down =>
    refine ⟨journalled, h.ledger, fun hs => (by cases hs), fun _ t ht => ?_, fun t ht => ?_⟩
    · rw [List.mem_singleton.mp ht]
      exact .inl ⟨now, .inl rfl⟩
    · rw [List.mem_singleton.mp ht]
      exact sweeps_start iid _ _
  | ready opening opened =>
    refine ⟨journalled, h.ledger, fun _ => ?_, fun hs => (by cases hs), fun t ht => (by cases ht)⟩
    exact (h.opening opening _ (by rw [opened]; exact List.mem_singleton.mpr rfl)).opened
  | call request serving =>
    refine ⟨journalled, h.ledger, h.counted, fun hs => (by rw [serving] at hs; cases hs),
      fun t ht => ?_⟩
    rcases List.mem_append.mp ht with ht | ht
    · exact h.sweeps t ht
    · rw [List.mem_singleton.mp ht]
      exact sweeps_start iid _ _
  | advance task => exact h.advanced task safe
  | crash => exact lost h.ledger journalled
  | @crashDuring i c _ _ _ task =>
    refine lost (h.ledger.step h.journalled.journal.keyed h.journalled.journal.mirrored
      fun o creates => ?_) journalled
    exact h.ready task creates (safe.2 i c (.inr rfl) _ _ _ o task creates).1
  | removePlugin p c =>
    have hframe := removePlugin_frame p c s.world
    exact same ⟨hframe.1, hframe.2.1⟩ journalled
  | outside state records => exact same ⟨state, records⟩ journalled

theorem ledgered_initial : System.initial.Ledgered iid := by
  have empty : ∀ o r, System.initial.world.onDisk o ≠ some r := by
    intro o r hr
    simp [World.onDisk, System.initial, World.empty] at hr
  exact ⟨journalled_initial, ⟨fun o _ r _ hr => absurd hr (empty o r),
    fun o _ r _ hr => absurd hr (empty o r), fun o r hr => absurd hr (empty o r)⟩,
    fun hs => (by cases hs), fun hs => (by cases hs), fun t ht => (by cases ht)⟩

end

/-! ## What `list` reports -/

instance : Std.Total fun a b : StoredOperation => a.sequence ≤ b.sequence :=
  ⟨fun a b => Nat.le_total a.sequence b.sequence⟩

instance : IsTrans StoredOperation fun a b => a.sequence ≤ b.sequence :=
  ⟨fun _ _ _ h h' => Nat.le_trans h h'⟩

variable {r : StoredOperation}

section
variable {iid : String} {w : World}

theorem mem_unacknowledged {state : OperationState} :
    r ∈ state.unacknowledged iid ↔ (∃ o : Uuid, state.operations[o]? = some r) ∧
      r.installationId = iid ∧ r.operation.acknowledged = false := by
  rw [OperationState.unacknowledged, List.mem_insertionSort, List.mem_filter, mem_valuesOf]
  simp

theorem World.Ledger.memory_distinct (h : w.Ledger) (mirrored : w.Mirrored) {o o' : Uuid}
    {r r' : StoredOperation} (hr : w.inMemory o = some r) (hr' : w.inMemory o' = some r')
    (hsequence : r.sequence = r'.sequence) : o = o' :=
  h.distinct o o' r r' (mirrored o r hr) (mirrored o' r' hr') hsequence

theorem World.Ledger.ordered (h : w.Ledger) (keyed : w.Keyed) (mirrored : w.Mirrored) :
    (w.state.unacknowledged iid).Pairwise fun a b => a.sequence < b.sequence := by
  have distinct : (w.state.unacknowledged iid).Pairwise fun a b =>
      a.operation.operationId ≠ b.operation.operationId := by
    refine (List.perm_insertionSort _ _).symm.pairwise ?_ fun hne => hne.symm
    exact (valuesOf_distinct keyed.inMemory).sublist List.filter_sublist
  have sorted : (w.state.unacknowledged iid).Pairwise fun a b =>
      a.sequence ≤ b.sequence := List.pairwise_insertionSort _ _
  refine (distinct.and sorted).imp_of_mem fun {a b} ha hb hab => ?_
  obtain ⟨⟨o, ho⟩, -⟩ := mem_unacknowledged.mp ha
  obtain ⟨⟨o', ho'⟩, -⟩ := mem_unacknowledged.mp hb
  refine lt_of_le_of_ne hab.2 fun hsequence => hab.1 ?_
  -- the same number means the same operation
  rw [keyed.inMemory o a ho, keyed.inMemory o' b ho', h.memory_distinct mirrored ho ho' hsequence]

theorem World.Journal.listed_length (h : w.Journal iid) :
    (w.state.unacknowledged iid).length ≤ maxUnacknowledgedOperations := by
  have hcount : (openIds w.state.operations).length ≤ 0 + (openIds w.records).length :=
    length_openIds_le [] fun o r hr hack => .inr ⟨r, h.mirrored o r hr, hack⟩
  have hlength : (w.state.unacknowledged iid).length ≤
      (openIds w.state.operations).length := by
    rw [OperationState.unacknowledged, List.length_insertionSort, length_openIds]
    refine List.Sublist.length_le (List.monotone_filter_right _ fun r hr => ?_)
    simp only [Bool.and_eq_true] at hr
    exact hr.2
  have hroom := h.room
  omega

/-- What `list` answers. -/
def listAnswer (iid : String) (w : World) : List PluginInstallOperationSummary :=
  (Prog.run (exec iid) (fun _ => Outcome.done) list w).1

theorem listAnswer_eq (h : w.Journal iid) : listAnswer iid w =
      (w.state.unacknowledged iid).map fun r => r.operation.summary := by
  show ((w.state.unacknowledged iid).map fun r => r.operation.summary).take
    maxOperationListItems = _
  refine List.take_of_length_le ?_
  rw [List.length_map]
  exact h.listed_length

end

/-! ## The journal's laws -/

/-- What holds of the journal in a state. -/
structure JournalLaw (iid : String) (s : System) : Prop where
  /-- at most one operation is running -/
  single : ∀ o o' r r', s.world.inMemory o = some r → s.world.inMemory o' = some r' →
    r.operation.state.isTerminal = false → r'.operation.state.isTerminal = false → o = o'
  /-- at most 256 are unacknowledged -/
  room : ((valuesOf s.world.state.operations).filter fun r => !r.operation.acknowledged).length ≤
    maxUnacknowledgedOperations
  /-- sequences differ -/
  distinct : ∀ o o' r r', s.world.inMemory o = some r → s.world.inMemory o' = some r' →
    r.sequence = r'.sequence → o = o'
  /-- `list` reports every unacknowledged operation of this installation … -/
  listed : ∀ o r, s.world.inMemory o = some r → r.installationId = iid →
    r.operation.acknowledged = false → r.operation.summary ∈ listAnswer iid s.world
  /-- … in the order of the sequences -/
  ordered : listAnswer iid s.world =
      (s.world.state.unacknowledged iid).map (fun r => r.operation.summary) ∧
    (s.world.state.unacknowledged iid).Pairwise fun a b => a.sequence < b.sequence
  /-- and a crash loses none of this -/
  disk : s.world.Ledger ∧ (openIds s.world.records).length ≤ maxUnacknowledgedOperations

/-- What holds of one step. -/
structure JournalStepLaw (iid : String) (s : System) (label : Label) (s' : System) : Prop where
  /-- an operation that is begun is the last `list` reports -/
  begun : ∀ i c tag p o now k, label = .advance i c →
    s.tasks[i]? = some ⟨tag, .act (.register p o now) k⟩ → s.world.inMemory o = none →
      ∀ r, s'.world.inMemory o = some r → s'.world.state.unacknowledged iid =
        s.world.state.unacknowledged iid ++ [r]
  /-- a second `begin` changes nothing and starts nothing -/
  repeated : ∀ i c p o now r, label = .advance i c →
    s.tasks[i]? = some ((Tag.request (.begin p o now)).task iid) →
      s.world.inMemory o = some r → r.operation.pluginId = p →
        s'.world = s.world ∧ s'.tasks =
          s.tasks.set i ⟨.request (.begin p o now), .ret (.operation (.ok r.operation))⟩
  /-- no unacknowledged operation is removed -/
  kept : ∀ o r, s.world.onDisk o = some r → r.operation.acknowledged = false →
    ∃ r', s'.world.onDisk o = some r' ∧ r'.sequence = r.sequence ∧
      r'.operation.pluginId = r.operation.pluginId

section
variable {iid : String} {s s' : System} {i : Nat} {c : Outcome} {tag : Tag} {a : Act}
  {k : a.Resp → Program Reply}

theorem System.Ledgered.law (h : s.Ledgered iid) : JournalLaw iid s := by
  have keyed := h.journalled.journal.keyed
  have mirrored := h.journalled.journal.mirrored
  have ordered : (s.world.state.unacknowledged iid).Pairwise fun a b =>
      a.sequence < b.sequence := h.ledger.ordered keyed mirrored
  have hanswer := listAnswer_eq h.journalled.journal
  refine ⟨fun o o' r r' hr hr' => h.ledger.single o o' r r' (mirrored o r hr) (mirrored o' r' hr'),
    ?_, fun o o' r r' => h.ledger.memory_distinct mirrored, fun o r hr howned hack => ?_,
    ⟨hanswer, ordered⟩, h.ledger, h.journalled.journal.room⟩
  · have hcount : (openIds s.world.state.operations).length ≤ 0 + (openIds s.world.records).length :=
      length_openIds_le [] fun o r hr hack => .inr ⟨r, mirrored o r hr, hack⟩
    have hroom := h.journalled.journal.room
    rw [← length_openIds]
    omega
  · rw [hanswer]
    exact List.mem_map.mpr ⟨r, mem_unacknowledged.mpr ⟨⟨o, hr⟩, howned, hack⟩, rfl⟩

theorem System.Ledgered.forget_inStep (h : s.Ledgered iid) {ids : List Uuid}
    (htask : s.tasks[i]? = some ⟨tag, .act a k⟩) (hforget : a = .forget ids) : s.world.InStep := by
  subst hforget
  by_cases serving : s.phase = .serving
  · exact h.journalled.serving serving
  · have hopening : s.phase = .opening := by
      cases hphase : s.phase with
      | down =>
        have hstaffed := h.journalled.manned.staffed
        simp only [System.Staffed, hphase] at hstaffed
        rw [hstaffed] at htask
        cases htask
      | opening => rfl
      | serving => exact absurd hphase serving
    rcases h.journalled.opening hopening _ (List.mem_of_getElem? htask) with
      ⟨now, hprog | hprog⟩ | ⟨e, hprog⟩ | current
    · cases hprog
    · cases hprog
    · cases hprog
    · exact current.inStep

theorem System.Ledgered.kept (h : s.Ledgered iid) (htask : s.tasks[i]? = some ⟨tag, .act a k⟩)
    (hr : s.world.onDisk o = some r) (hopen : r.operation.acknowledged = false) :
    ∃ r', (exec iid a c s.world).2.onDisk o = some r' ∧ r'.sequence = r.sequence ∧
      r'.operation.pluginId = r.operation.pluginId := by
  have keyed := h.journalled.journal.keyed
  have mirrored := h.journalled.journal.mirrored
  by_cases hload : a = .loadState
  · subst hload
    exact ⟨r, by rwa [World.onDisk, exec_loadState_records], rfl, rfl⟩
  rcases (exec_effect iid a c s.world).record hload keyed o with
    ⟨-, hdisk⟩ | ⟨hforget, hlisted, -, -⟩ | ⟨hregister, hnone, -⟩ |
    ⟨hbefore, hchange, -, ⟨-, hdisk⟩ | ⟨-, hdisk⟩⟩
  · exact ⟨r, hdisk.trans hr, rfl, rfl⟩
  · -- what is removed has been seen to be acknowledged
    have hmemory : s.world.inMemory o = some r := (h.forget_inStep htask hforget o).trans hr
    have hack := (h.sweeps _ (List.mem_of_getElem? htask)).acknowledged _
      (congrArg some hforget) o hlisted r hmemory
    rw [hopen] at hack
    cases hack
  · -- what is begun is not on disk
    have serving := h.journalled.manned.register_serving htask hregister
    cases hnone.symm.trans ((h.journalled.serving serving o).trans hr)
  · cases (mirrored o _ hbefore).symm.trans hr
    exact ⟨_, hdisk, hchange.identity.2.2.2, hchange.identity.2.1⟩
  · exact ⟨r, hdisk.trans hr, rfl, rfl⟩

theorem System.Ledgered.begun {p : PluginId}
    {k : (Act.register p o now).Resp → Program Reply} (h : s.Ledgered iid)
    (h' : (s.advanced iid i tag (.register p o now) k c).Ledgered iid)
    (htask : s.tasks[i]? = some ⟨tag, .act (.register p o now) k⟩)
    (hnone : s.world.inMemory o = none)
    (hr : (exec iid (.register p o now) c s.world).2.inMemory o = some r) :
    (exec iid (.register p o now) c s.world).2.state.unacknowledged iid =
      s.world.state.unacknowledged iid ++ [r] := by
  have keyed := h.journalled.journal.keyed
  have mirrored := h.journalled.journal.mirrored
  have keyed' : (exec iid (.register p o now) c s.world).2.Keyed :=
    h'.journalled.journal.keyed
  have ordered' : ((exec iid (.register p o now) c s.world).2.state.unacknowledged
      iid).Pairwise fun a b => a.sequence < b.sequence :=
    h'.ledger.ordered keyed' h'.journalled.journal.mirrored
  have ordered : (s.world.state.unacknowledged iid).Pairwise fun a b =>
      a.sequence < b.sequence := h.ledger.ordered keyed mirrored
  have serving := h.journalled.manned.register_serving htask rfl
  -- the other records are what they were
  have others : ∀ o', o' ≠ o →
      (exec iid (.register p o now) c s.world).2.inMemory o' = s.world.inMemory o' := by
    intro o' hne
    rcases (exec_effect iid (.register p o now) c s.world).record (by simp) keyed o' with
      ⟨hmem, -⟩ | ⟨hforget, -⟩ | ⟨hregister, -⟩ | ⟨-, hchange, -⟩
    · exact hmem
    · cases hforget
    · cases hregister
      exact absurd rfl hne
    · cases hchange
  have hnew : r.installationId = iid ∧ r.operation.acknowledged = false ∧
      ∀ q ∈ s.world.state.unacknowledged iid, q.sequence < r.sequence := by
    have hdisk : (exec iid (.register p o now) c s.world).2.onDisk o = some r :=
      (h'.journalled.serving serving o).symm.trans hr
    rcases @register_records iid c s.world p o now with hsame | ⟨-, -, hrecords, -⟩
    · rw [World.onDisk, hsame] at hdisk
      cases hnone.symm.trans ((h.journalled.serving serving o).trans hdisk)
    · rw [World.onDisk, hrecords, getElem?_insert_uuid, if_pos rfl] at hdisk
      cases hdisk
      refine ⟨rfl, rfl, fun q hq => ?_⟩
      obtain ⟨⟨o', ho'⟩, -⟩ := mem_unacknowledged.mp hq
      exact h.counted serving o' q (mirrored o' q ho')
  have sorted : (s.world.state.unacknowledged iid ++ [r]).Pairwise fun a b =>
      a.sequence < b.sequence := by
    rw [List.pairwise_append]
    refine ⟨ordered, List.pairwise_singleton _ _, fun a ha b hb => ?_⟩
    rw [List.mem_singleton.mp hb]
    exact hnew.2.2 a ha
  have strict : ∀ {l : List StoredOperation}, l.Pairwise (fun a b => a.sequence < b.sequence) →
      l.Nodup := fun hl => hl.imp fun hab heq => by
    rw [heq] at hab
    exact absurd hab (lt_irrefl _)
  refine List.Perm.eq_of_pairwise (fun a b _ _ hab hba => absurd hab (lt_asymm hba)) ordered' sorted ?_
  refine (List.perm_ext_iff_of_nodup (strict ordered') (strict sorted)).mpr fun q => ?_
  rw [mem_unacknowledged, List.mem_append, List.mem_singleton, mem_unacknowledged]
  constructor
  · rintro ⟨⟨o', ho'⟩, hq⟩
    by_cases hne : o' = o
    · subst hne
      exact .inr (Option.some.inj (ho'.symm.trans hr))
    · exact .inl ⟨⟨o', (others o' hne).symm.trans ho'⟩, hq⟩
  · rintro (⟨⟨o', ho'⟩, hq⟩ | rfl)
    · have hne : o' ≠ o := by
        rintro rfl
        cases hnone.symm.trans ho'
      exact ⟨⟨o', (others o' hne).trans ho'⟩, hq⟩
    · exact ⟨⟨o, hr⟩, hnew.1, hnew.2.1⟩

theorem System.Ledgered.stepLaw {label : Label} (h : s.Ledgered iid)
    (safe : LedgerSafe s label) (hnext : s.next iid label = some s') : JournalStepLaw iid s label s' := by
  have h' := h.next safe hnext
  constructor
  · rintro i c tag p o now k rfl htask hnone r hr
    cases next_cases hnext with
    | advance task =>
      cases task.symm.trans htask
      exact h.begun h' htask hnone hr
    | outside _ _ _ _ _ external => exact external.elim
  · rintro i c p o now r rfl htask hr hp
    cases next_cases hnext with
    | @advance _ _ tag a k task =>
      rw [Tag.task, begin_program] at htask
      cases task.symm.trans htask
      have hget : s.world.state.operations[o]? = some r := hr
      have hexec : exec iid (.register p o now) c s.world =
          (.ok (r.operation, false), s.world) := by
        simp only [exec, World.register, hget]
        rw [if_neg (by simp [hp])]
      constructor
      · show (exec iid (.register p o now) c s.world).2 = s.world
        rw [hexec]
      · show s.tasks.set i _ ++ forked iid (.register p o now) _ = _
        rw [hexec]
        exact List.append_nil _
    | outside _ _ _ _ _ external => exact external.elim
  · intro o r hr hopen
    have same : s'.world.records = s.world.records → ∃ r', s'.world.onDisk o = some r' ∧
        r'.sequence = r.sequence ∧ r'.operation.pluginId = r.operation.pluginId := by
      intro hrecords
      exact ⟨r, by rw [World.onDisk, hrecords]; exact hr, rfl, rfl⟩
    cases next_cases hnext with
    | boot | ready | call | crash => exact same rfl
    | advance task => exact h.kept task hr hopen
    | crashDuring task => exact h.kept task hr hopen
    | removePlugin p c => exact same (removePlugin_frame p c s.world).2.1
    | outside _ records => exact same records

/-- **The journal's laws hold in every run** whose steps meet `LedgerSafe`. -/
theorem journal_laws {labels : List Label} (run : Run (System.next iid) LedgerSafe System.initial labels s) :
    JournalLaw iid s ∧ ∀ label s', LedgerSafe s label →
      s.next iid label = some s' → JournalStepLaw iid s label s' := by
  have ledgered := run.invariant
    (fun _ _ _ h safe hnext => h.next safe hnext) ledgered_initial
  exact ⟨ledgered.law, fun _ _ safe hnext => ledgered.stepLaw safe hnext⟩

end

/-! ## Two cleanups, and a `begin` between them -/

def closedRun : List Label :=
  servingRun ++ [.call (.begin "p" 1 0), .advance 0 .done, .call (.abort "p" 1 1), .advance 1 .done,
    .advance 1 .done, .call (.acknowledge "p" 1 1), .advance 2 .done]

def afterRetention : Timestamp := 1 + acknowledgedRetention

def reusedRun : List Label :=
  closedRun ++ [.call (.cleanupAcknowledged afterRetention), .advance 3 .done, .advance 3 .done,
    .call (.begin "p" 1 afterRetention), .advance 4 .done]

def overlappingRun : List Label :=
  closedRun ++ [.call (.cleanupAcknowledged afterRetention), .advance 3 .done,
    .call (.cleanupAcknowledged afterRetention), .advance 4 .done, .advance 4 .done,
    .call (.begin "p" 1 afterRetention), .advance 5 .done]

/-- A sufficient check of `LedgerSafe`. -/
def ledgerLabel (s : System) : Label → Bool
  | .advance i c =>
      decide (RecordsWritten s (.advance i c)) && decide (s.world.state.nextSequence < 2 ^ 64 - 1) &&
        ((match s.tasks[i]? with
          | some ⟨_, .act (.register ..) _⟩ => false
          | _ => true) ||
        s.tasks.all fun t => match t.prog.head with
          | some (.forget _) => false
          | _ => true)
  | .crashDuring .. => false
  | _ => true

theorem ledgerSafe_of_check (s : System) (label : Label) (h : ledgerLabel s label = true) :
    LedgerSafe s label := by
  cases label with
  | advance i c =>
    simp only [ledgerLabel, Bool.and_eq_true, decide_eq_true_eq, Bool.or_eq_true] at h
    obtain ⟨⟨hwritten, hbelow⟩, hpending⟩ := h
    refine ⟨hwritten, ?_⟩
    rintro j d hlabel tag a k o htask ⟨⟨p, now, rfl⟩, -⟩
    have hj : i = j := by
      rcases hlabel with hlabel | hlabel
      · cases hlabel
        rfl
      · cases hlabel
    subst hj
    refine ⟨hbelow, fun t ht ids hhead => ?_⟩
    rcases hpending with hpending | hpending
    · rw [htask] at hpending
      cases hpending
    · have hnone := List.all_eq_true.mp hpending t ht
      rw [hhead] at hnone
      cases hnone
  | crashDuring i c => cases h
  | _ => exact ⟨trivial, by rintro i c (hlabel | hlabel) <;> cases hlabel⟩

theorem journal_laws_after_reuse : ∃ s, Run (System.next "core") LedgerSafe System.initial reusedRun s ∧
      JournalLaw "core" s ∧ (listAnswer "core" s.world).map (·.operationId) = [1] := by
  have run : Run (System.next "core") LedgerSafe System.initial reusedRun (systemAfter reusedRun) :=
    Run.of_checked ledgerSafe_of_check rfl
  exact ⟨_, run, (journal_laws run).1, rfl⟩

/-- **A cleanup can remove an operation that is running**: between listing the expired ids and removing
their records it lets go of the lock. -/
theorem cleanup_removes_unacknowledged :
    ∃ s s', Run (System.next "core") (fun _ label => label.FilesWork) System.initial overlappingRun s ∧
      s.next "core" (.advance 3 .done) = some s' ∧
      (s.world.onDisk 1).map (fun r => (r.operation.state, r.operation.acknowledged)) =
        some (.accepted, false) ∧ s'.world.onDisk 1 = none ∧ s'.world.inMemory 1 = none := by
  have run : Run (System.next "core") (fun _ label => label.FilesWork) System.initial overlappingRun
      (systemAfter overlappingRun) := Run.of_decide rfl
  exact ⟨_, _, run, rfl, rfl, rfl, rfl⟩

end AudioDown.Supervisor
