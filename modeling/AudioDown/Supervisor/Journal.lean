/-
# AudioDown.Supervisor.Journal — the operation records in every run

The records below `operations/` are the Supervisor's memory across crashes.  As long as files can be
written, a record in memory is the record on disk, and a serving manager has them all; every record
belongs to this installation, an acknowledged operation is over, and no more operations are
unacknowledged than `list` can report.  A crash may fall inside any step, with any part of its effect
made.
-/
import AudioDown.Supervisor.Terminal

namespace AudioDown.Supervisor

open Lib

/-! ## Counting unacknowledged operations -/

section
variable {m m' : Std.TreeMap Uuid StoredOperation}

def openIds (m : Std.TreeMap Uuid StoredOperation) : List Uuid :=
  (m.toList.filter fun entry => !entry.2.operation.acknowledged).map Prod.fst

theorem mem_openIds {o : Uuid} : o ∈ openIds m ↔ ∃ r, m[o]? = some r ∧ r.operation.acknowledged = false := by
  simp [openIds, List.mem_map, List.mem_filter, Std.TreeMap.mem_toList_iff_getElem?_eq_some]

theorem nodup_openIds : (openIds m).Nodup := by
  have hkeys : (m.toList.map Prod.fst).Nodup := by
    rw [List.Nodup, List.pairwise_map]
    exact Std.TreeMap.distinct_keys_toList.imp fun h heq => h (compare_eq_iff_eq.mpr heq)
  exact (List.filter_sublist.map _).nodup hkeys

theorem length_openIds :
    (openIds m).length = ((valuesOf m).filter fun r => !r.operation.acknowledged).length := by
  rw [openIds, List.length_map, valuesOf, List.filter_map, List.length_map]
  rfl

theorem length_openIds_le (extra : List Uuid)
    (h : ∀ (o : Uuid) r, m'[o]? = some r → r.operation.acknowledged = false →
      o ∈ extra ∨ ∃ r, m[o]? = some r ∧ r.operation.acknowledged = false) :
    (openIds m').length ≤ extra.length + (openIds m).length := by
  rw [← List.length_append]
  apply (List.subperm_of_subset nodup_openIds _).length_le
  intro o ho
  obtain ⟨r, hr, hack⟩ := mem_openIds.mp ho
  rw [List.mem_append]
  exact (h o r hr hack).imp id mem_openIds.mpr

end

/-! ## The journal -/

def World.InStep (w : World) : Prop := ∀ o, w.inMemory o = w.onDisk o

structure World.Journal (iid : String) (w : World) : Prop where
  keyed : w.Keyed
  mirrored : w.Mirrored
  owned : ∀ o r, w.onDisk o = some r → r.installationId = iid
  closed : ∀ o r, w.onDisk o = some r → r.operation.acknowledged = true →
    r.operation.state.isTerminal = true
  room : (openIds w.records).length ≤ maxUnacknowledgedOperations

section
variable {iid : String} {a : Act} {c : Outcome} {w : World}

variable {C : World → Prop} {o : Uuid} {r r' : StoredOperation}

theorem Changes.keeps_open (h : Changes a o r r')
    (hopen : r'.operation.acknowledged = false) : r.operation.acknowledged = false := by
  cases h with
  | setState | setBuilt | setFailed => exact hopen
  | acknowledge => cases hopen

theorem Changes.keeps_closed (h : Changes a o r r')
    (closed : r.operation.acknowledged = true → r.operation.state.isTerminal = true)
    (hack : r'.operation.acknowledged = true) : r'.operation.state.isTerminal = true := by
  cases h with
  | setState _ _ allowed =>
    show PluginInstallOperationState.isTerminal _ = true
    rw [← allowed (closed hack)]
    exact closed hack
  | setBuilt _ _ building =>
    have := closed hack
    rw [building] at this
    cases this
  | setFailed => rfl
  | acknowledge _ _ terminal => exact terminal

theorem exec_loadState_records : (exec iid .loadState c w).2.records = w.records := by
  simp only [exec]
  split <;> rfl

theorem World.Journal.disk (h : w.Journal iid) (loaded : ∀ p o now, a = .register p o now → w.InStep) :
    (∀ o r, (exec iid a c w).2.onDisk o = some r → r.installationId = iid ∧
      (r.operation.acknowledged = true → r.operation.state.isTerminal = true)) ∧
    (openIds (exec iid a c w).2.records).length ≤ maxUnacknowledgedOperations := by
  by_cases hload : a = .loadState
  · subst hload
    rw [exec_loadState_records]
    refine ⟨fun o r hr => ?_, h.room⟩
    rw [World.onDisk, exec_loadState_records] at hr
    exact ⟨h.owned o r hr, h.closed o r hr⟩
  have effect := fun o => (exec_effect iid a c w).record hload h.keyed o
  constructor
  · intro o r hr
    rcases effect o with ⟨-, hdisk⟩ | ⟨-, -, -, hdisk⟩ | ⟨-, -, -, -, hdisk⟩ |
      ⟨hbefore, hchange, -, ⟨-, hdisk⟩ | ⟨-, hdisk⟩⟩
    · exact ⟨h.owned o r (hdisk ▸ hr), h.closed o r (hdisk ▸ hr)⟩
    · cases hdisk.symm.trans hr
    · cases hdisk.symm.trans hr
      exact ⟨rfl, fun hack => by cases hack⟩
    · cases hdisk.symm.trans hr
      have hold := h.mirrored o _ hbefore
      exact ⟨hchange.identity.2.2.1.trans (h.owned o _ hold), hchange.keeps_closed (h.closed o _ hold)⟩
    · exact ⟨h.owned o r (hdisk ▸ hr), h.closed o r (hdisk ▸ hr)⟩
  · -- only a `begin` adds an open operation, after counting them in memory
    by_cases hregister : ∃ o r, (exec iid a c w).2.onDisk o = some r ∧ r.operation.acknowledged = false ∧
        ¬ ∃ r', w.onDisk o = some r' ∧ r'.operation.acknowledged = false
    · obtain ⟨o, r, hr, hack, hnew⟩ := hregister
      rcases effect o with ⟨-, hdisk⟩ | ⟨-, -, -, hdisk⟩ | ⟨hreg, -, hroom, -, hdisk⟩ |
        ⟨hbefore, hchange, -, ⟨-, hdisk⟩ | ⟨-, hdisk⟩⟩
      · exact absurd ⟨r, hdisk ▸ hr, hack⟩ hnew
      · cases hdisk.symm.trans hr
      · have hcount : (openIds w.records).length ≤ 0 + (openIds w.state.operations).length :=
          length_openIds_le [] fun o' r' hr' hack' =>
            .inr ⟨r', (loaded _ _ _ hreg o').trans hr', hack'⟩
        have hmore : (openIds (exec iid a c w).2.records).length ≤ 1 + (openIds w.records).length :=
          length_openIds_le [o] fun o' r' hr' hack' => ?_
        · rw [← length_openIds] at hroom
          omega
        · rcases effect o' with ⟨-, hdisk⟩ | ⟨-, -, -, hdisk⟩ | ⟨hreg', -⟩ | ⟨-, hchange, -⟩
          · exact .inr ⟨r', hdisk.symm.trans hr', hack'⟩
          · cases hdisk.symm.trans hr'
          · rw [hreg] at hreg'
            cases hreg'
            exact .inl (List.mem_singleton.mpr rfl)
          · rw [hreg] at hchange
            cases hchange
      · cases hdisk.symm.trans hr
        exact absurd ⟨_, h.mirrored o _ hbefore, hchange.keeps_open hack⟩ hnew
      · exact absurd ⟨r, hdisk ▸ hr, hack⟩ hnew
    · push Not at hregister
      have hcount : (openIds (exec iid a c w).2.records).length ≤ 0 + (openIds w.records).length :=
        length_openIds_le [] fun o r hr hack => .inr (hregister o r hr hack)
      have hroom := h.room
      omega

/-- The outcomes of a step after which a record in memory is the record on disk if it was before: a
setter's file is written, and `begin` does not report a failure after its file has been written. -/
def Act.Writes (a : Act) (c : Outcome) : Prop :=
  (a.Sets → c.Persists) ∧ ∀ p o now, a = .register p o now → c ≠ .failedAfter

theorem Outcome.Succeeds.writes {c : Outcome} (h : c.Succeeds) (a : Act) : a.Writes c := by
  constructor
  · intro _
    cases c <;> trivial
  · rintro p o now - rfl
    exact h

theorem Act.Writes.persists (h : a.Writes c) (hchange : Changes a o r r') : c.Persists := h.1 hchange.sets

theorem World.Journal.step (h : w.Journal iid) (writes : a.Writes c)
    (loaded : ∀ p o now, a = .register p o now → w.InStep) : (exec iid a c w).2.Journal iid := by
  obtain ⟨hdisk, hroom⟩ := h.disk loaded
  exact ⟨h.keyed.step, h.mirrored.step h.keyed fun _ _ _ hchange => writes.persists hchange,
    fun o r hr => (hdisk o r hr).1, fun o r hr => (hdisk o r hr).2, hroom⟩

theorem World.Journal.lost (h : w.Journal iid) (loaded : ∀ p o now, a = .register p o now → w.InStep) :
    ({ (exec iid a c w).2 with state := {} } : World).Journal iid := by
  obtain ⟨hdisk, hroom⟩ := h.disk loaded
  have empty : ∀ o r, ({ (exec iid a c w).2 with state := {} } : World).inMemory o ≠
      some r := by
    intro o r hr
    simp [World.inMemory] at hr
  have keyed : (exec iid a c w).2.Keyed := h.keyed.step
  exact ⟨⟨fun o r hr => absurd hr (empty o r), keyed.onDisk⟩,
    fun o r hr => absurd hr (empty o r), fun o r hr => (hdisk o r hr).1,
    fun o r hr => (hdisk o r hr).2, hroom⟩

theorem World.InStep.step (h : w.InStep) (keyed : w.Keyed) (writes : a.Writes c) :
    (exec iid a c w).2.InStep := by
  intro o
  by_cases hload : a = .loadState
  · subst hload
    simp only [exec]
    split
    · exact h o
    · exact loadState_operations keyed.onDisk o
  rcases (exec_effect iid a c w).record hload keyed o with
    ⟨hmem, hdisk⟩ | ⟨-, -, hmem, hdisk⟩ | ⟨hregister, -, -, ⟨-, failing⟩ | hmem, hdisk⟩ |
    ⟨-, hchange, hmem, ⟨-, hdisk⟩ | ⟨failing, -⟩⟩
  · rw [hmem, hdisk, h o]
  · rw [hmem, hdisk]
  · exact absurd failing (writes.2 _ _ _ hregister)
  · rw [hmem, hdisk]
  · rw [hmem, hdisk]
  · exact absurd (writes.persists hchange) failing

/-! ## Opening -/

/-- What happens to a world while `open` waits: files outside the journal. -/
def SameJournal (w w' : World) : Prop := w'.state = w.state ∧ w'.records = w.records

instance : Std.Refl SameJournal := ⟨fun _ => ⟨rfl, rfl⟩⟩

instance : IsTrans World SameJournal :=
  ⟨fun _ _ _ h h' => ⟨h'.1.trans h.1, h'.2.trans h.2⟩⟩

theorem SameJournal.inMemory {w w' : World} (h : SameJournal w w') (o : Uuid) :
    w'.inMemory o = w.inMemory o := by
  rw [World.inMemory, h.1, World.inMemory]

theorem SameJournal.onDisk {w w' : World} (h : SameJournal w w') (o : Uuid) : w'.onDisk o = w.onDisk o := by
  rw [World.onDisk, h.2, World.onDisk]

/-- Filed under their ids, and in step. -/
structure World.Current (w : World) : Prop where
  keyed : w.Keyed
  inStep : w.InStep

theorem World.Keyed.same {w w' : World} (h : w.Keyed) (hsame : SameJournal w w') : w'.Keyed :=
  ⟨fun o r hr => h.inMemory o r (hsame.inMemory o ▸ hr),
    fun o r hr => h.onDisk o r (hsame.onDisk o ▸ hr)⟩

theorem World.Current.same {w w' : World} (h : w.Current) (hsame : SameJournal w w') : w'.Current := by
  refine ⟨h.keyed.same hsame, fun o => ?_⟩
  rw [hsame.inMemory, hsame.onDisk, h.inStep o]

theorem World.Current.step (h : w.Current) (writes : a.Writes c) : (exec iid a c w).2.Current :=
  ⟨h.keyed.step, h.inStep.step h.keyed writes⟩

/-- How far `open` has got: the layout and then the records are still to be read, or it has failed, or
the records are loaded and `C` holds from then on. -/
def Opening (iid : String) (C : World → Prop) (w : World) (prog : Program Reply) : Prop :=
  (∃ now, prog = (Tag.opening now).program iid ∨ prog = Prog.bind (do
      Call.of (step .loadState)
      reconcileRestart iid now
      cleanupAcknowledged now : Call Unit) fun r => .ret (.unit r)) ∨
    (∃ e, prog = .ret (.unit (.error e))) ∨ C w

theorem Opening.step {k : a.Resp → Program Reply} (h : Opening iid C w (.act a k))
    (loads : C { w with state := loadState w.readOperationsDir })
    (keeps : C w → C (exec iid a c w).2) :
    Opening iid C (exec iid a c w).2 (k (exec iid a c w).1) := by
  rcases h with ⟨now, hprog | hprog⟩ | ⟨e, hprog⟩ | hC
  · -- the layout
    cases hprog
    simp only [exec]
    cases attempt .layout c with
    | error e => exact .inr (.inl ⟨e, rfl⟩)
    | ok _ => exact .inl ⟨now, .inr rfl⟩
  · -- the records
    cases hprog
    simp only [exec]
    cases attempt .operationsDir c with
    | error e => exact .inr (.inl ⟨e, rfl⟩)
    | ok _ => exact .inr (.inr loads)
  · cases hprog
  · exact .inr (.inr (keeps hC))

theorem Opening.opened (h : Opening iid C w (.ret (.unit (.ok ())))) : C w := by
  rcases h with ⟨now, hprog | hprog⟩ | ⟨e, hprog⟩ | hC
  · cases hprog
  · cases hprog
  · cases hprog
  · exact hC

theorem World.Keyed.loaded (keyed : w.Keyed) :
    ({ w with state := loadState w.readOperationsDir } : World).Current :=
  ⟨⟨fun o r hr => keyed.onDisk o r ((loadState_operations keyed.onDisk o).symm.trans hr),
    keyed.onDisk⟩, loadState_operations keyed.onDisk⟩

end

/-! ## Every run -/

def Label.FilesWork : Label → Prop
  | .advance _ c => c.Succeeds
  | _ => True

instance : DecidablePred Label.FilesWork := fun label => by
  cases label <;> unfold Label.FilesWork <;> infer_instance

/-- The condition on a step that record files are written, unless the process dies in that step. -/
def RecordsWritten (s : System) : Label → Prop
  | .advance i c => ∀ tag a k, s.tasks[i]? = some ⟨tag, .act a k⟩ → a.Writes c
  | _ => True

instance (a : Act) : Decidable a.Sets := by
  unfold Act.Sets
  split <;> infer_instance

instance : DecidablePred Outcome.Persists
  | .failedBefore _ => isFalse id
  | .done | .failedAfter | .torn .. | .stoppedAfter _ | .built _ | .clock _ => isTrue trivial

deriving instance DecidableEq for Outcome

instance (a : Act) (c : Outcome) : Decidable (a.Writes c) :=
  decidable_of_iff ((a.Sets → c.Persists) ∧ (a.begun = none ∨ c ≠ .failedAfter))
    (and_congr Iff.rfl (by cases a <;> simp [Act.begun]))

instance (s : System) : (label : Label) → Decidable (RecordsWritten s label)
  | .advance i c => inferInstanceAs (Decidable (∀ tag a k, s.tasks[i]? = some ⟨tag, .act a k⟩ → a.Writes c))
  | .boot _ | .ready | .call _ | .crash | .crashDuring .. | .removePlugin .. | .prepare .. | .writeGrant _
  | .mirrorGrant _ => isTrue trivial

theorem Label.FilesWork.written {label : Label} (h : label.FilesWork) (s : System) :
    RecordsWritten s label := by
  cases label with
  | advance i c => exact fun _ a _ _ => h.writes a
  | _ => trivial

structure System.Journalled (iid : String) (s : System) : Prop where
  manned : s.Manned iid
  journal : s.world.Journal iid
  serving : s.phase = .serving → s.world.InStep
  opening : s.phase = .opening → ∀ t ∈ s.tasks, Opening iid World.Current s.world t.prog

section
variable {iid : String} {s s' : System}

theorem World.Journal.same {w w' : World} (h : w.Journal iid)
    (hsame : SameJournal w w') : w'.Journal iid where
  keyed := h.keyed.same hsame
  mirrored o r hr := (hsame.onDisk o).trans (h.mirrored o r (hsame.inMemory o ▸ hr))
  owned o r hr := h.owned o r (hsame.onDisk o ▸ hr)
  closed o r hr := h.closed o r (hsame.onDisk o ▸ hr)
  room := hsame.2 ▸ h.room

theorem System.Journalled.same {w' : World} (h : s.Journalled iid)
    (hsame : SameJournal s.world w') : { s with world := w' }.Journalled iid where
  manned := ⟨h.manned.staffed, h.manned.allowed, h.manned.begins⟩
  journal := h.journal.same hsame
  serving hs o := by rw [hsame.inMemory, hsame.onDisk, h.serving hs o]
  opening hs t ht := (h.opening hs t ht).imp id (Or.imp id fun current => current.same hsame)

theorem System.Manned.register_serving {i : Nat} {tag : Tag} {a : Act} {k : a.Resp → Program Reply}
    (manned : s.Manned iid) (htask : s.tasks[i]? = some ⟨tag, .act a k⟩)
    {p : PluginId} {o : Uuid} {now : Timestamp} (hregister : a = .register p o now) : s.phase = .serving := by
  have hallowed := manned.step_allowed htask
  rw [hregister] at hallowed
  have htag : tag = .request (.begin p o now) := hallowed
  refine manned.staffed.phase_of_mem (List.mem_of_getElem? htask) fun now' hopening => ?_
  rw [show tag = Tag.opening now' from hopening] at htag
  cases htag

theorem System.Journalled.advanced {i : Nat} {tag : Tag} {a : Act} {k : a.Resp → Program Reply}
    {c : Outcome} (h : s.Journalled iid) (writes : a.Writes c) (htask : s.tasks[i]? = some ⟨tag, .act a k⟩) :
    (s.advanced iid i tag a k c).Journalled iid where
  manned := h.manned.advanced htask
  journal := h.journal.step writes fun _ _ _ hregister =>
    h.serving (h.manned.register_serving htask hregister)
  serving hs := (h.serving hs).step h.journal.keyed writes
  opening hs t ht := by
    have hphase : s.phase = .opening := hs
    rcases Lib.Pool.mem_of_step ht with rfl | ⟨j, hj, ht⟩ | ht
    · exact (h.opening hphase _ (List.mem_of_getElem? htask)).step h.journal.keyed.loaded
        fun current => current.step writes
    · -- `open` runs alone
      have := h.manned.staffed.phase_of_two htask ht hj
      rw [hphase] at this
      cases this
    · -- and spawns nothing
      obtain ⟨p, o, rfl, -⟩ := mem_forked ht
      obtain ⟨now, htag⟩ : ∃ now, tag = .request (.begin p o now) := h.manned.step_allowed htask
      have := h.manned.staffed.phase_of_mem (List.mem_of_getElem? htask) fun now' hopening => by
        rw [show tag = Tag.opening now' from hopening] at htag
        cases htag
      rw [hphase] at this
      cases this

/-- **The journal holds in every run** in which only crashes keep record files from being written. -/
theorem System.Journalled.next {label : Label} (h : s.Journalled iid)
    (written : RecordsWritten s label) (hnext : s.next iid label = some s') : s'.Journalled iid := by
  have manned := h.manned.next hnext
  have lost : ∀ {w : World}, ({ w with state := {} } : World).Journal iid →
      (System.crashed w).Journalled iid := fun journal =>
    ⟨manned_crashed iid _, journal, fun hs => (by cases hs), nofun⟩
  cases next_cases hnext with
  | boot now down =>
    refine ⟨manned, h.journal, fun hs => (by cases hs), fun _ t ht => ?_⟩
    rw [List.mem_singleton.mp ht]
    exact .inl ⟨now, .inl rfl⟩
  | ready opening opened =>
    refine ⟨manned, h.journal, fun _ => ?_, nofun⟩
    have hopening := h.opening opening _ (by rw [opened]; exact List.mem_singleton.mpr rfl)
    exact hopening.opened.inStep
  | call request serving =>
    exact ⟨manned, h.journal, h.serving, fun hs => by rw [serving] at hs; cases hs⟩
  | advance task => exact h.advanced (written _ _ _ task) task
  | crash => exact lost (h.journal.lost (a := .utcNow) (c := .done) nofun)
  | crashDuring task =>
    exact lost (h.journal.lost fun _ _ _ hregister =>
      h.serving (h.manned.register_serving task hregister))
  | removePlugin p c =>
    have hframe := removePlugin_frame p c s.world
    exact h.same ⟨hframe.1, hframe.2.1⟩
  | outside state records => exact h.same ⟨state, records⟩

theorem journalled_initial : System.initial.Journalled iid where
  manned := manned_crashed iid .empty
  journal := ⟨⟨fun _ _ h => by simp [World.inMemory, System.initial, World.empty] at h,
      fun _ _ h => by simp [World.onDisk, System.initial, World.empty] at h⟩,
    fun _ _ h => by simp [World.inMemory, System.initial, World.empty] at h,
    fun _ _ h => by simp [World.onDisk, System.initial, World.empty] at h,
    fun _ _ h => by simp [World.onDisk, System.initial, World.empty] at h, by decide⟩
  serving hs := by cases hs
  opening hs := by cases hs

theorem System.Journalled.run {labels : List Label} (h : s.Journalled iid)
    (run : Run (System.next iid) RecordsWritten s labels s') : s'.Journalled iid :=
  run.invariant (fun _ _ _ h written hnext => h.next written hnext) h

/-- **Memory and journal agree** in every run in which record files are written unless the process dies
in that step: whatever a serving manager knows of an operation is what the operation's file says. -/
theorem memory_agrees_with_journal {labels : List Label}
    (run : Run (System.next iid) RecordsWritten System.initial labels s)
    (serving : s.phase = .serving) (o : Uuid) : s.world.inMemory o = s.world.onDisk o :=
  (journalled_initial.run run).serving serving o

theorem memory_kept_with_journal {labels more : List Label}
    (run : Run (System.next iid) RecordsWritten System.initial labels s) (serving : s.phase = .serving)
    (run' : Run (System.next iid) RecordsWritten s more s') (serving' : s'.phase = .serving) (o : Uuid)
    (kept : s'.world.onDisk o = s.world.onDisk o) : s'.world.inMemory o = s.world.inMemory o := by
  have journalled := journalled_initial.run run
  have after := (journalled.run run').serving serving' o
  exact after.trans (kept.trans (journalled.serving serving o).symm)

end

/-! ## A `begin` that fails cleanly, and an `abort` that does not -/

def servingRun : List Label := [.boot 0] ++ advances 0 5 ++ [.ready]

/-- A `begin` whose file cannot be written, and its repetition. -/
def rejectedRun : List Label :=
  servingRun ++ [.call (.begin "p" 1 0), .advance 0 (.failedBefore none),
    .call (.begin "p" 1 0), .advance 1 .done]

/-- A `begin`, and an `abort` whose file cannot be written. -/
def unpersistedRun : List Label :=
  servingRun ++ [.call (.begin "p" 1 0), .advance 0 .done, .call (.abort "p" 1 1), .advance 1 .done,
    .advance 1 (.failedBefore none)]

def systemAfter (labels : List Label) : System :=
  (labels.foldlM (System.next "core") System.initial).getD System.initial

theorem agrees_after_rejected_begin :
    ∃ s, Run (System.next "core") RecordsWritten System.initial rejectedRun s ∧
      s.phase = .serving ∧ s.world.inMemory 1 = s.world.onDisk 1 := by
  have run : Run (System.next "core") RecordsWritten System.initial rejectedRun
      (systemAfter rejectedRun) := Run.of_decide rfl
  exact ⟨_, run, rfl, memory_agrees_with_journal run rfl 1⟩

/-- **A setter that cannot write its file changes memory all the same**: the `abort` has returned an I/O
error, the operation is `Aborted` in memory and `Accepted` on disk. -/
theorem memory_ahead_of_journal :
    ∃ s, Run (System.next "core") (fun _ _ => True) System.initial unpersistedRun s ∧ s.phase = .serving ∧
      (∃ t ∈ s.tasks, t.tag = .request (.abort "p" 1 1) ∧ t.prog.head = none) ∧
      (s.world.inMemory 1).map (fun r => r.operation.state) = some .aborted ∧
      (s.world.onDisk 1).map (fun r => r.operation.state) = some .accepted := by
  have run : Run (System.next "core") (fun _ _ => True) System.initial unpersistedRun
      (systemAfter unpersistedRun) := Run.of_foldlM rfl
  exact ⟨_, run, rfl, ⟨_, List.mem_cons_of_mem _ List.mem_cons_self, rfl, rfl⟩, rfl, rfl⟩

end AudioDown.Supervisor
