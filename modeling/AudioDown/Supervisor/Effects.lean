/-
# AudioDown.Supervisor.Effects — everything one atomic step can do

`Effect` is what a step can do, failing ones included (`exec_effect`), and nothing else unfolds `exec`.  From it
one inversion theorem per part of the world: for an operation in memory (`Effect.inMemory`) and on disk
(`Effect.record`), an installed directory, a candidate and the mirrors.
-/
import AudioDown.Supervisor.Store

namespace AudioDown.Supervisor

/-- The operation `operationId` as the manager holds it. -/
def World.inMemory (w : World) (operationId : Uuid) : Option StoredOperation :=
  w.state.operations[operationId]?

/-- The operation `operationId` as its record file holds it. -/
def World.onDisk (w : World) (operationId : Uuid) : Option StoredOperation :=
  w.records[operationId]?

/-! ## Map lemmas at operation ids -/

theorem getElem?_insert_uuid {β : Type} (m : Std.TreeMap Uuid β) (k a : Uuid) (v : β) :
    (m.insert k v)[a]? = if k = a then some v else m[a]? := by
  rw [Std.TreeMap.getElem?_insert]
  simp only [compare_eq_iff_eq]

theorem getElem?_erase_uuid {β : Type} (m : Std.TreeMap Uuid β) (k a : Uuid) :
    (m.erase k)[a]? = if k = a then none else m[a]? := by
  rw [Std.TreeMap.getElem?_erase]
  simp only [compare_eq_iff_eq]

/-! ## Looking an operation up -/

theorem matchingOperation_eq_ok {state : OperationState} {pluginId : PluginId} {operationId : Uuid}
    {stored : StoredOperation} : state.matchingOperation pluginId operationId = .ok stored ↔
    state.operations[operationId]? = some stored ∧ stored.operation.pluginId = pluginId := by
  unfold OperationState.matchingOperation
  cases h : state.operations[operationId]? with
  | none => simp
  | some found =>
    by_cases hp : found.operation.pluginId = pluginId
    · simp only [hp, if_true, Except.ok.injEq, Option.some.injEq]
      constructor
      · rintro rfl
        exact ⟨rfl, hp⟩
      · exact fun h => h.1
    · simp only [hp, if_false, reduceCtorEq, Option.some.injEq, false_iff]
      rintro ⟨rfl, h⟩
      exact hp h

/-! ## Operations in memory -/

/-- The record a setter leaves behind, for each of the four steps that change one. -/
inductive Changes : Act → Uuid → StoredOperation → StoredOperation → Prop where
  | setState {pluginId operationId state errorCode now} (r : StoredOperation)
      (plugin : r.operation.pluginId = pluginId)
      (allowed : r.operation.state.isTerminal → r.operation.state = state) :
      Changes (.setState pluginId operationId state errorCode now) operationId r
        { r with operation := { r.operation with state, errorCode }, updatedAt := now }
  | setBuilt {pluginId operationId artifact buildLogs now} (r : StoredOperation)
      (plugin : r.operation.pluginId = pluginId) (building : r.operation.state = .building) :
      Changes (.setBuilt pluginId operationId artifact buildLogs now) operationId r { r with
          operation := { r.operation with
            state := .built, artifact := some artifact, buildLogs, errorCode := none }
          updatedAt := now }
  | setFailed {pluginId operationId errorCode buildLogs now} (r : StoredOperation)
      (plugin : r.operation.pluginId = pluginId) :
      Changes (.setFailed pluginId operationId errorCode buildLogs now) operationId r { r with
          operation := { r.operation with
            state := .failed, errorCode := some errorCode, buildLogs }
          updatedAt := now }
  | acknowledge {pluginId operationId now} (r : StoredOperation)
      (plugin : r.operation.pluginId = pluginId) (terminal : r.operation.state.isTerminal) :
      Changes (.acknowledge pluginId operationId now) operationId r
        { r with operation := { r.operation with acknowledged := true }, updatedAt := now }

/-- A setter never moves a record to another operation, plugin or place in the begin order. -/
theorem Changes.identity {a : Act} {operationId : Uuid}
    {r r' : StoredOperation} (h : Changes a operationId r r') :
    r'.operation.operationId = r.operation.operationId ∧ r'.operation.pluginId = r.operation.pluginId ∧
      r'.installationId = r.installationId ∧ r'.sequence = r.sequence := by
  cases h <;> exact ⟨rfl, rfl, rfl, rfl⟩

/-- What a step can do to one operation in memory.  `loadState` is not among them: it replaces the
whole map (`exec_loadState`). -/
inductive MemoryEffect (iid : String) (a : Act) (operationId : Uuid) :
    Option StoredOperation → Option StoredOperation → Prop where
  | same (m) : MemoryEffect iid a operationId m m
  | forgotten {operationIds} (m) (forget : a = .forget operationIds)
      (listed : operationId ∈ operationIds) : MemoryEffect iid a operationId m none
  | registered {pluginId now sequence} (register : a = .register pluginId operationId now) :
      MemoryEffect iid a operationId none (some (acceptedOperation iid pluginId operationId now sequence))
  | changed {r r'} (change : Changes a operationId r r') : MemoryEffect iid a operationId (some r) (some r')

theorem persistRecord_state (outcome : Outcome) (record : StoredOperation) (w : World) :
    (w.persistRecord outcome record).2.state = w.state := by
  unfold World.persistRecord
  split <;> rfl

/-- Whether `persist_record` replaces the file under this outcome. -/
def Outcome.Persists : Outcome → Prop
  | .failedBefore _ => False
  | _ => True

theorem persistRecord_records (outcome : Outcome) (record : StoredOperation) (w : World) :
    (¬ outcome.Persists ∧ (w.persistRecord outcome record).2.records = w.records) ∨
      (outcome.Persists ∧ (w.persistRecord outcome record).2.records =
        w.records.insert record.operation.operationId record) := by
  unfold World.persistRecord Outcome.Persists
  cases outcome <;> simp

variable {refuse : PluginInstallOperation → Option InstallOperationError}
  {change : StoredOperation → StoredOperation}

theorem changeRecord_ok {pluginId : PluginId} {operationId : Uuid}
    {outcome : Outcome} {w : World} {v : PluginInstallOperation}
    (h : (w.changeRecord pluginId operationId refuse change outcome).1 = .ok v) :
    ∃ r, w.inMemory operationId = some r ∧ r.operation.pluginId = pluginId ∧
      refuse r.operation = none ∧ v = (change r).operation ∧
      (w.changeRecord pluginId operationId refuse change outcome).2.inMemory operationId =
      some (change r) := by
  unfold World.changeRecord at h ⊢
  cases hm : w.state.matchingOperation pluginId operationId with
  | error e => simp [hm] at h
  | ok stored =>
    obtain ⟨hget, hplugin⟩ := matchingOperation_eq_ok.mp hm
    cases hr : refuse stored.operation with
    | some e => simp [hm, hr] at h
    | none =>
      simp only [hm, hr] at h ⊢
      refine ⟨stored, hget, hplugin, hr, ?_, ?_⟩
      · unfold World.persistRecord at h
        cases outcome <;> simp_all [Except.map]
      · simp [World.inMemory, persistRecord_state]

/-- The four setters in one: nothing happened, or a `Changes` happened in memory, and on disk as
well if the outcome persists. -/
def Setter (a : Act) (outcome : Outcome) (w w' : World) : Prop :=
  w' = w ∨ ∃ operationId r r', w.inMemory operationId = some r ∧ Changes a operationId r r' ∧
    w' = ({ w with state.operations := w.state.operations.insert operationId r' }
      |>.persistRecord outcome r').2

/-- A change of a record was refused and did nothing, or was made in memory and then persisted. -/
theorem changeRecord_setter {a : Act} {pluginId : PluginId} {operationId : Uuid}
    (changes : ∀ r : StoredOperation, r.operation.pluginId = pluginId → refuse r.operation = none →
      Changes a operationId r (change r)) (outcome : Outcome) (w : World) :
    Setter a outcome w (w.changeRecord pluginId operationId refuse change outcome).2 := by
  unfold World.changeRecord
  cases hm : w.state.matchingOperation pluginId operationId with
  | error e => exact .inl rfl
  | ok stored =>
    obtain ⟨hget, hplugin⟩ := matchingOperation_eq_ok.mp hm
    cases hr : refuse stored.operation with
    | some e => exact .inl (by simp [hr])
    | none => exact .inr ⟨operationId, stored, _, hget, changes stored hplugin hr, by simp [hr]⟩

section
variable {pluginId : PluginId} {operationId : Uuid} {now : Timestamp} (outcome : Outcome) (w : World)

theorem setState_setter {state errorCode} :
    Setter (.setState pluginId operationId state errorCode now) outcome w
      (w.setState pluginId operationId state errorCode now outcome).2 := by
  refine changeRecord_setter (fun r hp hr => .setState r hp fun hterm => ?_) outcome w
  by_contra hne
  simp [hterm, hne] at hr

theorem setBuilt_setter {artifact buildLogs} :
    Setter (.setBuilt pluginId operationId artifact buildLogs now) outcome w
      (w.setBuilt pluginId operationId artifact buildLogs now outcome).2 := by
  refine changeRecord_setter (fun r hp hr => .setBuilt r hp ?_) outcome w
  by_contra hne
  simp [hne] at hr

theorem setFailed_setter {errorCode buildLogs} :
    Setter (.setFailed pluginId operationId errorCode buildLogs now) outcome w
      (w.setFailed pluginId operationId errorCode buildLogs now outcome).2 :=
  changeRecord_setter (fun r hp _ => .setFailed r hp) outcome w

theorem acknowledge_setter : Setter (.acknowledge pluginId operationId now) outcome w
      (w.acknowledge pluginId operationId now outcome).2 := by
  refine changeRecord_setter (fun r hp hr => .acknowledge r hp ?_) outcome w
  by_contra hne
  simp [hne] at hr

end

theorem Setter.inMemory {a : Act} {outcome : Outcome} {w w' : World} (h : Setter a outcome w w')
    (iid : String) (o : Uuid) : MemoryEffect iid a o (w.inMemory o) (w'.inMemory o) := by
  rcases h with rfl | ⟨operationId, r, r', hget, hc, rfl⟩
  · exact .same _
  · by_cases ho : operationId = o
    · subst ho
      rw [hget]
      simpa [World.inMemory, persistRecord_state, getElem?_insert_uuid] using MemoryEffect.changed hc
    · simpa [World.inMemory, persistRecord_state, getElem?_insert_uuid, ho] using MemoryEffect.same _

theorem foldl_forgetOne_records (ids : List Uuid) (w : World) (o : Uuid) :
    (ids.foldl World.forgetOne w).inMemory o = (if o ∈ ids then none else w.inMemory o) ∧
      (ids.foldl World.forgetOne w).onDisk o = if o ∈ ids then none else w.onDisk o := by
  induction ids generalizing w with
  | nil => simp
  | cons id ids ih =>
    rw [List.foldl_cons, (ih _).1, (ih _).2]
    by_cases hmem : o ∈ ids
    · simp [hmem]
    · simp only [hmem, if_false, World.inMemory, World.onDisk, World.forgetOne, getElem?_erase_uuid,
        List.mem_cons, or_false, eq_comm, and_self]

theorem moveInto_eq_some {target : Directory} {content : InstallDirectory} {w moved : World}
    (h : w.moveInto target content = some moved) : moved = w.setDirectory target (some content) ∧ ∀ present,
    w.directory target = some present → present.isEmpty = true := by
  unfold World.moveInto at h
  cases hd : w.directory target with
  | none =>
    simp only [hd, Option.some.injEq] at h
    exact ⟨h.symm, by simp⟩
  | some present =>
    simp only [hd] at h
    split at h
    · simp only [Option.some.injEq] at h
      exact ⟨h.symm, by simp_all⟩
    · cases h

/-- Publishing a candidate fails and changes nothing, or places it where nothing or an empty
directory was. -/
theorem publishCandidate_cases (operationId : Uuid) (found : InstallAttestation) (manifest : List UInt8)
    (outcome : Outcome) (w : World) : ((w.publishCandidate operationId found manifest outcome).2 = w ∧
      ∃ e, (w.publishCandidate operationId found manifest outcome).1 = .error e) ∨
      (w.publishCandidate operationId found manifest outcome).2 =
      w.setDirectory (.candidate operationId) (some ⟨some found, some manifest⟩) ∧
      ∀ present, w.candidates operationId = some present → present.isEmpty = true := by
  unfold World.publishCandidate
  cases hm : w.moveInto (.candidate operationId) ⟨some found, some manifest⟩ with
  | none => cases outcome <;> exact .inl ⟨rfl, _, rfl⟩
  | some moved =>
    obtain ⟨rfl, hempty⟩ := moveInto_eq_some hm
    cases outcome with
    | failedBefore leftover => exact .inl ⟨rfl, _, rfl⟩
    | _ => exact .inr ⟨rfl, hempty⟩

/-- Renaming a candidate fails and changes nothing, or moves it to `installed/<plugin>`, where
nothing or an empty directory was. -/
theorem renameCandidate_cases (pluginId : PluginId) (operationId : Uuid) (outcome : Outcome) (w : World) :
    ((w.renameCandidate pluginId operationId outcome).2 = w ∧
      ∃ e, (w.renameCandidate pluginId operationId outcome).1 = .error e) ∨
    ∃ content, w.candidates operationId = some content ∧
      (w.renameCandidate pluginId operationId outcome).2 =
        (w.setDirectory (.candidate operationId) none).setDirectory (.installed pluginId) (some content) ∧
      ∀ present, w.installed pluginId = some present → present.isEmpty = true := by
  unfold World.renameCandidate
  cases hc : w.candidates operationId with
  | none => cases outcome <;> exact .inl ⟨rfl, _, rfl⟩
  | some content =>
    cases hm : (w.setDirectory (.candidate operationId) none).moveInto (.installed pluginId) content with
    | none => cases outcome <;> simp [hm]
    | some moved =>
      obtain ⟨rfl, hempty⟩ := moveInto_eq_some hm
      cases outcome with
      | failedBefore leftover => exact .inl ⟨rfl, _, rfl⟩
      | _ => exact .inr ⟨content, rfl, by simp [hm], hempty⟩

/-- `rest` is what an interrupted removal can leave of `present`. -/
def LeftOf (rest present : Option InstallDirectory) : Prop :=
  ∀ content found, rest = some content → content.attestation = some found →
    ∃ before, present = some before ∧ before.attestation = some found

theorem removeDirectory_eq (target : Directory) (outcome : Outcome) (w : World) :
    (w.removeDirectory target outcome).2 = w ∨ ∃ rest, (w.removeDirectory target outcome).2 =
      w.setDirectory target rest ∧ LeftOf rest (w.directory target) := by
  cases outcome with
  | failedBefore leftover => exact .inl rfl
  | torn keepAttestation keepManifest =>
    refine .inr ⟨_, rfl, fun content found hcontent hfound => ?_⟩
    obtain ⟨before, hbefore, rfl⟩ := Option.map_eq_some_iff.mp hcontent
    cases keepAttestation with
    | true => exact ⟨before, hbefore, hfound⟩
    | false => cases hfound
  | _ => exact .inr ⟨none, rfl, fun content found hcontent => by cases hcontent⟩

/-! ## The whole step -/

/-- Everything a step can turn the world into.  `registered` and `registerFailed` are the two ends
of `begin`'s block after its checks: the record is on disk and in memory, or it is not in memory
and perhaps on disk all the same. -/
inductive Effect (iid : String) (outcome : Outcome) (w : World) :
    Act → World → Prop where
  | nothing (a) : Effect iid outcome w a w
  | setter {a w'} (h : Setter a outcome w w') : Effect iid outcome w a w'
  | registered {pluginId operationId now stored} (fresh : w.inMemory operationId = none)
      (idle : ∀ r ∈ valuesOf w.state.operations, r.operation.state.isTerminal = true)
      (room : ((valuesOf w.state.operations).filter fun r => !r.operation.acknowledged).length <
        maxUnacknowledgedOperations)
      (accepted : stored = acceptedOperation iid pluginId operationId now w.state.nextSequence) :
      Effect iid outcome w (.register pluginId operationId now) { w with
          state :=
            { operations := w.state.operations.insert operationId stored
              nextSequence := nextSequenceAfter w.state.nextSequence }
          records := w.records.insert operationId stored }
  | registerFailed {pluginId operationId now records temporaries} (fresh : w.inMemory operationId = none)
      (idle : ∀ r ∈ valuesOf w.state.operations, r.operation.state.isTerminal = true)
      (room : ((valuesOf w.state.operations).filter fun r => !r.operation.acknowledged).length <
        maxUnacknowledgedOperations)
      (written : records = w.records ∨ outcome = .failedAfter ∧ records = w.records.insert operationId
          (acceptedOperation iid pluginId operationId now w.state.nextSequence)) :
      Effect iid outcome w (.register pluginId operationId now) { w with
          state := { w.state with nextSequence := nextSequenceAfter w.state.nextSequence }
          records, temporaries }
  | forgot {operationIds removed} (listed : removed ⊆ operationIds) :
      Effect iid outcome w (.forget operationIds) (removed.foldl World.forgetOne w)
  | loaded : Effect iid outcome w .loadState { w with state := loadState w.readOperationsDir }
  | renamed {pluginId operationId content} (source : w.candidates operationId = some content)
      (target : ∀ present, w.installed pluginId = some present → present.isEmpty = true) :
      Effect iid outcome w (.renameCandidate pluginId operationId)
        ((w.setDirectory (.candidate operationId) none).setDirectory (.installed pluginId) (some content))
  | published {operationId found manifest}
      (target : ∀ present, w.candidates operationId = some present → present.isEmpty = true) :
      Effect iid outcome w (.publishCandidate operationId found manifest)
        (w.setDirectory (.candidate operationId) (some ⟨some found, some manifest⟩))
  | removed {directory} (rest) (left : LeftOf rest (w.directory directory)) :
      Effect iid outcome w (.removeDirectory directory) (w.setDirectory directory rest)
  | unmirrored {file} (prepared mirroredGrants grants) : Effect iid outcome w (.removeFile file)
        { w with prepared, mirroredGrants, grants }
  | built {pluginId operationId} (output : BuildOutput) : Effect iid outcome w (.build pluginId operationId)
        { w with images :=
            Function.update w.images output.artifact.imageId (some operationId) }
  | imageRemoved {imageId} : Effect iid outcome w (.removeImage imageId)
        { w with images := Function.update w.images imageId none }

theorem register_effect (iid : String) (outcome : Outcome) (w : World)
    (pluginId : PluginId) (operationId : Uuid) (now : Timestamp) :
    Effect iid outcome w (.register pluginId operationId now)
      (w.register iid pluginId operationId now outcome).2 := by
  unfold World.register
  cases hget : w.state.operations[operationId]? with
  | some existing => dsimp only; split <;> exact .nothing _
  | none =>
    dsimp only
    split
    · exact .nothing _
    rename_i hidle
    split
    · exact .nothing _
    rename_i hroom
    have idle : ∀ r ∈ valuesOf w.state.operations, r.operation.state.isTerminal = true := by
      intro r hr
      by_contra hne
      exact hidle (List.any_eq_true.mpr ⟨r, hr, by simpa using hne⟩)
    have room := Nat.lt_of_not_le hroom
    cases outcome with
    | failedBefore leftover => exact .registerFailed hget idle room (.inl rfl)
    | failedAfter => exact .registerFailed hget idle room (.inr ⟨rfl, rfl⟩)
    | _ => exact .registered hget idle room rfl

theorem forget_effect (iid : String) (outcome : Outcome) (w : World) (operationIds : List Uuid) :
    Effect iid outcome w (.forget operationIds) (w.forget operationIds outcome).2 := by
  cases outcome with
  | failedBefore leftover => exact .forgot (List.take_subset _ _)
  | stoppedAfter count => exact .forgot (List.take_subset _ _)
  | _ => exact .forgot (List.Subset.refl _)

/-- **One step, completely.**  Every later fact about a step is read off this classification. -/
theorem exec_effect (iid : String) (a : Act) (outcome : Outcome) (w : World) :
    Effect iid outcome w a (exec iid a outcome w).2 := by
  cases a with
  | register pluginId operationId now => exact register_effect ..
  | setState => exact .setter (setState_setter outcome w)
  | setBuilt => exact .setter (setBuilt_setter outcome w)
  | setFailed => exact .setter (setFailed_setter outcome w)
  | acknowledge => exact .setter (acknowledge_setter outcome w)
  | forget operationIds => exact forget_effect ..
  | loadState =>
    simp only [exec]
    cases attempt .operationsDir outcome with
    | error e => exact .nothing _
    | ok u => exact .loaded
  | renameCandidate pluginId operationId =>
    rcases renameCandidate_cases pluginId operationId outcome w with ⟨h, -⟩ | ⟨content, hc, h, he⟩
    · simpa only [exec, h] using Effect.nothing _
    · simpa only [exec, h] using Effect.renamed hc he
  | publishCandidate operationId found manifest =>
    rcases publishCandidate_cases operationId found manifest outcome w with ⟨h, -⟩ | ⟨h, he⟩
    · simpa only [exec, h] using Effect.nothing _
    · simpa only [exec, h] using Effect.published he
  | removeDirectory directory =>
    rcases removeDirectory_eq directory outcome w with h | ⟨rest, h, hleft⟩
    · simpa only [exec, h] using Effect.nothing _
    · simpa only [exec, h] using Effect.removed rest hleft
  | removeFile file =>
    cases outcome <;> cases file <;> first | exact .nothing _ | exact .unmirrored ..
  | build pluginId operationId =>
    simp only [exec, World.build]
    split
    · exact .built _
    · exact .nothing _
    · exact .nothing _
  | removeImage imageId =>
    cases outcome <;> first | exact .nothing _ | exact .imageRemoved
  | _ => exact .nothing _

/-- Only loading replaces the whole map; every other step treats each operation on its own. -/
theorem Effect.inMemory {iid : String} {outcome : Outcome} {w w' : World} {a : Act}
    (h : Effect iid outcome w a w') (hload : a ≠ .loadState) (o : Uuid) :
    MemoryEffect iid a o (w.inMemory o) (w'.inMemory o) := by
  cases h with
  | setter h => exact h.inMemory iid o
  | @registered pluginId operationId now stored fresh _ _ accepted =>
    by_cases ho : operationId = o
    · subst ho accepted
      rw [fresh]
      simpa [World.inMemory, getElem?_insert_uuid] using MemoryEffect.registered rfl
    · simpa [World.inMemory, getElem?_insert_uuid, ho] using MemoryEffect.same _
  | @forgot operationIds removed listed =>
    rw [(foldl_forgetOne_records ..).1]
    by_cases hmem : o ∈ removed
    · simpa [hmem] using MemoryEffect.forgotten _ rfl (listed hmem)
    · simpa [hmem] using MemoryEffect.same _
  | loaded => exact absurd rfl hload
  | renamed _ _ => exact .same _
  | published _ => exact .same _
  | @removed directory rest _ => cases directory <;> exact .same _
  | _ => exact .same _

/-! ## Records on disk -/

/-- Memory and disk file an operation under its own id. -/
structure World.Keyed (w : World) : Prop where
  inMemory : ∀ o r, w.inMemory o = some r → r.operation.operationId = o
  onDisk : ∀ o r, w.onDisk o = some r → r.operation.operationId = o

/-- What a step can do to one operation, in memory and on disk.  A setter changes memory first; the
file follows unless writing it fails before the rename. -/
inductive RecordEffect (iid : String) (a : Act) (outcome : Outcome) (operationId : Uuid)
    (w w' : World) : Prop where
  | same (memory : w'.inMemory operationId = w.inMemory operationId)
      (disk : w'.onDisk operationId = w.onDisk operationId)
  | forgotten {operationIds} (forget : a = .forget operationIds)
      (listed : operationId ∈ operationIds) (memory : w'.inMemory operationId = none)
      (disk : w'.onDisk operationId = none)
  | registered {pluginId now sequence} (register : a = .register pluginId operationId now)
      (fresh : w.inMemory operationId = none)
      (room : ((valuesOf w.state.operations).filter fun r => !r.operation.acknowledged).length <
        maxUnacknowledgedOperations)
      (memory : (w'.inMemory operationId = none ∧ outcome = .failedAfter) ∨ w'.inMemory operationId =
        some (acceptedOperation iid pluginId operationId now sequence))
      (disk : w'.onDisk operationId = some (acceptedOperation iid pluginId operationId now sequence))
  | changed {r r'} (before : w.inMemory operationId = some r) (change : Changes a operationId r r')
      (memory : w'.inMemory operationId = some r')
      (disk : (outcome.Persists ∧ w'.onDisk operationId = some r') ∨
        (¬ outcome.Persists ∧ w'.onDisk operationId = w.onDisk operationId))

theorem Changes.target {a : Act} {o : Uuid} {r r' : StoredOperation} (h : Changes a o r r')
    (keyed : r.operation.operationId = o) : r'.operation.operationId = o :=
  h.identity.1.trans keyed

variable {iid : String} {outcome : Outcome} {w w' : World} {a : Act}

theorem Effect.record (h : Effect iid outcome w a w') (hload : a ≠ .loadState) (keyed : w.Keyed)
    (o : Uuid) : RecordEffect iid a outcome o w w' := by
  cases h with
  | setter h =>
    rcases h with rfl | ⟨operationId, r, r', hget, hc, rfl⟩
    · exact .same rfl rfl
    have hid := hc.target (keyed.inMemory _ _ hget)
    have hrecords := persistRecord_records outcome r'
      { w with state.operations := w.state.operations.insert operationId r' }
    by_cases ho : operationId = o
    · subst ho
      refine .changed hget hc (by simp [World.inMemory, persistRecord_state]) ?_
      rcases hrecords with ⟨hno, hrec⟩ | ⟨hyes, hrec⟩
      · exact .inr ⟨hno, by rw [World.onDisk, hrec]; rfl⟩
      · exact .inl ⟨hyes, by simp [World.onDisk, hrec, hid]⟩
    · refine .same (by simp [World.inMemory, persistRecord_state, getElem?_insert_uuid, ho]) ?_
      rcases hrecords with ⟨-, hrec⟩ | ⟨-, hrec⟩
      · rw [World.onDisk, hrec]
        rfl
      · simp [World.onDisk, hrec, getElem?_insert_uuid, hid, ho]
  | @registered pluginId operationId now stored fresh _ room accepted =>
    by_cases ho : operationId = o
    · subst ho accepted
      have hmemory : (w.state.operations.insert operationId (acceptedOperation iid pluginId
          operationId now w.state.nextSequence))[operationId]? = some _ :=
        Std.TreeMap.getElem?_insert_self
      have hdisk : (w.records.insert operationId (acceptedOperation iid pluginId
          operationId now w.state.nextSequence))[operationId]? = some _ :=
        Std.TreeMap.getElem?_insert_self
      exact .registered rfl fresh room (.inr hmemory) hdisk
    · exact .same (by simp [World.inMemory, getElem?_insert_uuid, ho])
        (by simp [World.onDisk, getElem?_insert_uuid, ho])
  | @registerFailed pluginId operationId now records temporaries fresh _ room written =>
    rcases written with rfl | ⟨failing, rfl⟩
    · exact .same rfl rfl
    by_cases ho : operationId = o
    · subst ho
      have hdisk : (w.records.insert operationId (acceptedOperation iid pluginId
          operationId now w.state.nextSequence))[operationId]? = some _ :=
        Std.TreeMap.getElem?_insert_self
      exact .registered rfl fresh room (.inl ⟨fresh, failing⟩) hdisk
    · exact .same rfl (by simp [World.onDisk, getElem?_insert_uuid, ho])
  | @forgot operationIds removed listed =>
    by_cases hmem : o ∈ removed
    · exact .forgotten rfl (listed hmem) (by simp [foldl_forgetOne_records, hmem])
        (by simp [foldl_forgetOne_records, hmem])
    · exact .same (by simp [foldl_forgetOne_records, hmem]) (by simp [foldl_forgetOne_records, hmem])
  | loaded => exact absurd rfl hload
  | @removed directory rest _ => cases directory <;> exact .same rfl rfl
  | _ => exact .same rfl rfl

/-! ## Loading -/

variable {m : Std.TreeMap Uuid StoredOperation}

theorem mem_valuesOf {r : StoredOperation} : r ∈ valuesOf m ↔ ∃ o : Uuid, m[o]? = some r := by
  simp only [valuesOf, List.mem_map, Prod.exists, exists_eq_right, Std.TreeMap.mem_toList_iff_getElem?_eq_some]

theorem valuesOf_distinct (keyed : ∀ (o : Uuid) r, m[o]? = some r → r.operation.operationId = o) :
    (valuesOf m).Pairwise fun r r' => r.operation.operationId ≠ r'.operation.operationId := by
  rw [valuesOf, List.pairwise_map]
  refine Std.TreeMap.distinct_keys_toList.imp_of_mem ?_
  intro x y hx hy hne heq
  have hx' := keyed _ _ (Std.TreeMap.mem_toList_iff_getElem?_eq_some.mp hx)
  have hy' := keyed _ _ (Std.TreeMap.mem_toList_iff_getElem?_eq_some.mp hy)
  exact hne (by rw [← hx', ← hy', heq]; exact compare_eq_iff_eq.mpr rfl)

theorem foldl_load_operations {records : List StoredOperation} (distinct : records.Pairwise fun r r' =>
      r.operation.operationId ≠ r'.operation.operationId) (state : OperationState) (o : Uuid) :
    (∀ r ∈ records, r.operation.operationId = o → (records.foldl OperationState.load state).operations[o]? =
      some r) ∧ ((∀ r ∈ records, r.operation.operationId ≠ o) → (records.foldl OperationState.load
      state).operations[o]? = state.operations[o]?) := by
  induction records generalizing state with
  | nil => simp
  | cons r records ih =>
    obtain ⟨hr, hrest⟩ := List.pairwise_cons.mp distinct
    obtain ⟨hin, hout⟩ := ih hrest (state.load r)
    have hload : (state.load r).operations[o]? =
        if r.operation.operationId = o then some r else state.operations[o]? :=
      getElem?_insert_uuid ..
    constructor
    · intro q hq hid
      rcases List.mem_cons.mp hq with rfl | hq
      · rw [List.foldl_cons, hout (fun r' hr' => hid ▸ (hr r' hr').symm), hload, if_pos hid]
      · exact hin q hq hid
    · intro hnone
      rw [List.foldl_cons, hout (fun r' hr' => hnone r' (List.mem_cons_of_mem _ hr')), hload,
        if_neg (hnone r List.mem_cons_self)]

/-- `load_state` brings back exactly the records on disk; temporary files are skipped. -/
theorem loadState_operations {w : World} (keyed : ∀ o r, w.onDisk o = some r → r.operation.operationId = o)
    (o : Uuid) : (loadState w.readOperationsDir).operations[o]? = w.onDisk o := by
  have hentries : (w.readOperationsDir.filterMap fun entry =>
      if entry.extension = some "json" then entry.content else none) = valuesOf w.records := by
    simp [World.readOperationsDir, List.filterMap_append, List.filterMap_map,
      OperationsEntry.extension, OperationsEntry.content]
  have hperm :=
    List.perm_insertionSort (fun a b : StoredOperation => a.sequence ≤ b.sequence) (valuesOf w.records)
  have distinct := hperm.symm.pairwise (valuesOf_distinct keyed) fun h => h.symm
  obtain ⟨hin, hout⟩ := foldl_load_operations distinct {} o
  unfold loadState
  rw [hentries]
  cases hd : w.onDisk o with
  | some r => exact hin r (hperm.mem_iff.mpr (mem_valuesOf.mpr ⟨o, hd⟩)) (keyed o r hd)
  | none =>
    rw [hout ?_]
    · rfl
    · intro r hr hid
      obtain ⟨o', ho'⟩ := mem_valuesOf.mp (hperm.mem_iff.mp hr)
      rw [← keyed o' r ho', hid] at ho'
      rw [World.onDisk, ho'] at hd
      cases hd

theorem World.Keyed.step {iid : String} {a : Act} {outcome : Outcome} {w : World}
    (h : w.Keyed) : (exec iid a outcome w).2.Keyed := by
  by_cases hload : a = .loadState
  · subst hload
    simp only [exec]
    cases attempt .operationsDir outcome with
    | error e => exact h
    | ok _ =>
      exact ⟨fun o r hr => h.onDisk o r ((loadState_operations h.onDisk o).symm.trans hr), h.onDisk⟩
  have both : ∀ o r, (exec iid a outcome w).2.inMemory o = some r ∨
      (exec iid a outcome w).2.onDisk o = some r → r.operation.operationId = o := by
    intro o r hr
    rcases (exec_effect iid a outcome w).record hload h o with
      ⟨hmem, hdisk⟩ | ⟨-, -, hmem, hdisk⟩ | ⟨-, -, -, hmem, hdisk⟩ |
      ⟨hbefore, hchange, hmem, hdisk⟩
    · rw [hmem, hdisk] at hr
      exact hr.elim (h.inMemory o r) (h.onDisk o r)
    · rw [hmem, hdisk] at hr
      rcases hr with hr | hr <;> cases hr
    · rcases hr with hr | hr
      · rcases hmem with ⟨hmem, -⟩ | hmem
        · rw [hmem] at hr
          cases hr
        · rw [hmem] at hr
          cases hr
          rfl
      · rw [hdisk] at hr
        cases hr
        rfl
    · have hid := hchange.target (h.inMemory o _ hbefore)
      rcases hr with hr | hr
      · rw [hmem] at hr
        cases hr
        exact hid
      · rcases hdisk with ⟨-, hdisk⟩ | ⟨-, hdisk⟩
        · rw [hdisk] at hr
          cases hr
          exact hid
        · exact h.onDisk o r (hdisk.symm.trans hr)
  exact ⟨fun o r hr => both o r (.inl hr), fun o r hr => both o r (.inr hr)⟩

/-! ## Directories -/

theorem persistRecord_directories (outcome : Outcome) (record : StoredOperation) (w : World) :
    (w.persistRecord outcome record).2.installed = w.installed ∧
      (w.persistRecord outcome record).2.candidates = w.candidates := by
  unfold World.persistRecord
  split <;> exact ⟨rfl, rfl⟩

theorem foldl_forgetOne_directories (ids : List Uuid) (w : World) :
    (ids.foldl World.forgetOne w).installed = w.installed ∧
      (ids.foldl World.forgetOne w).candidates = w.candidates := by
  induction ids generalizing w with
  | nil => exact ⟨rfl, rfl⟩
  | cons id ids ih => exact ih (w.forgetOne id)

theorem Effect.installed (h : Effect iid outcome w a w') (p : PluginId) : w'.installed p = w.installed p ∨
      (a = .removeDirectory (.installed p) ∧ LeftOf (w'.installed p) (w.installed p)) ∨ ∃ o content, a =
      .renameCandidate p o ∧ w.candidates o = some content ∧ w'.installed p = some content ∧ ∀ present,
      w.installed p = some present → present.isEmpty = true := by
  cases h with
  | setter h =>
    rcases h with rfl | ⟨operationId, r, r', -, -, rfl⟩
    · exact .inl rfl
    · exact .inl (by rw [(persistRecord_directories ..).1])
  | forgot listed => exact .inl (by rw [(foldl_forgetOne_directories ..).1])
  | @renamed pluginId operationId content source target =>
    by_cases hp : p = pluginId
    · subst hp
      exact .inr (.inr ⟨operationId, content, rfl, source, by simp [World.setDirectory], target⟩)
    · exact .inl (by simp [World.setDirectory, hp])
  | @removed directory rest left =>
    cases directory with
    | candidate operationId => exact .inl rfl
    | installed pluginId =>
      by_cases hp : p = pluginId
      · subst hp
        exact .inr (.inl ⟨rfl, by simpa [World.setDirectory, World.directory] using left⟩)
      · exact .inl (by simp [World.setDirectory, hp])
  | _ => exact .inl rfl

theorem Effect.candidates (h : Effect iid outcome w a w') (o : Uuid) : w'.candidates o = w.candidates o ∨
      (a = .removeDirectory (.candidate o) ∧ LeftOf (w'.candidates o) (w.candidates o)) ∨
      (∃ p, a = .renameCandidate p o ∧ w'.candidates o = none) ∨ ∃ found manifest, a = .publishCandidate o
      found manifest ∧ w'.candidates o = some ⟨some found, some manifest⟩ ∧ ∀ present, w.candidates o = some
      present → present.isEmpty = true := by
  cases h with
  | setter h =>
    rcases h with rfl | ⟨operationId, r, r', -, -, rfl⟩
    · exact .inl rfl
    · exact .inl (by rw [(persistRecord_directories ..).2])
  | forgot listed => exact .inl (by rw [(foldl_forgetOne_directories ..).2])
  | @renamed pluginId operationId content source target =>
    by_cases ho : o = operationId
    · subst ho
      exact .inr (.inr (.inl ⟨pluginId, rfl, by simp [World.setDirectory]⟩))
    · exact .inl (by simp [World.setDirectory, ho])
  | @published operationId found manifest target =>
    by_cases ho : o = operationId
    · subst ho
      exact .inr (.inr (.inr ⟨found, manifest, rfl, by simp [World.setDirectory], target⟩))
    · exact .inl (by simp [World.setDirectory, ho])
  | @removed directory rest left =>
    cases directory with
    | installed pluginId => exact .inl rfl
    | candidate operationId =>
      by_cases ho : o = operationId
      · subst ho
        exact .inr (.inl ⟨rfl, by simpa [World.setDirectory, World.directory] using left⟩)
      · exact .inl (by simp [World.setDirectory, ho])
  | _ => exact .inl rfl

/-- Only `remove_mirrors` removes what Core has prepared. -/
theorem Effect.mirrors (h : Effect iid outcome w a w') (other : ∀ file, a ≠ .removeFile file) :
    w'.prepared = w.prepared ∧ w'.grants = w.grants := by
  have persisted : ∀ (record : StoredOperation) (w : World), (w.persistRecord outcome record).2.prepared =
      w.prepared ∧ (w.persistRecord outcome record).2.grants = w.grants := by
    intro record w
    unfold World.persistRecord
    split <;> exact ⟨rfl, rfl⟩
  have forgotten : ∀ (ids : List Uuid) (w : World), (ids.foldl .forgetOne w).prepared = w.prepared ∧
        (ids.foldl .forgetOne w).grants = w.grants := by
    intro ids
    induction ids with
    | nil => exact fun _ => ⟨rfl, rfl⟩
    | cons id ids ih => exact fun w => ih (w.forgetOne id)
  cases h with
  | setter h =>
    rcases h with rfl | ⟨operationId, r, r', -, -, rfl⟩
    · exact ⟨rfl, rfl⟩
    · exact persisted _ _
  | forgot listed => exact forgotten _ _
  | @removed directory rest left => cases directory <;> exact ⟨rfl, rfl⟩
  | @unmirrored file => exact absurd rfl (other file)
  | _ => exact ⟨rfl, rfl⟩

/-! ## Images -/

end AudioDown.Supervisor
