/-
# AudioDown.Supervisor.Tasks — what running tasks rely on

Every method takes a snapshot of its operation and acts on it later, with the mutex released in
between.  This module names the facts about an operation that stay true meanwhile, whatever the
other tasks do: an aborted or failed operation never becomes live again, a finalized one is never
aborted, an artifact never changes once recorded.  All of them rest on one thing the manager does
not check: that the operation id is not begun afresh while a task of its earlier use is still
running (`Creates`, `Engaged`).
-/
import AudioDown.Supervisor.Outline
import AudioDown.Supervisor.System

namespace AudioDown.Supervisor

open Lib (Prog)

/-! ## Facts about one operation -/

/-- The step begins operation `o` anew. -/
def Act.Creates (a : Act) (o : Uuid) (w : World) : Prop :=
  (∃ p now, a = .register p o now) ∧ w.inMemory o = none

namespace World

/-- Any record of `o` is aborted or failed. -/
def Doomed (o : Uuid) (w : World) : Prop :=
  ∀ r, w.inMemory o = some r → r.operation.state = .aborted ∨ r.operation.state = .failed

/-- Any record of `o` is finalized or failed, so that it cannot be aborted. -/
def Settled (o : Uuid) (w : World) : Prop :=
  ∀ r, w.inMemory o = some r → r.operation.state = .finalized ∨ r.operation.state = .failed

/-- No record of `o` carries an artifact yet. -/
def Unbuilt (o : Uuid) (w : World) : Prop :=
  ∀ r, w.inMemory o = some r → r.operation.artifact = none

/-- Any live record of `o` for plugin `p` carries artifact `a`. -/
def Carries (p : PluginId) (o : Uuid) (a : PluginInstallArtifact) (w : World) : Prop :=
  ∀ r, w.inMemory o = some r → r.operation.pluginId = p →
    r.operation.state ≠ .aborted → r.operation.state ≠ .failed → r.operation.artifact = some a

/-- No record of `o` for plugin `p` is live. -/
def Dead (p : PluginId) (o : Uuid) (w : World) : Prop :=
  ∀ r, w.inMemory o = some r → r.operation.pluginId = p →
    r.operation.state = .aborted ∨ r.operation.state = .failed

theorem Doomed.dead {o : Uuid} {w : World} (h : w.Doomed o) (p : PluginId) : w.Dead p o :=
  fun r hr _ => h r hr

theorem Unbuilt.dead {p : PluginId} {o : Uuid} {a : PluginInstallArtifact} {w : World}
    (h : w.Unbuilt o) (hc : w.Carries p o a) : w.Dead p o := by
  intro r hr hp
  by_contra hlive
  rw [not_or] at hlive
  have := hc r hr hp hlive.1 hlive.2
  rw [h r hr] at this
  cases this

end World

/-! ## What no step undoes -/

section
variable {iid : String} {a : Act} {c : Outcome} {w : World} {o : Uuid}

theorem exec_record_cases {r' : StoredOperation} (hload : a ≠ .loadState)
    (hr' : (exec iid a c w).2.inMemory o = some r') : w.inMemory o = some r' ∨
      (a.Creates o w ∧ ∃ p now sequence, r' = acceptedOperation iid p o now sequence) ∨
      ∃ r, w.inMemory o = some r ∧ Changes a o r r' := by
  have heffect := (exec_effect iid a c w).inMemory hload o
  generalize hm : w.inMemory o = m at heffect
  rw [hr'] at heffect
  cases heffect with
  | same => exact .inl rfl
  | registered hreg => exact .inr (.inl ⟨⟨⟨_, _, hreg⟩, hm⟩, _, _, _, rfl⟩)
  | changed hchange => exact .inr (.inr ⟨_, rfl, hchange⟩)

/-- A property of the record of `o` that every setter keeps is kept by every step that does not
begin `o` anew. -/
theorem exec_keeps_record {P : StoredOperation → Prop} (hload : a ≠ .loadState) (hcreate : ¬ a.Creates o w)
    (keeps : ∀ r r', w.inMemory o = some r → Changes a o r r' → P r → P r')
    (h : ∀ r, w.inMemory o = some r → P r) : ∀ r, (exec iid a c w).2.inMemory o = some r → P r := by
  intro r' hr'
  rcases exec_record_cases hload hr' with hr | ⟨hreg, -⟩ | ⟨r, hr, hchange⟩
  · exact h r' hr
  · exact absurd hreg hcreate
  · exact keeps r r' hr hchange (h r hr)

theorem Changes.terminal {r r' : StoredOperation} (h : Changes a o r r')
    (hr : r.operation.state.isTerminal = true) :
    r'.operation.state = r.operation.state ∨ r'.operation.state = .failed := by
  cases h with
  | setState _ plugin allowed => exact .inl (allowed hr).symm
  | setBuilt _ plugin building => simp [building] at hr
  | setFailed _ plugin => exact .inr rfl
  | acknowledge _ plugin terminal => exact .inl rfl

theorem exec_keeps_doomed (hload : a ≠ .loadState) (hcreate : ¬ a.Creates o w)
    (h : w.Doomed o) : (exec iid a c w).2.Doomed o := by
  refine exec_keeps_record hload hcreate ?_ h
  intro r r' _ hchange hr
  rcases hchange.terminal (by rcases hr with hr | hr <;> simp [hr]) with hs | hs
  · rwa [hs]
  · exact .inr hs

theorem exec_keeps_settled (hload : a ≠ .loadState) (hcreate : ¬ a.Creates o w)
    (h : w.Settled o) : (exec iid a c w).2.Settled o := by
  refine exec_keeps_record hload hcreate ?_ h
  intro r r' _ hchange hr
  rcases hchange.terminal (by rcases hr with hr | hr <;> simp [hr]) with hs | hs
  · rwa [hs]
  · exact .inr hs

variable {errorCode : Option String} {now : Timestamp} {p : PluginId}

theorem exec_keeps_dead (hload : a ≠ .loadState) (hcreate : ¬ a.Creates o w)
    (h : w.Dead p o) : (exec iid a c w).2.Dead p o := by
  refine exec_keeps_record hload hcreate ?_ h
  intro r r' _ hchange hr hp
  rw [hchange.identity.2.1] at hp
  rcases hchange.terminal (by rcases hr hp with hr | hr <;> simp [hr]) with hs | hs
  · rw [hs]
    exact hr hp
  · exact .inr hs

theorem exec_keeps_unbuilt (hload : a ≠ .loadState)
    (hbuilt : ∀ p artifact logs now, a ≠ .setBuilt p o artifact logs now) (h : w.Unbuilt o) :
    (exec iid a c w).2.Unbuilt o := by
  intro r' hr'
  rcases exec_record_cases hload hr' with hr | ⟨-, p, now, sequence, rfl⟩ | ⟨r, hr, hchange⟩
  · exact h r' hr
  · rfl
  · cases hchange with
    | setState _ plugin allowed => exact h r hr
    | setBuilt _ plugin building => exact absurd rfl (hbuilt _ _ _ _)
    | setFailed _ plugin => exact h r hr
    | acknowledge _ plugin terminal => exact h r hr

theorem exec_keeps_carries {artifact : PluginInstallArtifact}
    (hload : a ≠ .loadState) (hcreate : ¬ a.Creates o w)
    (hbuilt : ∀ p artifact logs now, a = .setBuilt p o artifact logs now → w.Unbuilt o)
    (h : w.Carries p o artifact) : (exec iid a c w).2.Carries p o artifact := by
  refine exec_keeps_record hload hcreate ?_ h
  intro r r' hr hchange hart hp hna hnf
  cases hchange with
  | setState _ plugin allowed =>
    -- a terminal record only goes to its own state, so a live result comes from a live record
    refine hart hp (fun hs => hna ?_) (fun hs => hnf ?_)
    · exact (allowed (by simp [hs])).symm.trans hs
    · exact (allowed (by simp [hs])).symm.trans hs
  | setBuilt _ plugin building =>
    have hsome := hart hp (by simp [building]) (by simp [building])
    rw [hbuilt _ _ _ _ rfl r hr] at hsome
    cases hsome
  | setFailed _ plugin => exact absurd rfl hnf
  | acknowledge _ plugin terminal => exact hart hp hna hnf

theorem setState_aborted_refused (h : w.Settled o) (v : PluginInstallOperation) :
    (exec iid (.setState p o .aborted errorCode now) c w).1 ≠ .ok v := by
  intro hv
  obtain ⟨r, hr, -, hrefuse, -, -⟩ := changeRecord_ok hv
  rcases h r hr with hs | hs <;> simp [hs] at hrefuse

/-- What `set_state` returns is the record it left in memory. -/
theorem setState_returns {state : PluginInstallOperationState} {v : PluginInstallOperation}
    (h : (exec iid (.setState p o state errorCode now) c w).1 = .ok v) :
    ∃ r, (exec iid (.setState p o state errorCode now) c w).2.inMemory o = some r ∧
      r.operation = v ∧ v.state = state ∧ v.pluginId = p := by
  obtain ⟨r, -, hp, -, hv, hmem⟩ := changeRecord_ok h
  exact ⟨_, hmem, hv.symm, by rw [hv], by rw [hv]; exact hp⟩

end

/-! ## Who takes which step -/

/-- The steps that change an operation or a directory, and the tasks that can take them. -/
def Tag.Allows (tag : Tag) : Act → Prop
  | .register p o now => tag = .request (.begin p o now)
  | .spawnBuild p o => ∃ now, tag = .request (.begin p o now)
  | .setState p o state errorCode _ =>
      (tag = .build p o ∧ state = .building ∧ errorCode = none) ∨
      (∃ now, tag = .request (.finalize p o now) ∧ state = .finalized ∧ errorCode = none) ∨
      (∃ now, tag = .request (.abort p o now) ∧ state = .aborted) ∨
      ∃ now, tag = .opening now ∧ state = .finalized
  | .setBuilt p o .. => tag = .build p o
  | .setFailed p o .. => tag = .build p o ∨ ∃ now, tag = .opening now
  | .acknowledge p o now => tag = .request (.acknowledge p o now)
  | .publishCandidate o .. => ∃ p, tag = .build p o
  | .renameCandidate p o =>
      (∃ now, tag = .request (.finalize p o now)) ∨ ∃ now, tag = .opening now
  | .removeDirectory (.candidate o) =>
      (∃ p now, tag = .request (.abort p o now)) ∨ ∃ now, tag = .opening now
  | .removeDirectory (.installed p) => ∃ o now, tag = .request (.abort p o now)
  | .loadState => ∃ now, tag = .opening now
  | .forget _ => (∃ now, tag = .request (.cleanupAcknowledged now)) ∨ ∃ now, tag = .opening now
  | _ => True

section
variable {tag : Tag} {iid : String}

theorem quiet_allowed {a : Act} (h : a.Quiet) : tag.Allows a := by
  cases a <;> trivial

theorem uses_of_quiet {α : Type} {x : Program α} (h : Prog.Uses Act.Quiet x) : Prog.Uses tag.Allows x :=
  h.mono fun _ => quiet_allowed

variable {now : Timestamp} {o : Uuid} {p : PluginId}

theorem finalize_allowed (rename : tag.Allows (.renameCandidate p o))
    (record : tag.Allows (.setState p o .finalized none now)) : Prog.Uses tag.Allows (finalize iid p o now) :=
  finalize_uses iid (fun _ h => quiet_allowed h.quiet) rename record

theorem abort_allowed : Prog.Uses (Tag.request (.abort p o now)).Allows (abort iid p o now) := by
  refine uses_bind (uses_step trivial) fun operation => ?_
  have release : Prog.Uses (Tag.request (.abort p o now)).Allows (releaseResources iid p o operation) :=
    releaseResources_uses iid operation (fun _ => quiet_allowed) (.inl ⟨p, now, rfl⟩) ⟨o, now, rfl⟩
  have change : Prog.Uses (Tag.request (.abort p o now)).Allows (do
      let aborted ←
        if operation.state = .aborted then pure operation
        else .of (step (.setState p o .aborted operation.errorCode now))
      releaseResources iid p o operation
      return aborted : Call PluginInstallOperation) := by
    by_cases hab : operation.state = .aborted
    · rw [if_pos hab]
      exact uses_bind trivial fun _ => uses_bind release fun _ => trivial
    · rw [if_neg hab]
      exact uses_bind (uses_step (.inr (.inr (.inl ⟨now, rfl, rfl⟩)))) fun _ =>
        uses_bind release fun _ => trivial
  by_cases hfin : operation.state = .finalized
  · rw [if_pos hfin]
    exact uses_bind (uses_of_quiet (verifyInstalled_quiet ..)) fun _ => change
  · rw [if_neg hfin]
    exact change

section
variable {S : Act → Prop} (inert : ∀ a : Act, a.Inert → S a) (image : ∀ i, S (.removeImage i))
  (publish : ∀ output : BuildOutput, S (.publishCandidate o (attestation iid p o output.artifact
    output.baseImageDigest output.sdkHash) output.manifest))
  (stored : ∀ artifact logs now, S (.setBuilt p o artifact logs now))
  (failed : ∀ code logs now, S (.setFailed p o code logs now))

include inert failed in
theorem recordFailure_uses (code : String) (logs : List PluginBuildLog) :
    Prog.Uses S (recordFailure p o code logs) :=
  .bind (uses_step (inert _ trivial)) fun _ =>
    .bind (uses_step (failed ..)) fun _ => trivial

include inert image publish stored failed

theorem storeOutput_uses (output : BuildOutput) : Prog.Uses S (storeOutput iid p o output) := by
  refine .bind (uses_step (inert _ trivial)) fun observed => ?_
  split
  · exact .bind (uses_step (image _)) fun _ => trivial
  · have write : Prog.Uses S (writeCandidate o (attestation iid p o output.artifact
        output.baseImageDigest output.sdkHash) output.manifest) := by
      refine uses_bind (uses_ask (inert _ trivial)) fun present => ?_
      cases present with
      | true => trivial
      | false => exact uses_step (publish output)
    refine .bind write fun written => ?_
    cases written with
    | error e =>
      exact .bind (uses_step (image _)) fun _ => recordFailure_uses inert failed _ _
    | ok _ =>
      exact .bind (uses_step (inert _ trivial)) fun _ =>
        .bind (uses_step (stored ..)) fun _ => trivial

theorem runBuild_uses (start : ∀ now, S (.setState p o .building none now)) (call : S (.build p o)) :
    Prog.Uses S (runBuild iid p o) := by
  refine .bind (uses_step (inert _ trivial)) fun now => ?_
  refine .bind (uses_step (start now)) fun started => ?_
  cases started with
  | error e => trivial
  | ok _ =>
    refine .bind (uses_step call) fun result => ?_
    have cleanup : Prog.Uses S (do let _ ← step (.cleanupTemporaryResources o) : Program Unit) :=
      .bind (uses_step (inert _ trivial)) fun _ => trivial
    cases result with
    | error e => exact .bind (recordFailure_uses inert failed _ _) fun _ => cleanup
    | ok output =>
      exact .bind (storeOutput_uses inert image publish stored failed output) fun _ => cleanup

end

/-- The steps of `reconcile_restart`. -/
theorem reconcileRestart_uses {S : Act → Prop} (quiet : ∀ a, a.Quiet → S a)
    (fails : ∀ p o code logs, S (.setFailed p o code logs now))
    (removes : ∀ o, S (.removeDirectory (.candidate o))) (renames : ∀ p o, S (.renameCandidate p o))
    (records : ∀ p o, S (.setState p o .finalized none now)) : Prog.Uses S (reconcileRestart iid now) := by
  have restart : ∀ operations : List PluginInstallOperation, Prog.Uses S
      (Call.forEach (restartOperation iid now) operations) := by
    intro operations
    induction operations with
    | nil => trivial
    | cons operation rest ih =>
      refine uses_bind ?_ fun _ => ih
      unfold restartOperation
      cases operation.state with
      | accepted | building =>
        refine uses_bind (uses_step (fails _ _ _ _)) fun _ => uses_bind (uses_step (removes _)) fun _ => ?_
        cases operation.artifact with
        | none => exact uses_adapter (uses_step (quiet _ trivial))
        | some artifact =>
          exact uses_bind (uses_adapter (uses_step (quiet _ trivial))) fun _ =>
            uses_adapter (uses_step (quiet _ trivial))
      | finalized =>
        exact uses_bind (finalize_uses iid (fun _ h => quiet _ h.quiet) (renames _ _)
          (records _ _)) fun _ => trivial
      | built | failed | aborted => trivial
  exact uses_bind (uses_ask (quiet _ trivial)) restart

theorem openManager_allowed : Prog.Uses (Tag.opening now).Allows (openManager iid now) := by
  have restart : Prog.Uses (Tag.opening now).Allows (reconcileRestart iid now) :=
    reconcileRestart_uses (fun _ => quiet_allowed) (fun _ _ _ _ => .inr ⟨now, rfl⟩) (fun _ => .inr ⟨now, rfl⟩)
      (fun _ _ => .inr ⟨now, rfl⟩) (fun _ _ => .inr (.inr (.inr ⟨now, rfl, rfl⟩)))
  exact uses_bind (uses_step trivial) fun _ => uses_bind (uses_step ⟨now, rfl⟩) fun _ =>
    uses_bind restart fun _ => uses_bind (uses_ask trivial) fun _ => uses_step (.inr ⟨now, rfl⟩)

/-- **The table is complete**: a task takes only steps its tag allows. -/
theorem program_allowed (iid : String) (tag : Tag) : Prog.Uses tag.Allows (tag.program iid) := by
  cases tag with
  | build p o =>
    exact .bind (runBuild_uses (fun _ h => quiet_allowed h.quiet) (fun _ => trivial) (fun _ => ⟨p, rfl⟩)
      (fun _ _ _ => rfl) (fun _ _ _ => .inl rfl) (fun _ => .inl ⟨rfl, rfl, rfl⟩) trivial) fun _ => trivial
  | opening now => exact .bind openManager_allowed fun _ => trivial
  | request r =>
    cases r with
    | begin p o now =>
      refine .bind (uses_bind (uses_step rfl) fun registered => ?_) fun _ => trivial
      obtain ⟨operation, created⟩ := registered
      cases created with
      | false => trivial
      | true => exact uses_bind (uses_ask ⟨now, rfl⟩) fun _ => trivial
    | status p o => exact .bind (uses_step trivial) fun _ => trivial
    | list => exact .bind (.bind (uses_step trivial) fun _ => trivial) fun _ => trivial
    | finalize p o now =>
      exact .bind (finalize_allowed (.inl ⟨now, rfl⟩) (.inr (.inl ⟨now, rfl, rfl, rfl⟩))) fun _ => trivial
    | abort p o now => exact .bind abort_allowed fun _ => trivial
    | acknowledge p o now => exact .bind (uses_step rfl) fun _ => trivial
    | cleanupAcknowledged now =>
      exact .bind (uses_bind (uses_ask trivial) fun _ => uses_step (.inl ⟨now, rfl⟩))
        fun _ => trivial

end

/-! ## Engaged tasks -/

/-- A task that has still to act on what it knows of operation `o`: a running `finalize`, `abort` or
build of `o`, or a `begin` about to start its build. -/
def Engaged (o : Uuid) (t : SupervisorTask) : Prop :=
  (t.prog.head ≠ none ∧ ((∃ p now, t.tag = .request (.finalize p o now)) ∨
    (∃ p now, t.tag = .request (.abort p o now)) ∨ ∃ p, t.tag = .build p o)) ∨
  ∃ p, t.prog.head = some (.spawnBuild p o)

/-- Task `i` does not begin an operation anew while another task is engaged on its id. -/
def NoReuse (s : System) (i : Nat) : Prop :=
  ∀ t o, s.tasks[i]? = some t → (∃ a, t.prog.head = some a ∧ a.Creates o s.world) →
    ∀ u ∈ s.tasks, ¬ Engaged o u

/-- The operation a task was started to finalize, to abort or to build. -/
def Tag.worksOn : Tag → Option Uuid
  | .request (.finalize _ o _) | .request (.abort _ o _) | .build _ o => some o
  | _ => none

def Act.spawned : Act → Option Uuid
  | .spawnBuild _ o => some o
  | _ => none

theorem engaged_iff {o : Uuid} {t : SupervisorTask} : Engaged o t ↔
    t.prog.head.isSome ∧ t.tag.worksOn = some o ∨ t.prog.head.bind Act.spawned = some o := by
  have spawns : (∃ p, t.prog.head = some (.spawnBuild p o)) ↔ t.prog.head.bind Act.spawned = some o := by
    cases t.prog.head with
    | none => simp
    | some a => cases a <;> simp [Act.spawned]
  have works : ((∃ p now, t.tag = .request (.finalize p o now)) ∨ (∃ p now, t.tag = .request (.abort p o now)) ∨
      ∃ p, t.tag = .build p o) ↔ t.tag.worksOn = some o := by
    cases t.tag with
    | build p u => simp [Tag.worksOn]
    | opening now => simp [Tag.worksOn]
    | request r => cases r <;> simp [Tag.worksOn]
  rw [Engaged, spawns, works, Option.isSome_iff_ne_none]

instance (o : Uuid) (t : SupervisorTask) : Decidable (Engaged o t) := decidable_of_iff _ engaged_iff.symm

def Act.begun : Act → Option Uuid
  | .register _ o _ => some o
  | _ => none

/-- The step that task `i` is about to take. -/
def System.stepOf (s : System) (i : Nat) : Option Act := s.tasks[i]?.bind fun t => t.prog.head

theorem stepOf_eq {s : System} {i : Nat} {tag : Tag} {a : Act} {k : a.Resp → Program Reply}
    (htask : s.tasks[i]? = some ⟨tag, .act a k⟩) : s.stepOf i = some a := by
  rw [System.stepOf, htask]
  rfl

theorem noReuse_iff {s : System} {i : Nat} : NoReuse s i ↔ ∀ a ∈ s.stepOf i, ∀ o ∈ a.begun,
    s.world.inMemory o = none → ∀ u ∈ s.tasks, ¬ Engaged o u := by
  constructor
  · intro h a ha o ho hnone
    obtain ⟨t, ht, hhead⟩ := Option.bind_eq_some_iff.mp ha
    cases a with
    | register p u now =>
      cases ho
      exact h t _ ht ⟨_, hhead, ⟨p, now, rfl⟩, hnone⟩
    | _ => cases ho
  · rintro h t o ht ⟨a, hhead, ⟨p, now, rfl⟩, hnone⟩
    exact h _ (Option.bind_eq_some_iff.mpr ⟨t, ht, hhead⟩) o rfl hnone

instance (s : System) (i : Nat) : Decidable (NoReuse s i) := decidable_of_iff _ noReuse_iff.symm

/-! ## The shape of the pool -/

/-- A task that builds `o`, or is about to start its build. -/
def Builder (o : Uuid) (t : SupervisorTask) : Prop :=
  (t.prog.head ≠ none ∧ ∃ p, t.tag = .build p o) ∨ ∃ p, t.prog.head = some (.spawnBuild p o)

variable {label : Label} {now : Timestamp} {operation : PluginInstallOperation} {p : PluginId}
  {request : Request} {t u : SupervisorTask}

theorem Builder.engaged {o : Uuid} (h : Builder o t) : Engaged o t :=
  h.imp (fun h => ⟨h.1, .inr (.inr h.2)⟩) id

/-- What is left of `begin` after its first block. -/
def beginAfter (p : PluginId) (o : Uuid) :
    Except InstallOperationError (PluginInstallOperation × Bool) → Program Reply
  | .ok (operation, true) =>
      .act (.spawnBuild p o) fun _ => .ret (.operation (.ok operation))
  | .ok (operation, false) => .ret (.operation (.ok operation))
  | .error error => .ret (.operation (.error error))

theorem begin_program (iid : String) (p : PluginId) (o : Uuid) (now : Timestamp) :
    (Tag.request (.begin p o now)).program iid = .act (.register p o now) (beginAfter p o) := by
  refine congrArg (Prog.act (Act.register p o now)) (funext fun r => ?_)
  match r with
  | .ok (operation, true) => rfl
  | .ok (operation, false) => rfl
  | .error error => rfl

/-- How far a `begin` can have got. -/
def BeginShape (iid : String) (p : PluginId) (o : Uuid) (now : Timestamp) (prog : Program Reply) : Prop :=
  prog = (Tag.request (.begin p o now)).program iid ∨
    (∃ reply, prog = .act (.spawnBuild p o) fun _ => .ret reply) ∨ ∃ reply, prog = .ret reply

/-- What `begin`'s block returns is in memory.  It starts a build only for an operation it has just
created, and creates one only when every other is over. -/
theorem register_returns {iid : String} {o : Uuid} {c : Outcome} {w : World} {created : Bool}
    (h : (exec iid (.register p o now) c w).1 = .ok (operation, created)) :
    ∃ r, (exec iid (.register p o now) c w).2.inMemory o = some r ∧ r.operation = operation ∧
      (created = true → w.inMemory o = none ∧ (∃ sequence, r = acceptedOperation iid p o now sequence) ∧
        ∀ q ∈ valuesOf w.state.operations, q.operation.state.isTerminal = true) := by
  simp only [exec] at h ⊢
  unfold World.register at h ⊢
  cases hget : w.state.operations[o]? with
  | some existing =>
    simp only [hget] at h ⊢
    split at h
    · cases h
    · cases h
      rename_i same
      rw [if_neg same]
      exact ⟨existing, hget, rfl, fun hc => (by cases hc)⟩
  | none =>
    simp only [hget] at h ⊢
    split at h
    · cases h
    rename_i hidle
    split at h
    · cases h
    rename_i hroom
    rw [if_neg hidle, if_neg hroom]
    split at h
    · cases h
    · cases h
      exact ⟨_, by simp [World.inMemory], rfl, fun _ => ⟨hget, ⟨_, rfl⟩, by simpa using hidle⟩⟩

def System.Staffed (s : System) : Prop :=
  match s.phase with
  | .down => s.tasks = []
  | .opening => ∃ now prog, s.tasks = [⟨.opening now, prog⟩]
  | .serving => ∀ t ∈ s.tasks, ∀ now, t.tag ≠ .opening now

theorem System.Staffed.serving {s : System} (h : s.Staffed) (serving : s.phase = .serving) :
    ∀ t ∈ s.tasks, ∀ now, t.tag ≠ .opening now := by
  unfold System.Staffed at h
  rw [serving] at h
  exact h

theorem System.Staffed.phase_of_mem {s : System} (h : s.Staffed)
    (ht : t ∈ s.tasks) (htag : ∀ now, t.tag ≠ .opening now) : s.phase = .serving := by
  unfold System.Staffed at h
  split at h
  · rw [h] at ht
    cases ht
  · obtain ⟨now, prog, htasks⟩ := h
    rw [htasks, List.mem_singleton] at ht
    subst ht
    exact absurd rfl (htag now)
  · assumption

theorem System.Staffed.phase_of_two {s : System} (h : s.Staffed) {i j : Nat}
    (ht : s.tasks[i]? = some t) (hu : s.tasks[j]? = some u) (hne : j ≠ i) : s.phase = .serving := by
  unfold System.Staffed at h
  split at h
  · rw [h] at ht
    cases ht
  · obtain ⟨_, _, htasks⟩ := h
    have hi := (List.getElem?_eq_some_iff.mp ht).1
    have hj := (List.getElem?_eq_some_iff.mp hu).1
    rw [htasks, List.length_singleton] at hi hj
    omega
  · assumption

/-- What holds of the pool in every run. -/
structure System.Manned (iid : String) (s : System) : Prop where
  staffed : s.Staffed
  allowed : ∀ t ∈ s.tasks, Prog.Uses t.tag.Allows t.prog
  begins : ∀ t ∈ s.tasks, ∀ p o now, t.tag = .request (.begin p o now) → BeginShape iid p o now t.prog

/-- What holds of it besides in every run that does not begin an engaged operation anew. -/
structure System.Formed (iid : String) (s : System) : Prop extends System.Manned iid s where
  single : ∀ (o : Uuid) (i j : Nat) t u, s.tasks[i]? = some t → s.tasks[j]? = some u →
    Builder o t → Builder o u → i = j

section
variable {iid : String} {s : System} {i : Nat} {c : Outcome} {tag : Tag} {a : Act}
  {k : a.Resp → Program Reply}

theorem mem_forked {t : SupervisorTask} {r : a.Resp} (h : t ∈ forked iid a r) :
    ∃ p o, a = .spawnBuild p o ∧ t = (Tag.build p o).task iid := by
  cases a with
  | spawnBuild p o => exact ⟨p, o, rfl, List.mem_singleton.mp h⟩
  | _ => cases h

variable (htask : s.tasks[i]? = some ⟨tag, .act a k⟩) (manned : s.Manned iid)
include htask manned

theorem System.Manned.step_allowed : tag.Allows a :=
  (manned.allowed _ (List.mem_of_getElem? htask)).1

theorem System.Manned.advanced_begins {t : SupervisorTask}
    (ht : t ∈ (s.advanced iid i tag a k c).tasks) (p : PluginId) (o : Uuid)
    (now : Timestamp) (htag : t.tag = .request (.begin p o now)) : BeginShape iid p o now t.prog := by
  rcases Lib.Pool.mem_of_step ht with rfl | ⟨j, -, hj⟩ | hnew
  · subst htag
    rcases manned.begins _ (List.mem_of_getElem? htask) p o now rfl with h | ⟨reply, h⟩ | ⟨_, h⟩
    · rw [begin_program] at h
      cases h
      unfold beginAfter
      split
      · exact .inr (.inl ⟨_, rfl⟩)
      · exact .inr (.inr ⟨_, rfl⟩)
      · exact .inr (.inr ⟨_, rfl⟩)
    · cases h
      exact .inr (.inr ⟨reply, rfl⟩)
    · cases h
  · exact manned.begins t (List.mem_of_getElem? hj) p o now htag
  · obtain ⟨_, _, -, rfl⟩ := mem_forked hnew
    cases htag

theorem System.Manned.becomes_builder {o : Uuid} (h : Builder o ⟨tag, k (exec iid a c s.world).1⟩) :
    Builder o ⟨tag, .act a k⟩ ∨ a.Creates o s.world ∧ (exec iid a c s.world).2.inMemory o ≠ none := by
  rcases h with ⟨-, p, hp⟩ | ⟨p, hp⟩
  · exact .inl (.inl ⟨by simp, p, hp⟩)
  · -- a task about to spawn is a `begin` that has just registered its operation
    have hmem := List.mem_of_getElem? htask
    have huses := (manned.allowed _ hmem).2 (exec iid a c s.world).1
    generalize hk : k (exec iid a c s.world).1 = rest at hp huses
    cases rest with
    | ret v => cases hp
    | act b k' =>
      cases hp
      obtain ⟨now, htag⟩ := huses.1
      subst htag
      rcases manned.begins _ hmem p o now rfl with h | ⟨_, h⟩ | ⟨_, h⟩
      · rw [begin_program] at h
        cases h
        generalize hr : (exec iid (.register p o now) c s.world).1 = r at hk
        match r with
        | .ok (operation, true) =>
          obtain ⟨_, hsome, -, created⟩ := register_returns hr
          have hnone := (created rfl).1
          exact .inr ⟨⟨⟨p, now, rfl⟩, hnone⟩, by rw [hsome]; simp⟩
        | .ok (operation, false) => cases hk
        | .error error => cases hk
      · cases h
        cases hk
      · cases h

theorem System.Manned.advanced_staffed : (s.advanced iid i tag a k c).Staffed := by
  have hstaffed := manned.staffed
  unfold System.Staffed at hstaffed ⊢
  cases hphase : s.phase with
  | down =>
    simp only [hphase] at hstaffed
    rw [hstaffed] at htask
    cases htask
  | opening =>
    simp only [hphase] at hstaffed
    obtain ⟨now, prog, htasks⟩ := hstaffed
    have hi : i = 0 := by
      have := (List.getElem?_eq_some_iff.mp htask).1
      rw [htasks, List.length_singleton] at this
      omega
    subst hi
    rw [htasks] at htask
    obtain ⟨rfl, rfl⟩ := htask
    have hforked : ∀ r, forked iid a r = [] := by
      intro r
      refine List.eq_nil_iff_forall_not_mem.mpr fun t ht => ?_
      obtain ⟨p, o, rfl, -⟩ := mem_forked ht
      obtain ⟨_, h⟩ := manned.step_allowed (i := 0) (by rw [htasks]; rfl)
      cases h
    simp only [System.advanced, hphase, hforked, htasks]
    exact ⟨now, _, rfl⟩
  | serving =>
    simp only [hphase] at hstaffed
    simp only [System.advanced, hphase]
    intro t ht now htag
    rcases Lib.Pool.mem_of_step ht with rfl | ⟨j, -, hj⟩ | hnew
    · exact hstaffed _ (List.mem_of_getElem? htask) now htag
    · exact hstaffed t (List.mem_of_getElem? hj) now htag
    · obtain ⟨_, _, -, rfl⟩ := mem_forked hnew
      cases htag

theorem System.Manned.advanced : (s.advanced iid i tag a k c).Manned iid where
  staffed := manned.advanced_staffed htask
  begins t ht p o now htag := manned.advanced_begins htask ht p o now htag
  allowed t ht := by
    rcases Lib.Pool.mem_of_step ht with rfl | ⟨j, -, hj⟩ | hnew
    · exact (manned.allowed _ (List.mem_of_getElem? htask)).2 _
    · exact manned.allowed t (List.mem_of_getElem? hj)
    · obtain ⟨p, o, -, rfl⟩ := mem_forked hnew
      exact program_allowed iid (.build p o)

end

theorem manned_crashed (iid : String) (w : World) : (System.crashed w).Manned iid where
  staffed := rfl
  allowed t ht := by cases ht
  begins t ht := by cases ht

theorem System.Manned.called {iid : String} {s : System}
    (manned : s.Manned iid) (serving : s.phase = .serving) (request : Request) :
    { s with tasks := s.tasks ++ [(Tag.request request).task iid] }.Manned iid where
  staffed := by
    have hstaffed := manned.staffed
    unfold System.Staffed at hstaffed ⊢
    simp only [serving] at hstaffed ⊢
    intro t ht now htag
    rcases List.mem_append.mp ht with ht | ht
    · exact hstaffed t ht now htag
    · rw [List.mem_singleton.mp ht] at htag
      cases htag
  allowed t ht := by
    rcases List.mem_append.mp ht with ht | ht
    · exact manned.allowed t ht
    · rw [List.mem_singleton.mp ht]
      exact program_allowed iid _
  begins t ht p o now htag := by
    rcases List.mem_append.mp ht with ht | ht
    · exact manned.begins t ht p o now htag
    · rw [List.mem_singleton.mp ht] at htag ⊢
      cases htag
      exact .inl rfl

/-- **The pool stays manned**, whatever happens. -/
theorem System.Manned.next {iid : String} {s s' : System}
    (manned : s.Manned iid) (h : s.next iid label = some s') : s'.Manned iid := by
  cases next_cases h with
  | boot now down =>
    refine ⟨⟨now, _, rfl⟩, fun t ht => ?_, fun t ht p o now htag => ?_⟩
    · rw [List.mem_singleton.mp ht]
      exact program_allowed iid _
    · rw [List.mem_singleton.mp ht] at htag
      cases htag
  | ready opening opened =>
    exact ⟨fun t ht => (by cases ht), fun t ht => (by cases ht), fun t ht => by cases ht⟩
  | call request serving => exact manned.called serving request
  | advance task => exact manned.advanced task
  | crash => exact manned_crashed iid s.world
  | crashDuring task => exact manned_crashed iid _
  | removePlugin p c => exact ⟨manned.staffed, manned.allowed, manned.begins⟩
  | outside => exact ⟨manned.staffed, manned.allowed, manned.begins⟩

/-! ## One builder for each operation -/

section
variable {iid : String} {s : System} {i : Nat} {c : Outcome} {tag : Tag} {a : Act}
  {k : a.Resp → Program Reply}

variable (htask : s.tasks[i]? = some ⟨tag, .act a k⟩)
include htask

theorem System.Manned.advanced_single (formed : s.Manned iid) {o : Uuid}
    (single : ∀ (i j : Nat) t u, s.tasks[i]? = some t → s.tasks[j]? = some u → Builder o t →
      Builder o u → i = j) (fresh : a.Creates o s.world → ∀ u ∈ s.tasks, ¬ Builder o u)
    {j₁ j₂ : Nat} {t u : SupervisorTask} (ht : (s.advanced iid i tag a k c).tasks[j₁]? = some t)
    (hu : (s.advanced iid i tag a k c).tasks[j₂]? = some u) (hbt : Builder o t) (hbu : Builder o u) :
    j₁ = j₂ := by
  -- a spawned build takes over from its `begin`, which is then finished
  have spawning : ∀ p o', a = .spawnBuild p o' → Builder o' ⟨tag, .act a k⟩ ∧
        ∀ o, ¬ Builder o ⟨tag, k (exec iid a c s.world).1⟩ := by
    rintro p o' rfl
    refine ⟨.inr ⟨p, rfl⟩, fun o hb => ?_⟩
    obtain ⟨now, rfl⟩ := formed.step_allowed htask
    rcases formed.begins _ (List.mem_of_getElem? htask) p o' now rfl with h | ⟨_, h⟩ | ⟨_, h⟩
    · rw [begin_program] at h
      cases h
    · cases h
      rcases hb with ⟨hne, -⟩ | ⟨_, h⟩
      · exact hne rfl
      · cases h
    · cases h
  -- the task that moved is a builder along with another one only if it was before
  have moved : ∀ j v, j ≠ i → s.tasks[j]? = some v → Builder o v →
      ¬ Builder o ⟨tag, k (exec iid a c s.world).1⟩ := by
    intro j v hne hv hbv hb
    rcases formed.becomes_builder htask hb with hold | ⟨hcreates, -⟩
    · exact hne (single j i _ _ hv htask hbv hold)
    · exact fresh hcreates v (List.mem_of_getElem? hv) hbv
  have started : ∀ j v (n : Nat) x, j ≠ i → s.tasks[j]? = some v → Builder o v →
      (forked iid a (exec iid a c s.world).1)[n]? = some x → ¬ Builder o x := by
    intro j v n x hne hv hbv hx hb
    obtain ⟨p, o', ha, rfl⟩ := mem_forked (List.mem_of_getElem? hx)
    have ho : o = o' := by
      rcases hb with ⟨-, p', hp⟩ | ⟨p', hp⟩
      · cases hp
        rfl
      · cases hp
    subst ho
    exact hne (single j i _ _ hv htask hbv (spawning p o ha).1)
  have apart : ∀ (n : Nat) x, (forked iid a (exec iid a c s.world).1)[n]? = some x →
      ¬ Builder o ⟨tag, k (exec iid a c s.world).1⟩ ∧ n = 0 := by
    intro n x hx
    obtain ⟨p, o', ha, -⟩ := mem_forked (List.mem_of_getElem? hx)
    refine ⟨(spawning p o' ha).2 o, ?_⟩
    subst ha
    cases n with
    | zero => rfl
    | succ n => cases hx
  rcases Lib.Pool.getElem?_of_step ht with ⟨rfl, rfl⟩ | ⟨h₁, hold₁⟩ | ⟨n, rfl, hnew₁⟩ <;>
    rcases Lib.Pool.getElem?_of_step hu with ⟨rfl, rfl⟩ | ⟨h₂, hold₂⟩ | ⟨m, rfl, hnew₂⟩
  · rfl
  · exact absurd hbt (moved _ _ h₂ hold₂ hbu)
  · exact absurd hbt (apart m u hnew₂).1
  · exact absurd hbu (moved _ _ h₁ hold₁ hbt)
  · exact single j₁ j₂ t u hold₁ hold₂ hbt hbu
  · exact absurd hbu (started _ _ _ _ h₁ hold₁ hbt hnew₂)
  · exact absurd hbu (apart n t hnew₁).1
  · exact absurd hbt (started _ _ _ _ h₂ hold₂ hbu hnew₁)
  · rw [(apart n t hnew₁).2, (apart m u hnew₂).2]

theorem System.Formed.advanced (formed : s.Formed iid) (fresh : NoReuse s i) :
    (s.advanced iid i tag a k c).Formed iid :=
  ⟨formed.toManned.advanced htask, fun o _ _ _ _ ht hu hbt hbu =>
    formed.toManned.advanced_single htask (formed.single o) (fun creates u hu hbuilds => fresh _ o htask
      ⟨a, rfl, creates⟩ u hu hbuilds.engaged) ht hu hbt hbu⟩

end

theorem not_builder_request {iid : String} {o : Uuid} : ¬ Builder o ((Tag.request request).task iid) := by
  rintro (⟨-, _, h⟩ | ⟨p, h⟩)
  · cases h
  · cases request <;> cases h

theorem called_single {iid : String} {s : System} {o : Uuid}
    (single : ∀ (i j : Nat) t u, s.tasks[i]? = some t → s.tasks[j]? = some u → Builder o t →
      Builder o u → i = j) {i j : Nat} (ht : (s.tasks ++ [(Tag.request request).task iid])[i]? = some t)
    (hu : (s.tasks ++ [(Tag.request request).task iid])[j]? = some u) (hbt : Builder o t)
    (hbu : Builder o u) : i = j := by
  have old : ∀ (i : Nat) t, (s.tasks ++ [(Tag.request request).task iid])[i]? = some t →
      Builder o t → s.tasks[i]? = some t := by
    intro i t ht hb
    rw [List.getElem?_append] at ht
    split at ht
    · exact ht
    · have hmem := List.mem_singleton.mp (List.mem_of_getElem? ht)
      exact absurd (hmem ▸ hb) not_builder_request
  exact single i j t u (old i t ht hbt) (old j u hu hbu) hbt hbu

theorem formed_crashed (iid : String) (w : World) : (System.crashed w).Formed iid :=
  ⟨manned_crashed iid w, fun o i j t u ht => by simp [System.crashed] at ht⟩

/-- **The pool stays formed**, as long as no engaged operation is begun anew. -/
theorem System.Formed.next {iid : String} {s s' : System} (formed : s.Formed iid)
    (fresh : ∀ i c, label = .advance i c → NoReuse s i) (h : s.next iid label = some s') : s'.Formed iid := by
  refine ⟨formed.toManned.next h, ?_⟩
  cases next_cases h with
  | boot now down =>
    intro o i j t u ht hu _ _
    have hi := (List.getElem?_eq_some_iff.mp ht).1
    have hj := (List.getElem?_eq_some_iff.mp hu).1
    rw [List.length_singleton] at hi hj
    omega
  | ready opening opened => exact fun o i j t u ht => by simp at ht
  | call request serving =>
    exact fun o i j t u ht hu hbt hbu => called_single (formed.single o) ht hu hbt hbu
  | advance task => exact (formed.advanced task (fresh _ _ rfl)).single
  | crash => exact (formed_crashed iid s.world).single
  | crashDuring task => exact (formed_crashed iid _).single
  | removePlugin p c => exact formed.single
  | outside => exact formed.single

end AudioDown.Supervisor
