/-
# AudioDown.Core.Tended — an operation and its build, while the installation waits

While `install` waits, builds go on in the background: those of earlier operations, which leave this one
alone, and its own.  `Tended` is what holds of the operation all the time, and `Becomes` is what its build
may make of the record between two steps of the call: an operation that waits goes on waiting, or is built
over a candidate attested to it; a built one stays as it is; one that is over stays over.  It needs that no
failure is recorded of an operation that still waits.
-/
import AudioDown.Core.Composed

namespace AudioDown.Core

open Supervisor

variable {iid : String} {p : PluginId} {o : Uuid}

/-! ## The builds -/

/-- Nothing of operation `o` has changed. -/
structure SameFor (o : Uuid) (w w' : World) : Prop where
  memory : w'.inMemory o = w.inMemory o
  disk : w'.onDisk o = w.onDisk o
  candidate : w'.candidates o = w.candidates o

/-- Nor have the files an installation is about. -/
structure SameFiles (w w' : World) : Prop where
  prepared : w'.prepared = w.prepared
  grants : w'.grants = w.grants
  installed : w'.installed = w.installed

section
variable {a : Act} {c : Outcome} {w : World} {q : PluginId} {u : Uuid}

theorem sameFiles_of_build (h : BuildAct q u a) : SameFiles w (exec iid a c w).2 := by
  have effect := exec_effect iid a c w
  obtain ⟨prepared, grants⟩ := effect.mirrors fun file hfile => by
    rw [hfile] at h
    exact h
  refine ⟨prepared, grants, funext fun p => ?_⟩
  rcases effect.installed p with hsame | ⟨rfl, -⟩ | ⟨_, _, rfl, -⟩
  · exact hsame
  · exact h.elim
  · exact h.elim

theorem sameFor_of_build (h : BuildAct q u a) (keyed : w.Keyed) (other : u ≠ o) :
    SameFor o w (exec iid a c w).2 := by
  have effect := exec_effect iid a c w
  have candidate : (exec iid a c w).2.candidates o = w.candidates o := by
    rcases effect.candidates o with hsame | ⟨rfl, -⟩ | ⟨_, rfl, -⟩ | ⟨_, _, rfl, -⟩
    · exact hsame
    · exact h.elim
    · exact h.elim
    · exact absurd h.symm other
  have load : a ≠ .loadState := by
    rintro rfl
    exact h
  cases effect.record load keyed o with
  | same memory disk => exact ⟨memory, disk, candidate⟩
  | forgotten forget =>
    subst forget
    exact h.elim
  | registered register =>
    subst register
    exact h.elim
  | changed _ change =>
    cases change with
    | setState => exact absurd h.2.1.symm other
    | setBuilt | setFailed => exact absurd h.2.symm other
    | acknowledge => exact h.elim

end

/-- What a build may make of the record of its operation while the installation waits. -/
structure Becomes (iid : String) (p : PluginId) (o : Uuid) (w w' : World)
    (r r' : StoredOperation) : Prop where
  plugin : r'.operation.pluginId = r.operation.pluginId
  operation : r'.operation.operationId = r.operation.operationId
  acknowledged : r'.operation.acknowledged = r.operation.acknowledged
  pending : r.operation.state.isTerminal = false → r'.operation.state.isTerminal = false
  terminal : r.operation.state.isTerminal = true → r'.operation.state.isTerminal = true
  givenUp : r.GivenUp → r'.GivenUp
  built : r.operation.state = .built → r' = r ∧ w'.candidates o = w.candidates o
  attested : r.operation.state ≠ .built → r'.operation.state = .built →
    ∃ a, r'.operation.artifact = some a ∧ w'.Attested iid (.candidate o) p o a

theorem Becomes.same {w w' : World} {r : StoredOperation} (h : w'.candidates o = w.candidates o) :
    Becomes iid p o w w' r r :=
  ⟨rfl, rfl, rfl, id, id, id, fun _ => ⟨rfl, h⟩, fun hne hbuilt => absurd hbuilt hne⟩

/-- What a build at a stage finds.  Until it has stored its output the operation is where the stage
expects it, or given up. -/
def Fits (iid : String) (p : PluginId) (o : Uuid) (w : World) (r : StoredOperation) : BuildStage → Prop
  | .ready | .starting _ => w.candidates o = none ∧ (r.operation.state = .accepted ∨ r.GivenUp)
  | .building | .built _ | .checking _ | .publishing _ =>
      w.candidates o = none ∧ (r.operation.state = .building ∨ r.GivenUp)
  | .stamping output | .storing output _ =>
      (r.operation.state = .building ∧ w.candidates o =
        some ⟨some (BuildStage.found iid p o output), some output.manifest⟩) ∨ r.GivenUp
  | .discarding _ | .failing .. | .recording .. | .cleaning | .finished => True

theorem saved_onDisk (w : World) {r : StoredOperation} (hr : r.operation.operationId = o) :
    (w.saved o r).onDisk o = some r := by
  subst hr
  exact Std.TreeMap.getElem?_insert_self

theorem saved_keyed {w : World} {r : StoredOperation} (keyed : w.Keyed)
    (hr : r.operation.operationId = o) : (w.saved o r).Keyed := by
  subst hr
  constructor
  · intro u v hv
    rw [World.inMemory, World.saved, Supervisor.getElem?_insert_uuid] at hv
    split at hv
    · cases hv
      assumption
    · exact keyed.inMemory u v hv
  · intro u v hv
    rw [World.onDisk, World.saved, Supervisor.getElem?_insert_uuid] at hv
    split at hv
    · cases hv
      assumption
    · exact keyed.onDisk u v hv

variable {stage : BuildStage}

section
variable {w : World} {r : StoredOperation}

/-- The operation after a step of its build. -/
structure Staged (iid : String) (p : PluginId) (o : Uuid) (w w' : World)
    (r : StoredOperation) (prog : Program Supervisor.Reply) (stage : BuildStage)
    (r' : StoredOperation) : Prop where
  program : prog = stage.program iid p o
  memory : w'.inMemory o = some r'
  disk : w'.onDisk o = some r'
  becomes : Becomes iid p o w w' r r'
  fits : Fits iid p o w' r' stage

/-- **One step of the build**, if it does not record a failure of a waiting operation. -/
theorem stage_step {a : Act} {k : a.Resp → Program Supervisor.Reply} {c : Outcome}
    (fits : Fits iid p o w r stage) (hm : w.inMemory o = some r) (hd : w.onDisk o = some r)
    (hp : r.operation.pluginId = p) (ho : r.operation.operationId = o)
    (hprog : stage.program iid p o = .act a k) (works : Unfailing a c)
    (completes : ∀ code logs now, a = .setFailed p o code logs now → r.operation.state.isTerminal = true) :
    ∃ stage' r', Staged iid p o w (exec iid a c w).2 r (k (exec iid a c w).1) stage' r' := by
  -- a step that leaves the operation as it is
  have stays : ∀ {w' : World} {prog : Program Supervisor.Reply} (stage' : BuildStage), prog = stage'.program
      iid p o → w'.state = w.state → w'.records = w.records → w'.candidates o = w.candidates o → Fits iid p o
      w' r stage' → ∃ stage' r', Staged iid p o w w' r prog stage' r' := by
    intro w' prog stage' hprog hstate hrecords hcandidates hfits
    refine ⟨stage', r, hprog, ?_, ?_, .same hcandidates, hfits⟩
    · rw [World.inMemory, hstate]
      exact hm
    · rw [World.onDisk, hrecords]
      exact hd
  cases stage with
  | ready =>
    cases hprog
    exact stays (.starting _) rfl rfl rfl rfl fits
  | starting now =>
    cases hprog
    rw [exec_of_succeeds works]
    obtain ⟨hcandidate, haccepted | hgivenUp⟩ := fits
    · rw [exec_setState_ok hm hp (by simp [haccepted])]
      refine ⟨.building, _, rfl, saved_inMemory .., saved_onDisk _ ho, ⟨rfl, rfl, rfl, fun _ => rfl,
        fun h => ?_, fun h => ?_, fun h => ?_, fun _ h => (by cases h)⟩, hcandidate, .inl rfl⟩
      · simp [haccepted] at h
      · simp [StoredOperation.GivenUp, haccepted] at h
      · simp [haccepted] at h
    · rw [exec_setState_error hm hp (Supervisor.GivenUp.terminal hgivenUp)
        (Supervisor.GivenUp.ne_building hgivenUp)]
      exact stays .finished rfl rfl rfl rfl trivial
  | building =>
    cases hprog
    show ∃ stage' r', Staged iid p o w (w.build o c).2 r
      (BuildStage.afterBuilding iid p o (w.build o c).1) stage' r'
    unfold World.build
    split
    · exact stays (.built _) rfl rfl rfl rfl fits
    · exact stays (.failing _ _) rfl rfl rfl rfl trivial
    · exact stays (.failing _ _) rfl rfl rfl rfl trivial
  | built output =>
    cases hprog
    have hstatus : (exec iid (.status p o) c w).1 = .ok r.operation := by
      show (w.state.matchingOperation p o).map StoredOperation.operation = _
      rw [Supervisor.matchingOperation_eq_ok.mpr ⟨hm, hp⟩]
      rfl
    by_cases hstill : r.operation.state = .building
    · refine stays (.checking output) ?_ rfl rfl rfl fits
      rw [hstatus]
      simp [Supervisor.stillBuilding, hstill, BuildStage.program]
    · refine stays (.discarding output) ?_ rfl rfl rfl trivial
      rw [hstatus]
      simp [Supervisor.stillBuilding, hstill, BuildStage.program]
  | discarding output =>
    cases hprog
    show ∃ stage' r', Staged iid p o w (w.removeImage output.artifact.imageId c).2 r _ stage' r'
    unfold World.removeImage
    split <;> exact stays .cleaning rfl rfl rfl rfl trivial
  | checking output =>
    cases hprog
    rw [exec_of_succeeds works]
    have hnone : w.directory (.candidate o) = none := fits.1
    refine stays (.publishing output) ?_ rfl rfl rfl fits
    simp [exec, hnone, BuildStage.afterChecking, BuildStage.program]
  | publishing output =>
    cases hprog
    rw [exec_of_succeeds works]
    obtain ⟨hcandidate, hstate⟩ := fits
    have hpublish : exec iid (.publishCandidate o (BuildStage.found iid p o output)
        output.manifest) .done w = (.ok (), w.setDirectory (.candidate o)
          (some ⟨some (BuildStage.found iid p o output), some output.manifest⟩)) := by
      simp [exec, World.publishCandidate, World.moveInto, World.directory, hcandidate]
    rw [hpublish]
    refine ⟨.stamping output, r, rfl, hm, hd, ?_, ?_⟩
    · refine ⟨rfl, rfl, rfl, id, id, id, fun h => ?_, fun hne hbuilt => absurd hbuilt hne⟩
      rcases hstate with hbuilding | hgivenUp
      · simp [hbuilding] at h
      · simp [StoredOperation.GivenUp, h] at hgivenUp
    · rcases hstate with hbuilding | hgivenUp
      · exact .inl ⟨hbuilding, by simp [World.setDirectory]⟩
      · exact .inr hgivenUp
  | stamping output =>
    cases hprog
    exact stays (.storing output _) rfl rfl rfl rfl fits
  | storing output now =>
    cases hprog
    rw [exec_of_succeeds works]
    rcases fits with ⟨hbuilding, hcandidate⟩ | hgivenUp
    · rw [exec_setBuilt hm hp hbuilding]
      refine ⟨.cleaning, _, rfl, saved_inMemory .., saved_onDisk _ ho, ⟨rfl, rfl, rfl, fun _ => rfl,
        fun h => ?_, fun h => ?_, fun h => ?_,
        fun _ _ => ⟨output.artifact, rfl, _, _, hcandidate, rfl, ?_⟩⟩, trivial⟩
      · simp [hbuilding] at h
      · simp [StoredOperation.GivenUp, hbuilding] at h
      · simp [hbuilding] at h
      · exact Supervisor.attestation_attests ..
    · have hrefused : exec iid (.setBuilt p o output.artifact output.buildLogs now) .done w =
          (.error .invalidTransition, w) := by
        simp [exec, World.setBuilt, World.changeRecord, Supervisor.matchingOperation_eq_ok.mpr ⟨hm, hp⟩,
          Supervisor.GivenUp.ne_building hgivenUp]
      rw [hrefused]
      exact stays .cleaning rfl rfl rfl rfl trivial
  | failing code logs =>
    cases hprog
    exact stays (.recording code logs _) rfl rfl rfl rfl trivial
  | recording code logs now =>
    cases hprog
    rw [exec_of_succeeds works, exec_setFailed hm hp]
    have hterminal := completes code logs now rfl
    refine ⟨.cleaning, _, rfl, saved_inMemory .., saved_onDisk _ ho, ⟨rfl, rfl, rfl, fun h => ?_,
      fun _ => rfl, fun _ => .inr rfl, fun h => ?_, fun _ h => (by cases h)⟩, trivial⟩
    · simp [hterminal] at h
    · simp [h] at hterminal
  | cleaning =>
    cases hprog
    exact stays .finished rfl rfl rfl rfl trivial
  | finished => cases hprog

end

theorem Fits.congr {w w' : World} {r r' : StoredOperation}
    (h : Fits iid p o w r stage) (candidate : w'.candidates o = w.candidates o)
    (state : r'.operation.state = r.operation.state) : Fits iid p o w' r' stage := by
  have givenUp : r.GivenUp → r'.GivenUp := by
    intro hr
    unfold StoredOperation.GivenUp
    rwa [state]
  cases stage with
  | ready | starting | building | built | checking | publishing =>
    exact ⟨candidate.trans h.1, h.2.imp (state.trans ·) givenUp⟩
  | stamping | storing =>
    exact h.imp (fun ⟨hstate, hcandidate⟩ => ⟨state.trans hstate, candidate.trans hcandidate⟩) givenUp
  | _ => trivial

/-- An operation that has been given up fits everywhere, as long as nobody but the build publishes a
candidate. -/
theorem Fits.abandon {w w' : World} {r r' : StoredOperation} (h : Fits iid p o w r stage) (givenUp : r'.GivenUp)
    (candidate : w.candidates o = none → w'.candidates o = none) : Fits iid p o w' r' stage := by
  cases stage with
  | ready | starting | building | built | checking | publishing => exact ⟨candidate h.1, .inr givenUp⟩
  | stamping | storing => exact .inr givenUp
  | _ => trivial

theorem Fits.stored {w w' : World} {r r' : StoredOperation}
    (h : Fits iid p o w r stage) (built : r.operation.state = .built) : Fits iid p o w' r' stage := by
  have alive : ¬ r.GivenUp := by simp [StoredOperation.GivenUp, built]
  cases stage with
  | ready | starting | building | built | checking | publishing =>
    rcases h.2 with hstate | hgivenUp
    · simp [built] at hstate
    · exact absurd hgivenUp alive
  | stamping | storing =>
    rcases h with ⟨hstate, -⟩ | hgivenUp
    · simp [built] at hstate
    · exact absurd hgivenUp alive
  | _ => trivial

/-! ## An operation and its build -/

def Elsewhere (o : Uuid) (t : SupervisorTask) : Prop := ∃ u, u ≠ o ∧ Builds t u

/-- The record of the operation, kept in both places, and its build, if it has been started. -/
structure Tended (iid : String) (p : PluginId) (o : Uuid) (s : Scene) (r : StoredOperation) : Prop where
  keyed : s.world.Keyed
  memory : s.world.inMemory o = some r
  disk : s.world.onDisk o = some r
  plugin : r.operation.pluginId = p
  builds : ∀ (i : Nat) t, s.builds[i]? = some t → Elsewhere o t ∨
    ∃ stage : BuildStage, t = ⟨.build p o, stage.program iid p o⟩ ∧ Fits iid p o s.world r stage
  single : ∀ (i j : Nat) t u, s.builds[i]? = some t → s.builds[j]? = some u →
    t.tag = .build p o → u.tag = .build p o → i = j

/-- What no build changes. -/
structure Scene.Frame (s t : Scene) : Prop where
  store : t.store = s.store
  handed : t.handed = s.handed
  cause : t.cause = s.cause
  files : SameFiles s.world t.world

def Background (iid : String) (s t : Scene) : Prop :=
  ∃ (i : Nat) (c : Outcome) (tag : Tag) (a : Act) (k : a.Resp → Program Supervisor.Reply),
    s.builds[i]? = some ⟨tag, .act a k⟩ ∧ Unfailing a c ∧ Completes s.handed s.world a ∧
      t = { s.supervised iid a c with
        builds := s.builds.set i ⟨tag, k (exec iid a c s.world).1⟩ }

section
variable {s t : Scene} {r : StoredOperation}

theorem causeOf_build {a : Act} {c : Outcome} {q : PluginId} {u : Uuid} {handed : Option Handed} {w : World}
    (h : BuildAct q u a) (completes : Completes handed w a) : causeOf iid handed w a c = none := by
  cases a with
  | register => exact h.elim
  | setFailed q u code logs now =>
    refine if_neg ?_
    simp only [Bool.and_eq_true, Option.any_eq_true, decide_eq_true_eq, Bool.not_eq_true', not_and, not_exists]
    rintro ⟨hd, hhanded, hop⟩ r hr hpending
    have hterminal := completes (by simp [hhanded, hop]) r hr
    simp [hterminal] at hpending
  | _ => rfl

theorem Elsewhere.ne_tag {t : SupervisorTask} (h : Elsewhere o t) (q : PluginId) : t.tag ≠ .build q o := by
  obtain ⟨u, hne, q', htag, -⟩ := h
  intro hq
  rw [htag] at hq
  cases hq
  exact hne rfl

theorem frame_of_build {a : Act} {c : Outcome} {q : PluginId} {u : Uuid} {builds : List SupervisorTask}
    (h : BuildAct q u a) (completes : Completes s.handed s.world a) :
    s.Frame { s.supervised iid a c with builds } := by
  refine ⟨rfl, rfl, ?_, sameFiles_of_build h⟩
  show s.cause.or (causeOf iid s.handed s.world a c) = s.cause
  rw [causeOf_build h completes, Option.or_none]

theorem Tended.background (h : Tended iid p o s r)
    (handed : s.handed.map Handed.operationId = some o) (step : Background iid s t) :
    ∃ r', Tended iid p o t r' ∧ Becomes iid p o s.world t.world r r' ∧ s.Frame t := by
  obtain ⟨i, c, tag, a, k, htask, works, completes, rfl⟩ := step
  have hi := (List.getElem?_eq_some_iff.mp htask).1
  -- the builds after the step, by position
  have builds : ∀ {j : Nat} {t : SupervisorTask}, (s.builds.set i ⟨tag, k (exec iid a c s.world).1⟩)[j]? =
      some t → (j = i ∧ t = ⟨tag, k (exec iid a c s.world).1⟩) ∨ (j ≠ i ∧ s.builds[j]? = some t) := by
    intro j t hj
    by_cases hji : j = i
    · subst hji
      rw [List.getElem?_set_self hi] at hj
      exact .inl ⟨rfl, (Option.some.inj hj).symm⟩
    · rw [List.getElem?_set_ne (Ne.symm hji)] at hj
      exact .inr ⟨hji, hj⟩
  have single : ∀ (j l : Nat) t u, (s.builds.set i ⟨tag, k (exec iid a c s.world).1⟩)[j]? = some t →
      (s.builds.set i ⟨tag, k (exec iid a c s.world).1⟩)[l]? = some u →
        t.tag = .build p o → u.tag = .build p o → j = l := by
    intro j l t u hj hl htag htag'
    rcases builds hj with ⟨rfl, rfl⟩ | ⟨-, hj'⟩ <;> rcases builds hl with ⟨rfl, rfl⟩ | ⟨-, hl'⟩
    · rfl
    · exact h.single j l _ u htask hl' htag htag'
    · exact h.single j l t _ hj' htask htag htag'
    · exact h.single j l t u hj' hl' htag htag'
  rcases h.builds i _ htask with ⟨u, hne, q, htag, huses⟩ | ⟨stage, hstage, fits⟩
  · have same : SameFor o s.world (exec iid a c s.world).2 :=
      sameFor_of_build huses.1 h.keyed hne
    refine ⟨r, ⟨h.keyed.step, same.memory.trans h.memory, same.disk.trans h.disk, h.plugin,
      fun j t hj => ?_, single⟩, .same same.candidate, frame_of_build huses.1 completes⟩
    rcases builds hj with ⟨-, rfl⟩ | ⟨-, hj⟩
    · exact .inl ⟨u, hne, q, htag, huses.2 _⟩
    · exact (h.builds j t hj).imp_right fun ⟨stage, ht, fits⟩ =>
        ⟨stage, ht, fits.congr same.candidate rfl⟩
  · simp only [Lib.Task.mk.injEq] at hstage
    obtain ⟨rfl, hprog⟩ := hstage
    have huses : BuildAct p o a := by
      cases stage <;> cases hprog <;> trivial
    have ended := stage_step fits h.memory h.disk h.plugin (h.keyed.inMemory o r h.memory) hprog.symm
      works fun code logs now ha => by
        subst ha
        exact completes handed r h.memory
    obtain ⟨stage', r', staged⟩ := ended
    refine ⟨r', ⟨h.keyed.step, staged.memory, staged.disk, staged.becomes.plugin.trans h.plugin,
      fun j t hj => ?_, single⟩, staged.becomes, frame_of_build huses completes⟩
    rcases builds hj with ⟨-, rfl⟩ | ⟨hji, hj⟩
    · exact .inr ⟨stage', by rw [staged.program], staged.fits⟩
    · rcases h.builds j t hj with helsewhere | ⟨_, rfl, -⟩
      · exact .inl helsewhere
      · exact absurd (h.single j i _ _ hj htask rfl rfl) hji

end

end AudioDown.Core
