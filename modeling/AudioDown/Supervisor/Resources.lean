/-
# AudioDown.Supervisor.Resources — what a build leaves behind among concurrent calls

One build of an operation runs while any number of `finalize` and `abort` calls for it come and go.
Nothing fails.  When all of them have returned, an aborted or failed operation should own nothing, a
built one its candidate and its image, a finalized one its installed directory and its image.

The build is followed through its stages (`BuildStage`): until it has stored its output, the record
has no artifact, and candidate and image are accounted for by the stage.  Afterwards they are accounted
for by the recorded state, or some call that is still running is bound to remove them (`Pending`).
-/
import AudioDown.Supervisor.Discipline

namespace AudioDown.Supervisor

open Lib (Prog)

variable {iid : String} {p : PluginId} {o : Uuid}

/-! ## The stages of a build -/

inductive BuildStage where
  | ready
  | starting (now : Timestamp)
  | building
  | built (output : BuildOutput)
  | discarding (output : BuildOutput)
  | checking (output : BuildOutput)
  | publishing (output : BuildOutput)
  | stamping (output : BuildOutput)
  | storing (output : BuildOutput) (now : Timestamp)
  | failing (errorCode : String) (buildLogs : List PluginBuildLog)
  | recording (errorCode : String) (buildLogs : List PluginBuildLog) (now : Timestamp)
  | cleaning
  | finished

namespace BuildStage

section
variable (iid : String) (p : PluginId) (o : Uuid)

def finishedProgram : Program Reply := .ret (.unit (.ok ()))

def cleaningProgram : Program Reply :=
  .act (.cleanupTemporaryResources o) fun _ => finishedProgram

def recordingProgram (errorCode : String) (buildLogs : List PluginBuildLog) (now : Timestamp) :
    Program Reply :=
  .act (.setFailed p o errorCode buildLogs now) fun _ => cleaningProgram o

def failingProgram (errorCode : String) (buildLogs : List PluginBuildLog) : Program Reply :=
  .act .utcNow fun now => recordingProgram p o errorCode buildLogs now

def storingProgram (output : BuildOutput) (now : Timestamp) : Program Reply :=
  .act (.setBuilt p o output.artifact output.buildLogs now) fun _ => cleaningProgram o

def stampingProgram (output : BuildOutput) : Program Reply :=
  .act .utcNow fun now => storingProgram p o output now

/-- The branch of `run_build` in which the candidate could not be written. -/
def unwrittenProgram (output : BuildOutput) (error : InstallOperationError) : Program Reply :=
  .act (.removeImage output.artifact.imageId) fun _ =>
    failingProgram p o error.errorCode output.buildLogs

def found (output : BuildOutput) : InstallAttestation :=
  attestation iid p o output.artifact output.baseImageDigest output.sdkHash

def afterPublishing (output : BuildOutput) : Except InstallOperationError Unit → Program Reply
  | .ok _ => stampingProgram p o output
  | .error error => unwrittenProgram p o output error

def publishingProgram (output : BuildOutput) : Program Reply :=
  .act (.publishCandidate o (found iid p o output) output.manifest) (afterPublishing p o output)

def afterChecking (output : BuildOutput) : Bool → Program Reply
  | true => unwrittenProgram p o output .candidateAlreadyExists
  | false => publishingProgram iid p o output

def checkingProgram (output : BuildOutput) : Program Reply :=
  .act (.directoryExists (.candidate o)) (afterChecking iid p o output)

def discardingProgram (output : BuildOutput) : Program Reply :=
  .act (.removeImage output.artifact.imageId) fun _ => cleaningProgram o

def builtProgram (output : BuildOutput) : Program Reply :=
  .act (.status p o) fun observed =>
    if !stillBuilding observed then discardingProgram o output
    else checkingProgram iid p o output

def afterBuilding : Except BuildAdapterError BuildOutput → Program Reply
  | .ok output => builtProgram iid p o output
  | .error error => failingProgram p o error.code error.buildLogs

def buildingProgram : Program Reply := .act (.build p o) (afterBuilding iid p o)

def afterStarting : Except InstallOperationError PluginInstallOperation → Program Reply
  | .ok _ => buildingProgram iid p o
  | .error _ => finishedProgram

def startingProgram (now : Timestamp) : Program Reply :=
  .act (.setState p o .building none now) (afterStarting iid p o)

def program : BuildStage → Program Reply
  | ready => .act .utcNow fun now => startingProgram iid p o now
  | starting now => startingProgram iid p o now
  | building => buildingProgram iid p o
  | built output => builtProgram iid p o output
  | discarding output => discardingProgram o output
  | checking output => checkingProgram iid p o output
  | publishing output => publishingProgram iid p o output
  | stamping output => stampingProgram p o output
  | storing output now => storingProgram p o output now
  | failing errorCode buildLogs => failingProgram p o errorCode buildLogs
  | recording errorCode buildLogs now => recordingProgram p o errorCode buildLogs now
  | cleaning => cleaningProgram o
  | finished => finishedProgram

end

theorem ready_program (iid : String) (p : PluginId) (o : Uuid) :
    (Tag.build p o).program iid = ready.program iid p o := by
  refine congrArg (Prog.act Act.utcNow) (funext fun now => ?_)
  refine congrArg (Prog.act (Act.setState p o .building none now)) (funext fun started => ?_)
  cases started with
  | error e => rfl
  | ok v =>
    refine congrArg (Prog.act (Act.build p o)) (funext fun result => ?_)
    cases result with
    | error e => rfl
    | ok output =>
      refine congrArg (Prog.act (Act.status p o)) (funext fun observed => ?_)
      cases hstill : stillBuilding observed with
      | false =>
        simp only [Prog.ret_bind, hstill, Bool.not_false, if_true]
        rfl
      | true =>
        simp only [Prog.ret_bind, hstill, Bool.not_true, Bool.false_eq_true, if_false]
        refine congrArg (Prog.act (Act.directoryExists (.candidate o))) (funext fun present => ?_)
        cases present with
        | true => rfl
        | false =>
          refine congrArg (Prog.act (Act.publishCandidate o _ output.manifest)) (funext fun written => ?_)
          cases written <;> rfl

def output : BuildStage → Option BuildOutput
  | built output | discarding output | checking output | publishing output | stamping output
  | storing output _ => some output
  | _ => none

/-- Between its last look at the state and `set_built`, the build counts on `building`. -/
def Live : BuildStage → Prop
  | checking _ | publishing _ | stamping _ | storing .. => True
  | _ => False

/-- The states an operation that has not been given up can have at a stage. -/
def Awaits : BuildStage → PluginInstallOperationState → Prop
  | ready, state | starting _, state => state = .accepted
  | discarding _, _ => False
  | _, state => state = .building

def directory (iid : String) (p : PluginId) (o : Uuid) : BuildStage → Option InstallDirectory
  | stamping output | storing output _ =>
      some ⟨some (found iid p o output), some output.manifest⟩
  | _ => none

theorem directory_eq_none {stage : BuildStage} (h : ¬ stage.Live) : stage.directory iid p o = none := by
  cases stage <;> first | rfl | exact absurd trivial h

end BuildStage

/-! ## Accounts -/

/-- `installed/<plugin>` does not carry the attestation of operation `o`. -/
def World.NotInstalled (p : PluginId) (o : Uuid) (w : World) : Prop :=
  ∀ content found, w.installed p = some content → content.attestation = some found → found.operationId ≠ o

/-- Image `i`, and no other, is labelled with operation `o`. -/
def World.OnlyImage (o : Uuid) (i : String) (w : World) : Prop :=
  ∀ j, w.images j = some o ↔ j = i

def StoredOperation.GivenUp (r : StoredOperation) : Prop :=
  r.operation.state = .aborted ∨ r.operation.state = .failed

/-- The answers of a step in which nothing fails, where a method goes on only with `Ok`. -/
def Act.Fine : (a : Act) → a.Resp → Prop
  | .removeDirectory _, r => r = .ok ()
  | .removeFile _, r => r = .ok ()
  | .syncInstalledParent, r => r = .ok ()
  | .removeImage _, r => r = .ok ()
  | _, _ => True

/-- Some task is bound to issue a request satisfying `P`. -/
def Pending (P : Act → Prop) (tasks : List SupervisorTask) : Prop :=
  ∃ t ∈ tasks, t.prog.Reaches Act.Fine P

def Act.Owed (p : PluginId) (o : Uuid) : Act → Prop
  | .setState q u .finalized _ _ => q = p ∧ u = o
  | .removeDirectory (.candidate u) => u = o
  | .removeImage _ => True
  | _ => False

theorem owed_finalized (a : Act) : (∃ now, a = .setState p o .finalized none now) → a.Owed p o := by
  rintro ⟨now, rfl⟩
  exact ⟨rfl, rfl⟩

theorem owed_candidate (a : Act) : a = .removeDirectory (.candidate o) → a.Owed p o := by
  rintro rfl
  rfl

theorem owed_image {i : String} (a : Act) : a = .removeImage i → a.Owed p o := by
  rintro rfl
  trivial

/-- The account while the build has not stored its output. -/
structure Early (iid : String) (p : PluginId) (o : Uuid) (w : World)
    (r : StoredOperation) (stage : BuildStage) : Prop where
  unbuilt : r.operation.artifact = none
  installed : w.NotInstalled p o
  candidate : w.candidates o = stage.directory iid p o
  images : ∀ i, w.images i = some o → ∃ output, stage.output = some output ∧ output.artifact.imageId = i
  image : ¬ r.GivenUp → ∀ output, stage.output = some output → w.images output.artifact.imageId = some o
  state : stage.Awaits r.operation.state ∨ r.GivenUp ∧ ¬ stage.Live

/-- The account afterwards, by the recorded state. -/
inductive Late (iid : String) (p : PluginId) (o : Uuid) (w : World)
    (r : StoredOperation) (tasks : List SupervisorTask) : Prop where
  | built {a : PluginInstallArtifact} (state : r.operation.state = .built)
      (artifact : r.operation.artifact = some a) (image : w.OnlyImage o a.imageId)
      (candidate : w.Attested iid (.candidate o) p o a)
      (notInstalled : w.NotInstalled p o)
  | renamed {a : PluginInstallArtifact} (state : r.operation.state = .built)
      (artifact : r.operation.artifact = some a) (image : w.OnlyImage o a.imageId)
      (candidate : w.candidates o = none)
      (installed : w.Attested iid (.installed p) p o a)
      (pending : Pending (fun a => ∃ now, a = .setState p o .finalized none now) tasks)
  | finalized {a : PluginInstallArtifact} (state : r.operation.state = .finalized)
      (artifact : r.operation.artifact = some a) (image : w.OnlyImage o a.imageId)
      (candidate : w.candidates o = none)
      (installed : w.Attested iid (.installed p) p o a)
  | givenUp (state : r.GivenUp) (notInstalled : w.NotInstalled p o) (candidate : w.candidates o = none ∨
        Pending (fun a => a = .removeDirectory (.candidate o)) tasks)
      (images : ∀ i, w.images i = some o → Pending (fun a => a = .removeImage i) tasks)

def BuildStage.Holds (iid : String) (p : PluginId) (o : Uuid) (w : World)
    (r : StoredOperation) (tasks : List SupervisorTask) : BuildStage → Prop
  | .cleaning | .finished => Late iid p o w r tasks
  | stage => Early iid p o w r stage

theorem not_attested_of_notInstalled {w : World} {a : PluginInstallArtifact}
    (h : w.NotInstalled p o) : ¬ w.Attested iid (.installed p) p o a := by
  rintro ⟨content, found, hcontent, hfound, hattests⟩
  exact h content found hcontent hfound hattests.2.1

/-! ## The build's own steps -/

theorem exec_of_succeeds {a : Act} {c : Outcome} {w : World} (hc : c.Succeeds)
    (hbuild : ∀ p o, a ≠ .build p o := by simp) (hclock : a ≠ .utcNow := by simp) :
    exec iid a c w = exec iid a .done w := by
  cases a with
  | build p o => exact absurd rfl (hbuild p o)
  | utcNow => exact absurd rfl hclock
  | removeFile file => cases c <;> first | rfl | exact hc.elim
  | renameCandidate p o =>
    cases hcandidate : w.candidates o <;> cases c <;>
      first | exact hc.elim | simp [exec, World.renameCandidate, hcandidate]
  | _ => cases c <;> first | rfl | exact hc.elim

/-! A single step is what its one-step call does alone. -/

variable {buildLogs : List PluginBuildLog} {errorCode : Option String} {now : Timestamp}
  {state : PluginInstallOperationState}

theorem exec_setState_ok {w : World} {r : StoredOperation}
    (hm : w.inMemory o = some r) (hp : r.operation.pluginId = p)
    (allowed : r.operation.state.isTerminal = true → r.operation.state = state) :
    exec iid (.setState p o state errorCode now) .done w = (.ok (r.withState state errorCode now).operation,
      w.saved o (r.withState state errorCode now)) :=
  @setState_alone_ok iid w p o state errorCode r now hm hp allowed

theorem exec_setState_error {w : World} {r : StoredOperation} (hm : w.inMemory o = some r)
    (hp : r.operation.pluginId = p) (terminal : r.operation.state.isTerminal = true)
    (differs : r.operation.state ≠ state) : exec iid (.setState p o state errorCode now) .done w =
      (.error .invalidTransition, w) :=
  @setState_alone_error iid w p o state errorCode r now hm hp terminal differs

theorem exec_setFailed {w : World} {r : StoredOperation} {errorCode : String} (hm : w.inMemory o = some r)
    (hp : r.operation.pluginId = p) : exec iid (.setFailed p o errorCode buildLogs now) .done w =
    (.ok (r.withFailure errorCode buildLogs now).operation, w.saved o (r.withFailure errorCode buildLogs now)) :=
  @setFailed_alone_ok iid w p o r errorCode buildLogs now hm hp

/-- The record `set_built` writes. -/
def StoredOperation.withOutput (r : StoredOperation) (artifact : PluginInstallArtifact)
    (buildLogs : List PluginBuildLog) (now : Timestamp) : StoredOperation :=
  { r with
    operation := { r.operation with
      state := .built, artifact := some artifact, buildLogs, errorCode := none }
    updatedAt := now }

theorem exec_setBuilt {w : World} {r : StoredOperation} {artifact : PluginInstallArtifact}
    (hm : w.inMemory o = some r) (hp : r.operation.pluginId = p) (building : r.operation.state = .building) :
    exec iid (.setBuilt p o artifact buildLogs now) .done w =
      (.ok (r.withOutput artifact buildLogs now).operation,
      w.saved o (r.withOutput artifact buildLogs now)) := by
  show w.setBuilt p o artifact buildLogs now .done = _
  simp [World.setBuilt, World.changeRecord, matchingOperation_eq_ok.mpr ⟨hm, hp⟩, building,
    World.persistRecord, World.saved, StoredOperation.withOutput, Except.map]

@[simp] theorem saved_inMemory (w : World) (r : StoredOperation) : (w.saved o r).inMemory o = some r :=
  Std.TreeMap.getElem?_insert_self

section
variable {w w' : World} {r : StoredOperation} {tasks tasks' : List SupervisorTask}
  {stage : BuildStage} {c : Outcome} {output : BuildOutput}

theorem Early.congr (h : Early iid p o w r stage) (hinst : w'.installed p = w.installed p)
    (hcand : w'.candidates o = w.candidates o) (himg : w'.images = w.images) : Early iid p o w' r stage where
  unbuilt := h.unbuilt
  installed content found hcontent := h.installed content found (hinst.symm.trans hcontent)
  candidate := hcand.trans h.candidate
  images i hi := h.images i (by rwa [himg] at hi)
  image hlive out hout := by rw [himg]; exact h.image hlive out hout
  state := h.state

def AtStage (iid : String) (p : PluginId) (o : Uuid) (w : World) (prog : Program Reply)
    (tasks : List SupervisorTask) : Prop :=
  ∃ (stage : BuildStage) (r : StoredOperation), prog = stage.program iid p o ∧
    w.inMemory o = some r ∧ r.operation.pluginId = p ∧ stage.Holds iid p o w r tasks

theorem GivenUp.terminal (h : r.GivenUp) : r.operation.state.isTerminal = true := by
  rcases h with h | h <;> simp [h]

theorem GivenUp.ne_building (h : r.GivenUp) : r.operation.state ≠ .building := by
  rcases h with h | h <;> simp [h]

theorem starting_step {now : Timestamp} (hm : w.inMemory o = some r)
    (hp : r.operation.pluginId = p) (h : Early iid p o w r (.starting now)) (hc : c.Succeeds) :
    AtStage iid p o (exec iid (.setState p o .building none now) c w).2 (BuildStage.afterStarting iid p o
        (exec iid (.setState p o .building none now) c w).1) tasks := by
  rw [exec_of_succeeds hc]
  rcases h.state with hs | ⟨hs, -⟩
  · have hs : r.operation.state = .accepted := hs
    rw [exec_setState_ok hm hp (by simp [hs])]
    refine ⟨.building, r.withState .building none now, rfl, saved_inMemory .., hp, ?_⟩
    exact ⟨h.unbuilt, h.installed, h.candidate, h.images, fun _ out hout => (by cases hout), .inl rfl⟩
  · rw [exec_setState_error hm hp (GivenUp.terminal hs) (GivenUp.ne_building hs)]
    refine ⟨.finished, r, rfl, hm, hp, .givenUp hs h.installed (.inl h.candidate) fun i hi => ?_⟩
    obtain ⟨out, hout, -⟩ := h.images i hi
    cases hout

theorem building_step (hm : w.inMemory o = some r) (hp : r.operation.pluginId = p)
    (h : Early iid p o w r .building) : AtStage iid p o (exec iid (.build p o) c w).2
      (BuildStage.afterBuilding iid p o (exec iid (.build p o) c w).1) tasks := by
  have hnone : ∀ i, w.images i ≠ some o := by
    intro i hi
    obtain ⟨out, hout, -⟩ := h.images i hi
    cases hout
  have failed : ∀ error : BuildAdapterError, exec iid (.build p o) c w = (.error error, w) → AtStage iid p o
      (exec iid (.build p o) c w).2 (BuildStage.afterBuilding iid p o (exec iid (.build p o) c w).1)
        tasks := by
    intro error hexec
    rw [hexec]
    exact ⟨.failing error.code error.buildLogs, r, rfl, hm, hp, h.unbuilt, h.installed,
      h.candidate, h.images, fun _ out hout => (by cases hout), h.state⟩
  cases c with
  | built result =>
    cases result with
    | error error => exact failed error rfl
    | ok output =>
      refine ⟨.built output, r, rfl, hm, hp, h.unbuilt, h.installed, h.candidate, ?_, ?_, h.state⟩
      · intro i hi
        change Function.update w.images output.artifact.imageId (some o) i = some o at hi
        by_cases hi' : i = output.artifact.imageId
        · exact ⟨output, rfl, hi'.symm⟩
        · rw [Function.update_of_ne hi'] at hi
          exact absurd hi (hnone i)
      · rintro - out ⟨⟩
        exact Function.update_self ..
  | _ => exact failed _ rfl

theorem built_step (hm : w.inMemory o = some r) (hp : r.operation.pluginId = p)
    (h : Early iid p o w r (.built output)) :
    AtStage iid p o w (if !stillBuilding (exec iid (.status p o) c w).1 then
        BuildStage.discardingProgram o output
      else BuildStage.checkingProgram iid p o output) tasks := by
  have hstatus : (exec iid (.status p o) c w).1 = .ok r.operation :=
    congrArg Prod.fst (@status_alone_ok iid w p o r hm hp)
  rw [hstatus]
  rcases h.state with hs | ⟨hs, -⟩
  · have hs : r.operation.state = .building := hs
    refine ⟨.checking output, r, by simp [stillBuilding, hs, BuildStage.program], hm, hp, ?_⟩
    exact ⟨h.unbuilt, h.installed, h.candidate, h.images, h.image, .inl hs⟩
  · refine ⟨.discarding output, r, ?_, hm, hp, ?_⟩
    · simp [stillBuilding, GivenUp.ne_building hs, BuildStage.program]
    · exact ⟨h.unbuilt, h.installed, h.candidate, h.images, h.image, .inr ⟨hs, fun h => h⟩⟩

theorem discarding_step (hm : w.inMemory o = some r) (hp : r.operation.pluginId = p)
    (h : Early iid p o w r (.discarding output)) (hc : c.Succeeds) : AtStage iid p o
      (exec iid (.removeImage output.artifact.imageId) c w).2 (BuildStage.cleaningProgram o) tasks := by
  rw [exec_of_succeeds hc]
  have hs : r.GivenUp := by
    rcases h.state with hs | ⟨hs, -⟩
    · exact hs.elim
    · exact hs
  refine ⟨.cleaning, r, rfl, hm, hp, .givenUp hs h.installed (.inl h.candidate) fun i hi => ?_⟩
  change Function.update w.images output.artifact.imageId none i = some o at hi
  by_cases hi' : i = output.artifact.imageId
  · subst hi'
    rw [Function.update_self] at hi
    cases hi
  · -- any other image labelled with `o` would be the output's too
    rw [Function.update_of_ne hi'] at hi
    obtain ⟨out, hout, himage⟩ := h.images i hi
    cases hout
    exact absurd himage.symm hi'

theorem Early.building (h : Early iid p o w r stage) (live : stage.Live) : r.operation.state = .building := by
  rcases h.state with hs | ⟨-, hs⟩
  · cases stage <;> first | exact hs | exact live.elim
  · exact absurd live hs

theorem Early.live (h : Early iid p o w r stage) (live : stage.Live) : ¬ r.GivenUp := by
  intro hs
  exact GivenUp.ne_building hs (h.building live)

theorem checking_step (hm : w.inMemory o = some r) (hp : r.operation.pluginId = p)
    (h : Early iid p o w r (.checking output)) (hc : c.Succeeds) : AtStage iid p o w
      (BuildStage.afterChecking iid p o output (exec iid (.directoryExists (.candidate o)) c w).1) tasks := by
  rw [exec_of_succeeds hc]
  have habsent : w.candidates o = none := h.candidate
  have hexists : (exec iid (.directoryExists (.candidate o)) .done w).1 = false := by
    show (w.candidates o).isSome = false
    rw [habsent]
    rfl
  rw [hexists]
  exact ⟨.publishing output, r, rfl, hm, hp, h.unbuilt, h.installed, h.candidate, h.images,
    h.image, .inl (h.building trivial)⟩

theorem publishing_step (hm : w.inMemory o = some r) (hp : r.operation.pluginId = p)
    (h : Early iid p o w r (.publishing output)) (hc : c.Succeeds) : AtStage iid p o (exec iid
        (.publishCandidate o (BuildStage.found iid p o output) output.manifest) c w).2
      (BuildStage.afterPublishing p o output (exec iid
          (.publishCandidate o (BuildStage.found iid p o output) output.manifest) c w).1) tasks := by
  rw [exec_of_succeeds hc]
  have habsent : w.candidates o = none := h.candidate
  have hexec : exec iid (.publishCandidate o (BuildStage.found iid p o output) output.manifest) .done w =
      (.ok (), w.setDirectory (.candidate o)
        (some ⟨some (BuildStage.found iid p o output), some output.manifest⟩)) := by
    simp [exec, World.publishCandidate, World.moveInto, World.directory, habsent]
  rw [hexec]
  refine ⟨.stamping output, r, rfl, hm, hp, h.unbuilt, h.installed, ?_, h.images, h.image,
    .inl (h.building trivial)⟩
  exact Function.update_self ..

theorem storing_step {now : Timestamp} (hm : w.inMemory o = some r) (hp : r.operation.pluginId = p)
    (h : Early iid p o w r (.storing output now)) (hc : c.Succeeds) :
    AtStage iid p o (exec iid (.setBuilt p o output.artifact output.buildLogs now) c w).2
      (BuildStage.cleaningProgram o) tasks := by
  rw [exec_of_succeeds hc, exec_setBuilt hm hp (h.building trivial)]
  refine ⟨.cleaning, r.withOutput output.artifact output.buildLogs now, rfl, saved_inMemory .., hp,
    .built rfl rfl (fun i => ⟨fun hi => ?_, ?_⟩) ?_ h.installed⟩
  · obtain ⟨out, hout, himage⟩ := h.images i hi
    cases hout
    exact himage.symm
  · rintro rfl
    exact h.image (h.live trivial) output rfl
  · exact ⟨_, BuildStage.found iid p o output, h.candidate, rfl, attestation_attests ..⟩

theorem recording_step {errorCode : String} {buildLogs : List PluginBuildLog} {now : Timestamp}
    (hm : w.inMemory o = some r) (hp : r.operation.pluginId = p)
    (h : Early iid p o w r (.recording errorCode buildLogs now)) (hc : c.Succeeds) : AtStage iid p o
      (exec iid (.setFailed p o errorCode buildLogs now) c w).2 (BuildStage.cleaningProgram o) tasks := by
  rw [exec_of_succeeds hc, exec_setFailed hm hp]
  refine ⟨.cleaning, r.withFailure errorCode buildLogs now, rfl, saved_inMemory .., hp,
    .givenUp (.inr rfl) h.installed (.inl h.candidate) fun i hi => ?_⟩
  obtain ⟨out, hout, -⟩ := h.images i hi
  cases hout

/-- Nothing the late account speaks of changes when some task that owes nothing moves. -/
theorem Late.congr (h : Late iid p o w r tasks) (hinst : w'.installed p = w.installed p)
    (hcand : w'.candidates o = w.candidates o) (himg : w'.images = w.images)
    (pending : ∀ P, (∀ b, P b → b.Owed p o) → Pending P tasks → Pending P tasks') :
    Late iid p o w' r tasks' := by
  have image : ∀ i, w.OnlyImage o i → w'.OnlyImage o i := by
    intro i hi j
    rw [himg]
    exact hi j
  have absent : w.NotInstalled p o → w'.NotInstalled p o := fun hn content found hcontent =>
    hn content found (hinst.symm.trans hcontent)
  cases h with
  | built state artifact himage candidate notInstalled =>
    obtain ⟨content, found, hcontent, hfound⟩ := candidate
    exact .built state artifact (image _ himage) ⟨content, found, hcand.trans hcontent, hfound⟩
      (absent notInstalled)
  | renamed state artifact himage candidate installed hpending =>
    exact .renamed state artifact (image _ himage) (hcand.trans candidate)
      ((attested_installed_congr hinst).mpr installed) (pending _ owed_finalized hpending)
  | finalized state artifact himage candidate installed =>
    exact .finalized state artifact (image _ himage) (hcand.trans candidate)
      ((attested_installed_congr hinst).mpr installed)
  | givenUp state notInstalled candidate images =>
    refine .givenUp state (absent notInstalled)
      (candidate.imp hcand.trans (pending _ owed_candidate)) fun i hi => ?_
    rw [himg] at hi
    exact pending _ owed_image (images i hi)

/-- **A step of the build** takes it to a stage at which the account balances again. -/
theorem build_step {a : Act} {k : a.Resp → Program Reply}
    (h : AtStage iid p o w (.act a k) tasks) (hc : c.Succeeds)
    (pending : ¬ a.Owed p o → ∀ P, (∀ b, P b → b.Owed p o) → Pending P tasks → Pending P tasks') :
    AtStage iid p o (exec iid a c w).2 (k (exec iid a c w).1) tasks' := by
  obtain ⟨stage, r, hprog, hm, hp, h⟩ := h
  cases stage with
  | ready =>
    cases (show Prog.act a k = Prog.act _ _ from hprog)
    have h : Early iid p o w r .ready := h
    exact ⟨.starting _, r, rfl, hm, hp, h.unbuilt, h.installed, h.candidate, h.images, h.image, h.state⟩
  | starting now =>
    cases (show Prog.act a k = Prog.act _ _ from hprog)
    exact starting_step hm hp h hc
  | building =>
    cases (show Prog.act a k = Prog.act _ _ from hprog)
    exact building_step hm hp h
  | built output =>
    cases (show Prog.act a k = Prog.act _ _ from hprog)
    exact built_step hm hp h
  | discarding output =>
    cases (show Prog.act a k = Prog.act _ _ from hprog)
    exact discarding_step hm hp h hc
  | checking output =>
    cases (show Prog.act a k = Prog.act _ _ from hprog)
    exact checking_step hm hp h hc
  | publishing output =>
    cases (show Prog.act a k = Prog.act _ _ from hprog)
    exact publishing_step hm hp h hc
  | stamping output =>
    cases (show Prog.act a k = Prog.act _ _ from hprog)
    have h : Early iid p o w r (.stamping output) := h
    exact ⟨.storing output _, r, rfl, hm, hp, h.unbuilt, h.installed, h.candidate, h.images, h.image, h.state⟩
  | storing output now =>
    cases (show Prog.act a k = Prog.act _ _ from hprog)
    exact storing_step hm hp h hc
  | failing errorCode buildLogs =>
    cases (show Prog.act a k = Prog.act _ _ from hprog)
    have h : Early iid p o w r (.failing errorCode buildLogs) := h
    exact ⟨.recording errorCode buildLogs _, r, rfl, hm, hp, h.unbuilt, h.installed, h.candidate,
      h.images, h.image, h.state⟩
  | recording errorCode buildLogs now =>
    cases (show Prog.act a k = Prog.act _ _ from hprog)
    exact recording_step hm hp h hc
  | cleaning =>
    cases (show Prog.act a k = Prog.act _ _ from hprog)
    exact ⟨.finished, r, rfl, hm, hp, .congr h rfl rfl rfl (pending fun h => h)⟩
  | finished => cases (show Prog.act a k = Prog.ret _ from hprog)

end

end AudioDown.Supervisor
