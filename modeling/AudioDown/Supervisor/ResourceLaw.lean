/-
# AudioDown.Supervisor.ResourceLaw — a build among concurrent `finalize` and `abort` calls

The steps of `finalize` and `abort` that touch a resource are few (`CallStep`).  Each keeps the account
of the build, under a condition on the moment it is taken (`call_step`).  What a running call still
knows, and still has to do, is carried along with it (`FinalizeForm`, `AbortForm`).  From both follows the
law for every run in which the conditions are met (`resources_accounted`), and a schedule that breaks the
first of them leaves a candidate and an image behind an aborted operation (`abort_leaves_candidate`).
-/
import AudioDown.Supervisor.Resources
import AudioDown.Supervisor.Restart

namespace AudioDown.Supervisor

open Lib

variable {iid : String} {p : PluginId} {o : Uuid}

/-! ## Early and late stages -/

def BuildStage.Over : BuildStage → Prop
  | .cleaning | .finished => True
  | _ => False

section
variable {w w' : World} {r r' : StoredOperation} {tasks tasks' : List SupervisorTask}
  {stage : BuildStage}

theorem holds_cases (h : stage.Holds iid p o w r tasks) : (¬ stage.Over ∧ Early iid p o w r stage) ∨
      (stage.Over ∧ Late iid p o w r tasks) := by
  cases stage <;> first | exact .inl ⟨fun h => h, h⟩ | exact .inr ⟨trivial, h⟩

theorem holds_of_early (hover : ¬ stage.Over) (h : Early iid p o w r stage) :
    stage.Holds iid p o w r tasks := by
  cases stage <;> first | exact h | exact absurd trivial hover

theorem holds_of_late (hover : stage.Over) (h : Late iid p o w r tasks) : stage.Holds iid p o w r tasks := by
  cases stage <;> first | exact h | exact hover.elim

theorem BuildStage.Holds.congr (h : stage.Holds iid p o w r tasks) (hinst : w'.installed p = w.installed p)
    (hcand : w'.candidates o = w.candidates o) (himg : w'.images = w.images)
    (pending : ∀ P, (∀ b, P b → b.Owed p o) → Pending P tasks → Pending P tasks') :
    stage.Holds iid p o w' r tasks' := by
  rcases holds_cases h with ⟨hover, h⟩ | ⟨hover, h⟩
  · exact holds_of_early hover (h.congr hinst hcand himg)
  · exact holds_of_late hover (h.congr hinst hcand himg pending)

/-- An early account only asks of the record that it has no artifact and a state that fits. -/
theorem Early.record (h : Early iid p o w r stage) (unbuilt : r'.operation.artifact = none)
    (givenUp : r'.GivenUp) (dead : ¬ stage.Live) : Early iid p o w r' stage where
  unbuilt := unbuilt
  installed := h.installed
  candidate := h.candidate
  images := h.images
  image hlive := absurd givenUp hlive
  state := .inr ⟨givenUp, dead⟩

theorem Early.dead (h : Early iid p o w r stage) (givenUp : r.GivenUp) :
    ¬ stage.Live := fun live => h.live live givenUp

end

/-! ## What `finalize` and `abort` do to the resources -/

/-- The steps of the calls that matter to the account of `(p, o)`. -/
inductive CallStep (iid : String) (p : PluginId) (o : Uuid) (w : World) : Act → Prop where
  | inert {a : Act} (h : a.Inert) : CallStep iid p o w a
  | abort (errorCode : Option String) (now : Timestamp) :
      CallStep iid p o w (.setState p o .aborted errorCode now)
  | removeCandidate (doomed : w.Doomed o) : CallStep iid p o w (.removeDirectory (.candidate o))
  | removeImage (i : String) (doomed : w.Doomed o) : CallStep iid p o w (.removeImage i)
  | rename : CallStep iid p o w (.renameCandidate p o)
  | finalize (now : Timestamp) (placed : Disciplined iid (.setState p o .finalized none now) w) :
      CallStep iid p o w (.setState p o .finalized none now)

theorem CallStep.disciplined {w : World} {a : Act} (h : CallStep iid p o w a) : Disciplined iid a w := by
  cases h with
  | inert h => exact disciplined_quiet h.quiet w
  | removeCandidate doomed => exact doomed
  | finalize now placed => exact placed
  | _ => trivial

section
variable {w : World} {r : StoredOperation} {tasks tasks' : List SupervisorTask}
  {stage : BuildStage} {a : Act}

def Accounted (iid : String) (p : PluginId) (o : Uuid) (stage : BuildStage) (w : World)
    (tasks : List SupervisorTask) : Prop :=
  ∃ r, w.inMemory o = some r ∧ r.operation.pluginId = p ∧ stage.Holds iid p o w r tasks

/-- What a task that takes step `a` leaves pending of what was. -/
def LeavesPending (p : PluginId) (o : Uuid) (a : Act) (tasks tasks' : List SupervisorTask) : Prop :=
  ∀ P, (∀ b, P b → b.Owed p o) → Pending P tasks → P a ∨ Pending P tasks'

theorem LeavesPending.of_not_owed (h : LeavesPending p o a tasks tasks') (hne : ¬ a.Owed p o) :
    ∀ P, (∀ b, P b → b.Owed p o) → Pending P tasks → Pending P tasks' := fun P hP hpending =>
  (h P hP hpending).resolve_left fun ha => hne (hP a ha)

/-- `set_state(Aborted)` is refused on a `finalized` or `failed` record and stored on any other. -/
theorem exec_abort_cases (iid : String) (errorCode : Option String)
    (now : Timestamp) (hm : w.inMemory o = some r) (hp : r.operation.pluginId = p) :
    ((r.operation.state = .finalized ∨ r.operation.state = .failed) ∧
      exec iid (.setState p o .aborted errorCode now) .done w = (.error .invalidTransition, w)) ∨
    (r.operation.state ≠ .finalized ∧ r.operation.state ≠ .failed ∧
      exec iid (.setState p o .aborted errorCode now) .done w =
        (.ok (r.withState .aborted errorCode now).operation,
          w.saved o (r.withState .aborted errorCode now))) := by
  by_cases hs : r.operation.state = .finalized ∨ r.operation.state = .failed
  · refine .inl ⟨hs, exec_setState_error hm hp ?_ ?_⟩ <;> rcases hs with hs | hs <;> simp [hs]
  · rw [not_or] at hs
    refine .inr ⟨hs.1, hs.2, exec_setState_ok hm hp fun hterminal => ?_⟩
    cases hstate : r.operation.state <;> simp_all

theorem not_owed_of_inert (h : a.Inert) : ¬ a.Owed p o := by
  cases a <;> first | exact h.elim | exact fun h => h

theorem accounted_inert {c : Outcome} (h : a.Inert) (account : Accounted iid p o stage w tasks)
    (leaves : LeavesPending p o a tasks tasks') : Accounted iid p o stage (exec iid a c w).2 tasks' := by
  obtain ⟨r, hm, hp, holds⟩ := account
  obtain ⟨hstate, -, hcand, hinst, himg⟩ := exec_inert iid h c w
  refine ⟨r, by rw [World.inMemory, hstate]; exact hm, hp, ?_⟩
  exact holds.congr (congrFun hinst p) (congrFun hcand o) himg (leaves.of_not_owed (not_owed_of_inert h))

/-- Recording `aborted`: not while the build is past its last look at the state, not over a directory
that a `finalize` has put in place, and on a built operation only by a call that goes on to remove
what the operation owns. -/
theorem accounted_abort {errorCode : Option String} {now : Timestamp} (hm : w.inMemory o = some r)
    (hp : r.operation.pluginId = p) (holds : stage.Holds iid p o w r tasks)
    (dead : ¬ stage.Live) (unplaced : r.operation.state = .built → w.NotInstalled p o)
    (removes : ∀ artifact, r.operation.state = .built → r.operation.artifact = some artifact →
      Pending (fun a => a = .removeDirectory (.candidate o)) tasks' ∧
      Pending (fun a => a = .removeImage artifact.imageId) tasks')
    (leaves : LeavesPending p o (.setState p o .aborted errorCode now) tasks tasks') :
    Accounted iid p o stage (exec iid (.setState p o .aborted errorCode now) .done w).2 tasks' := by
  have pending := leaves.of_not_owed (fun h => h)
  rcases exec_abort_cases iid errorCode now hm hp with
    ⟨-, hexec⟩ | ⟨hnf, -, hexec⟩
  · rw [hexec]
    exact ⟨r, hm, hp, holds.congr rfl rfl rfl pending⟩
  rw [hexec]
  refine ⟨_, saved_inMemory .., hp, ?_⟩
  have aborted : (r.withState .aborted errorCode now).GivenUp := .inl rfl
  rcases holds_cases holds with ⟨hover, h⟩ | ⟨hover, h⟩
  · have h' : Early iid p o w (r.withState .aborted errorCode now) stage :=
      h.record h.unbuilt aborted dead
    exact holds_of_early hover (h'.congr rfl rfl rfl)
  · refine holds_of_late hover ?_
    cases h with
    | built state artifact image candidate notInstalled =>
      obtain ⟨removesCandidate, removesImage⟩ := removes _ state artifact
      refine .givenUp aborted notInstalled (.inr removesCandidate) fun i hi => ?_
      rw [(image i).mp hi]
      exact removesImage
    | renamed state artifact image candidate installed _ =>
      exact absurd installed (not_attested_of_notInstalled (unplaced state))
    | finalized state => exact absurd state hnf
    | givenUp state notInstalled candidate images =>
      exact .givenUp aborted notInstalled (candidate.imp id (pending _ owed_candidate))
        fun i hi => pending _ owed_image (images i hi)

theorem World.Doomed.givenUp (h : w.Doomed o) (hm : w.inMemory o = some r) : r.GivenUp := h r hm

/-- On an operation that has been given up, only a late account of that kind is possible. -/
theorem Late.of_givenUp (h : Late iid p o w r tasks) (givenUp : r.GivenUp) : w.NotInstalled p o ∧
      (w.candidates o = none ∨ Pending (fun a => a = .removeDirectory (.candidate o)) tasks) ∧
      ∀ i, w.images i = some o → Pending (fun a => a = .removeImage i) tasks := by
  cases h with
  | givenUp _ notInstalled candidate images => exact ⟨notInstalled, candidate, images⟩
  | built state | renamed state | finalized state =>
    rcases givenUp with h | h <;> rw [state] at h <;> cases h

theorem accounted_removeCandidate (doomed : w.Doomed o) (account : Accounted iid p o stage w tasks)
    (leaves : LeavesPending p o (.removeDirectory (.candidate o)) tasks tasks') : Accounted iid p o stage
      (exec iid (.removeDirectory (.candidate o)) .done w).2 tasks' := by
  obtain ⟨r, hm, hp, holds⟩ := account
  have givenUp := doomed.givenUp hm
  have removed : (exec iid (.removeDirectory (.candidate o)) .done w).2.candidates o =
      none := Function.update_self ..
  refine ⟨r, hm, hp, ?_⟩
  rcases holds_cases holds with ⟨hover, h⟩ | ⟨hover, h⟩
  · refine holds_of_early hover ⟨h.unbuilt, h.installed, ?_, h.images, h.image, h.state⟩
    rw [removed, BuildStage.directory_eq_none (h.dead givenUp)]
  · obtain ⟨notInstalled, -, images⟩ := h.of_givenUp givenUp
    refine holds_of_late hover (.givenUp givenUp notInstalled (.inl removed) fun i hi => ?_)
    exact (leaves _ owed_image (images i hi)).resolve_left (by simp)

theorem accounted_removeImage {i : String} (doomed : w.Doomed o) (account : Accounted iid p o stage w tasks)
    (leaves : LeavesPending p o (.removeImage i) tasks tasks') :
    Accounted iid p o stage (exec iid (.removeImage i) .done w).2 tasks' := by
  obtain ⟨r, hm, hp, holds⟩ := account
  have givenUp := doomed.givenUp hm
  -- what is left is what was there under another name
  have kept : ∀ j, (exec iid (.removeImage i) .done w).2.images j = some o → j ≠ i ∧ w.images j = some o := by
    intro j hj
    change Function.update w.images i none j = some o at hj
    by_cases hji : j = i
    · subst hji
      rw [Function.update_self] at hj
      cases hj
    · rw [Function.update_of_ne hji] at hj
      exact ⟨hji, hj⟩
  refine ⟨r, hm, hp, ?_⟩
  rcases holds_cases holds with ⟨hover, h⟩ | ⟨hover, h⟩
  · exact holds_of_early hover ⟨h.unbuilt, h.installed, h.candidate,
      fun j hj => h.images j (kept j hj).2, fun hlive => absurd givenUp hlive, h.state⟩
  · obtain ⟨notInstalled, candidate, images⟩ := h.of_givenUp givenUp
    refine holds_of_late hover (.givenUp givenUp notInstalled (candidate.imp id fun hcand => ?_)
      fun j hj => ?_)
    · exact (leaves _ owed_candidate hcand).resolve_left (by simp)
    · obtain ⟨hji, himage⟩ := kept j hj
      exact (leaves _ owed_image (images j himage)).resolve_left (by simp [Ne.symm hji])

theorem exec_rename_cases (iid : String) (p : PluginId) (o : Uuid) (w : World) :
    (exec iid (.renameCandidate p o) .done w).2 = w ∨ ∃ content, w.candidates o = some content ∧
        exec iid (.renameCandidate p o) .done w =
          (.ok (), (w.setDirectory (.candidate o) none).setDirectory (.installed p) (some content)) := by
  show (w.renameCandidate p o .done).2 = w ∨ ∃ content, _ ∧ w.renameCandidate p o .done = _
  rcases renameCandidate_cases p o .done w with ⟨h, -⟩ | ⟨content, hcontent, hmoved, -⟩
  · exact .inl h
  · cases hm : (w.setDirectory (.candidate o) none).moveInto (.installed p) content with
    | none => exact .inl (by simp [World.renameCandidate, hcontent, hm])
    | some moved =>
      refine .inr ⟨content, hcontent, Prod.ext ?_ hmoved⟩
      simp [World.renameCandidate, hcontent, hm]

theorem accounted_rename (hm : w.inMemory o = some r) (hp : r.operation.pluginId = p)
    (holds : stage.Holds iid p o w r tasks) (built : r.operation.state = .built)
    (records : (exec iid (.renameCandidate p o) .done w).1 = .ok () →
      Pending (fun a => ∃ now, a = .setState p o .finalized none now) tasks')
    (leaves : LeavesPending p o (.renameCandidate p o) tasks tasks') :
    Accounted iid p o stage (exec iid (.renameCandidate p o) .done w).2 tasks' := by
  have pending := leaves.of_not_owed (fun h => h)
  rcases exec_rename_cases iid p o w with hsame | ⟨content, hcontent, hexec⟩
  · rw [hsame]
    exact ⟨r, hm, hp, holds.congr rfl rfl rfl pending⟩
  rw [hexec] at records ⊢
  refine ⟨r, hm, hp, ?_⟩
  rcases holds_cases holds with ⟨hover, h⟩ | ⟨hover, h⟩
  · -- an early record is not built
    rcases h.state with hs | ⟨hs, -⟩
    · cases stage <;> first | exact hs.elim | exact absurd (hs.symm.trans built) (by decide)
    · rcases hs with hs | hs <;> rw [built] at hs <;> cases hs
  · refine holds_of_late hover ?_
    cases h with
    | built state artifact image candidate notInstalled =>
      obtain ⟨content', found, hcontent', hfound, hattests⟩ := candidate
      cases hcontent.symm.trans hcontent'
      refine .renamed state artifact image (Function.update_self ..) ?_ (records rfl)
      exact ⟨content, found, Function.update_self .., hfound, hattests⟩
    | renamed _ _ _ candidate => rw [candidate] at hcontent; cases hcontent
    | finalized state => rw [built] at state; cases state
    | givenUp state => rcases state with hs | hs <;> rw [built] at hs <;> cases hs

theorem accounted_finalize {now : Timestamp} (placed : Disciplined iid (.setState p o .finalized none now) w)
    (account : Accounted iid p o stage w tasks)
    (leaves : LeavesPending p o (.setState p o .finalized none now) tasks tasks') :
    Accounted iid p o stage (exec iid (.setState p o .finalized none now) .done w).2 tasks' := by
  obtain ⟨r, hm, hp, holds⟩ := account
  by_cases givenUp : r.GivenUp
  · -- refused; whatever was pending is not what this step was to do
    have hne : r.operation.state ≠ .finalized := by rcases givenUp with hs | hs <;> simp [hs]
    rw [exec_setState_error hm hp (GivenUp.terminal givenUp) hne]
    refine ⟨r, hm, hp, ?_⟩
    rcases holds_cases holds with ⟨hover, h⟩ | ⟨hover, h⟩
    · exact holds_of_early hover h
    · obtain ⟨notInstalled, candidate, images⟩ := h.of_givenUp givenUp
      refine holds_of_late hover (.givenUp givenUp notInstalled (candidate.imp id fun hcand => ?_)
        fun i hi => ?_)
      · exact (leaves _ owed_candidate hcand).resolve_left (by simp)
      · exact (leaves _ owed_image (images i hi)).resolve_left (by simp)
  · obtain ⟨artifact, hartifact, hattested⟩ :=
      placed r hm hp (fun hs => givenUp (.inl hs)) (fun hs => givenUp (.inr hs))
    rcases holds_cases holds with ⟨hover, h⟩ | ⟨hover, h⟩
    · rw [h.unbuilt] at hartifact
      cases hartifact
    · have recorded : ∀ {artifact : PluginInstallArtifact}, (r.operation.state.isTerminal = true →
          r.operation.state = .finalized) → r.operation.artifact = some artifact → w.OnlyImage o
          artifact.imageId → w.candidates o = none → w.Attested iid (.installed p) p o artifact → Accounted
          iid p o stage (exec iid (.setState p o .finalized none now) .done w).2 tasks' := by
        intro artifact allowed hartifact image candidate installed
        rw [exec_setState_ok hm hp allowed]
        exact ⟨_, saved_inMemory .., hp, holds_of_late hover (.finalized rfl hartifact image candidate installed)⟩
      cases h with
      | built _ _ _ _ notInstalled =>
        exact absurd hattested (not_attested_of_notInstalled notInstalled)
      | renamed state artifact image candidate installed _ =>
        exact recorded (by simp [state]) artifact image candidate installed
      | finalized state artifact image candidate installed =>
        exact recorded (fun _ => state) artifact image candidate installed
      | givenUp state => exact absurd state givenUp

end

/-! ## What a running `finalize` carries -/

/-- The answer `Ok` to a rename. -/
def Act.Moved : (a : Act) → a.Resp → Prop
  | .renameCandidate .., r => r = .ok ()
  | _, _ => True

/-- The steps of `finalize`. -/
def FinalizeAct (p : PluginId) (o : Uuid) : Act → Prop
  | .renameCandidate q u => q = p ∧ u = o
  | .setState q u state errorCode _ => q = p ∧ u = o ∧ state = .finalized ∧ errorCode = none
  | a => a.Inert

/-- The program records `finalized` whatever happens, unless something fails. -/
def Finalizes (p : PluginId) (o : Uuid) {α : Type} : Program α → Prop :=
  Prog.Reaches Act.Fine fun a => ∃ now, a = .setState p o .finalized none now

/-- What is left of a `finalize`: its assertions, its steps, and that a rename is followed by the
state change. -/
structure FinalizeForm (iid : String) (p : PluginId) (o : Uuid) (w : World) (x : Program Reply) : Prop where
  outline : Prog.Along (exec iid) (fun _ => True) (FinalizeRely iid p o)
    (Disciplined iid) (fun _ _ => True) x w
  uses : Prog.Uses (FinalizeAct p o) x
  records : Prog.Follows (· = .renameCandidate p o) Act.Moved (Finalizes p o) x

theorem finalizeAct_of_inert {a : Act} (h : a.Inert) : FinalizeAct p o a := by
  cases a <;> first | exact h | exact h.elim

variable {P : Act → Prop}

theorem follows_bind {α β : Type} {good : (a : Act) → a.Resp → Prop}
    {N : Program (Except InstallOperationError α) → Prop}
    {N' : Program (Except InstallOperationError β) → Prop} {x : Call α} {f : α → Call β}
    (hx : Prog.Follows P good N x) (continued : ∀ y : Call α, N y → N' (y >>= f : Call β))
    (hf : ∀ v, Prog.Follows P good N' (f v)) : Prog.Follows P good N' (x >>= f : Call β) := by
  refine .bind hx continued ?_
  intro r
  cases r with
  | ok v => exact hf v
  | error e => trivial

theorem follows_of_inert {α : Type} {N : Program (Except InstallOperationError α) → Prop}
    {x : Call α} (hx : Prog.Uses Act.Inert x) : Prog.Follows (· = .renameCandidate p o) Act.Moved N x :=
  .of_uses (hx.mono fun a ha => by rintro rfl; exact ha)

theorem follows_bind_inert {α β : Type} {N' : Program (Except InstallOperationError β) → Prop}
    {x : Call α} {f : α → Call β} (hx : Prog.Uses Act.Inert x)
    (hf : ∀ v, Prog.Follows (· = .renameCandidate p o) Act.Moved N' (f v)) :
    Prog.Follows (· = .renameCandidate p o) Act.Moved N' (x >>= f : Call β) :=
  follows_bind (N := fun _ => False) (follows_of_inert hx) (fun _ h => h.elim) hf

/-- After the rename only `sync_directory` is left of placing the directory. -/
theorem placeInstalled_follows (expected : InstallAttestation) :
    Prog.Follows (· = .renameCandidate p o) Act.Moved (· = Call.of (step .syncInstalledParent))
      (placeInstalled p o expected) := by
  refine follows_bind_inert (uses_ask trivial) fun present => ?_
  cases present with
  | true =>
    refine follows_of_inert (uses_bind (verifyAttestation_inert _ _) fun _ =>
      uses_bind (uses_ask trivial) fun candidateExists => ?_)
    cases candidateExists <;> trivial
  | false =>
    refine follows_bind_inert (verifyAttestation_inert _ _) fun _ =>
      follows_bind_inert (uses_step trivial) fun _ => ⟨?_, ?_⟩
    · rintro - r rfl
      rfl
    · intro r
      cases r with
      | error e => trivial
      | ok _ => exact follows_of_inert (uses_step trivial)

theorem finalize_follows (now : Timestamp) : Prog.Follows (· = .renameCandidate p o) Act.Moved (Finalizes p o)
      (finalize iid p o now) := by
  refine follows_bind_inert (uses_step trivial) fun operation => ?_
  cases operation.artifact with
  | none => trivial
  | some artifact =>
    refine follows_bind_inert (uses_ask trivial) fun installedExists =>
      follows_bind_inert (attestationFromDirectory_inert ..) fun expected => ?_
    have trailing : ∀ result : PluginInstallOperation, Prog.Uses Act.Inert
        (do removeMirrors o; return result : Call PluginInstallOperation) :=
      fun result => uses_bind (removeMirrors_inert o) fun _ => trivial
    cases operation.state with
    | finalized =>
      exact follows_of_inert (uses_bind (verifyAttestation_inert _ _) fun _ => trailing _)
    | built =>
      refine follows_bind (placeInstalled_follows expected) ?_ fun _ => ⟨by simp, ?_⟩
      · rintro _ rfl
        refine .inr fun r hr => ?_
        rw [show r = .ok () from hr]
        exact .inl ⟨now, rfl⟩
      · intro r
        cases r with
        | error e => trivial
        | ok result => exact follows_of_inert (trailing result)
    | _ => trivial

theorem finalizeForm_start (now : Timestamp) (w : World) : FinalizeForm iid p o w
      ((Tag.request (.finalize p o now)).program iid) where
  outline := Prog.Along.bind (finalize_outline p o now w) fun _ _ _ _ _ => trivial
  uses := Prog.Uses.bind (finalize_uses iid (fun _ => finalizeAct_of_inert) ⟨rfl, rfl⟩ ⟨rfl, rfl, rfl, rfl⟩)
    fun _ => trivial
  records := Prog.Follows.bind (finalize_follows now) (fun _ h => .bind _ h)
    fun _ => trivial

/-! ## What a running `abort` carries -/

/-- The steps of `abort`, and the state in which it takes them. -/
def AbortAct (p : PluginId) (o : Uuid) : Act → World → Prop
  | .setState q u state _ _, _ => q = p ∧ u = o ∧ state = .aborted
  | .removeDirectory directory, w => directory = .candidate o ∧ w.Doomed o
  | .removeImage _, w => w.Doomed o
  | a, _ => a.Inert

theorem abortAct_allowsAbort (p : PluginId) (o : Uuid) : AllowsAbort p o (AbortAct p o) where
  inert a _ h := by cases a <;> first | exact h | exact h.elim
  change _ _ _ := ⟨rfl, rfl, rfl⟩
  candidate _ h := ⟨rfl, h⟩
  image _ _ h := h

/-- What follows the state change of an `abort` whose snapshot was `v`. -/
def releasingProgram (iid : String) (p : PluginId) (o : Uuid)
    (v aborted : PluginInstallOperation) : Program Reply :=
  Prog.bind (do releaseResources iid p o v; return aborted : Call PluginInstallOperation)
    fun r => .ret (.operation r)

/-- An `abort` between its snapshot `v` and its state change. -/
def abortingProgram (iid : String) (p : PluginId) (o : Uuid) (now : Timestamp)
    (v : PluginInstallOperation) : Program Reply :=
  .act (.setState p o .aborted v.errorCode now) fun
    | .ok aborted => releasingProgram iid p o v aborted
    | .error error => .ret (.operation (.error error))

def Act.KeepsState : Act → Prop
  | .setState .. => False
  | _ => True

/-- How far an `abort` has got.  Between its snapshot and its state change, the snapshot knows the
artifact of a built operation. -/
inductive AbortForm (iid : String) (p : PluginId) (o : Uuid) (w : World)
    (r : StoredOperation) (x : Program Reply) : Prop where
  | start (now : Timestamp) (eq : x = (Tag.request (.abort p o now)).program iid)
  | aborting (now : Timestamp) (v : PluginInstallOperation) (live : v.state ≠ .finalized)
      (artifact : r.operation.state = .built → v.artifact = r.operation.artifact)
      (eq : x = abortingProgram iid p o now v)
  | settled (h : w.Settled o)
  | releasing (h : Prog.Uses Act.KeepsState x)

theorem releasingProgram_keepsState (v aborted : PluginInstallOperation) :
    Prog.Uses Act.KeepsState (releasingProgram iid p o v aborted) := by
  refine .bind (uses_bind ?_ fun _ => trivial) fun _ => trivial
  refine releaseResources_uses iid v (fun a h => ?_) trivial trivial
  cases a <;> trivial

theorem releasingProgram_reaches_candidate (v aborted : PluginInstallOperation) :
    (releasingProgram iid p o v aborted).Reaches Act.Fine
      fun a => a = .removeDirectory (.candidate o) := .inl rfl

theorem removeMirrors_reaches {α : Type} {f : Unit → Call α}
    (h : Prog.Reaches Act.Fine P (f ())) : Prog.Reaches Act.Fine P (removeMirrors o >>= f : Call α) := by
  have files : Prog.Reaches Act.Fine P ((do
      removeFile (.preparedRequest o)
      removeFile (.mirroredGrant o) : Call Unit) >>= f : Call α) := by
    refine .inr fun r hr => ?_
    rw [show r = .ok () from hr]
    refine .inr fun r hr => ?_
    rw [show r = .ok () from hr]
    exact h
  refine .inr fun g _ => ?_
  cases g with
  | none => exact files
  | some g =>
    refine .inr fun r hr => ?_
    rw [show r = .ok () from hr]
    exact files

theorem releasingProgram_reaches_image {v aborted : PluginInstallOperation}
    {artifact : PluginInstallArtifact} (live : v.state ≠ .finalized)
    (hartifact : v.artifact = some artifact) : (releasingProgram iid p o v aborted).Reaches Act.Fine
      fun a => a = .removeImage artifact.imageId := by
  refine .bind _ ?_
  have release : Prog.Reaches Act.Fine (fun a => a = .removeImage artifact.imageId)
      (releaseResources iid p o v) := by
    refine .inr fun r hr => ?_
    rw [show r = .ok () from hr]
    rw [if_neg live]
    refine removeMirrors_reaches ?_
    simp only [hartifact]
    exact .inl rfl
  exact .bind _ release

/-- The part of `abort` after its snapshot `v`. -/
def abortAfter (iid : String) (p : PluginId) (o : Uuid) (now : Timestamp)
    (v : PluginInstallOperation) : Call PluginInstallOperation := do
  if v.state = .finalized then
    verifyInstalled iid p o v.artifact
  let aborted ←
    if v.state = .aborted then pure v
    else Call.of (step (.setState p o .aborted v.errorCode now))
  releaseResources iid p o v
  return aborted

section
variable {w : World} {r r' : StoredOperation} {x : Program Reply} {a : Act}
  {k : a.Resp → Program Reply} {c : Outcome}

theorem abortForm_snapshot (now : Timestamp) (hm : w.inMemory o = some r) : AbortForm iid p o w r
      (Prog.bind (abortAfter iid p o now r.operation) fun r => .ret (.operation r)) := by
  by_cases hfin : r.operation.state = .finalized
  · refine .settled fun r' hr' => .inl ?_
    rw [hm] at hr'
    cases hr'
    exact hfin
  · unfold abortAfter
    rw [if_neg hfin]
    by_cases hab : r.operation.state = .aborted
    · rw [if_pos hab]
      exact .releasing (releasingProgram_keepsState r.operation r.operation)
    · rw [if_neg hab]
      refine .aborting now r.operation hfin (fun _ => rfl) (congrArg (Prog.act _) (funext fun result => ?_))
      cases result <;> rfl

theorem AbortForm.own (h : AbortForm iid p o w r (.act a k))
    (disciplined : Disciplined iid a w) (fresh : ¬ a.Creates o w) (hm : w.inMemory o = some r)
    (hp : r.operation.pluginId = p) (hm' : (exec iid a c w).2.inMemory o = some r') :
    AbortForm iid p o (exec iid a c w).2 r' (k (exec iid a c w).1) := by
  cases h with
  | start now eq =>
    cases (show Prog.act a k = Prog.act (.status p o) _ from eq)
    have hstatus : (exec iid (.status p o) c w).1 = .ok r.operation :=
      congrArg Prod.fst (@status_alone_ok iid w p o r hm hp)
    cases hm.symm.trans hm'
    rw [hstatus]
    exact abortForm_snapshot now hm
  | aborting now v live artifact eq =>
    cases eq
    refine .releasing ?_
    cases (exec iid (.setState p o .aborted v.errorCode now) c w).1 with
    | ok aborted => exact releasingProgram_keepsState v aborted
    | error error => trivial
  | settled h => exact .settled (exec_keeps_settled disciplined.not_load fresh h)
  | releasing h => exact .releasing (h.2 _)

/-- A running `finalize` or `abort` of `(p, o)`. -/
inductive Caller (iid : String) (p : PluginId) (o : Uuid) (w : World)
    (r : StoredOperation) (x : Program Reply) : Prop where
  | finalize (h : FinalizeForm iid p o w x)
  | abort (outline : Prog.Along (exec iid) (fun _ => True) (AbortRely o) (AbortAct p o)
      (fun _ _ => True) x w) (h : AbortForm iid p o w r x)

theorem caller_returned (reply : Reply) : Caller iid p o w r (.ret reply) :=
  .abort (fun _ _ => trivial) (.releasing trivial)

theorem caller_finalize (now : Timestamp) : Caller iid p o w r ((Tag.request (.finalize p o now)).program iid) :=
  .finalize (finalizeForm_start now w)

theorem caller_abort (now : Timestamp) : Caller iid p o w r ((Tag.request (.abort p o now)).program iid) :=
  .abort (.bind (abort_outline_of (abortAct_allowsAbort p o) now w)
    fun _ _ _ _ _ => trivial) (.start now rfl)

theorem Caller.callStep (h : Caller iid p o w r (.act a k)) : CallStep iid p o w a := by
  cases h with
  | finalize h =>
    have uses : FinalizeAct p o a := h.uses.1
    have asserted := h.outline.head
    cases a with
    | renameCandidate q u =>
      obtain ⟨rfl, rfl⟩ := uses
      exact .rename
    | setState q u state errorCode now =>
      obtain ⟨rfl, rfl, rfl, rfl⟩ := uses
      exact .finalize now asserted
    | _ => exact .inert uses
  | abort outline h =>
    have asserted : AbortAct p o a w := outline.head
    cases a with
    | setState q u state errorCode now =>
      obtain ⟨rfl, rfl, rfl⟩ := asserted
      exact .abort errorCode now
    | removeDirectory directory =>
      obtain ⟨rfl, doomed⟩ := asserted
      exact .removeCandidate doomed
    | removeImage i => exact .removeImage i asserted
    | _ => exact .inert asserted

theorem CallStep.fresh (h : CallStep iid p o w a) : ¬ a.Creates o w := by
  rintro ⟨⟨q, now, rfl⟩, -⟩
  cases h with
  | inert h => exact h

theorem Caller.own (h : Caller iid p o w r (.act a k)) (hm : w.inMemory o = some r)
    (hp : r.operation.pluginId = p) (hm' : (exec iid a c w).2.inMemory o = some r') :
    Caller iid p o (exec iid a c w).2 r' (k (exec iid a c w).1) := by
  have hstep := h.callStep
  cases h with
  | finalize h =>
    exact .finalize ⟨h.outline.step trivial, h.uses.2 _, h.records.2 _⟩
  | abort outline h =>
    exact .abort (outline.step trivial) (h.own hstep.disciplined hstep.fresh hm hp hm')

/-- A caller after a step of another task, unless that step stores an artifact while the caller is
between its snapshot and its state change. -/
theorem Caller.other (h : Caller iid p o w r x) (disciplined : Disciplined iid a w) (fresh : ¬ a.Creates o w)
    (kept : (r'.operation.state = .built → r.operation.state = .built ∧ r'.operation.artifact =
      r.operation.artifact) ∨ ∀ errorCode now, x.head ≠ some (.setState p o .aborted errorCode now)) :
    Caller iid p o (exec iid a c w).2 r' x := by
  cases h with
  | finalize h =>
    exact .finalize ⟨h.outline.rely (disciplined.finalizeRely fresh), h.uses, h.records⟩
  | abort outline h =>
    refine .abort (outline.rely (disciplined.abortRely fresh)) ?_
    cases h with
    | start now eq => exact .start now eq
    | aborting now v live artifact eq =>
      refine .aborting now v live (fun hs => ?_) eq
      rcases kept with kept | absent
      · obtain ⟨hbuilt, hartifact⟩ := kept hs
        exact (artifact hbuilt).trans hartifact.symm
      · exact absurd (congrArg Prog.head eq) (absent _ _)
    | settled h => exact .settled (exec_keeps_settled disciplined.not_load fresh h)
    | releasing h => exact .releasing h

end

/-! ## The system -/

section
variable {w : World} {r r' : StoredOperation} {a : Act} {k : a.Resp → Program Reply} {c : Outcome}
  {tasks : List SupervisorTask} {stage : BuildStage} {i : Nat} {tag : Tag}

theorem exec_fine (hc : c.Succeeds) : a.Fine (exec iid a c w).1 := by
  cases a with
  | removeDirectory | removeFile | syncInstalledParent | removeImage =>
    cases c <;> first | rfl | exact hc.elim
  | _ => trivial

theorem leavesPending_of_step {answer : a.Resp} {started : List SupervisorTask}
    (task : tasks[i]? = some ⟨tag, .act a k⟩) (fine : a.Fine answer) :
    LeavesPending p o a tasks (tasks.set i ⟨tag, k answer⟩ ++ started) := by
  rintro P - ⟨t, ht, reaches⟩
  obtain ⟨j, hj⟩ := List.mem_iff_getElem?.mp ht
  have hlt : i < tasks.length := (List.getElem?_eq_some_iff.mp task).1
  by_cases hji : j = i
  · subst hji
    cases task.symm.trans hj
    refine reaches.imp id fun reaches => ⟨⟨tag, k answer⟩, ?_, reaches answer fine⟩
    exact List.mem_append_left _ (List.mem_set hlt _)
  · refine .inr ⟨t, List.mem_append_left _ ?_, reaches⟩
    refine List.mem_iff_getElem?.mpr ⟨j, ?_⟩
    rw [List.getElem?_set_ne (Ne.symm hji)]
    exact hj

theorem pending_of_moved {x : Program Reply} {started : List SupervisorTask} {t : SupervisorTask}
    (task : tasks[i]? = some t) (h : x.Reaches Act.Fine P) : Pending P (tasks.set i ⟨tag, x⟩ ++ started) :=
  ⟨⟨tag, x⟩, List.mem_append_left _ (List.mem_set (List.getElem?_eq_some_iff.mp task).1 _), h⟩

/-- An artifact of a built record is as old as the record's state, except in `set_built`. -/
theorem record_kept (hload : a ≠ .loadState) (fresh : ¬ a.Creates o w)
    (hstate : ∀ q u errorCode now, a ≠ .setState q u .built errorCode now)
    (hbuilt : ∀ q u artifact logs now, a ≠ .setBuilt q u artifact logs now) (hm : w.inMemory o = some r)
    (hm' : (exec iid a c w).2.inMemory o = some r') (built : r'.operation.state = .built) :
    r.operation.state = .built ∧ r'.operation.artifact = r.operation.artifact := by
  rcases exec_record_cases hload hm' with hsame | ⟨hcreates, -⟩ | ⟨q, hq, hchange⟩
  · cases hm.symm.trans hsame
    exact ⟨built, rfl⟩
  · exact absurd hcreates fresh
  · cases hm.symm.trans hq
    cases hchange with
    | setState =>
      subst built
      exact absurd rfl (hstate _ _ _ _)
    | setBuilt => exact absurd rfl (hbuilt _ _ _ _ _)
    | setFailed => cases built
    | acknowledge => exact ⟨built, rfl⟩

theorem CallStep.keeps_built (h : CallStep iid p o w a) (hm : w.inMemory o = some r)
    (hm' : (exec iid a c w).2.inMemory o = some r') (built : r'.operation.state = .built) :
    r.operation.state = .built ∧ r'.operation.artifact = r.operation.artifact := by
  refine record_kept h.disciplined.not_load h.fresh ?_ ?_ hm hm' built
  · rintro q u errorCode now rfl
    cases h with
    | inert h => exact h
  · rintro q u artifact logs now rfl
    cases h with
    | inert h => exact h

def BuildAct (o : Uuid) : Act → Prop
  | .setState _ _ state _ _ => state = .building
  | .setBuilt _ u .. => u = o
  | .setFailed .. | .publishCandidate .. => True
  | a => a.Quiet

theorem buildAct_of_program (h : Prog.act a k = stage.program iid p o) : BuildAct o a := by
  cases stage with
  | finished => cases (show Prog.act a k = Prog.ret _ from h)
  | _ =>
    cases (show Prog.act a k = Prog.act _ _ from h)
    trivial

theorem BuildAct.fresh (h : BuildAct o a) : ¬ a.Creates o w := by
  rintro ⟨⟨q, now, rfl⟩, -⟩
  exact h

theorem BuildAct.forked (h : BuildAct o a) (answer : a.Resp) : forked iid a answer = [] := by
  cases a <;> first | rfl | exact h.elim

theorem CallStep.forked (h : CallStep iid p o w a) (answer : a.Resp) : forked iid a answer = [] := by
  cases h with
  | inert h => cases a <;> first | rfl | exact h.elim
  | _ => rfl

theorem build_disciplined (h : AtStage iid p o w (.act a k) tasks) : Disciplined iid a w := by
  obtain ⟨stage, r, hprog, hm, -, holds⟩ := h
  have unbuilt : ¬ stage.Over → w.Unbuilt o := by
    intro hover r' hr'
    cases hm.symm.trans hr'
    rcases holds_cases holds with ⟨-, h⟩ | ⟨h, -⟩
    · exact h.unbuilt
    · exact absurd h hover
  cases stage with
  | publishing output =>
    cases (show Prog.act a k = Prog.act _ _ from hprog)
    exact unbuilt fun h => h
  | storing output now =>
    cases (show Prog.act a k = Prog.act _ _ from hprog)
    exact unbuilt fun h => h
  | finished => cases (show Prog.act a k = Prog.ret _ from hprog)
  | _ =>
    cases (show Prog.act a k = Prog.act _ _ from hprog)
    trivial

end

/-! ## The law -/

/-- What a run with one build and concurrent calls for it consists of. -/
def ConcurrentLabel (p : PluginId) (o : Uuid) : Label → Prop
  | .call (.finalize q u _) => q = p ∧ u = o
  | .call (.abort q u _) => q = p ∧ u = o
  | .advance _ c => c.Succeeds
  | _ => False

/-- The moments at which the steps that matter may be taken: `aborted` is not recorded while the build
is past its last look at the state, nor over a directory already put in place; `built` is not recorded
while an `abort` is between its snapshot and its state change; and only the candidate of a `built`
operation is renamed. -/
def Timely (p : PluginId) (o : Uuid) (s : System) : Act → Prop
  | .setState _ u .aborted _ _ => u = o → ∀ r, s.world.inMemory o = some r →
      (r.operation.state = .building → s.world.candidates o = none ∧ ∀ t ∈ s.tasks, t.tag = .build p o →
          t.prog.head ≠ some (.directoryExists (.candidate o)) ∧
          ∀ found manifest, t.prog.head ≠ some (.publishCandidate o found manifest)) ∧
      (r.operation.state = .built → s.world.NotInstalled p o)
  | .setBuilt _ u _ _ _ => u = o → ∀ t ∈ s.tasks, ∀ errorCode now,
      t.prog.head ≠ some (.setState p o .aborted errorCode now)
  | .renameCandidate _ u => u = o → ∀ r, s.world.inMemory o = some r → r.operation.state = .built
  | _ => True

def ResourceSafe (p : PluginId) (o : Uuid) (s : System) : Label → Prop
  | .advance i _ => ∀ t a, s.tasks[i]? = some t → t.prog.head = some a → Timely p o s a
  | _ => True

/-- The build of a fresh operation is about to run, and no other task is. -/
structure System.Begun (iid : String) (p : PluginId) (o : Uuid) (s : System) : Prop where
  phase : s.phase = .serving
  build : ∃ i, s.tasks[i]? = some ((Tag.build p o).task iid) ∧
    ∀ (j : Nat) (t : SupervisorTask), j ≠ i → s.tasks[j]? = some t → ∃ reply, t.prog = .ret reply
  record : ∃ r, s.world.inMemory o = some r ∧ r.operation.pluginId = p ∧
    r.operation.state = .accepted ∧ r.operation.artifact = none
  candidate : s.world.candidates o = none
  installed : s.world.NotInstalled p o
  images : ∀ i, s.world.images i ≠ some o

def System.Idle (s : System) : Prop := ∀ t ∈ s.tasks, ∃ reply, t.prog = .ret reply

def World.ResourceLaw (iid : String) (p : PluginId) (o : Uuid) (w : World) : Prop :=
  ∃ r, w.inMemory o = some r ∧ (r.operation.state = .aborted ∨ r.operation.state = .failed →
      w.candidates o = none ∧ w.NotInstalled p o ∧ ∀ i, w.images i ≠ some o) ∧
    (r.operation.state = .built → ∃ a, r.operation.artifact = some a ∧
      w.Attested iid (.candidate o) p o a ∧ w.OnlyImage o a.imageId ∧
      w.NotInstalled p o) ∧
    (r.operation.state = .finalized → ∃ a, r.operation.artifact = some a ∧
      w.Attested iid (.installed p) p o a ∧ w.OnlyImage o a.imageId ∧
      w.candidates o = none)

/-- The invariant of such a run: task `i` is the build, at a stage at which the account balances, and
the others are callers. -/
structure Balanced (iid : String) (p : PluginId) (o : Uuid) (i : Nat) (stage : BuildStage)
    (r : StoredOperation) (s : System) : Prop where
  task : s.tasks[i]? = some ⟨.build p o, stage.program iid p o⟩
  record : s.world.inMemory o = some r
  plugin : r.operation.pluginId = p
  holds : stage.Holds iid p o s.world r s.tasks
  callers : ∀ (j : Nat) (t : SupervisorTask), j ≠ i → s.tasks[j]? = some t → Caller iid p o s.world r t.prog

section
variable {i : Nat} {stage : BuildStage} {r : StoredOperation} {s : System}

theorem System.Begun.balanced (h : s.Begun iid p o) : ∃ i r, Balanced iid p o i .ready r s := by
  obtain ⟨i, task, others⟩ := h.build
  obtain ⟨r, record, plugin, state, artifact⟩ := h.record
  refine ⟨i, r, ?_, record, plugin, ?_, ?_⟩
  · rw [task, Tag.task, BuildStage.ready_program]
  · exact ⟨artifact, h.installed, h.candidate, fun j hj => absurd hj (h.images j),
      fun _ output houtput => (by cases houtput), .inl state⟩
  · intro j t hj ht
    obtain ⟨reply, hreply⟩ := others j t hj ht
    rw [hreply]
    exact caller_returned reply

theorem System.Idle.not_pending (h : s.Idle) : ¬ Pending P s.tasks := by
  rintro ⟨t, ht, reaches⟩
  obtain ⟨reply, hreply⟩ := h t ht
  rw [hreply] at reaches
  exact reaches

theorem Balanced.law (h : Balanced iid p o i stage r s) (idle : s.Idle) : s.world.ResourceLaw iid p o := by
  have late : Late iid p o s.world r s.tasks := by
    obtain ⟨reply, hreply⟩ := idle _ (List.mem_of_getElem? h.task)
    have holds := h.holds
    cases stage with
    | finished => exact holds
    | _ => cases (show Prog.act _ _ = Prog.ret reply from hreply)
  refine ⟨r, h.record, ?_⟩
  cases late with
  | built state artifact image candidate notInstalled =>
    simp only [state, reduceCtorEq, or_self, false_implies, true_and, and_true, true_implies]
    exact ⟨_, artifact, candidate, image, notInstalled⟩
  | renamed _ _ _ _ _ pending => exact absurd pending idle.not_pending
  | finalized state artifact image candidate installed =>
    simp only [state, reduceCtorEq, or_self, false_implies, true_and, true_implies]
    exact ⟨_, artifact, installed, image, candidate⟩
  | givenUp state notInstalled candidate images =>
    refine ⟨fun _ => ⟨candidate.resolve_right idle.not_pending, notInstalled, fun i hi => ?_⟩,
      fun hs => ?_, fun hs => ?_⟩
    · exact idle.not_pending (images i hi)
    · rcases state with h | h <;> rw [hs] at h <;> cases h
    · rcases state with h | h <;> rw [hs] at h <;> cases h

variable {a : Act} {c : Outcome} {errorCode : Option String} {j : Nat} {now : Timestamp} {request : Request}
  {tag : Tag} {w : World}

theorem caller_of_concurrent (concurrent : ConcurrentLabel p o (.call request)) :
    Caller iid p o w r ((Tag.request request).program iid) := by
  cases request with
  | finalize q u now =>
    obtain ⟨rfl, rfl⟩ := concurrent
    exact caller_finalize now
  | abort q u now =>
    obtain ⟨rfl, rfl⟩ := concurrent
    exact caller_abort now
  | _ => exact concurrent.elim

theorem Balanced.call (h : Balanced iid p o i stage r s) (concurrent : ConcurrentLabel p o (.call request)) :
    Balanced iid p o i stage r { s with tasks := s.tasks ++ [(Tag.request request).task iid] } where
  task := by rw [List.getElem?_append_left (List.getElem?_eq_some_iff.mp h.task).1]; exact h.task
  record := h.record
  plugin := h.plugin
  holds := h.holds.congr rfl rfl rfl fun P _ ⟨t, ht, reaches⟩ =>
    ⟨t, List.mem_append_left _ ht, reaches⟩
  callers j t hj ht := by
    rw [List.getElem?_append] at ht
    split at ht
    · exact h.callers j t hj ht
    · cases List.mem_singleton.mp (List.mem_of_getElem? ht)
      exact caller_of_concurrent concurrent

variable {k : a.Resp → Program Reply}

/-- A step of the build: the callers keep what they know, since `built` is not recorded while one of
them is about to record `aborted`. -/
theorem Balanced.advance_build (h : Balanced iid p o i stage r s) (hprog : stage.program iid p o = .act a k)
    (hc : c.Succeeds) (timely : Timely p o s a) : ∃ stage' r', Balanced iid p o i stage' r'
      (s.advanced iid i (.build p o) a k c) := by
  have task : s.tasks[i]? = some ⟨.build p o, .act a k⟩ := by rw [h.task, hprog]
  have act := buildAct_of_program hprog.symm
  have atStage : AtStage iid p o s.world (.act a k) s.tasks :=
    ⟨stage, r, hprog.symm, h.record, h.plugin, h.holds⟩
  have disciplined := build_disciplined atStage
  have leaves : LeavesPending p o a s.tasks (s.advanced iid i (.build p o) a k c).tasks :=
    leavesPending_of_step task (exec_fine hc)
  obtain ⟨stage', r', hprog', record', plugin', holds'⟩ :=
    build_step atStage hc leaves.of_not_owed
  refine ⟨stage', r', ?_, record', plugin', holds', ?_⟩
  · show (s.tasks.set i _ ++ _)[i]? = _
    rw [act.forked, List.append_nil, List.getElem?_set_self (List.getElem?_eq_some_iff.mp task).1, hprog']
  · intro j t hj ht
    change (s.tasks.set i _ ++ _)[j]? = some t at ht
    rw [act.forked, List.append_nil, List.getElem?_set_ne (hj.symm)] at ht
    refine (h.callers j t hj ht).other disciplined act.fresh ?_
    by_cases hbuilt : ∃ q u artifact logs now, a = .setBuilt q u artifact logs now
    · obtain ⟨q, u, artifact, logs, now, rfl⟩ := hbuilt
      exact .inr (timely act t (List.mem_of_getElem? ht))
    · left
      refine record_kept disciplined.not_load act.fresh ?_ ?_ h.record record'
      · rintro q u errorCode now rfl
        cases act
      · rintro q u artifact logs now rfl
        exact hbuilt ⟨q, u, artifact, logs, now, rfl⟩

/-- A build past its last look at the state shows it: by what it is about to do, or by its candidate. -/
theorem Balanced.dead (h : Balanced iid p o i stage r s)
    (timely : Timely p o s (.setState p o .aborted errorCode now)) : ¬ stage.Live := by
  intro live
  have early : Early iid p o s.world r stage := by
    rcases holds_cases h.holds with ⟨-, h⟩ | ⟨hover, -⟩
    · exact h
    · cases stage <;> first | exact hover.elim | exact live.elim
  obtain ⟨habsent, heads⟩ := (timely rfl r h.record).1 (early.building live)
  obtain ⟨notChecking, notPublishing⟩ := heads _ (List.mem_of_getElem? h.task) rfl
  cases stage with
  | checking output => exact notChecking rfl
  | publishing output => exact notPublishing _ _ rfl
  | stamping output => cases habsent.symm.trans early.candidate
  | storing output now => cases habsent.symm.trans early.candidate
  | _ => exact live

/-- An `abort` that records its state on a built operation goes on to remove what it owns. -/
theorem caller_removes {k : Except InstallOperationError PluginInstallOperation → Program Reply}
    {artifact : PluginInstallArtifact} (h : Caller iid p o w r (.act (.setState p o .aborted errorCode now)
    k)) (hm : w.inMemory o = some r) (hp : r.operation.pluginId = p) (built : r.operation.state = .built)
    (hartifact : r.operation.artifact = some artifact) :
    let x := k (exec iid (.setState p o .aborted errorCode now) .done w).1
    x.Reaches Act.Fine (fun a => a = .removeDirectory (.candidate o)) ∧
      x.Reaches Act.Fine (fun a => a = .removeImage artifact.imageId) := by
  cases h with
  | finalize h =>
    obtain ⟨-, -, hstate, -⟩ := h.uses.1
    cases hstate
  | abort outline h =>
    cases h with
    | start _ eq =>
      have hhead : some (Act.setState p o .aborted errorCode now) = some (Act.status p o) :=
        congrArg Prog.head eq
      cases hhead
    | aborting now v live snapshot eq =>
      cases eq
      have hexec : exec iid (.setState p o .aborted v.errorCode now) .done w = _ :=
        exec_setState_ok hm hp (by simp [built])
      rw [hexec]
      exact ⟨releasingProgram_reaches_candidate _ _,
        releasingProgram_reaches_image live ((snapshot built).trans hartifact)⟩
    | settled h => rcases h r hm with hs | hs <;> rw [built] at hs <;> cases hs
    | releasing h => exact h.1.elim

theorem Balanced.accounted_call (h : Balanced iid p o i stage r s) (hj : j ≠ i)
    (task : s.tasks[j]? = some ⟨tag, .act a k⟩) (hc : c.Succeeds) (timely : Timely p o s a) :
    Accounted iid p o stage (s.advanced iid j tag a k c).world (s.advanced iid j tag a k c).tasks := by
  have caller := h.callers j _ hj task
  have account : Accounted iid p o stage s.world s.tasks :=
    ⟨r, h.record, h.plugin, h.holds⟩
  have leaves : LeavesPending p o a s.tasks (s.advanced iid j tag a k c).tasks :=
    leavesPending_of_step task (exec_fine hc)
  by_cases hinert : a.Inert
  · exact accounted_inert hinert account leaves
  -- any other step of a call does what it does undisturbed
  have hexec : exec iid a c s.world = exec iid a .done s.world := by
    refine exec_of_succeeds hc ?_ (fun ha => hinert (by rw [ha]; trivial))
    rintro q u rfl
    exact hinert (by cases caller.callStep with | inert h => exact h)
  have hdone : s.advanced iid j tag a k c = s.advanced iid j tag a k .done := by
    simp only [System.advanced, hexec]
  rw [hdone] at leaves ⊢
  cases caller.callStep with
  | inert h => exact absurd h hinert
  | abort errorCode now =>
    refine accounted_abort h.record h.plugin h.holds (h.dead timely)
      (timely rfl r h.record).2 (fun artifact built hartifact => ?_) leaves
    obtain ⟨candidate, image⟩ := caller_removes caller h.record h.plugin built hartifact
    exact ⟨pending_of_moved task candidate, pending_of_moved task image⟩
  | removeCandidate doomed => exact accounted_removeCandidate doomed account leaves
  | removeImage i doomed => exact accounted_removeImage doomed account leaves
  | rename =>
    refine accounted_rename h.record h.plugin h.holds (timely rfl r h.record) (fun hok => ?_) leaves
    cases caller with
    | finalize h => exact pending_of_moved task (h.records.1 rfl _ hok)
    | abort outline _ => exact outline.head.elim
  | finalize now placed => exact accounted_finalize placed account leaves

theorem Balanced.advance_call (h : Balanced iid p o i stage r s) (hj : j ≠ i)
    (task : s.tasks[j]? = some ⟨tag, .act a k⟩) (hc : c.Succeeds) (timely : Timely p o s a) :
    ∃ r', Balanced iid p o i stage r' (s.advanced iid j tag a k c) := by
  have caller := h.callers j _ hj task
  have hstep := caller.callStep
  obtain ⟨r', record', plugin', holds'⟩ := h.accounted_call hj task hc timely
  refine ⟨r', ?_, record', plugin', holds', ?_⟩
  · show (s.tasks.set j _ ++ _)[i]? = _
    rw [hstep.forked, List.append_nil, List.getElem?_set_ne hj]
    exact h.task
  · intro l t hl ht
    change (s.tasks.set j _ ++ _)[l]? = some t at ht
    rw [hstep.forked] at ht
    rcases Lib.Pool.getElem?_of_step ht with ⟨-, rfl⟩ | ⟨hlj, ht⟩ | ⟨_, -, hnone⟩
    · exact caller.own h.record h.plugin record'
    · exact (h.callers l t hl ht).other hstep.disciplined hstep.fresh (.inl (hstep.keeps_built h.record record'))
    · cases hnone

theorem Balanced.next {s' : System} {label : Label} (h : Balanced iid p o i stage r s)
    (concurrent : ConcurrentLabel p o label) (safe : ResourceSafe p o s label)
    (hnext : s.next iid label = some s') : ∃ stage' r', Balanced iid p o i stage' r' s' := by
  cases next_cases hnext with
  | call request => exact ⟨stage, r, h.call concurrent⟩
  | @advance j c tag a k task =>
    have timely : Timely p o s a := safe _ a task rfl
    by_cases hj : j = i
    · subst hj
      obtain ⟨rfl, hprog⟩ := Task.mk.inj (Option.some.inj (task.symm.trans h.task))
      exact h.advance_build hprog.symm concurrent timely
    · obtain ⟨r', h'⟩ := h.advance_call hj task concurrent timely
      exact ⟨stage, r', h'⟩
  | outside _ _ _ _ _ external => cases label <;> first | exact external.elim | exact concurrent.elim
  | _ => exact concurrent.elim

end

/-- **The resource law.**  One build runs among any number of `finalize` and `abort` calls, nothing
fails, and every step is timely.  Once all of them have returned, the operation owns what its state says
and nothing else. -/
theorem resources_accounted {s t : System} {labels : List Label} (begun : s.Begun iid p o)
    (run : Run (System.next iid)
      (fun s label => ConcurrentLabel p o label ∧ ResourceSafe p o s label) s labels t)
    (idle : t.Idle) : t.world.ResourceLaw iid p o := by
  obtain ⟨i, r, start⟩ := begun.balanced
  have balanced : ∃ stage r, Balanced iid p o i stage r t := by
    refine run.invariant (I := fun s => ∃ stage r, Balanced iid p o i stage r s) ?_ ⟨_, r, start⟩
    rintro s label s' ⟨stage, r, h⟩ ⟨concurrent, safe⟩ hnext
    exact h.next concurrent safe hnext
  obtain ⟨stage, r, h⟩ := balanced
  exact h.law idle

/-! ## A run that keeps the law, and one that breaks it -/

/-- The Supervisor has started, and the build of operation 1 is about to run. -/
def begunRun : List Label :=
  [.boot 0] ++ advances 0 5 ++ [.ready, .call (.begin "p" 1 0)] ++ advances 0 2

def begunSystem : System := (begunRun.foldlM (System.next "core") System.initial).getD System.initial

theorem begunSystem_begun : begunSystem.Begun "core" "p" 1 where
  phase := rfl
  build := by
    refine ⟨1, rfl, fun j t hj ht => ?_⟩
    match j, hj, ht with
    | 0, _, ht =>
      cases ht
      exact ⟨_, rfl⟩
    | j + 2, _, ht => cases ht
  record := ⟨_, rfl, rfl, rfl, rfl⟩
  candidate := rfl
  installed _ _ h := by cases h
  images _ h := by cases h

/-- A sufficient check of `Timely`. -/
def timelyAct (p : PluginId) (o : Uuid) (s : System) : Act → Bool
  | .setState _ _ .aborted _ _ =>
      match s.world.inMemory o with
      | some r => r.operation.state ≠ .building && (s.world.installed p).isNone
      | none => true
  | .setBuilt .. => s.tasks.all fun t => !(t.prog.head matches some (.setState ..))
  | .renameCandidate .. =>
      match s.world.inMemory o with
      | some r => r.operation.state = .built
      | none => true
  | _ => true

theorem timely_of_check {s : System} {a : Act} (h : timelyAct p o s a = true) : Timely p o s a := by
  cases a with
  | setState q u state errorCode now =>
    cases state with
    | aborted =>
      rintro - r hr
      simp only [timelyAct, hr, ne_eq, decide_not, Bool.and_eq_true, Bool.not_eq_eq_eq_not,
        Bool.not_true, decide_eq_false_iff_not, Option.isNone_iff_eq_none] at h
      refine ⟨fun hs => absurd hs h.1, fun _ content found hcontent => ?_⟩
      rw [h.2] at hcontent
      cases hcontent
    | _ => trivial
  | setBuilt =>
    rintro - t ht errorCode now hhead
    have := List.all_eq_true.mp h t ht
    rw [hhead] at this
    cases this
  | renameCandidate =>
    rintro - r hr
    simpa only [timelyAct, hr, decide_eq_true_eq] using h
  | _ => trivial

def concurrentLabel (p : PluginId) (o : Uuid) : Label → Bool
  | .call (.finalize q u _) | .call (.abort q u _) => q = p && u = o
  | .advance _ c => (c matches .done | .built _ | .clock _)
  | _ => false

theorem concurrent_of_check {label : Label} (h : concurrentLabel p o label = true) :
    ConcurrentLabel p o label := by
  cases label with
  | call request =>
    cases request with
    | finalize q u now | abort q u now =>
      simp only [concurrentLabel, Bool.and_eq_true, decide_eq_true_eq] at h
      exact h
    | _ => cases h
  | advance i c => cases c <;> trivial
  | _ => cases h

def timelyLabel (p : PluginId) (o : Uuid) (s : System) (label : Label) : Bool :=
  concurrentLabel p o label &&
    match label with
    | .advance i _ =>
      match (s.tasks[i]?).bind fun t => t.prog.head with
      | some a => timelyAct p o s a
      | none => true
    | _ => true

theorem timelyLabel_sound (s : System) (label : Label) (h : timelyLabel p o s label = true) :
    ConcurrentLabel p o label ∧ ResourceSafe p o s label := by
  unfold timelyLabel at h
  rw [Bool.and_eq_true] at h
  obtain ⟨hconcurrent, htimely⟩ := h
  refine ⟨concurrent_of_check hconcurrent, ?_⟩
  cases label with
  | advance i c =>
    intro t a ht ha
    have hhead : (s.tasks[i]?).bind (fun t => t.prog.head) = some a := by rw [ht]; exact ha
    simp only [hhead] at htimely
    exact timely_of_check htimely
  | _ => trivial

theorem idle_of_check {s : System} (h : s.tasks.all (fun t => t.prog.head.isNone) = true) : s.Idle := by
  intro t ht
  have hhead := List.all_eq_true.mp h t ht
  cases hprog : t.prog with
  | ret reply => exact ⟨reply, rfl⟩
  | act a k =>
    rw [hprog] at hhead
    cases hhead

/-- The build is done; a `finalize` has looked around when an `abort` overtakes it. -/
def overtakenRun : List Label :=
  [.advance 1 (.clock 1), .advance 1 .done, .advance 1 (.built (.ok sampleOutput))] ++ advances 1 6 ++
    [.call (.finalize "p" 1 2), .call (.abort "p" 1 2)] ++ advances 2 4 ++ advances 3 8 ++
    advances 2 1

def overtakenSystem : System :=
  (overtakenRun.foldlM (System.next "core") begunSystem).getD begunSystem

theorem resources_accounted_overtaken :
    Run (System.next "core") (fun s label => ConcurrentLabel "p" 1 label ∧ ResourceSafe "p" 1 s label)
        begunSystem overtakenRun overtakenSystem ∧ overtakenSystem.world.ResourceLaw "core" "p" 1 := by
  have run : Run (System.next "core")
      (fun s label => ConcurrentLabel "p" 1 label ∧ ResourceSafe "p" 1 s label)
      begunSystem overtakenRun overtakenSystem := Run.of_checked timelyLabel_sound rfl
  exact ⟨run, resources_accounted begunSystem_begun run (idle_of_check rfl)⟩

/-- An `abort` comes and goes between the build's look at the state and its candidate. -/
def outrunRun : List Label :=
  [.advance 1 (.clock 1), .advance 1 .done, .advance 1 (.built (.ok sampleOutput))] ++ advances 1 2 ++
    [.call (.abort "p" 1 2)] ++ advances 2 7 ++ advances 1 4

def outrunSystem : System := (outrunRun.foldlM (System.next "core") begunSystem).getD begunSystem

/-- The operation is aborted, every task has returned, and candidate and image are still there. -/
theorem abort_leaves_candidate : begunSystem.Begun "core" "p" 1 ∧
      Run (System.next "core") (fun _ label => ConcurrentLabel "p" 1 label) begunSystem outrunRun
        outrunSystem ∧ outrunSystem.Idle ∧ ¬ outrunSystem.world.ResourceLaw "core" "p" 1 := by
  have run : Run (System.next "core") (fun _ label => ConcurrentLabel "p" 1 label) begunSystem
      outrunRun outrunSystem :=
    Run.of_checked (fun _ _ => concurrent_of_check) rfl
  refine ⟨begunSystem_begun, run, idle_of_check rfl, ?_⟩
  rintro ⟨r, hr, hgone, -⟩
  have haborted : (outrunSystem.world.inMemory 1).map (fun r => r.operation.state) =
      some .aborted := rfl
  rw [hr] at haborted
  obtain ⟨hcandidate, -⟩ := hgone (.inl (Option.some.inj haborted))
  have hleft : (outrunSystem.world.candidates 1).isSome = true := rfl
  rw [hcandidate] at hleft
  cases hleft

end AudioDown.Supervisor
