/-
# AudioDown.Supervisor.Guard — `begin` and the adapter's own guard

Two guards keep builds apart.  `begin` accepts an operation once every operation on record is terminal;
`DockerBuildAdapter` admits a build call once no other call is inside.  The first looks at states, the
second at calls, and a build call outlives the abort of its operation: an operation accepted in the
meantime is turned away by the adapter with `BUILD_BUSY`.  In a run in which no operation is ended while
its build call is outstanding this cannot happen (`begin_finds_adapter_free`).
-/
import AudioDown.Supervisor.Journal
import AudioDown.Supervisor.Resources

namespace AudioDown.Supervisor

open Lib (Prog Run)

/-- `BuildConcurrency`: the permits of the semaphore and the plugins being built. -/
structure BuildConcurrency where
  global : Nat
  activePlugins : List PluginId
deriving DecidableEq

namespace BuildConcurrency

def new : BuildConcurrency := ⟨1, []⟩

def tryAcquireGlobal (g : BuildConcurrency) : Option BuildConcurrency :=
  if g.global = 0 then none else some { g with global := g.global - 1 }

def reservePlugin (p : PluginId) (g : BuildConcurrency) : Option BuildConcurrency :=
  if p ∈ g.activePlugins then none else some { g with activePlugins := p :: g.activePlugins }

/-- The two guards `execute_build` takes. -/
def enter (p : PluginId) (g : BuildConcurrency) : Except BuildAdapterError BuildConcurrency :=
  match (g.reservePlugin p).bind tryAcquireGlobal with
  | some g => .ok g
  | none => .error ⟨"BUILD_BUSY", []⟩

end BuildConcurrency

def buildCall (t : SupervisorTask) : Option (PluginId × Uuid) :=
  match t.tag, t.prog.head with
  | .build .., some (.build p o) => some (p, o)
  | _, _ => none

/-- The build calls that have not returned. -/
def System.buildCalls (s : System) : List (PluginId × Uuid) := s.tasks.filterMap buildCall

def System.guard (s : System) : BuildConcurrency :=
  s.buildCalls.foldl (fun g call => (g.enter call.1).toOption.getD g) .new

/-- The operation is on record and not over. -/
def World.Open (o : Uuid) (w : World) : Prop :=
  ∃ r, w.inMemory o = some r ∧ r.operation.state.isTerminal = false

/-- The operations the step takes to a terminal state or off the record. -/
def Act.ended : Act → List Uuid
  | .setState _ o state _ _ => if state.isTerminal then [o] else []
  | .setFailed _ o _ _ _ => [o]
  | .forget ids => ids
  | _ => []

/-- The condition on a step: it ends no operation whose build call is outstanding. -/
def EndsWait (s : System) : Label → Prop
  | .advance i _ => ∀ a ∈ s.stepOf i, ∀ o ∈ a.ended, ∀ call ∈ s.buildCalls, call.2 ≠ o
  | _ => True

instance (s : System) : (label : Label) → Decidable (EndsWait s label)
  | .advance i _ =>
    inferInstanceAs (Decidable (∀ a ∈ s.stepOf i, ∀ o ∈ a.ended, ∀ call ∈ s.buildCalls, call.2 ≠ o))
  | .boot _ | .ready | .call _ | .crash | .crashDuring .. | .removePlugin .. | .prepare .. | .writeGrant _
  | .mirrorGrant _ => isTrue trivial

/-! ## One step

A build records `building` before it calls the adapter, and makes no second call. -/

def Act.AfterCall (a : Act) : Prop := ∀ p o, a ≠ .build p o

/-- How far a build has got; its call is made for an operation that is open. -/
inductive BuildAt (iid : String) (p : PluginId) (o : Uuid) (w : World) : Program Reply → Prop where
  | ready : BuildAt iid p o w (BuildStage.ready.program iid p o)
  | starting (now : Timestamp) : BuildAt iid p o w (BuildStage.startingProgram iid p o now)
  | calling (opened : w.Open o) : BuildAt iid p o w (BuildStage.buildingProgram iid p o)
  | late {prog : Program Reply} (uses : prog.Uses Act.AfterCall) : BuildAt iid p o w prog

section
variable {iid : String} {a : Act} {c : Outcome} {w w' : World} {o : Uuid} {p : PluginId}
  {k : a.Resp → Program Reply} {prog : Program Reply}

theorem exec_keeps_open (hload : a ≠ .loadState) (spared : o ∉ a.ended) (h : w.Open o) :
    (exec iid a c w).2.Open o := by
  obtain ⟨r, hr, hopen⟩ := h
  have effect := (exec_effect iid a c w).inMemory hload o
  rw [hr] at effect
  unfold World.Open
  generalize (exec iid a c w).2.inMemory o = m at effect
  cases effect with
  | same => exact ⟨r, rfl, hopen⟩
  | forgotten _ forget listed =>
    subst forget
    exact absurd listed spared
  | changed hchange =>
    cases hchange with
    | setState _ plugin keeps => exact ⟨_, rfl, by simpa [Act.ended] using spared⟩
    | setBuilt _ plugin building => exact ⟨_, rfl, rfl⟩
    | setFailed _ plugin => exact absurd (List.mem_singleton_self o) spared
    | acknowledge _ plugin terminal => cases hopen.symm.trans terminal

theorem afterBuilding_late (r : Except BuildAdapterError BuildOutput) :
    Prog.Uses Act.AfterCall (BuildStage.afterBuilding iid p o r) := by
  have cleaning : Prog.Uses Act.AfterCall (BuildStage.cleaningProgram o) :=
    ⟨(fun _ _ h => by cases h), fun _ => trivial⟩
  have failing : ∀ code logs, Prog.Uses Act.AfterCall (BuildStage.failingProgram p o code logs) := fun _ _ =>
    ⟨(fun _ _ h => by cases h), fun _ => ⟨(fun _ _ h => by cases h), fun _ => cleaning⟩⟩
  have unwritten : ∀ output error, Prog.Uses Act.AfterCall (BuildStage.unwrittenProgram p o output error) :=
    fun _ _ => ⟨(fun _ _ h => by cases h), fun _ => failing _ _⟩
  cases r with
  | error error => exact failing _ _
  | ok output =>
    refine ⟨(fun _ _ h => by cases h), fun observed => ?_⟩
    dsimp only
    split
    · exact ⟨(fun _ _ h => by cases h), fun _ => cleaning⟩
    · refine ⟨(fun _ _ h => by cases h), fun present => ?_⟩
      cases present with
      | true => exact unwritten _ _
      | false =>
        refine ⟨(fun _ _ h => by cases h), fun written => ?_⟩
        cases written with
        | error e => exact unwritten _ _
        | ok _ => exact ⟨(fun _ _ h => by cases h), fun _ => ⟨(fun _ _ h => by cases h), fun _ => cleaning⟩⟩

theorem BuildAt.step (h : BuildAt iid p o w (.act a k)) :
    BuildAt iid p o (exec iid a c w).2 (k (exec iid a c w).1) := by
  generalize hprog : Prog.act a k = prog at h
  cases h with
  | ready =>
    cases hprog
    exact .starting _
  | starting now =>
    cases hprog
    cases started : (exec iid (.setState p o .building none now) c w).1 with
    | error e => exact .late trivial
    | ok v =>
      obtain ⟨r, -, -, -, -, hmem⟩ := changeRecord_ok started
      exact .calling ⟨_, hmem, rfl⟩
  | calling opened =>
    cases hprog
    exact .late (afterBuilding_late _)
  | late uses =>
    subst hprog
    exact .late (uses.2 _)

theorem BuildAt.spared (h : BuildAt iid p o w prog)
    (keeps : prog.head = some (.build p o) → w.Open o → w'.Open o) : BuildAt iid p o w' prog := by
  cases h with
  | ready => exact .ready
  | starting now => exact .starting now
  | calling opened => exact .calling (keeps rfl opened)
  | late uses => exact .late uses

theorem BuildAt.opened {q : PluginId} {u : Uuid} (h : BuildAt iid p o w prog)
    (hhead : prog.head = some (.build q u)) : w.Open u := by
  cases h with
  | ready | starting => cases hhead
  | calling opened =>
    cases hhead
    exact opened
  | late uses =>
    cases prog with
    | ret v => cases hhead
    | act b k =>
      cases hhead
      exact absurd rfl (uses.1 q u)

end

/-! ## Every run -/

/-- What holds of the Supervisor in every run that meets `EndsWait`. -/
structure System.Guarded (iid : String) (s : System) : Prop where
  manned : s.Manned iid
  builds : ∀ t ∈ s.tasks, ∀ p o, t.tag = .build p o → BuildAt iid p o s.world t.prog

section
variable {iid : String} {s s' : System} {i : Nat} {c : Outcome} {tag : Tag} {a : Act}
  {k : a.Resp → Program Reply} {label : Label}

theorem System.Guarded.advanced (h : s.Guarded iid) (safe : EndsWait s (.advance i c))
    (htask : s.tasks[i]? = some ⟨tag, .act a k⟩) : (s.advanced iid i tag a k c).Guarded iid where
  manned := h.manned.advanced htask
  builds t ht p o htag := by
    rcases Lib.Pool.mem_of_step ht with rfl | ⟨j, hne, hj⟩ | hnew
    · exact (h.builds _ (List.mem_of_getElem? htask) p o htag).step
    · -- another build: its call is outstanding, so the step does not end its operation
      have hload : a ≠ .loadState := h.manned.not_load htask (h.manned.staffed.phase_of_two htask hj hne)
      have hmem := List.mem_of_getElem? hj
      refine (h.builds t hmem p o htag).spared fun hhead => exec_keeps_open hload fun ended => ?_
      have outstanding : (p, o) ∈ s.buildCalls :=
        List.mem_filterMap.mpr ⟨t, hmem, by simp [buildCall, htag, hhead]⟩
      exact safe _ (stepOf_eq htask) o ended _ outstanding rfl
    · obtain ⟨q, u, rfl, rfl⟩ := mem_forked hnew
      cases htag
      rw [Tag.task, BuildStage.ready_program]
      exact .ready

theorem guarded_crashed (iid : String) (w : World) : (System.crashed w).Guarded iid :=
  ⟨manned_crashed iid w, fun t ht => by cases ht⟩

theorem System.Guarded.same {w' : World} (h : s.Guarded iid) (hsame : SameJournal s.world w')
    (manned : { s with world := w' }.Manned iid) : { s with world := w' }.Guarded iid :=
  ⟨manned, fun t ht p o htag => (h.builds t ht p o htag).spared fun _ ⟨r, hr, hopen⟩ =>
    ⟨r, (hsame.inMemory o).trans hr, hopen⟩⟩

theorem System.Guarded.next (h : s.Guarded iid) (safe : EndsWait s label)
    (hnext : s.next iid label = some s') : s'.Guarded iid := by
  have manned : s'.Manned iid := h.manned.next hnext
  cases next_cases hnext with
  | boot now down =>
    refine ⟨manned, fun t ht p o htag => ?_⟩
    rw [List.mem_singleton.mp ht] at htag
    cases htag
  | ready opening opened => exact ⟨manned, fun t ht => by cases ht⟩
  | call request serving =>
    refine ⟨manned, fun t ht p o htag => ?_⟩
    rcases List.mem_append.mp ht with ht | ht
    · exact h.builds t ht p o htag
    · rw [List.mem_singleton.mp ht] at htag
      cases htag
  | advance task => exact h.advanced safe task
  | crash => exact guarded_crashed iid _
  | crashDuring task => exact guarded_crashed iid _
  | removePlugin p c =>
    obtain ⟨hstate, hrecords, -, -⟩ := removePlugin_frame p c s.world
    exact h.same ⟨hstate, hrecords⟩ manned
  | outside hstate hrecords => exact h.same ⟨hstate, hrecords⟩ manned

theorem guarded_of_run {labels : List Label}
    (run : Run (System.next iid) EndsWait System.initial labels s) : s.Guarded iid :=
  run.invariant (fun _ _ _ hI hok htaken => hI.next hok htaken) (guarded_crashed iid World.empty)

theorem buildCall_eq_some {t : SupervisorTask} {p : PluginId} {o : Uuid} (h : buildCall t = some (p, o)) :
    (∃ q u, t.tag = .build q u) ∧ t.prog.head = some (.build p o) := by
  unfold buildCall at h
  split at h
  · rename_i htag hhead
    cases h
    exact ⟨⟨_, _, htag⟩, hhead⟩
  · cases h

theorem System.Guarded.calling (h : s.Guarded iid) {call : PluginId × Uuid} (hcall : call ∈ s.buildCalls) :
    s.world.Open call.2 := by
  obtain ⟨t, ht, hcall⟩ := List.mem_filterMap.mp hcall
  obtain ⟨⟨q, u, htag⟩, hhead⟩ := buildCall_eq_some hcall
  exact (h.builds t ht q u htag).opened hhead

/-- **`begin` hands out no doomed build**, in every run in which no operation is ended while its build
call is outstanding: each outstanding call belongs to an operation that is not over, and when an
operation is accepted there is none and the adapter's guards are free. -/
theorem begin_finds_adapter_free {labels : List Label}
    (run : Run (System.next iid) EndsWait System.initial labels s) :
    (∀ call ∈ s.buildCalls, s.world.Open call.2) ∧
      ∀ p o now c operation, (exec iid (.register p o now) c s.world).1 = .ok (operation, true) →
        s.buildCalls = [] ∧ ∀ q, ∃ g, s.guard.enter q = .ok g := by
  have calling : ∀ call ∈ s.buildCalls, s.world.Open call.2 := fun call => (guarded_of_run run).calling
  refine ⟨calling, fun p o now c operation accepted => ?_⟩
  have idle : s.buildCalls = [] := by
    refine List.eq_nil_iff_forall_not_mem.mpr fun call hcall => ?_
    obtain ⟨r, hr, hopen⟩ := calling call hcall
    -- `begin` would have been told that a build is busy
    obtain ⟨_, -, -, created⟩ := register_returns accepted
    cases ((created rfl).2.2 r (mem_valuesOf.mpr ⟨_, hr⟩)).symm.trans hopen
  refine ⟨idle, fun q => ⟨⟨0, [q]⟩, ?_⟩⟩
  rw [System.guard, idle]
  rfl

end

/-- Operation 1 is aborted after its build call has failed, and operation 2 begins. -/
def patientRun : List Label :=
  [.boot 0] ++ advances 0 5 ++ [.ready, .call (.begin "p" 1 0)] ++ advances 0 2 ++
    [.advance 1 (.clock 1), .advance 1 .done, .advance 1 (.built (.error ⟨"BUILD_FAILED", []⟩)),
      .call (.abort "p" 1 2), .advance 2 .done, .advance 2 .done, .call (.begin "q" 2 3)]

theorem begin_finds_adapter_free_after_failure :
    (systemAfter (patientRun.take 12)).buildCalls = [("p", 1)] ∧ ∃ operation,
      (exec "core" (.register "q" 2 3) .done (systemAfter patientRun).world).1 = .ok (operation, true) ∧
        (systemAfter patientRun).buildCalls = [] ∧
        ∀ q, ∃ g, (systemAfter patientRun).guard.enter q = .ok g := by
  have run : Run (System.next "core") EndsWait System.initial patientRun (systemAfter patientRun) :=
    Run.of_decide rfl
  have accepted : (exec "core" (.register "q" 2 3) .done (systemAfter patientRun).world).1 = .ok (_, true) := rfl
  exact ⟨rfl, _, accepted, (begin_finds_adapter_free run).2 _ _ _ _ _ accepted⟩

/-- **An operation accepted after an abort is turned away by the adapter**: the build call of the aborted
one is still inside when the next operation is accepted and when its own call arrives. -/
theorem begin_accepts_doomed_build : ∃ s t, Run (System.next "core") (fun _ _ => True) System.initial
        (abortedRun ++ [.call (.begin "q" 2 3)]) s ∧
      (∃ operation, (exec "core" (.register "q" 2 3) .done s.world).1 = .ok (operation, true)) ∧
      s.buildCalls = [("p", 1)] ∧ s.guard.enter "q" = .error ⟨"BUILD_BUSY", []⟩ ∧
      Run (System.next "core") (fun _ _ => True) s (advances 3 2 ++ [.advance 4 (.clock 4), .advance 4 .done,
        .advance 4 (.built (.error ⟨"BUILD_BUSY", []⟩)), .advance 4 (.clock 5), .advance 4 .done]) t ∧
      t.world.Observes 2 .failed (some "BUILD_BUSY") ∧ t.buildCalls = [("p", 1)] :=
  ⟨_, _, Run.of_foldlM rfl, ⟨_, rfl⟩, rfl, rfl, Run.of_foldlM rfl, ⟨_, .inl rfl, rfl, rfl⟩, rfl⟩

end AudioDown.Supervisor
