/-
# AudioDown.Supervisor.System — the Supervisor as a transition system

The manager's requests and background builds run as tasks over one world.  A label of the system is
one of: a request arriving, one task taking its next atomic step under some outcome, the process
crashing (between two steps, or inside one), the process starting again, a plugin being removed, or
Core writing a file the manager reads.  `next` is partial: a label that cannot happen in a state has
no successor there.

A crash loses the operation map and every task; the files and the images stay.  While `open` runs
its task is the only one; the manager serves requests once it has returned `Ok`.
-/
import AudioDown.Lib.Pool
import AudioDown.Supervisor.Manager

namespace AudioDown.Supervisor

open Lib

/-- The manager's public methods. -/
inductive Request where
  | begin (pluginId : PluginId) (operationId : Uuid) (now : Timestamp)
  | status (pluginId : PluginId) (operationId : Uuid)
  | list
  | finalize (pluginId : PluginId) (operationId : Uuid) (now : Timestamp)
  | abort (pluginId : PluginId) (operationId : Uuid) (now : Timestamp)
  | acknowledge (pluginId : PluginId) (operationId : Uuid) (now : Timestamp)
  | cleanupAcknowledged (now : Timestamp)
deriving DecidableEq

/-- What a task of the Supervisor was started for. -/
inductive Tag where
  | request (request : Request)
  | build (pluginId : PluginId) (operationId : Uuid)
  | opening (now : Timestamp)
deriving DecidableEq

/-- What a task returns. -/
inductive Reply where
  | operation (result : Except InstallOperationError PluginInstallOperation)
  | operations (summaries : List PluginInstallOperationSummary)
  | unit (result : Except InstallOperationError Unit)

def Tag.program (installationId : String) : Tag → Program Reply
  | .request (.begin p o now) => Prog.bind (begin p o now) fun r => .ret (.operation r)
  | .request (.status p o) => Prog.bind (status p o) fun r => .ret (.operation r)
  | .request .list => Prog.bind list fun r => .ret (.operations r)
  | .request (.finalize p o now) =>
      Prog.bind (finalize installationId p o now) fun r => .ret (.operation r)
  | .request (.abort p o now) =>
      Prog.bind (abort installationId p o now) fun r => .ret (.operation r)
  | .request (.acknowledge p o now) =>
      Prog.bind (acknowledge p o now) fun r => .ret (.operation r)
  | .request (.cleanupAcknowledged now) =>
      Prog.bind (cleanupAcknowledged now) fun r => .ret (.unit r)
  | .build p o => Prog.bind (runBuild installationId p o) fun _ => .ret (.unit (.ok ()))
  | .opening now => Prog.bind (openManager installationId now) fun r => .ret (.unit r)

abbrev SupervisorTask := Task Tag Act Act.Resp Reply

def Tag.task (installationId : String) (tag : Tag) : SupervisorTask :=
  ⟨tag, tag.program installationId⟩

/-- `tokio::spawn` in `begin`. -/
def forked (installationId : String) : (a : Act) → a.Resp → List SupervisorTask
  | .spawnBuild p o, _ => [(Tag.build p o).task installationId]
  | _, _ => []

inductive Phase where
  | down
  | opening
  | serving
deriving DecidableEq

structure System where
  world : World
  phase : Phase
  tasks : List SupervisorTask

def System.initial : System := ⟨World.empty, .down, []⟩

inductive Label where
  /-- the process starts and opens the manager -/
  | boot (now : Timestamp)
  /-- `open` has returned `Ok` -/
  | ready
  /-- a request arrives -/
  | call (request : Request)
  /-- task `task` takes its next step -/
  | advance (task : Nat) (outcome : Outcome)
  /-- the process dies between two steps -/
  | crash
  /-- the process dies inside the next step of task `task`, which had got as far as `outcome` -/
  | crashDuring (task : Nat) (outcome : Outcome)
  /-- a plugin is removed -/
  | removePlugin (pluginId : PluginId) (outcome : Outcome)
  /-- Core writes `prepared/<op>.json` -/
  | prepare (operationId : Uuid) (content : PreparedRequest)
  /-- Core writes `grants/<grant>.json` -/
  | writeGrant (grantId : Uuid)
  /-- Core writes `risk-grants/<op>.json` -/
  | mirrorGrant (operationId : Uuid)

/-- `remove_plugin`: the attested image, then the installed directory; no operation record is
touched.  It can stop before either. -/
def World.removePlugin (pluginId : PluginId) (outcome : Outcome) (w : World) : World :=
  match (w.installed pluginId).bind InstallDirectory.attestation with
  | none => w
  | some found =>
    let w' := { w with images := Function.update w.images found.imageId none }
    match outcome with
    | .failedBefore _ => w
    | .stoppedAfter _ => w'
    | outcome => (w'.removeDirectory (.installed pluginId) outcome).2

def System.crashed (w : World) : System := ⟨{ w with state := {} }, .down, []⟩

def System.next (installationId : String) (s : System) : Label → Option System
  | .boot now =>
      if s.phase = .down then
        some { s with phase := .opening, tasks := [(Tag.opening now).task installationId] }
      else none
  | .ready =>
      match s.phase, s.tasks with
      | .opening, [⟨_, .ret (.unit (.ok ()))⟩] => some { s with phase := .serving, tasks := [] }
      | _, _ => none
  | .call request =>
      if s.phase = .serving then
        some { s with tasks := s.tasks ++ [(Tag.request request).task installationId] }
      else none
  | .advance i outcome =>
      (Pool.step (exec installationId) (forked installationId) i outcome s.world s.tasks).map
        fun (world, tasks) => { s with world, tasks }
  | .crash => some (System.crashed s.world)
  | .crashDuring i outcome =>
      (Pool.step (exec installationId) (forked installationId) i outcome s.world s.tasks).map
        fun (world, _) => System.crashed world
  | .removePlugin pluginId outcome =>
      some { s with world := s.world.removePlugin pluginId outcome }
  | .prepare operationId content =>
      some { s with world.prepared :=
        Function.update s.world.prepared operationId (some content) }
  | .writeGrant grantId =>
      some { s with world.grants := Function.update s.world.grants grantId true }
  | .mirrorGrant operationId =>
      some { s with world.mirroredGrants :=
        Function.update s.world.mirroredGrants operationId true }

/-! ## One step of the system, by cases -/

/-- The system after task `i` has taken its step. -/
def System.advanced (installationId : String) (s : System) (i : Nat) (tag : Tag) (a : Act)
    (k : a.Resp → Program Reply) (c : Outcome) : System :=
  { s with
    world := (exec installationId a c s.world).2
    tasks := s.tasks.set i ⟨tag, k (exec installationId a c s.world).1⟩ ++
      forked installationId a (exec installationId a c s.world).1 }

/-- The files Core writes below the plugin-data root. -/
def Label.External : Label → Prop
  | .prepare .. | .writeGrant _ | .mirrorGrant _ => True
  | _ => False

/-- What a label does.  `outside` collects the files Core writes: the operations and the directories
stay as they are. -/
inductive Next (installationId : String) (s : System) : Label → System → Prop where
  | boot (now : Timestamp) (down : s.phase = .down) : Next installationId s (.boot now)
        { s with phase := .opening, tasks := [(Tag.opening now).task installationId] }
  | ready {tag : Tag} (opening : s.phase = .opening) (opened : s.tasks = [⟨tag, .ret (.unit (.ok ()))⟩]) :
      Next installationId s .ready { s with phase := .serving, tasks := [] }
  | call (request : Request) (serving : s.phase = .serving) : Next installationId s (.call request)
        { s with tasks := s.tasks ++ [(Tag.request request).task installationId] }
  | advance {i : Nat} {c : Outcome} {tag : Tag} {a : Act} {k : a.Resp → Program Reply}
      (task : s.tasks[i]? = some ⟨tag, .act a k⟩) :
      Next installationId s (.advance i c) (s.advanced installationId i tag a k c)
  | crash : Next installationId s .crash (System.crashed s.world)
  | crashDuring {i : Nat} {c : Outcome} {tag : Tag} {a : Act} {k : a.Resp → Program Reply}
      (task : s.tasks[i]? = some ⟨tag, .act a k⟩) :
      Next installationId s (.crashDuring i c) (System.crashed (exec installationId a c s.world).2)
  | removePlugin (p : PluginId) (c : Outcome) :
      Next installationId s (.removePlugin p c) { s with world := s.world.removePlugin p c }
  | outside {label : Label} {w : World} (state : w.state = s.world.state)
      (records : w.records = s.world.records) (candidates : w.candidates = s.world.candidates)
      (installed : w.installed = s.world.installed) (images : w.images = s.world.images)
      (external : label.External) :
      Next installationId s label { s with world := w }

theorem next_cases {installationId : String} {s s' : System} {label : Label}
    (h : s.next installationId label = some s') : Next installationId s label s' := by
  cases label with
  | boot now =>
    simp only [System.next] at h
    split at h
    · cases h
      exact .boot now ‹_›
    · cases h
  | ready =>
    simp only [System.next] at h
    split at h
    · cases h
      exact .ready ‹_› ‹_›
    · cases h
  | call request =>
    simp only [System.next] at h
    split at h
    · cases h
      exact .call request ‹_›
    · cases h
  | advance i c =>
    simp only [System.next, Option.map_eq_some_iff] at h
    obtain ⟨⟨world, tasks⟩, hstep, rfl⟩ := h
    obtain ⟨tag, a, k, htask, rfl, rfl⟩ := Lib.Pool.step_eq_some hstep
    exact .advance htask
  | crash =>
    cases h
    exact .crash
  | crashDuring i c =>
    simp only [System.next, Option.map_eq_some_iff] at h
    obtain ⟨⟨world, tasks⟩, hstep, rfl⟩ := h
    obtain ⟨tag, a, k, htask, rfl, -⟩ := Lib.Pool.step_eq_some hstep
    exact .crashDuring htask
  | removePlugin p c =>
    cases h
    exact .removePlugin p c
  | prepare | writeGrant | mirrorGrant =>
    cases h
    exact .outside rfl rfl rfl rfl rfl trivial

end AudioDown.Supervisor
