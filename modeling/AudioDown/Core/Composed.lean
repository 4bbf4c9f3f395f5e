/-
# AudioDown.Core.Composed — `install` composed with the Supervisor's manager

One installation, with every message delivered: a request of Core is the Supervisor's method itself, from
its look at the clock to the reply (`carryOut`), so `install` becomes a program over the steps of both
sides.  Beside it run the Supervisor's builds, those that were running before and the one `begin` starts;
any of them may take a step between two steps of the call.

`InstallLaw` is what should be true when `install` returns: the Supervisor is done with the operation, the
error names its cause, and the files that `prepare_install` wrote are gone.
-/
import AudioDown.Core.Alone
import AudioDown.Lib.Beside
import AudioDown.Supervisor.Resources

namespace AudioDown.Core

open Lib (Prog)
open Supervisor

/-! ## The program -/

/-- A step of an installation: of Core itself, or of the Supervisor at Core's request. -/
inductive InstallAct where
  | core (a : CoreAct)
  | supervisor (a : Act)
deriving DecidableEq

abbrev InstallAct.Resp : InstallAct → Type
  | .core a => a.Resp
  | .supervisor a => a.Resp

abbrev InstallProgram := Prog InstallAct InstallAct.Resp

def onSupervisor {α : Type} (x : Program α) : InstallProgram α :=
  x.substitute fun a => .act (.supervisor a) .ret

def carryOut (installationId : String) : (a : CoreAct) → InstallProgram a.Resp
  | .supervisor call =>
      .act (.supervisor .utcNow) fun now =>
        (onSupervisor ((Tag.request (call.request now)).program installationId)).bind fun reply =>
          .ret (call.answer reply)
  | a => .act (.core a) .ret

/-- A method of Core, down to the Supervisor's steps. -/
def composed {α : Type} (installationId : String) (x : InstallM α) : InstallProgram (Except InstallError α) :=
  x.run.substitute (carryOut installationId)

/-! ## The scene -/

/-- What `prepare_install` has handed out. -/
structure Handed where
  operationId : Uuid
  riskGrantId : Option Uuid
deriving DecidableEq

/-- Why an installation went wrong on the Supervisor's side. -/
inductive Cause where
  /-- `begin` was rejected -/
  | rejected
  /-- the build failed while the operation was waiting for it -/
  | buildFailed
deriving DecidableEq

structure Scene where
  world : World
  store : PluginStore
  /-- the builds that run in the background -/
  builds : List SupervisorTask
  handed : Option Handed
  cause : Option Cause

/-- The cause a step of the Supervisor gives rise to. -/
def causeOf (installationId : String) (handed : Option Handed) (w : World) : Act → Outcome → Option Cause
  | .register p o now, c =>
      match (exec installationId (.register p o now) c w).1 with
      | .error _ => some .rejected
      | .ok _ => none
  | .setFailed _ o _ _ _, _ =>
      if handed.any (fun h => h.operationId = o) &&
          (w.inMemory o).any fun r => !r.operation.state.isTerminal then
        some .buildFailed
      else none
  | _, _ => none

/-- A step of the Supervisor, without its answer. -/
def Scene.supervised (installationId : String) (s : Scene) (a : Act) (c : Outcome) : Scene :=
  { s with
    world := (exec installationId a c s.world).2
    cause := s.cause.or (causeOf installationId s.handed s.world a c) }

/-- `prepare_install` writes `grants/<grant>.json`, if there is a grant, and `prepared/<op>.json`. -/
def Scene.prepare (s : Scene) (o : Uuid) (riskGrantId : Option Uuid) : Scene :=
  { s with
    world.grants := match riskGrantId with
      | some g => Function.update s.world.grants g true
      | none => s.world.grants
    world.prepared := Function.update s.world.prepared o (some ⟨riskGrantId⟩)
    handed := some ⟨o, riskGrantId⟩ }

/-- How a step of the installation ends. -/
inductive InstallOutcome where
  | core (outcome : CoreOutcome)
  | supervisor (outcome : Outcome)

def InstallOutcome.ofCore : InstallOutcome → CoreOutcome
  | .core c => c
  | .supervisor _ => .failed

def InstallOutcome.ofSupervisor : InstallOutcome → Outcome
  | .supervisor c => c
  | .core _ => .failedBefore none

def installStep (installationId : String) : (a : InstallAct) → InstallOutcome → Scene → a.Resp × Scene
  | .core (.prepareInstall staged riskGrantId), c, s =>
      ((coreStep (.prepareInstall staged riskGrantId) c.ofCore s.store).1,
        match (coreStep (.prepareInstall staged riskGrantId) c.ofCore s.store).1 with
        | .ok o => s.prepare o riskGrantId
        | .error _ => s)
  | .core a, c, s =>
      ((coreStep a c.ofCore s.store).1, { s with store := (coreStep a c.ofCore s.store).2 })
  | .supervisor a, c, s =>
      ((exec installationId a c.ofSupervisor s.world).1, { s.supervised installationId a c.ofSupervisor with
          builds := s.builds ++ forked installationId a (exec installationId a c.ofSupervisor s.world).1 })

/-- Build `i` takes its next step. -/
def Scene.build (installationId : String) (s : Scene) (i : Nat) (c : Outcome) : Option Scene :=
  match s.builds[i]? with
  | some ⟨tag, .act a k⟩ =>
      some { s.supervised installationId a c with
        builds := s.builds.set i ⟨tag, k (exec installationId a c s.world).1⟩ }
  | _ => none

/-! ## The system -/

structure Composed where
  scene : Scene
  /-- what is left of `install` -/
  call : InstallProgram (Except InstallError InstallPluginRecord)

inductive ComposedLabel where
  | install (outcome : InstallOutcome)
  | build (task : Nat) (outcome : Outcome)

def Composed.next (installationId : String) (s : Composed) : ComposedLabel → Option Composed
  | .install c =>
      match s.call with
      | .ret _ => none
      | .act a k =>
          some ⟨(installStep installationId a c s.scene).2, k (installStep installationId a c s.scene).1⟩
  | .build i c => (s.scene.build installationId i c).map fun scene => { s with scene }

def BuildAct (p : PluginId) (o : Uuid) : Act → Prop
  | .setState q u state _ _ => q = p ∧ u = o ∧ state = .building
  | .setBuilt q u .. | .setFailed q u .. | .build q u => q = p ∧ u = o
  | .publishCandidate u .. => u = o
  | .utcNow | .status .. | .directoryExists _ | .removeImage _ | .cleanupTemporaryResources _ => True
  | _ => False

def Builds (t : SupervisorTask) (o : Uuid) : Prop :=
  ∃ p, t.tag = .build p o ∧ t.prog.Uses (BuildAct p o)

/-- Where an installation begins: builds of earlier operations may still be running. -/
structure Scene.Start (s : Scene) : Prop where
  keyed : s.world.Keyed
  builds : ∀ t ∈ s.builds, ∃ o, Builds t o
  handed : s.handed = none
  cause : s.cause = none

/-! ## What the environment does -/

/-- No file operation fails.  The build adapter may do what it likes. -/
def Unfailing : Act → Outcome → Prop
  | .build .., _ | .removeImage _, _ | .cleanupTemporaryResources _, _ => True
  | _, c => c.Succeeds

/-- No statement fails, and `load_plugin` answers about the plugin it was asked for. -/
def CoreAct.Works : CoreAct → CoreOutcome → Prop
  | .loadPlugin _ p, .staged result => ∀ staged, result = .ok staged → staged.pluginId = p
  | .prepareInstall .., .prepared _ | .tryOperationLock _, .flag _ | .grantLifecycleRisk _, .granted _ => True
  | .listInstallRecords, .done _ | .insertInstalling _, .done _ | .completeInstall .., .done _
  | .persistBuildLog .., .done _ | .utcNow, .done _ => True
  | _, _ => False

/-- Every message is delivered and no input or output fails, in a step of the call … -/
def Smooth (a : InstallAct) (c : InstallOutcome) : Prop :=
  match a with
  | .core a => ∃ c', c = .core c' ∧ a.Works c'
  | .supervisor a => ∃ c', c = .supervisor c' ∧ Unfailing a c'

def Delivered (s : Composed) : ComposedLabel → Prop
  | .install c => ∀ a k, s.call = .act a k → Smooth a c
  | .build i c => ∀ tag a k, s.scene.builds[i]? = some ⟨tag, .act a k⟩ → Unfailing a c

/-! ## The law -/

/-- An error that tells what went wrong.  The Supervisor is there, so it is never unavailable; a rejected
`begin` is no timeout. -/
def Names : Option Cause → InstallError → Prop
  | some .buildFailed, e => e = .buildFailed
  | some .rejected, e => e ≠ .installTimeout ∧ e ≠ .runtimeUnavailable
  | none, e => e ≠ .buildFailed ∧ e ≠ .runtimeUnavailable

/-- What an installation of `handed` should leave. -/
structure NoResidue (handed : Handed) (s : Scene)
    (result : Except InstallError InstallPluginRecord) : Prop where
  record : ∀ r, s.world.inMemory handed.operationId = some r ∨ s.world.onDisk handed.operationId = some r →
      r.operation.state.isTerminal = true ∧ r.operation.acknowledged = true
  named : ∀ error, result = .error error → Names s.cause error
  prepared : s.world.prepared handed.operationId = none
  grant : ∀ g, handed.riskGrantId = some g → s.world.grants g = false

def InstallLaw (s : Scene) (result : Except InstallError InstallPluginRecord) : Prop :=
  ∀ handed, s.handed = some handed → NoResidue handed s result

/-! ## When it holds -/

/-- An id nobody has used. -/
structure Scene.Unused (o : Uuid) (s : Scene) : Prop where
  inMemory : s.world.inMemory o = none
  onDisk : s.world.onDisk o = none
  candidate : s.world.candidates o = none
  builds : ∀ t ∈ s.builds, ∀ p, t.tag ≠ .build p o

/-- `begin` is not rejected, and nothing is in the way of the plugin's directory. -/
structure Admits (w : World) (p : PluginId) : Prop where
  idle : (valuesOf w.state.operations).any (fun r => !r.operation.state.isTerminal) = false
  room : ((valuesOf w.state.operations).filter fun r => !r.operation.acknowledged).length <
    maxUnacknowledgedOperations
  installed : w.installed p = none

/-- What the call needs: the id `prepare_install` draws is new, `begin` is accepted, and what `abort`
removes can be removed. -/
def Favours (a : InstallAct) (c : InstallOutcome) (s : Scene) : Prop :=
  match a, c with
  | .core (.prepareInstall ..), .core (.prepared (.ok o)) => s.Unused o
  | .supervisor (.register p _ _), _ => Admits s.world p
  | .supervisor (.removeImage _), .supervisor c
  | .supervisor (.cleanupTemporaryResources _), .supervisor c => c.Succeeds
  | _, _ => True

/-- What it needs of a build: it does not fail while the operation waits for it. -/
def Completes (handed : Option Handed) (w : World) : Act → Prop
  | .setFailed _ o _ _ _ => handed.map Handed.operationId = some o →
      ∀ r, w.inMemory o = some r → r.operation.state.isTerminal = true
  | _ => True

def Favourable (s : Composed) : ComposedLabel → Prop
  | .install c => ∀ a k, s.call = .act a k → Favours a c s.scene
  | .build i _ => ∀ tag a k, s.scene.builds[i]? = some ⟨tag, .act a k⟩ →
      Completes s.scene.handed s.scene.world a

end AudioDown.Core
