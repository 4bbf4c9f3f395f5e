/-
# AudioDown.Gateway.Runtime — starting and stopping plugins with their tokens

`SupervisorPluginRuntime`: `start`, `stop`, `inspect` and `remove` as programs over what they ask, one
request at a time, so that other calls can come in between.  Each call holds the plugin's lifecycle lock
from its first answer until it returns; the map of generations and the token registry have locks of
their own, each held for one request only.
-/
import AudioDown.Gateway.Registry

namespace AudioDown.Gateway

open Lib Supervisor AudioDown.Core

/-! ## What a call asks -/

inductive RuntimeAct where
  | lockLifecycle (pluginId : PluginId)
  -- the map of generations
  | hasGeneration (pluginId : PluginId)
  | currentGeneration (pluginId : PluginId)
  | rememberGeneration (pluginId : PluginId) (generation : RuntimeGeneration)
  | removeGeneration (pluginId : PluginId)
  | removeIfCurrent (pluginId : PluginId) (generation : RuntimeGeneration)
  -- the token registry
  | register (pluginId : PluginId)
  | revoke (pluginId : PluginId) (generation : RuntimeGeneration)
  -- the Supervisor
  | startPlugin (pluginId : PluginId)
  | startPluginWithProxy (pluginId : PluginId) (token : Token)
  | stopPlugin (pluginId : PluginId)
  | confirmPluginStopped (pluginId : PluginId)
  | inspectPlugin (pluginId : PluginId)
  | removePlugin (pluginId : PluginId)
deriving DecidableEq

abbrev RuntimeAct.Resp : RuntimeAct → Type
  | .lockLifecycle _ | .rememberGeneration .. => Unit
  | .hasGeneration _ | .removeIfCurrent .. | .revoke .. => Bool
  | .currentGeneration _ | .removeGeneration _ => Option RuntimeGeneration
  | .register _ => Except ProxyRegistryError RegisteredProxyToken
  | .startPlugin _ | .startPluginWithProxy .. | .stopPlugin _ | .confirmPluginStopped _
  | .inspectPlugin _ => Except PluginManagerError PluginRuntimeState
  | .removePlugin _ => Except PluginManagerError PluginRemoveResult

abbrev RuntimeProgram := Prog RuntimeAct RuntimeAct.Resp

/-- A method returning `Result<α, PluginManagerError>`. -/
abbrev RuntimeM := ExceptT PluginManagerError RuntimeProgram

def ask (a : RuntimeAct) : RuntimeProgram a.Resp := .act a .ret

/-! ## The methods -/

def revokeGeneration (proxied : Bool) (p : PluginId) : RuntimeProgram Unit := do
  match ← ask (.removeGeneration p) with
  | none => pure ()
  | some generation => if proxied then let _ ← ask (.revoke p generation) else pure ()

def revokeIfCurrent (p : PluginId) (generation : RuntimeGeneration) : RuntimeProgram Unit := do
  if ← ask (.removeIfCurrent p generation) then let _ ← ask (.revoke p generation) else pure ()

/-- The check of a state the Supervisor reports after a stop. -/
def stoppedOr (state : PluginRuntimeState) (p : PluginId) : RuntimeM PluginRuntimeState :=
  if state.pluginId ≠ p ∨ state.status ≠ .stopped then throw .runtimeUnavailable else pure state

def confirmCleanup (p : PluginId) : RuntimeM PluginRuntimeState := do
  let stopped ← ExceptT.mk (ask (.confirmPluginStopped p))
  stoppedOr stopped p

/-- What `start` does about a generation it finds. -/
def clearGeneration (p : PluginId) : RuntimeM Unit := do
  if ← ExceptT.lift (ask (.hasGeneration p)) then
    let _ ← confirmCleanup p
    ExceptT.lift (revokeGeneration true p)
  else pure ()

def start (proxied : Bool) (p : PluginId) : RuntimeM PluginRuntimeState := do
  ExceptT.lift (ask (.lockLifecycle p))
  if !proxied then ExceptT.mk (ask (.startPlugin p))
  else
    clearGeneration p
    let registered ← mapErr (ask (.register p)) .runtimeUnavailable
    -- `ProxyToken::new`
    if !validToken registered.token then throw .runtimeUnavailable
    else
      ExceptT.lift (ask (.rememberGeneration p registered.generation))
      match ← ExceptT.lift (ask (.startPluginWithProxy p registered.token)) with
      | .ok state => pure state
      | .error error =>
        let _ ← confirmCleanup p
        ExceptT.lift (revokeIfCurrent p registered.generation)
        throw error

def stop (proxied : Bool) (p : PluginId) : RuntimeM PluginRuntimeState := do
  ExceptT.lift (ask (.lockLifecycle p))
  let state ← ExceptT.mk (ask (.stopPlugin p))
  let state ← stoppedOr state p
  ExceptT.lift (revokeGeneration proxied p)
  return state

/-- What `inspect` does with a plugin that is not running as it should. -/
def inspectStopped (p : PluginId) (generation : Option RuntimeGeneration) : RuntimeM PluginRuntimeState := do
  let stopped ← confirmCleanup p
  match generation with
  | some generation => ExceptT.lift (revokeIfCurrent p generation)
  | none => pure ()
  return stopped

def inspect (proxied : Bool) (p : PluginId) : RuntimeM PluginRuntimeState := do
  ExceptT.lift (ask (.lockLifecycle p))
  if !proxied then ExceptT.mk (ask (.inspectPlugin p))
  else
    let generation ← ExceptT.lift (ask (.currentGeneration p))
    match ← ExceptT.lift (ask (.inspectPlugin p)) with
    | .error _ => inspectStopped p generation
    | .ok state =>
      if state.pluginId ≠ p then inspectStopped p generation
      else if state.status ≠ .healthy ∨ generation = none then inspectStopped p generation
      else return state

def remove (proxied : Bool) (p : PluginId) : RuntimeM PluginRemoveResult := do
  ExceptT.lift (ask (.lockLifecycle p))
  let removed ← ExceptT.mk (ask (.removePlugin p))
  ExceptT.lift (revokeGeneration proxied p)
  return removed

/-! ## The world -/

variable {Digest : Type} [DecidableEq Digest]

structure RuntimeWorld (Digest : Type) where
  registry : RegistryState Digest
  generations : AList fun _ : PluginId => RuntimeGeneration

/-- How the environment answers. -/
inductive RuntimeOutcome where
  /-- what the source of randomness yields -/
  | drawn (registered : Option RegisteredProxyToken)
  /-- the Supervisor's state of a plugin, if it answers -/
  | state (reply : Option PluginRuntimeState)
  | removed (reply : Option PluginRemoveResult)

def RuntimeOutcome.reply : RuntimeOutcome → Except PluginManagerError PluginRuntimeState
  | .state (some reply) => .ok reply
  | _ => .error .runtimeUnavailable

def runtimeStep (digest : Token → Digest) (capacity : Nat) :
    (a : RuntimeAct) → RuntimeOutcome → RuntimeWorld Digest → a.Resp × RuntimeWorld Digest
  | .lockLifecycle _, _, w => ((), w)
  | .hasGeneration p, _, w => ((w.generations.lookup p).isSome, w)
  | .currentGeneration p, _, w => (w.generations.lookup p, w)
  | .rememberGeneration p generation, _, w =>
      ((), { w with generations := w.generations.insert p generation })
  | .removeGeneration p, _, w =>
      (w.generations.lookup p, { w with generations := w.generations.erase p })
  | .removeIfCurrent p generation, _, w =>
      if w.generations.lookup p = some generation then
        (true, { w with generations := w.generations.erase p })
      else (false, w)
  | .register p, c, w =>
      let (result, registry) := w.registry.register digest capacity p
        (match c with | .drawn registered => registered | _ => none)
      (result, { w with registry })
  | .revoke p generation, _, w =>
      ((w.registry.revoke p generation).1, { w with registry := (w.registry.revoke p generation).2 })
  | .startPlugin _, c, w | .startPluginWithProxy .., c, w | .stopPlugin _, c, w
  | .confirmPluginStopped _, c, w | .inspectPlugin _, c, w => (c.reply, w)
  | .removePlugin _, c, w =>
      (match c with
        | .removed (some reply) => .ok reply
        | _ => .error .runtimeUnavailable, w)

/-! ## Calls -/

inductive RuntimeCall where
  | start (pluginId : PluginId)
  | stop (pluginId : PluginId)
  | inspect (pluginId : PluginId)
  | remove (pluginId : PluginId)
deriving DecidableEq

def RuntimeCall.pluginId : RuntimeCall → PluginId
  | .start p | .stop p | .inspect p | .remove p => p

/-- How a call ends: with a result, or given up. -/
abbrev Ending := Option (Except PluginManagerError Unit)

/-- The result of a call, as far as it matters here. -/
def ending {α : Type} (x : RuntimeM α) : RuntimeProgram Ending :=
  x.run.bind fun
    | .ok _ => .ret (some (.ok ()))
    | .error error => .ret (some (.error error))

def RuntimeCall.program (proxied : Bool) : RuntimeCall → RuntimeProgram Ending
  | .start p => ending (Gateway.start proxied p)
  | .stop p => ending (Gateway.stop proxied p)
  | .inspect p => ending (Gateway.inspect proxied p)
  | .remove p => ending (Gateway.remove proxied p)

structure RuntimeTask where
  call : RuntimeCall
  prog : RuntimeProgram Ending

/-- The plugin whose lifecycle lock the task holds. -/
def RuntimeTask.holds (t : RuntimeTask) : Option PluginId :=
  match t.prog with
  | .ret _ | .act (.lockLifecycle _) _ => none
  | .act _ _ => some t.call.pluginId

/-! ## The system -/

structure RuntimeSystem (Digest : Type) where
  world : RuntimeWorld Digest
  tasks : List RuntimeTask

def RuntimeSystem.initial : RuntimeSystem Digest := ⟨⟨.empty, ∅⟩, []⟩

def RuntimeSystem.locked (s : RuntimeSystem Digest) (p : PluginId) : Bool :=
  s.tasks.any fun t => t.holds = some p

/-- A request during which a call waits for others, so that it can be given up. -/
def RuntimeAct.waits : RuntimeAct → Bool
  | .lockLifecycle _ | .startPlugin _ | .startPluginWithProxy .. | .stopPlugin _
  | .confirmPluginStopped _ | .inspectPlugin _ | .removePlugin _ => true
  | _ => false

/-- A lock that is held is not given away. -/
def RuntimeSystem.admits (s : RuntimeSystem Digest) : RuntimeAct → Bool
  | .lockLifecycle p => !s.locked p
  | _ => true

inductive RuntimeLabel where
  | call (call : RuntimeCall)
  | advance (task : Nat) (outcome : RuntimeOutcome)
  | giveUp (task : Nat)

section
variable (digest : Token → Digest) (capacity : Nat) (proxied : Bool)

def RuntimeSystem.next (s : RuntimeSystem Digest) : RuntimeLabel → Option (RuntimeSystem Digest)
  | .call call => some { s with tasks := s.tasks ++ [⟨call, call.program proxied⟩] }
  | .advance i c =>
      match s.tasks[i]? with
      | some ⟨call, .act a k⟩ =>
          if s.admits a then
            some ⟨(runtimeStep digest capacity a c s.world).2,
              s.tasks.set i ⟨call, k (runtimeStep digest capacity a c s.world).1⟩⟩
          else none
      | _ => none
  | .giveUp i =>
      match s.tasks[i]? with
      | some ⟨call, .act a _⟩ =>
          if a.waits then some { s with tasks := s.tasks.set i ⟨call, .ret none⟩ } else none
      | _ => none

/-- What a label does. -/
inductive RuntimeNext (s : RuntimeSystem Digest) : RuntimeLabel → RuntimeSystem Digest → Prop where
  | call (call : RuntimeCall) :
      RuntimeNext s (.call call) { s with tasks := s.tasks ++ [⟨call, call.program proxied⟩] }
  | advance {i : Nat} {c : RuntimeOutcome} {call : RuntimeCall} {a : RuntimeAct}
      {k : a.Resp → RuntimeProgram Ending} (task : s.tasks[i]? = some ⟨call, .act a k⟩)
      (admitted : s.admits a = true) :
      RuntimeNext s (.advance i c) ⟨(runtimeStep digest capacity a c s.world).2,
          s.tasks.set i ⟨call, k (runtimeStep digest capacity a c s.world).1⟩⟩
  | giveUp {i : Nat} {call : RuntimeCall} {a : RuntimeAct} {k : a.Resp → RuntimeProgram Ending}
      (task : s.tasks[i]? = some ⟨call, .act a k⟩) (waits : a.waits = true) :
      RuntimeNext s (.giveUp i) { s with tasks := s.tasks.set i ⟨call, .ret none⟩ }

variable {digest capacity proxied}

theorem runtimeNext_cases {s s' : RuntimeSystem Digest} {label : RuntimeLabel}
    (h : s.next digest capacity proxied label = some s') :
    RuntimeNext digest capacity proxied s label s' := by
  cases label with
  | call call =>
    cases h
    exact .call call
  | advance i c =>
    simp only [RuntimeSystem.next] at h
    split at h
    · rename_i task
      split at h
      · cases h
        exact .advance task ‹_›
      · cases h
    · cases h
  | giveUp i =>
    simp only [RuntimeSystem.next] at h
    split at h
    · rename_i task
      split at h
      · cases h
        exact .giveUp task ‹_›
      · cases h
    · cases h

end

/-! ## What should hold -/

section
variable (digest : Token → Digest)

/-- Randomness: a token and a generation that are drawn were never drawn before. -/
def Fresh (s : RuntimeSystem Digest) : RuntimeLabel → Prop
  | .advance _ (.drawn (some registered)) => s.world.registry.Unused digest registered
  | _ => True

/-- Between calls, a plugin has a generation exactly if the registry knows a token of that generation. -/
def RuntimeSystem.Agrees (s : RuntimeSystem Digest) : Prop :=
  ∀ p, (∀ t ∈ s.tasks, t.holds ≠ some p) → ∀ generation, s.world.generations.lookup p = some generation ↔
      ∃ token, ⟨p, token, generation⟩ ∈ s.world.registry.issued ∧
        s.world.registry.authenticate digest token = some ⟨p, generation⟩

/-- No token that was ever issued for `p` is known. -/
def RuntimeSystem.Silent (s : RuntimeSystem Digest) (p : PluginId) : Prop :=
  ∀ x ∈ s.world.registry.issued, x.pluginId = p → s.world.registry.authenticate digest x.token = none

/-- Of the tokens that were issued for `p`, exactly this one is known. -/
def RuntimeSystem.Knows (s : RuntimeSystem Digest) (p : PluginId) (token : Token) : Prop :=
  (∃ x ∈ s.world.registry.issued, x.pluginId = p ∧ x.token = token) ∧
    ∀ x ∈ s.world.registry.issued, x.pluginId = p →
      (s.world.registry.authenticate digest x.token = some ⟨p, x.generation⟩ ↔ x.token = token)

def RuntimeSystem.asked (s : RuntimeSystem Digest) : RuntimeLabel → Option RuntimeAct
  | .advance i _ => (s.tasks[i]?).bind fun t => t.prog.head
  | _ => none

/-- Task `i` has returned a result. -/
def RuntimeSystem.Succeeded (s : RuntimeSystem Digest) (i : Nat) (call : RuntimeCall) : Prop :=
  s.tasks[i]? = some ⟨call, .ret (some (.ok ()))⟩

/-- What a step of call `i` should do. -/
structure StepLaw (capacity : Nat) (proxied : Bool) (s s' : RuntimeSystem Digest) (i : Nat)
    (c : RuntimeOutcome) : Prop where
  /-- after `stop` or `remove` has succeeded, no token of the plugin is known until one is registered -/
  stopped : ∀ p, s'.Succeeded i (.stop p) ∨ s'.Succeeded i (.remove p) →
    ∀ labels s'', Lib.Run (RuntimeSystem.next digest capacity proxied)
        (fun t label => Fresh digest t label ∧ t.asked label ≠ some (.register p)) s' labels s'' →
      s''.Silent digest p
  /-- `start` succeeds when the Supervisor accepts the token it was sent, which is then known -/
  started : ∀ p, proxied = true → s'.Succeeded i (.start p) →
    ∃ token, s.asked (.advance i c) = some (.startPluginWithProxy p token) ∧ s'.Knows digest p token
  /-- a token stops being known only by being revoked under its own generation -/
  revoked : ∀ x ∈ s.world.registry.issued,
    (∃ runtime, s.world.registry.authenticate digest x.token = some runtime) →
      s'.world.registry.authenticate digest x.token = none →
        s.asked (.advance i c) = some (.revoke x.pluginId x.generation)

end

end AudioDown.Gateway
