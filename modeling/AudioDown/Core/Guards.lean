/-
# AudioDown.Core.Guards — locks and active calls

Core keeps three things in memory for a plugin: the operation lock, which every management call tries to
take; the startup lock, on which content calls wait; and how many content calls are in flight.  Here the
calls of Core run under guards that work: a lock that is held is not given away, and `has_active_calls`
answers with the truth.

`invoke_content` drops both locks before it asks the runtime, and keeps only its lease.  What should be
true all the same is `Attended.Undisturbed`: nobody starts, stops or removes a runtime that is answering a
content call.
-/
import AudioDown.Core.System

namespace AudioDown.Core

open Supervisor

/-! ## What a call holds -/

structure Guards where
  operation : Option PluginId
  startup : Option PluginId
  lease : Option PluginId
deriving DecidableEq

def Guards.free : Guards := ⟨none, none, none⟩

def Guards.after (g : Guards) : (a : CoreAct) → a.Resp → Guards
  | .tryOperationLock p, true => { g with operation := some p }
  | .contentStartupLock p, true => { g with startup := some p }
  | .beginActiveCall p, true => { g with lease := some p }
  | _, _ => g

/-- What it still holds when it makes its next request, if it makes one.  A loop drops the lock of one
plugin before it tries the next; `invoke_content` drops both locks before it logs that the call begins. -/
def Guards.until (g : Guards) : Option CoreAct → Guards
  | none => .free
  | some (.tryOperationLock _) => { g with operation := none }
  | some (.persistContentCallLog _ .started) => { g with operation := none, startup := none }
  | some _ => g

/-! ## The system -/

structure GuardedTask where
  call : CoreCall
  prog : CoreProgram Unit
  guards : Guards

structure Attended where
  store : PluginStore
  tasks : List GuardedTask

/-- Somebody holds the operation lock of `p`. -/
def Attended.locked (s : Attended) (p : PluginId) : Bool :=
  s.tasks.any fun t => t.guards.operation = some p

def Attended.starting (s : Attended) (p : PluginId) : Bool :=
  s.tasks.any fun t => t.guards.startup = some p

/-- A content call of `p` is in flight. -/
def Attended.active (s : Attended) (p : PluginId) : Bool :=
  s.tasks.any fun t => t.guards.lease = some p

/-- What the guards can answer.  The two that are flags of a poisoned mutex as well may also be refused. -/
def Attended.answers (s : Attended) : CoreAct → CoreOutcome → Bool
  | .tryOperationLock p, .flag value => value == !s.locked p
  | .contentStartupLock p, .flag value => !value || !s.starting p
  | .beginActiveCall _, .flag _ => true
  | .hasActiveCalls p, .flag value => value == s.active p
  | .tryOperationLock _, _ | .contentStartupLock _, _ | .beginActiveCall _, _
  | .hasActiveCalls _, _ => false
  | _, _ => true

def CoreCall.manages : CoreCall → Bool
  | .install .. | .reconcileInstallOperations => false
  | _ => true

inductive GuardedLabel where
  | call (call : CoreCall)
  | advance (task : Nat) (outcome : CoreOutcome)

/-- Task `i` after its step. -/
def Attended.advanced (s : Attended) (i : Nat) (call : CoreCall) (g : Guards) (a : CoreAct)
    (k : a.Resp → CoreProgram Unit) (c : CoreOutcome) : Attended :=
  let r := (coreStep a c s.store).1
  ⟨(coreStep a c s.store).2, s.tasks.set i ⟨call, k r, (g.after a r).until (k r).head⟩⟩

def Attended.next (s : Attended) : GuardedLabel → Option Attended
  | .call call =>
      if call.manages then some { s with tasks := s.tasks ++ [⟨call, call.program, .free⟩] } else none
  | .advance i c =>
      match s.tasks[i]? with
      | some ⟨call, .act a k, g⟩ => if s.answers a c then some (s.advanced i call g a k c) else none
      | _ => none

/-- What a label does. -/
inductive GuardedNext (s : Attended) : GuardedLabel → Attended → Prop where
  | call (call : CoreCall) (manages : call.manages = true) :
      GuardedNext s (.call call) { s with tasks := s.tasks ++ [⟨call, call.program, .free⟩] }
  | advance {i : Nat} {c : CoreOutcome} {call : CoreCall} {g : Guards} {a : CoreAct}
      {k : a.Resp → CoreProgram Unit} (task : s.tasks[i]? = some ⟨call, .act a k, g⟩)
      (answered : s.answers a c = true) :
      GuardedNext s (.advance i c) (s.advanced i call g a k c)

theorem guardedNext_cases {s s' : Attended} {label : GuardedLabel} (h : s.next label = some s') :
    GuardedNext s label s' := by
  cases label with
  | call call =>
    simp only [Attended.next] at h
    split at h
    · cases h
      exact .call call ‹_›
    · cases h
  | advance i c =>
    simp only [Attended.next] at h
    split at h
    · rename_i task
      split at h
      · cases h
        exact .advance task ‹_›
      · cases h
    · cases h

/-! ## The law -/

/-- A request that disturbs whoever is using the runtime of `p`: `start` first removes the container
that is there. -/
def Disturbs (p : PluginId) : CoreAct → Prop
  | .startRuntime q | .stopRuntime q | .removeRuntime q => q = p
  | _ => False

/-- While a content call waits for the runtime's answer, nobody waits for an answer to a request that
disturbs it. -/
def Attended.Undisturbed (s : Attended) : Prop :=
  ∀ t ∈ s.tasks, ∀ p method, t.prog.head = some (.invokeRuntime p method) →
    ∀ u ∈ s.tasks, ∀ a, u.prog.head = some a → ¬ Disturbs p a

/-! ## When it holds -/

/-- `update_settings` is about to restart a plugin that is running. -/
def CoreCall.restarts : CoreCall → InstallPluginRecord → Bool
  | .updateSettings command, row =>
      command.enabled && command.runMode = .always && (!row.enabled || row.runMode ≠ .always) &&
        row.status = .healthy
  | _, _ => false

/-- What a step needs: `update_settings` reads the row of a running plugin it will have run always,
`cleanup_all_runtimes` comes to a plugin, and `inspect_runtime` is told that a plugin does not run, only
while no content call of that plugin is in flight. -/
def ComesQuietly (s : Attended) : CoreCall → CoreAct → CoreOutcome → Prop
  | .updateSettings command, .getPlugin p, _ =>
      ∀ row, s.store.get p = some row → CoreCall.restarts (.updateSettings command) row = true →
        s.active p = false
  | .cleanupAllRuntimes, .hasActiveCalls p, _ => s.active p = false
  | .inspectRuntime _, .inspectRuntime p, .runtime state =>
      state.status ≠ .healthy → s.active p = false
  | _, _, _ => True

def Patient (s : Attended) : GuardedLabel → Prop
  | .call _ => True
  | .advance i c =>
      ∀ call a k g, s.tasks[i]? = some ⟨call, .act a k, g⟩ → ComesQuietly s call a c

end AudioDown.Core
