/-
# AudioDown.Core.Alone — one call of Core against a reachable Supervisor

With every message delivered and nothing failing, a request of Core runs the Supervisor's method from
its first step to its last (`coreExec`), and a method of Core is a function of both states (`alone`).
Each request gets one specification here, over the specifications of `AudioDown.Supervisor.Alone`.
-/
import AudioDown.Core.System
import AudioDown.Supervisor.Alone

namespace AudioDown.Core

open Lib Supervisor

/-- Both sides of an installation. -/
structure CoreWorld where
  world : World
  store : PluginStore

def serve (iid : String) (request : Request) (w : World) : Reply × World :=
  ((Tag.request request).program iid).run (exec iid) undisturbed w

/-- Every message is delivered and nothing fails, at time `now`: a request runs on the Supervisor, and
what the table answers it answers. -/
def coreExec (iid : String) : (a : CoreAct) → Timestamp → CoreWorld → a.Resp × CoreWorld
  | .supervisor call, now, s =>
      (call.answer (serve iid (call.request now) s.world).1,
        { s with world := (serve iid (call.request now) s.world).2 })
  | a, now, s => ((coreStep a (.done now) s.store).1, { s with store := (coreStep a (.done now) s.store).2 })

def alone {α : Type} (iid : String) (now : Timestamp) (x : InstallM α) (s : CoreWorld) :
    Except InstallError α × CoreWorld :=
  Prog.run (coreExec iid) (fun _ => now) x.run s

section
variable {iid : String} {now : Timestamp} {α β : Type} {s s' : CoreWorld}

variable {error : InstallError} {f : α → InstallM β} {value : α} {x : InstallM α} {ε : Type}

theorem alone_bind_ok (h : alone iid now x s = (.ok value, s')) :
    alone iid now (x >>= f) s = alone iid now (f value) s' := run_bind_ok h

theorem alone_bind_error (h : alone iid now x s = (.error error, s')) :
    alone iid now (x >>= f) s = (.error error, s') := run_bind_error h

@[simp] theorem alone_pure (value : α) : alone iid now (pure value : InstallM α) s = (.ok value, s) := rfl

@[simp] theorem alone_throw (error : InstallError) :
    alone iid now (throw error : InstallM α) s = (.error error, s) := rfl

theorem alone_lift {x : CoreProgram α} (h : x.run (coreExec iid) (fun _ => now) s = (value, s')) :
    alone iid now (ExceptT.lift x) s = (.ok value, s') := run_lift h

theorem alone_orElse_ok {x : CoreProgram (Except ε α)} (h : x.run (coreExec iid) (fun _ => now) s =
    (.ok value, s')) : alone iid now (orElse x error) s = (.ok value, s') := run_mapErr_ok h

theorem alone_orElse_error {x : CoreProgram (Except ε α)} {e : ε}
    (h : x.run (coreExec iid) (fun _ => now) s = (.error e, s')) :
    alone iid now (orElse x error) s = (.error error, s') := run_mapErr_error h

end

/-! ## Requests -/

section
variable {iid : String} {now : Timestamp} {s : CoreWorld} {w' : World} {p : PluginId}
  {o : Uuid}

variable {call : SupervisorCall} {r : StoredOperation} {reply : Reply}

theorem runtime_ok {value : call.Result} (served : serve iid (call.request now) s.world = (reply, w'))
    (answered : call.answer reply = .ok value) :
    alone iid now (runtime call) s = (.ok value, { s with world := w' }) := by
  apply alone_orElse_ok
  show (call.answer (serve iid (call.request now) s.world).1,
    { s with world := (serve iid (call.request now) s.world).2 }) = _
  rw [served, answered]

theorem runtime_error {error : PluginManagerError}
    (served : serve iid (call.request now) s.world = (reply, w'))
    (answered : call.answer reply = .error error) : alone iid now (runtime call) s =
      (.error .runtimeUnavailable, { s with world := w' }) := by
  apply alone_orElse_error
  show (call.answer (serve iid (call.request now) s.world).1,
    { s with world := (serve iid (call.request now) s.world).2 }) = _
  rw [served, answered]

theorem serve_method {request : Request} {x : Call PluginInstallOperation} {w : World}
    {result : Except InstallOperationError PluginInstallOperation}
    (program : (Tag.request request).program iid = Prog.bind x fun r => .ret (.operation r))
    (h : x.alone iid w = (result, w')) : serve iid request w = (.operation result, w') := by
  have hrun : serve iid request w = Prog.run (exec iid) undisturbed
        (.ret (.operation (x.alone iid w).1) : Program Reply) (x.alone iid w).2 := by
    unfold serve
    rw [program]
    exact Prog.run_bind ..
  rw [hrun, h]
  rfl

theorem runtime_status (hm : s.world.inMemory o = some r) (hp : r.operation.pluginId = p) :
    alone iid now (runtime (.installStatus p o)) s = (.ok r.operation, s) :=
  runtime_ok (serve_method rfl (status_alone_ok hm hp)) rfl

theorem runtime_status_error (hm : ∀ r, s.world.inMemory o = some r → r.operation.pluginId ≠ p) :
    alone iid now (runtime (.installStatus p o)) s = (.error .runtimeUnavailable, s) :=
  runtime_error (serve_method rfl (status_alone_error hm)) rfl

theorem acknowledge_alone (hm : s.world.inMemory o = some r)
    (hp : r.operation.pluginId = p) (ho : r.operation.operationId = o)
    (terminal : r.operation.state.isTerminal = true) : alone iid now (acknowledge p o) s =
      (.ok (), { s with world := s.world.saved o { r with
        operation := { r.operation with acknowledged := true }, updatedAt := now } }) := by
  unfold acknowledge
  rw [alone_bind_ok (runtime_ok (serve_method rfl (acknowledge_alone_ok hm hp terminal)) rfl)]
  simp [operationIdentityMatches, hp, ho]

theorem abortInstall_alone {r : StoredOperation} (hm : s.world.inMemory o = some r)
    (hp : r.operation.pluginId = p) (ho : r.operation.operationId = o)
    (hs : r.operation.state.isTerminal = false ∨ r.operation.state = .aborted) :
    ∃ r' w', alone iid now (abortInstall p o) s = (.ok (), { s with world := w' }) ∧
      r'.operation.pluginId = p ∧ r'.operation.operationId = o ∧ r'.operation.state = .aborted ∧
      w'.inMemory o = some r' ∧ (∀ o', o' ≠ o → w'.inMemory o' = s.world.inMemory o') ∧
      (∀ o', o' ≠ o → w'.candidates o' = s.world.candidates o') ∧
      w'.installed = s.world.installed := by
  unfold abortInstall
  rcases hs with hs | hs
  · refine ⟨r.withState .aborted r.operation.errorCode now,
      (s.world.saved o (r.withState .aborted r.operation.errorCode now)).released o
        r.operation.artifact, ?_, hp, ho, rfl, ?_, ?_, ?_, rfl⟩
    · rw [alone_bind_ok (runtime_ok (serve_method rfl (abort_alone_pending hm hp hs)) rfl)]
      simp [operationIdentityMatches, StoredOperation.withState, hp, ho]
    · exact (getElem?_insert_uuid ..).trans (if_pos rfl)
    · intro o' ho'
      exact (getElem?_insert_uuid ..).trans (if_neg ho'.symm)
    · intro o' ho'
      exact Function.update_of_ne ho' _ _
  · refine ⟨r, s.world.released o r.operation.artifact, ?_, hp, ho, hs, hm, fun _ _ => rfl, ?_, rfl⟩
    · rw [alone_bind_ok (runtime_ok (serve_method rfl (abort_alone_aborted hm hp hs)) rfl)]
      simp [operationIdentityMatches, hs, hp, ho]
    · intro o' ho'
      exact Function.update_of_ne ho' _ _

theorem abortInstall_alone_error (hm : s.world.inMemory o = some r) (hp : r.operation.pluginId = p)
    (hs : r.operation.state = .failed ∨ r.operation.state = .finalized) :
    alone iid now (abortInstall p o) s = (.error .runtimeUnavailable, s) := by
  have refused : ∃ error, (abort iid p o now).alone iid s.world = (.error error, s.world) := by
    rcases hs with hs | hs
    · exact ⟨_, abort_alone_failed hm hp hs⟩
    · exact abort_alone_finalized hm hp hs
  obtain ⟨error, herror⟩ := refused
  unfold abortInstall
  rw [alone_bind_error (runtime_error (serve_method rfl herror) rfl)]

theorem persistBuildLogs_alone (logs : List PluginBuildLog) :
    alone iid now (persistBuildLogs o logs) s = (.ok (), s) := by
  induction logs with
  | nil => rfl
  | cons log logs ih =>
    unfold persistBuildLogs
    rw [alone_bind_ok (alone_orElse_ok rfl)]
    exact ih

end

end AudioDown.Core
