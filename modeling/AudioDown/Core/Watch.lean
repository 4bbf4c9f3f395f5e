/-
# AudioDown.Core.Watch — what a call knows of the plugin it works on

Between taking a plugin's operation lock and dropping it, a call learns things about the plugin that stay
true as long as it holds the lock: the status in the plugin's row, because nobody else rewrites the row,
and that no content call is in flight, because nobody else can begin one.  `Watch` keeps what a call has
learned, and the outlines here say that it disturbs a runtime, or writes a status other than `Healthy`,
only if it knows that the plugin was not healthy or that no call was in flight (`Watch.Asks`).
-/
import AudioDown.Core.Guards

namespace AudioDown.Core

open Lib (Prog)
open Supervisor

/-! ## What is watched -/

structure Watch where
  lock : Option PluginId
  lease : Option PluginId
  /-- the status in the row, as it was last read or written -/
  status : Option PluginStatus
  /-- no other call has a lease -/
  quiet : Bool
  /-- an answer came that cannot be -/
  void : Bool
deriving DecidableEq

namespace Watch

def start : Watch := ⟨none, none, none, false, false⟩

/-- Whether the answer of the runtime to `inspect_runtime` makes it write another status. -/
def sees (call : CoreCall) (state : PluginRuntimeState) : Bool :=
  match call with
  | .inspectRuntime _ => state.status ≠ .healthy
  | _ => false

def expectsQuiet : CoreCall → Bool
  | .cleanupAllRuntimes => true
  | _ => false

def note (call : CoreCall) : (a : CoreAct) → a.Resp → Watch → Watch
  | .tryOperationLock p, locked, h =>
      { h with lock := if locked then some p else none, status := none, quiet := false }
  | .persistContentCallLog _ .started, _, h => { h with lock := none, status := none, quiet := false }
  | .beginActiveCall p, begun, h => { h with lease := if begun then some p else h.lease }
  | .hasActiveCalls _, active, h =>
      { h with
        quiet := h.quiet || !active
        void := h.void || active && (h.quiet || expectsQuiet call) }
  | .getPlugin p, .ok (some row), h =>
      { h with
        status := some row.status
        quiet := h.quiet || call.restarts row
        void := h.void || row.pluginId ≠ p }
  | .savePlugin record, .ok (), h => { h with status := some record.status }
  | .savePlugin _, .error _, h | .deletePlugin _, _, h => { h with status := none }
  | .inspectRuntime _, .ok state, h => { h with quiet := h.quiet || sees call state }
  | _, _, h => h

def Free (h : Watch) : Prop := h.quiet = true ∨ ∃ status, h.status = some status ∧ status ≠ .healthy

def Asks (h : Watch) : CoreAct → Prop
  | .startRuntime p | .stopRuntime p | .removeRuntime p => h.lock = some p ∧ h.Free
  | .savePlugin record => h.lock = some record.pluginId ∧ (h.Free ∨ record.status = .healthy)
  | .deletePlugin p => h.lock = some p ∧ h.quiet = true
  | .getPlugin p | .inspectRuntime p => h.lock = some p
  | .hasActiveCalls p | .beginActiveCall p => h.lock = some p ∧ h.lease = none
  | .persistContentCallLog p .started =>
      h.lock = some p ∧ h.lease = some p ∧ h.status = some .healthy
  | .invokeRuntime p _ => h.lease = some p
  | .tryOperationLock _ => h.lease = none
  | .insertInstalling _ | .completeInstall .. | .rollbackInstall .. => False
  | _ => True

def Permits (h : Watch) (a : CoreAct) : Prop := h.void = false → h.Asks a

theorem void_note {call : CoreCall} {a : CoreAct} {r : a.Resp} {h : Watch} (void : h.void = true) :
    (note call a r h).void = true := by
  cases a <;> simp only [note, void, Bool.true_or]
  case getPlugin p => rcases r with e | (_ | row) <;> simp [void]
  case savePlugin record => rcases r with e | u <;> simp [void]
  case persistContentCallLog p event => cases event <;> simp [void]
  case inspectRuntime p => rcases r with e | state <;> simp [void]

end Watch

/-! ## Outlines -/

def Watched {α : Type} (call : CoreCall) (B : α → Watch → Prop) (h : Watch) (x : CoreProgram α) : Prop :=
  x.Traces (Watch.note call) Watch.Permits (fun r h' => h'.void = false → B r h') h

namespace Watched

variable {α β ε ε' : Type} {call : CoreCall} {B : α → Watch → Prop} {C : β → Watch → Prop} {h : Watch}
  {x : CoreProgram α}

theorem of_void (void : h.void = true) : Watched call B h x := by
  induction x generalizing h with
  | ret a =>
    intro genuine
    cases void.symm.trans genuine
  | act a k ih =>
    refine ⟨fun genuine => ?_, fun r => ih r (Watch.void_note void)⟩
    cases void.symm.trans genuine

theorem ret {value : α} (hB : B value h) : Watched call B h (.ret value) := fun _ => hB

theorem bind {f : α → CoreProgram β} (hx : Watched call B h x)
    (hf : ∀ value h', B value h' → Watched call C h' (f value)) : Watched call C h (x.bind f) := by
  refine Prog.Traces.bind hx fun value h' hB => ?_
  cases void : h'.void with
  | false => exact hf value h' (hB void)
  | true => exact of_void void

theorem weaken {B' : α → Watch → Prop} (hx : Watched call B h x)
    (hB : ∀ value h', B value h' → B' value h') : Watched call B' h x :=
  Prog.Traces.weaken hx fun value h' hvalue genuine => hB value h' (hvalue genuine)

theorem ask {a : CoreAct} {B : a.Resp → Watch → Prop} (asks : h.Asks a)
    (answered : ∀ r, (Watch.note call a r h).void = false → B r (Watch.note call a r h)) :
    Watched call B h (Core.ask a) :=
  ⟨fun _ => asks, answered⟩

end Watched

/-- The outline of a method, with `E` if it fails. -/
def WatchedM {α ε : Type} (call : CoreCall) (E : Watch → Prop) (B : α → Watch → Prop) (h : Watch)
    (x : ExceptT ε CoreProgram α) : Prop :=
  Watched call (fun r h' => match r with | .ok value => B value h' | .error _ => E h') h x.run

namespace WatchedM

variable {α β ε ε' : Type} {call : CoreCall} {E : Watch → Prop} {B : α → Watch → Prop}
  {C : β → Watch → Prop} {h : Watch}

variable {e : ε} {f : α → ExceptT ε CoreProgram β} {x : ExceptT ε CoreProgram α}

theorem bind (hx : WatchedM call E B h x) (hf : ∀ value h', B value h' → WatchedM call E C h' (f value)) :
    WatchedM call E C h (x >>= f) := by
  refine Watched.bind hx fun r h' hr => ?_
  cases r with
  | ok value => exact hf value h' hr
  | error e => exact Watched.ret hr

theorem pure {value : α} (hB : B value h) : WatchedM call E B h (Pure.pure value : ExceptT ε CoreProgram α) :=
  .ret hB

theorem throw (hE : E h) : WatchedM call E B h (MonadExcept.throw e : ExceptT ε CoreProgram α) :=
  .ret hE

theorem thrown (hE : E h) : WatchedM call E C h ((MonadExcept.throw e : ExceptT ε CoreProgram α) >>= f) :=
  bind (B := fun _ _ => False) (throw hE) fun _ _ hfalse => hfalse.elim

theorem lift {x : CoreProgram α} (hx : Watched call B h x) :
    WatchedM call E B h (ExceptT.lift x : ExceptT ε CoreProgram α) :=
  Watched.bind hx fun _ _ hB => Watched.ret hB

theorem mapErr {x : CoreProgram (Except ε α)} {error : ε'}
    (hx : Watched call (fun r h' => match r with | .ok value => B value h' | .error _ => E h') h x) :
    WatchedM call E B h (Lib.mapErr x error) := by
  refine hx.bind fun r h' hr => ?_
  cases r with
  | ok value => exact .ret hr
  | error e => exact Watched.ret hr

theorem weaken {B' : α → Watch → Prop} (hx : WatchedM call E B h x)
    (hB : ∀ value h', B value h' → B' value h') : WatchedM call E B' h x := by
  refine Watched.weaken hx fun r h' hr => ?_
  cases r with
  | ok value => exact hB value h' hr
  | error e => exact hr

end WatchedM

/-! ## Transitions -/

/-- `h'` may know of more quiet than `h`, and is otherwise the same. -/
def Calmer (h h' : Watch) : Prop := ∃ b, h' = { h with quiet := h.quiet || b }

theorem Calmer.refl (h : Watch) : Calmer h h := ⟨false, by simp⟩

theorem Calmer.trans {h h' h'' : Watch} (first : Calmer h h') (second : Calmer h' h'') : Calmer h h'' := by
  obtain ⟨b, rfl⟩ := first
  obtain ⟨b', rfl⟩ := second
  exact ⟨b || b', by simp [Bool.or_assoc]⟩

/-- The call holds the lock of `p`, has begun no content call, and may do what it likes. -/
structure Commands (p : PluginId) (h : Watch) : Prop where
  lock : h.lock = some p
  free : h.Free

theorem Commands.calmer {p : PluginId} {h h' : Watch} (commands : Commands p h) (calmer : Calmer h h') :
    Commands p h' := by
  obtain ⟨b, rfl⟩ := calmer
  refine ⟨commands.lock, ?_⟩
  rcases commands.free with quiet | known
  · exact .inl (by simp [quiet])
  · exact .inr known

def Transitional (p : PluginId) : CoreAct → Prop
  | .startRuntime q | .stopRuntime q | .inspectRuntime q => q = p
  | .persistRuntimeLog .. | .utcNow => True
  | _ => False

section
variable {call : CoreCall} {h : Watch} {p : PluginId} {record : InstallPluginRecord}

theorem utcNow_watched : Watched call (fun _ h' => h' = h) h (ask .utcNow) :=
  .ask trivial fun _ _ => rfl

theorem persistRuntimeLogs_watched (logs : List String) :
    Watched call (fun _ h' => h' = h) h (persistRuntimeLogs p logs).run := by
  induction logs with
  | nil => exact .ret rfl
  | cons log logs ih =>
    have logged : WatchedM call (fun h' => h' = h) (fun _ h' => h' = h) h
        (orFail (ask (.persistRuntimeLog p log)) .internal) := by
      refine .mapErr (.ask trivial fun r _ => ?_)
      cases r <;> rfl
    refine .bind logged fun r h' hr => ?_
    cases r with
    | ok _ =>
      cases hr
      exact ih
    | error e => exact .ret hr

theorem transitional_watched {a : CoreAct} (commands : Commands p h) (ha : Transitional p a) :
    Watched call (fun _ h' => Calmer h h') h (ask a) := by
  cases a with
  | startRuntime q | stopRuntime q =>
    cases ha
    exact .ask ⟨commands.lock, commands.free⟩ fun _ _ => .refl h
  | inspectRuntime q =>
    cases ha
    refine .ask commands.lock fun r _ => ?_
    rcases r with e | state
    · exact .refl h
    · exact ⟨_, rfl⟩
  | persistRuntimeLog | utcNow => exact .ask trivial fun _ _ => .refl h
  | _ => exact ha.elim

/-- A transition of `p` hands back the record of `p`, with `Q` if it succeeds. -/
abbrev WatchedTransition (call : CoreCall) (p : PluginId) (Q : InstallPluginRecord → Prop) (h₀ h : Watch)
    (x : Transition) : Prop :=
  Watched call (fun r h' => Calmer h₀ h' ∧ r.2.pluginId = p ∧ (r.1 = .ok () → Q r.2)) h x

theorem stopTransition_watched (named : record.pluginId = p) (commands : Commands p h) :
    WatchedTransition call p (fun _ => True) h h (stopTransition record) := by
  subst named
  refine .bind (transitional_watched commands rfl) fun r h' hr => ?_
  cases r with
  | error e => exact .ret ⟨hr, rfl, fun _ => trivial⟩
  | ok stopped =>
    dsimp only
    cases validateRuntime stopped record.pluginId with
    | error e => exact .ret ⟨hr, rfl, fun _ => trivial⟩
    | ok _ =>
    dsimp only
    split
    · exact .ret ⟨hr, rfl, fun _ => trivial⟩
    refine .bind utcNow_watched fun now _ heq => heq ▸ ?_
    refine .bind (persistRuntimeLogs_watched _) fun result _ heq => heq ▸ ?_
    exact .ret ⟨hr, rfl, fun _ => trivial⟩

theorem stopStarted_watched (named : record.pluginId = p) (commands : Commands p h) :
    WatchedTransition call p (fun _ => True) h h (stopStarted record) := by
  subst named
  refine .bind (transitional_watched commands rfl) fun r h' hr => ?_
  cases r with
  | error e => exact .ret ⟨hr, rfl, fun _ => trivial⟩
  | ok stopped =>
    dsimp only
    cases validateRuntime stopped record.pluginId with
    | error e => exact .ret ⟨hr, rfl, fun _ => trivial⟩
    | ok _ =>
    dsimp only
    split
    · refine .bind utcNow_watched fun now _ heq => heq ▸ ?_
      refine .bind (persistRuntimeLogs_watched _) fun result _ heq => heq ▸ ?_
      exact .ret ⟨hr, rfl, fun _ => trivial⟩
    · exact .ret ⟨hr, rfl, fun _ => trivial⟩

theorem rollbackStartedRuntime_watched {Q : InstallPluginRecord → Prop}
    {h₀ : Watch} (named : record.pluginId = p) (commands : Commands p h₀)
    (calmer : Calmer h₀ h) (error : PluginManagementError) :
    WatchedTransition call p Q h₀ h (rollbackStartedRuntime record error) := by
  refine .bind (stopStarted_watched named (commands.calmer calmer)) fun r h' hr => ?_
  obtain ⟨cleanup, stopped⟩ := r
  have hcalmer : Calmer h₀ h' := calmer.trans hr.1
  refine .bind utcNow_watched fun now _ heq => heq ▸ ?_
  cases cleanup with
  | ok _ => exact .ret ⟨hcalmer, hr.2.1, nofun⟩
  | error e =>
    show WatchedTransition call p Q h₀ h' (if _ then _ else _)
    split
    · exact .ret ⟨hcalmer, hr.2.1, nofun⟩
    · exact .ret ⟨hcalmer, hr.2.1, nofun⟩

theorem startTransition_watched (named : record.pluginId = p) (commands : Commands p h) :
    WatchedTransition call p (fun record => record.status = .healthy) h h (startTransition record) := by
  have rollback : ∀ error h', Calmer h h' → WatchedTransition call p
      (fun record => record.status = .healthy) h h' (rollbackStartedRuntime record error) :=
    fun error h' hr => rollbackStartedRuntime_watched named commands hr error
  subst named
  refine .bind (transitional_watched commands rfl) fun r h' hr => ?_
  cases r with
  | error e => exact .ret ⟨hr, rfl, nofun⟩
  | ok started =>
    dsimp only
    cases validateRuntime started record.pluginId with
    | error e => exact rollback _ _ hr
    | ok _ =>
    refine .bind (persistRuntimeLogs_watched _) fun r _ heq => heq ▸ ?_
    cases r with
    | error e => exact rollback _ _ hr
    | ok _ =>
      refine .bind (transitional_watched (commands.calmer hr) rfl) fun r h'' hr' => ?_
      have hcalmer : Calmer h h'' := hr.trans hr'
      cases r with
      | error e => exact rollback _ _ hcalmer
      | ok inspected =>
        dsimp only
        cases validateRuntime inspected record.pluginId with
        | error e => exact rollback _ _ hcalmer
        | ok _ =>
        dsimp only
        split
        · split
          · refine .bind utcNow_watched fun now _ heq => heq ▸ ?_
            exact .ret ⟨hcalmer, rfl, nofun⟩
          · exact rollback _ _ hcalmer
        · refine .bind (persistRuntimeLogs_watched _) fun r _ heq => heq ▸ ?_
          cases r with
          | error e => exact rollback _ _ hcalmer
          | ok _ =>
            refine .bind utcNow_watched fun now _ heq => heq ▸ ?_
            exact .ret ⟨hcalmer, rfl, fun _ => rfl⟩

end

/-! ## Rows -/

def Idle (h : Watch) : Prop := h.lease = none

def Watch.load (call : CoreCall) (h : Watch) (row : InstallPluginRecord) : Watch :=
  { h with status := some row.status, quiet := h.quiet || call.restarts row }

/-- The call holds the lock of `p`, and no content call is in flight. -/
structure Alone (p : PluginId) (h : Watch) : Prop where
  lock : h.lock = some p
  lease : h.lease = none
  quiet : h.quiet = true

theorem Alone.commands {p : PluginId} {h : Watch} (alone : Alone p h) : Commands p h :=
  ⟨alone.lock, .inl alone.quiet⟩

theorem Alone.calmer {p : PluginId} {h h' : Watch} (alone : Alone p h) (calmer : Calmer h h') :
    Alone p h' := by
  obtain ⟨b, rfl⟩ := calmer
  exact ⟨alone.lock, alone.lease, by simp [alone.quiet]⟩

theorem Alone.load {p : PluginId} {h : Watch} (alone : Alone p h) (call : CoreCall)
    (row : InstallPluginRecord) : Alone p (h.load call row) :=
  ⟨alone.lock, alone.lease, by simp [Watch.load, alone.quiet]⟩

theorem Idle.calmer {h h' : Watch} (idle : Idle h) (calmer : Calmer h h') : Idle h' := by
  obtain ⟨b, rfl⟩ := calmer
  exact idle

section
variable {call : CoreCall} {h : Watch} {p : PluginId} {record : InstallPluginRecord}
  {E : Watch → Prop}

theorem getRecord_watched (lock : h.lock = some p) (hE : E h) :
    WatchedM call E (fun record h' => record.pluginId = p ∧ h' = h.load call record) h (getRecord p) := by
  refine .bind (B := fun row h' => row.elim (E h')
      fun record => record.pluginId = p ∧ h' = h.load call record)
    (.mapErr (.ask lock fun r genuine => ?_)) fun row h' hrow => ?_
  · rcases r with e | (_ | row)
    · exact hE
    · exact hE
    · -- a row of another plugin would have voided the watch
      simp only [Watch.note, Bool.or_eq_false_iff, decide_eq_false_iff_not, not_not] at genuine
      simp only [Option.elim, Watch.note, Watch.load, genuine.1, genuine.2, ne_eq, not_true_eq_false,
        decide_false, Bool.or_false, true_and]
  · cases row with
    | none => exact .throw hrow
    | some record => exact .pure hrow

theorem save_watched (asks : h.Asks (.savePlugin record)) :
    Watched call (fun r h' => h'.lock = h.lock ∧ h'.lease = h.lease ∧ h'.quiet = h.quiet ∧
      (r = .ok () → h'.status = some record.status)) h (ask (.savePlugin record)) := by
  refine .ask asks fun r _ => ?_
  rcases r with e | u
  · exact ⟨rfl, rfl, rfl, nofun⟩
  · exact ⟨rfl, rfl, rfl, fun _ => rfl⟩

theorem saveAndReload_watched (asks : h.Asks (.savePlugin record)) (idle : Idle h) :
    WatchedM call Idle (fun _ _ => True) h (saveAndReload record) := by
  refine .bind (B := fun _ h' => h'.lock = some record.pluginId ∧ Idle h') ?_
    fun _ h' hsaved => ?_
  · refine .mapErr ((save_watched asks).weaken fun r h' hsaved => ?_)
    have idle' : Idle h' := hsaved.2.1.trans idle
    cases r with
    | ok _ => exact ⟨hsaved.1.trans asks.1, idle'⟩
    | error e => exact idle'
  · exact (getRecord_watched hsaved.1 hsaved.2).weaken fun _ _ _ => trivial

theorem recordManagementFailure_watched (asks : h.Asks (.savePlugin record)) :
    Watched call (fun _ h' => h'.lock = h.lock ∧ h'.lease = h.lease ∧ h'.quiet = h.quiet) h
      (recordManagementFailure record) := by
  refine .bind utcNow_watched fun now h' heq => ?_
  subst heq
  refine .bind (save_watched asks) fun r h' hsaved => ?_
  exact .ret ⟨hsaved.1, hsaved.2.1, hsaved.2.2.1⟩

theorem Commands.saves (commands : Commands p h) (named : record.pluginId = p) : h.Asks (.savePlugin record) :=
  ⟨named ▸ commands.lock, .inl commands.free⟩

theorem saves_loaded {row : InstallPluginRecord} (lock : h.lock = some record.pluginId)
    (same : record.status = row.status) : (h.load call row).Asks (.savePlugin record) := by
  refine ⟨lock, ?_⟩
  by_cases healthy : row.status = .healthy
  · exact .inr (same.trans healthy)
  · exact .inl (.inr ⟨row.status, rfl, healthy⟩)

theorem commands_loaded {row : InstallPluginRecord} (lock : h.lock = some p)
    (status : row.status ≠ .healthy) : Commands p (h.load call row) :=
  ⟨lock, .inr ⟨row.status, rfl, status⟩⟩

theorem transitionOr_watched {x : Transition} {Q : InstallPluginRecord → Prop}
    {failed : InstallPluginRecord → InstallPluginRecord}
    (hx : WatchedTransition call p Q h h x) (commands : Commands p h) (idle : Idle h)
    (hfailed : ∀ record, record.pluginId = p → (failed record).pluginId = p) :
    WatchedM call Idle (fun record h' => Calmer h h' ∧ record.pluginId = p) h (transitionOr x failed) := by
  refine .bind (.lift hx) fun r h' hr => ?_
  obtain ⟨result, record⟩ := r
  obtain ⟨calmer, named, -⟩ := hr
  cases result with
  | ok _ => exact .pure ⟨calmer, named⟩
  | error e =>
    have asks : h'.Asks (.savePlugin (failed record)) :=
      (commands.calmer calmer).saves (hfailed record named)
    refine .bind (.lift (recordManagementFailure_watched asks)) fun _ h₂ hsaved => ?_
    exact .throw (hsaved.2.1.trans (idle.calmer calmer))

end

/-! ## Management -/

section
variable {call : CoreCall} {h : Watch} {p : PluginId}

theorem lockOperation_watched (idle : Idle h) :
    WatchedM call Idle (fun _ h' => h'.lock = some p ∧ Idle h') h (lockOperation p) := by
  refine .bind (B := fun locked h' => Idle h' ∧ (locked = true → h'.lock = some p))
    (.lift (.ask idle fun locked _ => ⟨idle, fun hlocked => ?_⟩))
    fun locked h' hlocked => ?_
  · rw [hlocked]
    rfl
  · cases locked with
    | false => exact .throw hlocked.1
    | true => exact .pure ⟨hlocked.2 rfl, hlocked.1⟩

theorem hasActiveCalls_watched (lock : h.lock = some p) (idle : Idle h) :
    Watched call (fun active h' => Idle h' ∧ h'.lock = some p ∧
      (active = false → Alone p h')) h (ask (.hasActiveCalls p)) := by
  refine .ask ⟨lock, idle⟩ fun active _ => ⟨idle, lock, fun hactive => ?_⟩
  rw [hactive]
  exact ⟨lock, idle, by simp [Watch.note]⟩

theorem refuseActiveCalls_watched (lock : h.lock = some p) (idle : Idle h) :
    WatchedM call Idle (fun _ h' => Alone p h') h (refuseActiveCalls p) := by
  refine .bind (.lift (hasActiveCalls_watched lock idle)) fun active h' hactive => ?_
  cases active with
  | true => exact .throw hactive.1
  | false => exact .pure (hactive.2.2 rfl)

theorem alone_watched {α : Type} {f : InstallPluginRecord → ManageM α} (idle : Idle h)
    (hf : ∀ record h', record.pluginId = p → Alone p h' → WatchedM call Idle (fun _ _ => True) h' (f record)) :
    WatchedM call Idle (fun _ _ => True) h (do
      lockOperation p
      refuseActiveCalls p
      let record ← getRecord p
      f record) := by
  refine .bind (lockOperation_watched idle) fun _ h' hlock => ?_
  refine .bind (refuseActiveCalls_watched hlock.1 hlock.2) fun _ h' alone => ?_
  refine .bind (getRecord_watched alone.lock alone.lease) fun record h' hrow => ?_
  rw [hrow.2]
  exact hf record _ hrow.1 (alone.load call record)

theorem start_watched (idle : Idle h) : WatchedM call Idle (fun _ _ => True) h (start p) := by
  refine alone_watched idle fun record h' named alone => ?_
  split
  · exact .thrown alone.lease
  · refine .bind (transitionOr_watched (startTransition_watched named alone.commands)
      alone.commands alone.lease fun _ hnamed => hnamed) fun record h'' hr => ?_
    have alone' := alone.calmer hr.1
    exact saveAndReload_watched (alone'.commands.saves hr.2) alone'.lease

theorem stop_watched (idle : Idle h) : WatchedM call Idle (fun _ _ => True) h (stop p) := by
  refine alone_watched idle fun record h' named alone => ?_
  refine .bind (transitionOr_watched (stopTransition_watched named alone.commands)
    alone.commands alone.lease fun _ hnamed => hnamed) fun record h'' hr => ?_
  have alone' := alone.calmer hr.1
  exact saveAndReload_watched (alone'.commands.saves hr.2) alone'.lease

theorem uninstall_watched (idle : Idle h) : WatchedM call Idle (fun _ _ => True) h (uninstall p) := by
  refine alone_watched idle fun record h' named alone => ?_
  refine .bind (transitionOr_watched (stopTransition_watched named alone.commands)
    alone.commands alone.lease fun _ hnamed => hnamed) fun record h'' hr => ?_
  have alone' := alone.calmer hr.1
  refine .bind (B := fun _ h' => Alone p h')
    (.mapErr ((save_watched (alone'.commands.saves hr.2)).weaken fun r h' hsaved => ?_))
    fun _ h' alone => ?_
  · have kept : Alone p h' := ⟨hsaved.1.trans alone'.lock, hsaved.2.1.trans alone'.lease,
      hsaved.2.2.1.trans alone'.quiet⟩
    cases r with
    | ok _ => exact kept
    | error e => exact kept.lease
  have failed : ∀ h', Alone p h' → WatchedM call Idle (fun _ _ => True) h' (do
      ExceptT.lift (recordManagementFailure record)
      throw .runtimeUnavailable : ManageM Unit) := fun h' alone =>
    .bind (.lift (recordManagementFailure_watched (alone.commands.saves hr.2)))
      fun _ _ hsaved => .throw (hsaved.2.1.trans alone.lease)
  refine .bind (.lift (.ask ⟨alone.lock, .inl alone.quiet⟩ fun _ _ => alone)) fun removed h' alone => ?_
  cases removed with
  | error e => exact failed h' alone
  | ok removed =>
    show WatchedM call Idle _ h' (if _ then _ else _)
    split
    · exact failed h' alone
    · refine .mapErr (.ask ⟨alone.lock, alone.quiet⟩ fun r _ => ?_)
      cases r with
      | ok _ => trivial
      | error e => exact alone.lease

theorem inspectRuntime_watched (idle : Idle h) :
    WatchedM (.inspectRuntime p) Idle (fun _ _ => True) h (inspectRuntime p) := by
  refine .bind (lockOperation_watched idle) fun _ h' hlock => ?_
  refine .bind (getRecord_watched hlock.1 hlock.2) fun record h₁ hrow => ?_
  obtain ⟨named, rfl⟩ := hrow
  have lock : h'.lock = some record.pluginId := named ▸ hlock.1
  refine .bind (B := fun r h₂ => (∀ e, r = .error e → h₂ = h'.load (.inspectRuntime p) record) ∧ ∀ state, r =
    .ok state → h₂.lock = h'.lock ∧ h₂.lease = none ∧ (state.status = .healthy ∨ h₂.quiet = true))
    (.lift (.ask hlock.1 fun r _ => ?_)) fun r h₂ hr => ?_
  · rcases r with e | state
    · exact ⟨fun _ _ => rfl, nofun⟩
    · refine ⟨nofun, ?_⟩
      intro _ hstate
      cases hstate
      refine ⟨rfl, hlock.2, ?_⟩
      by_cases healthy : state.status = .healthy
      · exact .inl healthy
      · exact .inr (by simp [Watch.note, Watch.sees, healthy])
  cases r with
  | error e =>
    rw [hr.1 e rfl]
    refine .bind (.lift (recordManagementFailure_watched (saves_loaded lock rfl)))
      fun _ _ hsaved => .throw (hsaved.2.1.trans hlock.2)
  | ok runtime =>
    obtain ⟨hlock', idle', known⟩ := hr.2 runtime rfl
    refine .bind (B := fun _ h₃ => h₃ = h₂) ?_ fun _ _ heq => heq ▸ ?_
    · cases validateRuntime runtime p with
      | ok _ => exact .ret rfl
      | error e => exact .ret idle'
    refine .bind (B := fun _ h₃ => h₃ = h₂)
      ((persistRuntimeLogs_watched _).weaken fun r h₃ heq => ?_) fun (_ : Unit) _ heq => heq ▸ ?_
    · cases r with
      | ok _ => exact heq
      | error e => exact heq ▸ idle'
    refine .bind (.lift utcNow_watched) fun now _ heq => heq ▸ ?_
    refine saveAndReload_watched ⟨hlock'.trans lock, ?_⟩ idle'
    rcases known with healthy | quiet
    · exact .inr (by simp [healthy])
    · exact .inl (.inl quiet)

variable {command : SettingsCommand} {previous : InstallPluginRecord}

theorem saveSettings_watched {record : InstallPluginRecord}
    (idle : Idle h) (lock : h.lock = some record.pluginId)
    (saves : h.Free ∨ settingsStatus command previous.status record.status = .healthy) :
    WatchedM call Idle (fun _ _ => True) h (saveSettings command previous record) := by
  refine .bind (.lift utcNow_watched) fun now _ heq => heq ▸ ?_
  exact saveAndReload_watched ⟨lock, saves⟩ idle

theorem settingsTransition_disabling (disables : command.enabled = false) (named : previous.pluginId = p)
    (alone : Alone p h) : WatchedM call Idle (fun record h' => Calmer h h' ∧
      record.pluginId = p) h (settingsTransition command previous) := by
  unfold settingsTransition
  simp only [disables, Bool.not_false, Bool.true_and, Bool.false_and, Bool.false_eq_true, if_false]
  split
  · exact transitionOr_watched (stopTransition_watched named alone.commands) alone.commands alone.lease
      fun _ _ => named
  · exact .pure ⟨.refl h, named⟩

/-- One that gets to run always is started; if it runs already, no content call is in flight. -/
theorem settingsTransition_enabling (enables : command.enabled = true)
    (named : previous.pluginId = p) (lock : h.lock = some p) (idle : Idle h) :
    WatchedM (.updateSettings command) Idle (fun record h' => h'.lock = some record.pluginId ∧
      Idle h' ∧ (h'.Free ∨ settingsStatus command previous.status record.status = .healthy))
      (h.load (.updateSettings command) previous) (settingsTransition command previous) := by
  unfold settingsTransition
  simp only [enables, Bool.not_true, Bool.false_and, Bool.true_and, Bool.false_eq_true, if_false]
  split
  · rename_i always
    have commands : Commands p (h.load (.updateSettings command) previous) := by
      by_cases healthy : previous.status = .healthy
      · refine ⟨lock, .inl ?_⟩
        simp only [Bool.and_eq_true] at always
        simp only [Watch.load, CoreCall.restarts, enables, always.1, always.2, healthy, decide_true,
          Bool.and_self, Bool.or_true]
      · exact commands_loaded lock healthy
    refine (transitionOr_watched (startTransition_watched named commands) commands idle
      fun _ _ => named).weaken fun record h' hr => ?_
    have commands' := commands.calmer hr.1
    exact ⟨hr.2 ▸ commands'.lock, .calmer (h := h.load _ previous) idle hr.1, .inl commands'.free⟩
  · refine .pure ⟨named ▸ lock, idle, ?_⟩
    by_cases healthy : previous.status = .healthy
    · exact .inr (by simp [settingsStatus, enables, healthy])
    · exact .inl (.inr ⟨previous.status, rfl, healthy⟩)

theorem updateSettings_watched (idle : Idle h) :
    WatchedM (.updateSettings command) Idle (fun _ _ => True) h (updateSettings command) := by
  unfold updateSettings
  split
  · exact .throw idle
  refine .bind (lockOperation_watched idle) fun _ h' hlock => ?_
  cases enabled : command.enabled with
  | false =>
    refine .bind (refuseActiveCalls_watched hlock.1 hlock.2) fun _ h' alone => ?_
    refine .bind (getRecord_watched alone.lock alone.lease) fun previous h'' hrow => ?_
    obtain ⟨named, rfl⟩ := hrow
    have alone' := alone.load (.updateSettings command) previous
    refine .bind (settingsTransition_disabling enabled named alone') fun record h'' hr => ?_
    have alone'' := alone'.calmer hr.1
    exact saveSettings_watched alone''.lease (hr.2 ▸ alone''.lock) (.inl (.inl alone''.quiet))
  | true =>
    refine .bind (B := fun _ h'' => h'' = h') (.pure rfl) fun _ _ heq => heq ▸ ?_
    refine .bind (getRecord_watched hlock.1 hlock.2) fun previous h'' hrow => ?_
    obtain ⟨named, rfl⟩ := hrow
    refine .bind (settingsTransition_enabling enabled named hlock.1 hlock.2)
      fun record h'' hr => ?_
    exact saveSettings_watched hr.2.1 hr.1 hr.2.2

end

/-! ## The reconciler and the cleanup -/

section
variable {call : CoreCall} {h : Watch} {p : PluginId} {record : InstallPluginRecord}

theorem saveOr_watched {outcome : CoreProgram ReconcileOutcome} (asks : h.Asks (.savePlugin record))
    (idle : Idle h) (hx : ∀ h', Idle h' → Watched call (fun _ h' => Idle h') h' outcome) :
    Watched call (fun _ h' => Idle h') h (saveOr record outcome) := by
  refine .bind (save_watched asks) fun r h' hsaved => ?_
  have idle' : Idle h' := hsaved.2.1.trans idle
  cases r with
  | ok _ => exact hx h' idle'
  | error e => exact .ret idle'

theorem reconcileAlways_watched (lock : h.lock = some record.pluginId) (idle : Idle h) :
    Watched call (fun _ h' => Idle h') (h.load call record) (reconcileAlways record) := by
  have reset : ∀ h' outcome, Idle h' → Watched call (fun _ h' => Idle h') h' (do
      ask (.resetAutomaticStartFailures record.pluginId)
      return outcome : CoreProgram ReconcileOutcome) := fun h' outcome idle =>
    .bind (.ask trivial fun _ _ => idle)
      fun _ _ idle' => .ret idle'
  show Watched call _ _ (if _ then _ else _)
  split
  · exact reset _ _ idle
  rename_i unhealthy
  have commands : Commands record.pluginId (h.load call record) := commands_loaded lock unhealthy
  refine .bind (.ask trivial fun _ _ => rfl)
    fun failures h' heq => ?_
  subst heq
  split
  · exact .ret idle
  refine .bind (startTransition_watched rfl commands) fun r h' hr => ?_
  obtain ⟨result, started⟩ := r
  obtain ⟨calmer, named, -⟩ := hr
  have commands' := commands.calmer calmer
  have idle' : Idle h' := Idle.calmer (h := h.load call record) idle calmer
  cases result with
  | ok _ => exact saveOr_watched (commands'.saves named) idle' fun h'' idle'' => reset h'' _ idle''
  | error e =>
    refine .bind (B := fun _ h'' => h'' = h') (.ask trivial fun _ _ => rfl)
      fun failures h'' heq => ?_
    subst heq
    refine .bind utcNow_watched fun now h'' heq => ?_
    subst heq
    refine .bind (save_watched (commands'.saves named)) fun r h'' hsaved => ?_
    exact .ret (hsaved.2.1.trans idle')

variable {idleTimeout : Nat} {now : Timestamp}

theorem reconcileOnDemand_watched (lock : h.lock = some record.pluginId) (idle : Idle h) :
    Watched call (fun _ h' => Idle h') h (reconcileOnDemand record now idleTimeout) := by
  show Watched call _ _ (if _ then _ else _)
  split
  · exact .ret idle
  refine .bind (hasActiveCalls_watched lock idle) fun active h' hactive => ?_
  cases active with
  | true => exact .ret hactive.1
  | false =>
    have alone : Alone record.pluginId h' := hactive.2.2 rfl
    show Watched call _ h' (if numSeconds (now - record.lastUsedAt.getD record.updatedAt) <
      min (idleTimeout : Int) (2 ^ 63 - 1) then _ else _)
    split
    · exact .ret alone.lease
    refine .bind (stopTransition_watched rfl alone.commands) fun r h'' hr => ?_
    obtain ⟨result, stopped⟩ := r
    obtain ⟨calmer, named, -⟩ := hr
    have alone' := alone.calmer calmer
    have saves := alone'.commands.saves named
    cases result with
    | ok _ => exact saveOr_watched saves alone'.lease fun h' idle' => .ret idle'
    | error e =>
      refine .bind (recordManagementFailure_watched saves) fun _ _ hsaved => ?_
      exact .ret (hsaved.2.1.trans alone'.lease)

theorem tryReconcilePlugin_watched (idle : Idle h) :
    Watched call (fun _ h' => Idle h') h (tryReconcilePlugin p now idleTimeout) := by
  refine .bind (B := fun locked h' => Idle h' ∧ (locked = true → h'.lock = some p))
    (.ask idle fun locked _ => ⟨idle, fun hlocked => by rw [hlocked]; rfl⟩)
    fun locked h' hlocked => ?_
  cases locked with
  | false => exact .ret hlocked.1
  | true =>
    refine .bind (getRecord_watched (hlocked.2 rfl) hlocked.1) fun r h'' hr => ?_
    cases r with
    | error e => exact .ret hr
    | ok record =>
      obtain ⟨named, rfl⟩ := hr
      have lock : h'.lock = some record.pluginId := named ▸ hlocked.2 rfl
      have idle' : Idle (h'.load call record) := hlocked.1
      show Watched call _ _ (if _ then _ else _)
      split
      · exact .ret idle'
      · cases hmode : record.runMode with
        | always => exact reconcileAlways_watched lock hlocked.1
        | onDemand => exact reconcileOnDemand_watched lock idle'

theorem reconcileDuePlugins_watched (idle : Idle h) :
    WatchedM call Idle (fun _ _ => True) h (reconcileDuePlugins now idleTimeout) := by
  have each : ∀ pluginIds h, Idle h → Watched call (fun _ h' => Idle h') h
      (reconcileDuePlugins.reconcileEach now idleTimeout pluginIds) := by
    intro pluginIds
    induction pluginIds with
    | nil => exact fun h idle => .ret idle
    | cons p pluginIds ih =>
      intro h idle
      refine .bind (tryReconcilePlugin_watched idle) fun outcome h' idle' => ?_
      exact .bind (ih h' idle') fun outcomes _ idle'' => .ret idle''
  refine .bind (.mapErr (.ask trivial fun r _ => ?_))
    fun records h' idle' => .lift ((each _ h' idle').weaken fun _ _ _ => trivial)
  cases r with
  | ok records => exact idle
  | error e => exact idle

theorem recordCleanupFailure_watched (alone : Alone p h) (named : record.pluginId = p) :
    Watched call (fun _ h' => Idle h') h (recordCleanupFailure record) := by
  refine .bind utcNow_watched fun now h' heq => ?_
  subst heq
  refine .bind (save_watched (alone.commands.saves named)) fun r h' hsaved => ?_
  exact .ret (hsaved.2.1.trans alone.lease)

/-- `cleanup_all_runtimes` finds no content call in flight, or its watch is void. -/
theorem cleanupRuntimeForRecord_watched {listed : InstallPluginRecord} (idle : Idle h) :
    WatchedM .cleanupAllRuntimes Idle (fun _ h' => Idle h') h (cleanupRuntimeForRecord listed) := by
  refine .bind (lockOperation_watched idle) fun _ h' hlock => ?_
  refine .bind (B := fun active h' => active = false ∧ Alone listed.pluginId h')
    (.lift (.ask ⟨hlock.1, hlock.2⟩ fun active genuine => ?_)) fun active h' hactive => ?_
  · cases active with
    | true => simp [Watch.note, Watch.expectsQuiet] at genuine
    | false => exact ⟨rfl, hlock.1, hlock.2, by simp [Watch.note]⟩
  obtain ⟨rfl, alone⟩ := hactive
  refine .bind (getRecord_watched alone.lock alone.lease) fun record h₁ hrow => ?_
  obtain ⟨named, rfl⟩ := hrow
  have alone' := alone.load .cleanupAllRuntimes record
  refine .bind (.lift (.ask trivial fun _ _ => alone')) fun timesOut h₂ alone => ?_
  cases timesOut with
  | true => exact .thrown alone.lease
  | false =>
    refine .bind (.lift (stopTransition_watched named alone.commands))
      fun r h₃ hr => ?_
    obtain ⟨result, stopped⟩ := r
    obtain ⟨calmer, named, -⟩ := hr
    have alone' := alone.calmer calmer
    cases result with
    | error e =>
      exact .bind (.lift (recordCleanupFailure_watched alone' named))
        fun _ _ idle' => .throw idle'
    | ok _ =>
      have saves : h₃.Asks (.savePlugin { stopped with status := inactiveStatus stopped.enabled }) :=
        alone'.commands.saves named
      refine .mapErr ((save_watched saves).weaken fun r h₄ hsaved => ?_)
      have idle' : Idle h₄ := hsaved.2.1.trans alone'.lease
      cases r with
      | ok _ => exact idle'
      | error e => exact idle'

theorem cleanupAllRuntimes_watched (idle : Idle h) :
    WatchedM .cleanupAllRuntimes Idle (fun _ _ => True) h cleanupAllRuntimes := by
  have each : ∀ records h, Idle h →
      Watched .cleanupAllRuntimes (fun _ h' => Idle h') h (cleanupEach records) := by
    intro records
    induction records with
    | nil => exact fun h idle => .ret idle
    | cons record records ih =>
      intro h idle
      show Watched _ _ _ (if _ then _ else _)
      split
      · exact ih h idle
      · refine .bind (B := fun _ h' => Idle h') (.weaken (cleanupRuntimeForRecord_watched idle) fun r h' hr => ?_)
          fun result h' idle' => ?_
        · cases r with
          | ok _ => exact hr
          | error e => exact hr
        · exact .bind (ih h' idle') fun failures _ idle'' => .ret idle''
  refine .bind (.mapErr (.ask trivial fun r _ => ?_))
    fun records h' idle' => .lift ((each _ h' idle').weaken fun _ _ _ => trivial)
  cases r with
  | ok records => exact idle
  | error e => exact idle

end

/-! ## Content calls -/

section
variable {call : CoreCall} {h : Watch} {p : PluginId} {record : InstallPluginRecord}

/-- A content call has made sure that the plugin is healthy. -/
structure Ready (p : PluginId) (h : Watch) : Prop where
  lock : h.lock = some p
  lease : h.lease = some p
  healthy : h.status = some .healthy

theorem ensureStarted_watched (lock : h.lock = some record.pluginId)
    (lease : h.lease = some record.pluginId) (status : h.status = some record.status) :
    WatchedM call (fun _ => True) (fun _ h' => Ready record.pluginId h') h (ensureStarted record) := by
  show WatchedM call _ _ _ (if _ then _ else _)
  split
  · rename_i unhealthy
    have commands : Commands record.pluginId h := ⟨lock, .inr ⟨_, status, unhealthy⟩⟩
    refine .bind (.lift (startTransition_watched rfl commands)) fun r h' hr => ?_
    obtain ⟨result, started⟩ := r
    obtain ⟨calmer, named, healthy⟩ := hr
    have saves := (commands.calmer calmer).saves named
    cases result with
    | error e =>
      exact .bind (.lift (recordManagementFailure_watched saves))
        fun _ _ _ => .throw trivial
    | ok _ =>
      refine .mapErr ((save_watched saves).weaken fun r h'' hsaved => ?_)
      cases r with
      | error e => trivial
      | ok _ =>
        obtain ⟨b, rfl⟩ := calmer
        exact ⟨hsaved.1.trans lock, hsaved.2.1.trans lease,
          (hsaved.2.2.2 rfl).trans (congrArg some (healthy rfl))⟩
  · rename_i healthy
    exact .pure ⟨lock, lease, status.trans (congrArg some (not_not.mp healthy))⟩

theorem persistContentCallLog_watched {event : ContentCallEvent} (later : event ≠ .started) :
    WatchedM call (fun _ => True) (fun _ _ => True) h (persistContentCallLog p event) := by
  cases event with
  | started => exact absurd rfl later
  | succeeded | failed =>
    refine .mapErr (.ask trivial fun r _ => ?_)
    cases r <;> trivial

theorem callRuntime_watched {method : ContentMethod} (ready : Ready p h) :
    WatchedM call (fun _ => True) (fun _ _ => True) h (callRuntime p method) := by
  refine .bind (B := fun _ h' => h'.lease = some p) (.mapErr
    (.ask ⟨ready.lock, ready.lease, ready.healthy⟩ fun r _ => ?_)) fun (_ : Unit) h' lease => ?_
  · cases r with
    | ok _ => exact ready.lease
    | error e => trivial
  refine .bind (.lift utcNow_watched) fun now _ heq => heq ▸ ?_
  refine .bind (B := fun _ h' => h'.lease = some p) (.mapErr
    (.ask trivial fun r _ => ?_)) fun (_ : Unit) h' lease => ?_
  · cases r with
    | ok _ => exact lease
    | error e => trivial
  refine .bind (B := fun _ _ => True) (.lift (.ask lease fun _ _ => trivial))
    fun r h' _ => ?_
  rcases r with e | (_ | _)
  · exact .bind (persistContentCallLog_watched (by decide)) fun _ _ _ => .throw trivial
  · exact .bind (persistContentCallLog_watched (by decide)) fun _ _ _ => .throw trivial
  · exact persistContentCallLog_watched (by decide)

theorem contentLock_watched {x : CoreProgram Bool} {error : ContentInvocationError}
    {B : Watch → Prop} (hx : Watched call (fun given h' => given = true → B h') h x) :
    WatchedM call (fun _ => True) (fun _ h' => B h') h (contentLock x error) := by
  refine .bind (.lift hx) fun given h' hgiven => ?_
  cases given with
  | false => exact .throw trivial
  | true => exact .pure (hgiven rfl)

theorem invokeContent_watched {request : ContentInvocationRequest} (idle : Idle h) :
    WatchedM call (fun _ => True) (fun _ _ => True) h (invokeContent request) := by
  unfold invokeContent
  split
  · exact .throw trivial
  refine .bind (contentLock_watched (.ask trivial fun _ _ _ => idle)) fun _ h' idle => ?_
  refine .bind (contentLock_watched (B := fun h' => h'.lock = some request.pluginId ∧ Idle h')
    (.ask idle fun _ _ given => ⟨by rw [given]; rfl, idle⟩)) fun _ h' hlock => ?_
  refine .bind (.lift (getRecord_watched (E := fun _ => True) hlock.1 trivial))
    fun r h'' hr => ?_
  cases r with
  | error e => exact .throw trivial
  | ok record =>
    obtain ⟨named, rfl⟩ := hr
    refine .bind (B := fun _ h'' => h'' = h'.load call record) ?_ fun _ h'' heq => ?_
    · cases validateContentInvocation record request.method with
      | ok _ => exact .ret rfl
      | error e => exact .ret trivial
    subst heq
    refine .bind (contentLock_watched (B := fun h'' => h''.lock = some record.pluginId ∧ h''.lease = some
      record.pluginId ∧ h''.status = some record.status) (.ask ⟨hlock.1, hlock.2⟩ fun _ _ given => ?_)) fun _
      h'' hbegun => ?_
    · rw [given, named]
      exact ⟨hlock.1, rfl, rfl⟩
    split
    · exact .throw trivial
    · exact .bind (ensureStarted_watched hbegun.1 hbegun.2.1 hbegun.2.2)
        fun _ _ ready => callRuntime_watched ready

end

theorem program_watched {call : CoreCall} (manages : call.manages = true) :
    Watched call (fun _ _ => True) .start call.program := by
  have idle : Idle .start := rfl
  cases call with
  | install | reconcileInstallOperations => cases manages
  | cleanupAllRuntimes =>
    exact .bind (cleanupAllRuntimes_watched idle) fun _ _ _ => .ret trivial
  | start p => exact .bind (start_watched idle) fun _ _ _ => .ret trivial
  | stop p => exact .bind (stop_watched idle) fun _ _ _ => .ret trivial
  | inspectRuntime p => exact .bind (inspectRuntime_watched idle) fun _ _ _ => .ret trivial
  | updateSettings command =>
    exact .bind (updateSettings_watched idle) fun _ _ _ => .ret trivial
  | invokeContent request =>
    exact .bind (invokeContent_watched idle) fun _ _ _ => .ret trivial
  | uninstall p => exact .bind (uninstall_watched idle) fun _ _ _ => .ret trivial
  | reconcileDuePlugins now idleTimeout =>
    exact .bind (reconcileDuePlugins_watched idle) fun _ _ _ => .ret trivial

end AudioDown.Core
