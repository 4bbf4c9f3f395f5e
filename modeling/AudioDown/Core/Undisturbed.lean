/-
# AudioDown.Core.Undisturbed — a content call is left alone

The argument has three parts.  The operation lock is exclusive, so what a call has learned of a plugin
under the lock stays true (`Minded`).  A content call drops the lock with the plugin's row at `Healthy`,
and as long as it has its lease the row stays there: whoever wants to write another status knows either
that no call is in flight, or that the row is not `Healthy`, and neither is true.  For the same reason
nobody disturbs the runtime.
-/
import AudioDown.Core.Watch

namespace AudioDown.Core

open Lib Supervisor

/-! ## The table -/

/-- The row of `p` has this status. -/
def PluginStore.Status (store : PluginStore) (p : PluginId) (status : PluginStatus) : Prop :=
  ∃ row, store.get p = some row ∧ row.status = status

variable {store : PluginStore}

theorem status_unique {p : PluginId} {status status' : PluginStatus}
    (h : store.Status p status) (h' : store.Status p status') : status = status' := by
  obtain ⟨row, hrow, rfl⟩ := h
  obtain ⟨row', hrow', rfl⟩ := h'
  rw [Option.some.inj (hrow.symm.trans hrow')]

def WritesRow : CoreAct → Prop
  | .savePlugin _ | .deletePlugin _ => True
  | _ => False

variable {status : PluginStatus}

/-- A step whose call may ask for it leaves the status of a plugin, unless it writes the plugin's row. -/
theorem status_of_step {h : Watch} {a : CoreAct} {c : CoreOutcome}
    {q : PluginId} (asks : h.Asks a) (before : store.Status q status)
    (elsewhere : WritesRow a → h.lock = some q → status = .healthy ∧ ¬ h.Free) :
    (coreStep a c store).2.Status q status := by
  obtain ⟨row, hrow, hstatus⟩ := before
  cases coreStep_row a c store q with
  | same hsame => exact ⟨row, hsame.trans hrow, hstatus⟩
  | saved save hsaved =>
    subst save
    obtain ⟨named⟩ := (Lib.Table.get_eq_some.mp hsaved).2
    obtain ⟨lock, free | healthy⟩ := asks
    · exact absurd free (elsewhere trivial lock).2
    · exact ⟨_, hsaved, healthy.trans (elsewhere trivial lock).1.symm⟩
  | inserted insert =>
    subst insert
    exact asks.elim
  | completed complete =>
    subst complete
    exact asks.elim
  | rolledBack rollback =>
    subst rollback
    exact asks.elim
  | touched touch present htouched =>
    cases hrow.symm.trans present
    exact ⟨_, htouched, hstatus⟩
  | deleted delete =>
    subst delete
    obtain ⟨lock, quiet⟩ := asks
    exact absurd (.inl quiet) (elsewhere trivial lock).2

/-! ## The invariant -/

def dropsLock : Option CoreAct → Bool
  | none | some (.tryOperationLock _) | some (.persistContentCallLog _ .started) => true
  | some _ => false

theorem until_operation (g : Guards) (a : Option CoreAct) :
    (g.until a).operation = if dropsLock a then none else g.operation := by
  rcases a with _ | a
  · rfl
  · cases a <;> try rfl
    case persistContentCallLog p event => cases event <;> rfl

theorem until_lease (g : Guards) (a : Option CoreAct) :
    (g.until a).lease = if a = none then none else g.lease := by
  rcases a with _ | a
  · rfl
  · cases a <;> try rfl
    case persistContentCallLog p event => cases event <;> rfl

/-- Task `i` holds what its watch says, and what the watch says is true. -/
structure Minded (s : Attended) (i : Nat) (t : GuardedTask) (h : Watch) : Prop where
  watched : Watched t.call (fun _ _ => True) h t.prog
  genuine : h.void = false
  operation : t.guards.operation = if dropsLock t.prog.head then none else h.lock
  lease : t.guards.lease = if t.prog.head = none then none else h.lease
  quiet : h.quiet = true → ∀ p, t.guards.operation = some p →
    ∀ j u, s.tasks[j]? = some u → j ≠ i → u.guards.lease ≠ some p
  status : ∀ status, h.status = some status → ∀ p, t.guards.operation = some p → s.store.Status p status
  /-- a lease without the lock -/
  healthy : ∀ p, t.guards.lease = some p → t.guards.operation ≠ some p → s.store.Status p .healthy

structure Attended.Sound (s : Attended) : Prop where
  exclusive : ∀ (i j : Nat) (t u : GuardedTask) (p : PluginId), s.tasks[i]? = some t → s.tasks[j]? = some u →
    t.guards.operation = some p → u.guards.operation = some p → i = j
  tended : ∀ i t, s.tasks[i]? = some t → ∃ h, Minded s i t h

section
variable {s : Attended} {i : Nat} {c : CoreOutcome} {call : CoreCall} {g : Guards} {a : CoreAct}
  {k : a.Resp → CoreProgram Unit} {h : Watch}

theorem Minded.asks (tended : Minded s i ⟨call, .act a k, g⟩ h) : h.Asks a :=
  tended.watched.1 tended.genuine

theorem Minded.holds (tended : Minded s i ⟨call, .act a k, g⟩ h) (keeps : dropsLock (some a) = false) :
    g.operation = h.lock := by
  have := tended.operation
  simpa only [Prog.head, keeps, Bool.false_eq_true, if_false] using this

theorem Minded.leases (tended : Minded s i ⟨call, .act a k, g⟩ h) : g.lease = h.lease := by
  simpa [Prog.head] using tended.lease

/-! ### What the guards answer -/

variable {p : PluginId}

theorem not_leased (idle : s.active p = false) :
    ∀ (j : Nat) (u : GuardedTask), s.tasks[j]? = some u → u.guards.lease ≠ some p := by
  intro j u hu leased
  have := List.any_eq_false.mp idle u (List.mem_of_getElem? hu)
  exact this (by simpa using leased)

theorem not_locked (free : s.locked p = false) :
    ∀ (j : Nat) (u : GuardedTask), s.tasks[j]? = some u → u.guards.operation ≠ some p := by
  intro j u hu locked
  have := List.any_eq_false.mp free u (List.mem_of_getElem? hu)
  exact this (by simpa using locked)

theorem answers_hasActiveCalls (answered : s.answers (.hasActiveCalls p) c = true) :
    (coreStep (.hasActiveCalls p) c s.store).1 = s.active p := by
  cases c <;> simp [Attended.answers] at answered
  exact answered

theorem answers_tryOperationLock (answered : s.answers (.tryOperationLock p) c = true) :
    (coreStep (.tryOperationLock p) c s.store).1 = !s.locked p := by
  cases c <;> simp [Attended.answers] at answered
  exact answered

theorem read_row {row : InstallPluginRecord} (read : (coreStep (.getPlugin p) c store).1 = .ok (some row)) :
    store.get p = some row ∧ row.pluginId = p := by
  have hrow : store.get p = some row := (query_eq_ok read).symm
  exact ⟨hrow, (Lib.Table.get_eq_some.mp hrow).2⟩

/-! ### What the call holds after its step -/

theorem Minded.guards_after (tended : Minded s i ⟨call, .act a k, g⟩ h) (r : a.Resp) :
    (g.after a r).operation = (Watch.note call a r h).lock ∧
      (g.after a r).lease = (Watch.note call a r h).lease := by
  have held := tended.operation
  have leased : g.lease = h.lease := tended.leases
  cases a with
  | tryOperationLock p =>
    cases r with
    | false => exact ⟨held, leased⟩
    | true => exact ⟨rfl, leased⟩
  | beginActiveCall p =>
    cases r with
    | false => exact ⟨held, leased⟩
    | true => exact ⟨held, rfl⟩
  | persistContentCallLog p event => cases event <;> exact ⟨held, leased⟩
  | getPlugin p => rcases r with e | (_ | row) <;> exact ⟨held, leased⟩
  | savePlugin record => rcases r with e | u <;> exact ⟨held, leased⟩
  | inspectRuntime p => rcases r with e | state <;> exact ⟨held, leased⟩
  | contentStartupLock p => cases r <;> exact ⟨held, leased⟩
  | _ => exact ⟨held, leased⟩

theorem operation_new (answered : s.answers a c = true)
    (held : (g.after a (coreStep a c s.store).1).operation = some p) :
    g.operation = some p ∨ s.locked p = false := by
  generalize hr : (coreStep a c s.store).1 = r at held
  cases a with
  | tryOperationLock q =>
    cases r with
    | false => exact .inl held
    | true =>
      cases held
      exact .inr (by simpa using (answers_tryOperationLock answered).symm.trans hr)
  | contentStartupLock q | beginActiveCall q => cases r <;> exact .inl held
  | _ => exact .inl held

theorem lease_new {r : a.Resp} (leased : (g.after a r).lease = some p) :
    g.lease = some p ∨ a = .beginActiveCall p := by
  cases a with
  | beginActiveCall q =>
    cases r with
    | false => exact .inl leased
    | true =>
      cases leased
      exact .inr rfl
  | contentStartupLock q | tryOperationLock q => cases r <;> exact .inl leased
  | _ => exact .inl leased

/-! ### What the watch says after its step -/

section
variable (tended : Minded s i ⟨call, .act a k, g⟩ h)
include tended

theorem Minded.status_kept {p : PluginId} (plain : ¬ WritesRow a) (keeps : dropsLock (some a) = false)
    (known : h.status = some status) (lock : h.lock = some p) : (coreStep a c s.store).2.Status p status :=
  status_of_step tended.asks (tended.status status known p ((tended.holds keeps).trans lock))
    fun writes => absurd writes plain

theorem Minded.status_after {p : PluginId}
    (known : (Watch.note call a (coreStep a c s.store).1 h).status = some status)
    (lock : (Watch.note call a (coreStep a c s.store).1 h).lock = some p) :
    (coreStep a c s.store).2.Status p status := by
  cases a with
  | tryOperationLock q => cases known
  | deletePlugin q => cases known
  | persistContentCallLog q event =>
    cases event with
    | started => cases known
    | succeeded | failed => exact tended.status_kept (by simp [WritesRow]) rfl known lock
  | savePlugin record =>
    cases hr : (coreStep (.savePlugin record) c s.store).1 with
    | error e =>
      rw [hr] at known
      cases known
    | ok u =>
      rw [hr] at known lock
      cases known
      have saved := statement_ok hr
      have asks := tended.asks
      cases asks.1.symm.trans lock
      refine ⟨record, ?_, rfl⟩
      have := PluginStore.get_upsert saved record.pluginId
      rw [if_pos rfl] at this
      exact this
  | getPlugin q =>
    cases hr : (coreStep (.getPlugin q) c s.store).1 with
    | error e =>
      rw [hr] at known lock
      exact tended.status_kept (by simp [WritesRow]) rfl known lock
    | ok found =>
      rw [hr] at known lock
      cases found with
      | none => exact tended.status_kept (by simp [WritesRow]) rfl known lock
      | some row =>
        cases known
        have asks := tended.asks
        cases asks.symm.trans lock
        exact ⟨row, (read_row hr).1, rfl⟩
  | inspectRuntime q =>
    cases hr : (coreStep (.inspectRuntime q) c s.store).1 with
    | error e | ok state =>
      rw [hr] at known lock
      exact tended.status_kept (by simp [WritesRow]) rfl known lock
  | _ => exact tended.status_kept (by simp [WritesRow]) rfl known lock

theorem Minded.quiet_kept {p : PluginId} (keeps : dropsLock (some a) = false) (quiet : h.quiet = true)
    (lock : h.lock = some p) : ∀ j u, s.tasks[j]? = some u → j ≠ i → u.guards.lease ≠ some p :=
  tended.quiet quiet p ((tended.holds keeps).trans lock)

variable (answered : s.answers a c = true) (patient : ComesQuietly s call a c)
include answered patient

theorem Minded.quiet_after {p : PluginId}
    (quiet : (Watch.note call a (coreStep a c s.store).1 h).quiet = true)
    (lock : (Watch.note call a (coreStep a c s.store).1 h).lock = some p) :
    ∀ j u, s.tasks[j]? = some u → j ≠ i → u.guards.lease ≠ some p := by
  have idle : s.active p = false → ∀ j u, s.tasks[j]? = some u → j ≠ i → u.guards.lease ≠ some p :=
    fun inactive j u hu _ => not_leased inactive j u hu
  cases a with
  | tryOperationLock q => cases quiet
  | persistContentCallLog q event =>
    cases event with
    | started => cases quiet
    | succeeded | failed => exact tended.quiet_kept rfl quiet lock
  | hasActiveCalls q =>
    simp only [Watch.note, Bool.or_eq_true, Bool.not_eq_true'] at quiet
    rcases quiet with quiet | inactive
    · exact tended.quiet_kept rfl quiet lock
    · cases tended.asks.1.symm.trans lock
      exact idle ((answers_hasActiveCalls answered).symm.trans inactive)
  | getPlugin q =>
    cases hr : (coreStep (.getPlugin q) c s.store).1 with
    | error e =>
      rw [hr] at quiet lock
      exact tended.quiet_kept rfl quiet lock
    | ok found =>
      rw [hr] at quiet lock
      cases found with
      | none => exact tended.quiet_kept rfl quiet lock
      | some row =>
        simp only [Watch.note, Bool.or_eq_true] at quiet
        rcases quiet with quiet | restarts
        · exact tended.quiet_kept rfl quiet lock
        · have asks := tended.asks
          cases asks.symm.trans lock
          cases call with
          | updateSettings command => exact idle (patient row (read_row hr).1 restarts)
          | _ => cases restarts
  | inspectRuntime q =>
    cases hr : (coreStep (.inspectRuntime q) c s.store).1 with
    | error e =>
      rw [hr] at quiet lock
      exact tended.quiet_kept rfl quiet lock
    | ok state =>
      rw [hr] at quiet lock
      simp only [Watch.note, Bool.or_eq_true] at quiet
      rcases quiet with quiet | sees
      · exact tended.quiet_kept rfl quiet lock
      · have asks := tended.asks
        cases asks.symm.trans lock
        cases call with
        | inspectRuntime q' =>
          cases c with
          | runtime state' =>
            cases hr
            exact idle (patient (by simpa [Watch.sees] using sees))
          | _ => cases hr
        | _ => cases sees
  | savePlugin record =>
    cases hr : (coreStep (.savePlugin record) c s.store).1 with
    | error e | ok u =>
      rw [hr] at quiet lock
      exact tended.quiet_kept rfl quiet lock
  | _ => exact tended.quiet_kept rfl quiet lock

theorem Minded.genuine_after (task : s.tasks[i]? = some ⟨call, .act a k, g⟩) :
    (Watch.note call a (coreStep a c s.store).1 h).void = false := by
  have genuine := tended.genuine
  cases a with
  | hasActiveCalls q =>
    cases hactive : s.active q with
    | false =>
      have hr := (answers_hasActiveCalls answered).trans hactive
      rw [hr]
      simp [Watch.note, genuine]
    | true =>
      have hr := (answers_hasActiveCalls answered).trans hactive
      rw [hr]
      obtain ⟨lock, idle⟩ := tended.asks
      -- somebody has a lease, and it is not this call
      obtain ⟨u, hu, leased⟩ := List.any_eq_true.mp hactive
      obtain ⟨j, hj⟩ := List.mem_iff_getElem?.mp hu
      have other : h.quiet = false := by
        by_contra quiet
        rw [Bool.not_eq_false] at quiet
        refine tended.quiet_kept rfl quiet lock j u hj (fun same => ?_) (by simpa using leased)
        subst same
        cases task.symm.trans hj
        rw [decide_eq_true_eq, tended.leases, idle] at leased
        cases leased
      have unexpected : Watch.expectsQuiet call = false := by
        cases call with
        | cleanupAllRuntimes => cases hactive.symm.trans patient
        | _ => rfl
      simp [Watch.note, genuine, other, unexpected]
  | getPlugin q =>
    cases hr : (coreStep (.getPlugin q) c s.store).1 with
    | error e => exact genuine
    | ok found =>
      cases found with
      | none => exact genuine
      | some row => simp [Watch.note, genuine, (read_row hr).2]
  | persistContentCallLog q event => cases event <;> exact genuine
  | savePlugin record => cases (coreStep (.savePlugin record) c s.store).1 <;> exact genuine
  | inspectRuntime q => cases (coreStep (.inspectRuntime q) c s.store).1 <;> exact genuine
  | _ => exact genuine

end

/-! ### The step -/

theorem keeps_of_writesRow (writes : WritesRow a) : dropsLock (some a) = false := by
  cases a <;> first | rfl | exact writes.elim

theorem Minded.operation_kept (tended : Minded s i ⟨call, .act a k, g⟩ h) (r : a.Resp)
    (held : g.operation = some p) : (g.after a r).operation = some p := by
  cases a with
  | tryOperationLock q =>
    have released : g.operation = none := tended.operation
    cases released.symm.trans held
  | contentStartupLock q | beginActiveCall q => cases r <;> exact held
  | _ => exact held

theorem Minded.healthy_after (tended : Minded s i ⟨call, .act a k, g⟩ h)
    (task : s.tasks[i]? = some ⟨call, .act a k, g⟩) (answered : s.answers a c = true)
    (patient : ComesQuietly s call a c)
    (leased : ((g.after a (coreStep a c s.store).1).until (k (coreStep a c s.store).1).head).lease = some p)
    (unlocked : ((g.after a (coreStep a c s.store).1).until (k (coreStep a c s.store).1).head).operation ≠
      some p) : (coreStep a c s.store).2.Status p .healthy := by
  have genuine := tended.genuine_after answered patient task
  rw [until_lease] at leased
  rw [until_operation] at unlocked
  cases hnext : k (coreStep a c s.store).1 with
  | ret value =>
    rw [hnext] at leased
    cases leased
  | act next k' =>
    have watched := tended.watched.2 (coreStep a c s.store).1
    rw [hnext] at watched leased unlocked
    have asks := watched.1 genuine
    replace leased : (g.after a (coreStep a c s.store).1).lease = some p := leased
    cases drops : dropsLock (some next) with
    | true =>
      rw [(tended.guards_after _).2] at leased
      cases next with
      | tryOperationLock q =>
        have none : (Watch.note call a (coreStep a c s.store).1 h).lease = none := asks
        cases none.symm.trans leased
      | persistContentCallLog q event =>
        cases event with
        | started =>
          -- here it drops the lock
          obtain ⟨lock, lease, healthy⟩ := asks
          cases lease.symm.trans leased
          exact tended.status_after healthy lock
        | succeeded | failed => cases drops
      | _ => cases drops
    | false =>
      replace unlocked : (g.after a (coreStep a c s.store).1).operation ≠ some p := by
        simpa only [Prog.head, drops, Bool.false_eq_true, if_false] using unlocked
      have dropped : g.operation ≠ some p := fun held => unlocked (tended.operation_kept _ held)
      rcases lease_new leased with before | rfl
      · refine status_of_step tended.asks (tended.healthy p before dropped) fun writes lock => ?_
        exact absurd ((tended.holds (keeps_of_writesRow writes)).trans lock) dropped
      · exact absurd ((tended.holds rfl).trans tended.asks.1) dropped

theorem Minded.moved (tended : Minded s i ⟨call, .act a k, g⟩ h)
    (task : s.tasks[i]? = some ⟨call, .act a k, g⟩)
    (answered : s.answers a c = true) (patient : ComesQuietly s call a c) :
    Minded (s.advanced i call g a k c) i ⟨call, k (coreStep a c s.store).1,
      (g.after a (coreStep a c s.store).1).until (k (coreStep a c s.store).1).head⟩
      (Watch.note call a (coreStep a c s.store).1 h) := by
  have operation := (until_operation (g.after a (coreStep a c s.store).1)
    (k (coreStep a c s.store).1).head).trans (by rw [(tended.guards_after _).1])
  -- what the call holds after the step is the lock its watch names
  have held : ∀ p, ((g.after a (coreStep a c s.store).1).until (k (coreStep a c s.store).1).head).operation =
      some p → (Watch.note call a (coreStep a c s.store).1 h).lock = some p := by
    intro p hp
    rw [operation] at hp
    split at hp
    · cases hp
    · exact hp
  constructor
  case watched => exact tended.watched.2 _
  case genuine => exact tended.genuine_after answered patient task
  case operation => exact operation
  case lease => exact (until_lease _ _).trans (by rw [(tended.guards_after _).2])
  case quiet =>
    intro quiet p hp j u hu hne
    refine tended.quiet_after answered patient quiet (held p hp) j u ?_ hne
    simpa only [Attended.advanced, List.getElem?_set_ne (hne.symm)] using hu
  case status => exact fun status known p hp => tended.status_after known (held p hp)
  case healthy => exact fun p leased unlocked => tended.healthy_after task answered patient leased unlocked

theorem Attended.Sound.other (sound : s.Sound) (tended : Minded s i ⟨call, .act a k, g⟩ h)
    (task : s.tasks[i]? = some ⟨call, .act a k, g⟩) {j : Nat} {u : GuardedTask} {w : Watch}
    (hu : s.tasks[j]? = some u) (hne : j ≠ i) (kept : Minded s j u w) :
    Minded (s.advanced i call g a k c) j u w := by
  constructor
  case watched => exact kept.watched
  case genuine => exact kept.genuine
  case operation => exact kept.operation
  case lease => exact kept.lease
  case quiet =>
    intro quiet p held j' v hv hne'
    rw [Attended.advanced] at hv
    by_cases same : j' = i
    · subst same
      rw [List.getElem?_set_self (List.getElem?_eq_some_iff.mp task).1] at hv
      cases hv
      intro leased
      rw [until_lease] at leased
      split at leased
      · cases leased
      rcases lease_new leased with before | rfl
      · exact kept.quiet quiet p held j' _ task (hne.symm) before
      · -- it would hold the same lock
        exact hne (sound.exclusive j j' u _ p hu task held ((tended.holds rfl).trans tended.asks.1))
    · exact kept.quiet quiet p held j' v (by simpa only [List.getElem?_set_ne (Ne.symm same)] using hv) hne'
  case status =>
    intro status known p held
    refine status_of_step tended.asks (kept.status status known p held) fun writes lock => ?_
    exact absurd (sound.exclusive j i u _ p hu task held
      ((tended.holds (keeps_of_writesRow writes)).trans lock)) hne
  case healthy =>
    intro p leased unlocked
    have before := kept.healthy p leased unlocked
    refine status_of_step tended.asks before fun writes lock => ⟨rfl, ?_⟩
    have holds : g.operation = some p := (tended.holds (keeps_of_writesRow writes)).trans lock
    rintro (quiet | ⟨status, known, unhealthy⟩)
    · exact tended.quiet quiet p holds j u hu hne leased
    · exact unhealthy (status_unique (tended.status status known p holds) before)

theorem Attended.Sound.advance (sound : s.Sound) (task : s.tasks[i]? = some ⟨call, .act a k, g⟩)
    (answered : s.answers a c = true) (patient : ComesQuietly s call a c) :
    (s.advanced i call g a k c).Sound := by
  obtain ⟨h, tended⟩ := sound.tended i _ task
  have bound := (List.getElem?_eq_some_iff.mp task).1
  -- the lock the moved task holds nobody else held before
  have alone : ∀ (j : Nat) (u : GuardedTask) (p : PluginId), s.tasks[j]? = some u → j ≠ i →
      ((g.after a (coreStep a c s.store).1).until (k (coreStep a c s.store).1).head).operation =
        some p → u.guards.operation ≠ some p := by
    intro j u p hu hne held locked
    rw [until_operation] at held
    split at held
    · cases held
    rcases operation_new answered held with before | free
    · exact hne (sound.exclusive j i u _ p hu task locked before)
    · exact not_locked free j u hu locked
  constructor
  case exclusive =>
    intro j j' u v p hu hv hlock hlock'
    by_cases hj : j = i <;> by_cases hj' : j' = i
    · rw [hj, hj']
    · subst hj
      rw [Attended.advanced, List.getElem?_set_self bound] at hu
      rw [Attended.advanced, List.getElem?_set_ne (Ne.symm hj')] at hv
      cases hu
      exact absurd hlock' (alone j' v p hv hj' hlock)
    · subst hj'
      rw [Attended.advanced, List.getElem?_set_self bound] at hv
      rw [Attended.advanced, List.getElem?_set_ne (Ne.symm hj)] at hu
      cases hv
      exact absurd hlock (alone j u p hu hj hlock')
    · rw [Attended.advanced, List.getElem?_set_ne (Ne.symm hj)] at hu
      rw [Attended.advanced, List.getElem?_set_ne (Ne.symm hj')] at hv
      exact sound.exclusive j j' u v p hu hv hlock hlock'
  case tended =>
    intro j u hu
    by_cases hj : j = i
    · subst hj
      rw [Attended.advanced, List.getElem?_set_self bound] at hu
      cases hu
      exact ⟨_, tended.moved task answered patient⟩
    · have hu' : s.tasks[j]? = some u := by
        simpa only [Attended.advanced, List.getElem?_set_ne (Ne.symm hj)] using hu
      obtain ⟨w, kept⟩ := sound.tended j u hu'
      exact ⟨w, sound.other tended task hu' hj kept⟩

end

theorem Attended.Sound.call {s : Attended} (sound : s.Sound) {call : CoreCall}
    (manages : call.manages = true) :
    ({ s with tasks := s.tasks ++ [⟨call, call.program, .free⟩] } : Attended).Sound := by
  -- a task is an old one or the new one
  have cases_task : ∀ (i : Nat) (t : GuardedTask), (s.tasks ++ [⟨call, call.program, .free⟩])[i]? = some t →
        s.tasks[i]? = some t ∨ t = ⟨call, call.program, .free⟩ := by
    intro i t ht
    rw [List.getElem?_append] at ht
    split at ht
    · exact .inl ht
    · exact .inr (List.mem_singleton.mp (List.mem_of_getElem? ht))
  constructor
  case exclusive =>
    intro i j t u p ht hu hlock hlock'
    rcases cases_task i t ht with ht | rfl
    · rcases cases_task j u hu with hu | rfl
      · exact sound.exclusive i j t u p ht hu hlock hlock'
      · cases hlock'
    · cases hlock
  case tended =>
    intro i t ht
    rcases cases_task i t ht with ht | rfl
    · obtain ⟨h, tended⟩ := sound.tended i t ht
      refine ⟨h, { tended with quiet := fun quiet p held j u hu hne => ?_ }⟩
      rcases cases_task j u hu with hu | rfl
      · exact tended.quiet quiet p held j u hu hne
      · simp [Guards.free]
    · refine ⟨.start, program_watched manages, rfl, ?_, ?_, ?_, ?_, ?_⟩
      · simp [Guards.free, Watch.start]
      · simp [Guards.free, Watch.start]
      · intro quiet
        cases quiet
      · intro status known
        cases known
      · intro p leased
        cases leased

theorem sound_next {s s' : Attended} {label : GuardedLabel} (sound : s.Sound) (patient : Patient s label)
    (hnext : s.next label = some s') : s'.Sound := by
  cases guardedNext_cases hnext with
  | call call manages => exact sound.call manages
  | advance task answered => exact sound.advance task answered (patient _ _ _ _ task)

theorem Attended.Sound.undisturbed {s : Attended} (sound : s.Sound) : s.Undisturbed := by
  intro t ht p method hinvoke u hu a hask disturbs
  obtain ⟨i, hi⟩ := List.mem_iff_getElem?.mp ht
  obtain ⟨j, hj⟩ := List.mem_iff_getElem?.mp hu
  obtain ⟨h, tended⟩ := sound.tended i t hi
  obtain ⟨w, watching⟩ := sound.tended j u hj
  obtain ⟨call, prog, g⟩ := t
  obtain ⟨call', prog', g'⟩ := u
  cases prog with
  | ret value => cases hinvoke
  | act invoke k =>
    cases hinvoke
    cases prog' with
    | ret value => cases hask
    | act b k' =>
      cases hask
      have leased : g.lease = some p := tended.leases.trans tended.asks
      have commands : w.lock = some p ∧ w.Free ∧ dropsLock (some a) = false := by
        have asks := watching.asks
        cases a with
        | startRuntime q | stopRuntime q | removeRuntime q =>
          cases disturbs
          exact ⟨asks.1, asks.2, rfl⟩
        | _ => exact disturbs.elim
      obtain ⟨lock, free, keeps⟩ := commands
      have holds : g'.operation = some p := (watching.holds keeps).trans lock
      have other : i ≠ j := by
        rintro rfl
        cases hi.symm.trans hj
        exact disturbs
      have unlocked : g.operation ≠ some p := fun held =>
        other (sound.exclusive i j _ _ p hi hj held holds)
      rcases free with quiet | ⟨status, known, unhealthy⟩
      · exact watching.quiet quiet p holds i _ hi other leased
      · exact unhealthy (status_unique (watching.status status known p holds) (tended.healthy p leased unlocked))

/-- Over any run of the calls on installed plugins, from any table: if the calls `ComesQuietly` names come when
no content call of the plugin is in flight, nobody starts, stops or removes a runtime while it answers
one. -/
theorem running_call_is_undisturbed {store : PluginStore} {labels : List GuardedLabel} {s : Attended}
    (run : Run Attended.next Patient ⟨store, []⟩ labels s) : s.Undisturbed := by
  have initial : (⟨store, []⟩ : Attended).Sound :=
    ⟨fun _ _ _ _ _ ht => (nomatch ht), fun _ _ ht => (nomatch ht)⟩
  have sound : s.Sound := run.invariant
    (fun _ _ _ hsound patient hnext => sound_next hsound patient hnext) initial
  exact sound.undisturbed

/-! ## A content call, and settings that change meanwhile -/

def runningRow : InstallPluginRecord where
  pluginId := "p"
  pluginType := .content
  version := "1.0.0"
  platformId := "platform"
  commitSha := ""
  repositoryId := ""
  manifest := some ⟨"p", .content, ["content.search"]⟩
  manifestHash := ""
  sourceHash := ""
  imageId := none
  status := .healthy
  runMode := .onDemand
  priority := 100
  enabled := true
  lastError := none
  installOperationId := none
  lastUsedAt := none
  updatedAt := 0

def runningStore : PluginStore := ⟨[runningRow], by simp⟩

def searchRequest : ContentInvocationRequest := ⟨"r", "p", .search⟩

/-- `invoke_content`, past the check of the request's id. -/
def searchProgram : CoreProgram Unit :=
  Prog.bind (do
    contentLock (ask (.contentStartupLock "p")) .internal
    contentLock (ask (.tryOperationLock "p")) .pluginBusy
    match ← ExceptT.lift (getRecord "p").run with
    | .error error => throw (mapContentManagementError error)
    | .ok record =>
      ExceptT.mk (pure (validateContentInvocation record .search))
      contentLock (ask (.beginActiveCall "p")) .internal
      if record.status = .installing ∨ record.status = .starting then throw .runtimeUnavailable
      else
        ensureStarted record
        callRuntime record.pluginId .search : ContentM Unit).run fun _ => .ret ()

theorem searchProgram_eq : (CoreCall.invokeContent searchRequest).program = searchProgram := by
  have valid : validRequestId "r" = true := by
    simp only [validRequestId]
    simp
    decide
  unfold CoreCall.program invokeContent
  simp only [searchRequest, valid, Bool.not_true, Bool.false_eq_true, if_false]
  rfl

def searching : Attended := ⟨runningStore, [⟨.invokeContent searchRequest, searchProgram, .free⟩]⟩

theorem searching_next :
    Attended.next ⟨runningStore, []⟩ (.call (.invokeContent searchRequest)) = some searching := by
  simp only [Attended.next, CoreCall.manages, if_true, searchProgram_eq]
  rfl

def searchRun : List GuardedLabel :=
  [.advance 0 (.flag true), .advance 0 (.flag true), .advance 0 (.done 0), .advance 0 (.flag true),
    .advance 0 (.done 0), .advance 0 (.done 1), .advance 0 (.done 1)]

/-- What `Patient` asks of the calls in the runs below: nothing, if it is not one of three. -/
def checkPatient (s : Attended) : GuardedLabel → Bool
  | .call _ => true
  | .advance i _ =>
      match s.tasks[i]? with
      | some ⟨.updateSettings _, _, _⟩ | some ⟨.cleanupAllRuntimes, _, _⟩
      | some ⟨.inspectRuntime _, _, _⟩ => false
      | _ => true

theorem checkPatient_sound (s : Attended) (label : GuardedLabel) (h : checkPatient s label = true) :
    Patient s label := by
  cases label with
  | call call => trivial
  | advance i c =>
    intro call a k g task
    simp only [checkPatient, task] at h
    cases call with
    | updateSettings command | cleanupAllRuntimes | inspectRuntime p => cases h
    | _ => trivial

/-- While the runtime answers, somebody tries to stop the plugin, and is refused. -/
def refusedRun : List GuardedLabel :=
  searchRun ++ [.call (.stop "p"), .advance 1 (.flag true), .advance 1 (.flag true)]

def stateAfter (labels : List GuardedLabel) : Attended :=
  (labels.foldlM Attended.next searching).getD searching

theorem refused_stop_is_no_disturbance : (stateAfter refusedRun).tasks.map (fun t => t.prog.head) =
        [some (.invokeRuntime "p" .search), none] ∧ (stateAfter refusedRun).Undisturbed := by
  refine ⟨rfl, ?_⟩
  have rest : Run Attended.next Patient searching refusedRun (stateAfter refusedRun) :=
    Run.of_checked checkPatient_sound rfl
  have arrives : Patient ⟨runningStore, []⟩ (.call (.invokeContent searchRequest)) := trivial
  exact running_call_is_undisturbed (.cons arrives searching_next rest)

/-- While the runtime answers, the plugin is set to run always: it is started once more, and the container
that is answering is removed. -/
def disturbedRun : List GuardedLabel :=
  searchRun ++ [.call (.updateSettings ⟨"p", true, .always, 100⟩), .advance 1 (.flag true),
    .advance 1 (.done 2)]

theorem settings_disturb_running_call : ∃ s, Run Attended.next (fun _ _ => True) ⟨runningStore, []⟩
        (.call (.invokeContent searchRequest) :: disturbedRun) s ∧ s.tasks.map (fun t => t.prog.head) =
        [some (.invokeRuntime "p" .search), some (.startRuntime "p")] ∧ ¬ s.Undisturbed := by
  refine ⟨stateAfter disturbedRun, .cons trivial searching_next (Run.of_foldlM rfl), rfl, ?_⟩
  intro undisturbed
  have first : (stateAfter disturbedRun).tasks[0]?.map (fun t => t.prog.head) =
      some (some (.invokeRuntime "p" .search)) := rfl
  have second : (stateAfter disturbedRun).tasks[1]?.map (fun t => t.prog.head) =
      some (some (.startRuntime "p")) := rfl
  obtain ⟨t, ht, invokes⟩ := Option.map_eq_some_iff.mp first
  obtain ⟨u, hu, starts⟩ := Option.map_eq_some_iff.mp second
  exact undisturbed t (List.mem_of_getElem? ht) "p" .search invokes u (List.mem_of_getElem? hu) _ starts rfl

end AudioDown.Core
