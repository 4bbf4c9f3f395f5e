/-
# AudioDown.Core.Locks — the guards of Core do work

Operation locks are found through a registry of weak references; content calls in flight are counted when
they begin and when their lease is dropped.  Both give the answers that `AudioDown.Core.Guards` assumes.
-/
import AudioDown.Core.Guards

namespace AudioDown.Core

open Lib Supervisor
open Function (update update_self update_of_ne)

/-! ## Operation locks -/

/-- What comes next for a strong reference: its lock is tried or released, or it is dropped. -/
inductive LockPhase where
  | trying
  | holding
  | leaving
deriving DecidableEq

/-- A strong reference.  A lock is known by the plugin it was made for and a number. -/
abbrev LockRef := LockPhase × PluginId × Nat

structure OperationLocks where
  registry : PluginId → Option Nat
  refs : List LockRef
  fresh : Nat

inductive LockLabel where
  /-- a call finds its lock, `retain` having dropped those of these entries that are dead -/
  | find (p : PluginId) (dropped : List PluginId)
  | advance (ref : LockRef)

namespace OperationLocks

def initial : OperationLocks := ⟨fun _ => none, [], 0⟩

def guards (s : OperationLocks) : List (PluginId × Nat) := (s.refs.filter (·.1 = .holding)).map Prod.snd

/-- `strong_count() > 0` -/
def alive (s : OperationLocks) (p : PluginId) (n : Nat) : Bool := s.refs.any (·.2 = (p, n))

/-- Whether `try_lock_owned` succeeds. -/
def free (s : OperationLocks) (lock : PluginId × Nat) : Bool := lock ∉ s.guards

def retain (s : OperationLocks) (dropped : List PluginId) (p : PluginId) : Option Nat :=
  if p ∈ dropped then (s.registry p).filter (s.alive p) else s.registry p

def moved (s : OperationLocks) : LockRef → List LockRef
  | (.trying, lock) => [(if s.free lock then .holding else .leaving, lock)]
  | (.holding, lock) => [(.leaving, lock)]
  | (.leaving, _) => []

def next (s : OperationLocks) : LockLabel → Option OperationLocks
  | .find p dropped =>
    match (s.retain dropped p).filter (s.alive p) with
    | some n => some ⟨s.retain dropped, (.trying, p, n) :: s.refs, s.fresh⟩
    | none => some ⟨update (s.retain dropped) p (some s.fresh), (.trying, p, s.fresh) :: s.refs, s.fresh + 1⟩
  | .advance ref => if ref ∈ s.refs then some { s with refs := s.moved ref ++ s.refs.erase ref } else none

/-- Whoever refers to a lock keeps it in the registry, so all who refer to one of a plugin share it. -/
structure Sound (s : OperationLocks) : Prop where
  owned : ∀ ref ∈ s.refs, s.registry ref.2.1 = some ref.2.2
  exclusive : (s.guards.map Prod.fst).Nodup

variable {s t : OperationLocks} {ref : LockRef}

theorem Sound.mem_guards_iff (h : s.Sound) (href : ref ∈ s.refs) :
    ref.2 ∈ s.guards ↔ ref.2.1 ∈ s.guards.map Prod.fst := by
  refine ⟨List.mem_map_of_mem, fun hmem => ?_⟩
  obtain ⟨lock, hlock, same⟩ := List.mem_map.mp hmem
  obtain ⟨other, hother, rfl⟩ := List.mem_map.mp hlock
  have number := (h.owned other (List.mem_of_mem_filter hother)).symm.trans (same ▸ h.owned ref href)
  exact Prod.ext same (Option.some.inj number) ▸ hlock

theorem alive_of_mem (href : ref ∈ s.refs) : s.alive ref.2.1 ref.2.2 = true :=
  List.any_eq_true.mpr ⟨ref, href, decide_eq_true rfl⟩

theorem Sound.retain (h : s.Sound) (dropped : List PluginId) (href : ref ∈ s.refs) :
    s.retain dropped ref.2.1 = some ref.2.2 := by
  rw [OperationLocks.retain, h.owned ref href, Option.filter_some, if_pos (alive_of_mem href), ite_self]

theorem Sound.find {p : PluginId} {dropped : List PluginId} (h : s.Sound)
    (step : s.next (.find p dropped) = some t) : t.Sound := by
  simp only [OperationLocks.next] at step
  split at step
  · rename_i n found
    cases step
    have known := (Option.filter_eq_some_iff.mp found).1
    exact ⟨List.forall_mem_cons.mpr ⟨known, fun _ => h.retain dropped⟩, h.exclusive⟩
  · rename_i dead
    cases step
    refine ⟨List.forall_mem_cons.mpr ⟨update_self .., fun ref href => ?_⟩, h.exclusive⟩
    -- a lock of this plugin that somebody refers to would have been found
    have other : ref.2.1 ≠ p := by
      rintro rfl
      rw [h.retain dropped href, Option.filter_some, if_pos (alive_of_mem href)] at dead
      cases dead
    exact (update_of_ne other ..).trans (h.retain dropped href)

theorem Sound.advance (h : s.Sound) (href : ref ∈ s.refs) :
    Sound { s with refs := s.moved ref ++ s.refs.erase ref } := by
  obtain ⟨phase, lock⟩ := ref
  have rest : (guards { s with refs := s.refs.erase (phase, lock) } |>.map Prod.fst).Sublist
      (s.guards.map Prod.fst) := ((List.erase_sublist.filter _).map _).map _
  constructor
  · intro x hx
    rcases List.mem_append.mp hx with hx | hx
    · have same : x.2 = lock := by cases phase <;> simp_all [moved]
      rw [same]
      exact h.owned _ href
    · exact h.owned x (List.mem_of_mem_erase hx)
  · rw [guards, List.filter_append, List.map_append, List.map_append]
    by_cases taken : phase = .trying ∧ s.free lock = true
    · obtain ⟨rfl, hfree⟩ := taken
      have unheld := (h.mem_guards_iff href).not.mp (of_decide_eq_true hfree)
      simp only [moved, hfree, if_true]
      exact List.nodup_cons.mpr ⟨fun hmem => unheld (rest.subset hmem), h.exclusive.sublist rest⟩
    · have none : (s.moved (phase, lock)).filter (·.1 = .holding) = [] := by cases phase <;> simp_all [moved]
      rw [none]
      exact h.exclusive.sublist rest

theorem Sound.next {label : LockLabel} (h : s.Sound) (step : s.next label = some t) : t.Sound := by
  cases label with
  | find p dropped => exact h.find step
  | advance ref =>
    simp only [OperationLocks.next, Option.ite_none_right_eq_some, Option.some.injEq] at step
    obtain ⟨href, rfl⟩ := step
    exact h.advance href

end OperationLocks

/-- However calls and drops of guards interleave, no plugin has two guards, and a call that tries its
lock gets the answer of `Attended`: it fails exactly while there is a guard of its plugin. -/
theorem operation_locks_work {labels : List LockLabel} {s : OperationLocks}
    (run : Run OperationLocks.next (fun _ _ => True) .initial labels s) :
    (s.guards.map Prod.fst).Nodup ∧ ∀ p n, (.trying, p, n) ∈ s.refs →
      ∀ a : Attended, (∀ q, a.locked q = true ↔ q ∈ s.guards.map Prod.fst) →
      ∀ value, a.answers (.tryOperationLock p) (.flag value) = true ↔ value = s.free (p, n) := by
  have h : s.Sound := run.invariant (fun _ _ _ h _ step => h.next step) ⟨fun _ href => (nomatch href), .nil⟩
  refine ⟨h.exclusive, fun p n href a hlocked value => ?_⟩
  have same : s.free (p, n) = !a.locked p := by
    rw [OperationLocks.free, Bool.eq_iff_iff, decide_eq_true_eq, Bool.not_eq_true', ← Bool.not_eq_true, hlocked,
      h.mem_guards_iff href]
  rw [Attended.answers, same, beq_iff_eq]

def holding (g : Guards) : Attended := ⟨⟨[], List.nodup_nil⟩, [⟨.stop "p", .ret (), g⟩]⟩

theorem second_call_is_refused : ∃ s, Run OperationLocks.next (fun _ _ => True) .initial
    [.find "p" [], .find "p" ["p"], .advance (.trying, "p", 0)] s ∧
      (holding ⟨some "p", none, none⟩).answers (.tryOperationLock "p") (.flag false) = true := by
  have run : Run OperationLocks.next (fun _ _ => True) .initial
      [.find "p" [], .find "p" ["p"], .advance (.trying, "p", 0)] _ :=
    .cons trivial rfl (.cons trivial rfl (.cons trivial rfl (.nil _)))
  refine ⟨_, run, ((operation_locks_work run).2 "p" 0 (by decide) _ (fun q => ?_) false).mpr (by decide)⟩
  show _ ↔ q ∈ ["p"]
  simp [holding, Attended.locked, eq_comm]

/-! ## Active calls -/

/-- The map of counts, and the leases that are alive. -/
structure ActiveCalls where
  counts : PluginId → Option Nat
  leases : List PluginId

namespace ActiveCalls

/-- A count is a `usize`. -/
def beginActiveCall (s : ActiveCalls) (p : PluginId) : ActiveCalls :=
  ⟨update s.counts p (some (min ((s.counts p).getD 0 + 1) (2 ^ 64 - 1))), p :: s.leases⟩

def dropLease (s : ActiveCalls) (p : PluginId) : ActiveCalls :=
  ⟨match s.counts p with
    | none => s.counts
    | some n => update s.counts p (if n - 1 = 0 then none else some (n - 1)), s.leases.erase p⟩

def hasActiveCalls (s : ActiveCalls) (p : PluginId) : Bool := (s.counts p).any (0 < ·)

/-- A call begins, or the lease of one is dropped. -/
def next (s : ActiveCalls) : Bool × PluginId → Option ActiveCalls
  | (true, p) => some (s.beginActiveCall p)
  | (false, p) => if p ∈ s.leases then some (s.dropLease p) else none

abbrev Few (s : ActiveCalls) (_ : Bool × PluginId) : Prop := s.leases.length < 2 ^ 64 - 1

/-- Each plugin's count is the number of its leases; one without leases has no entry. -/
def Exact (s : ActiveCalls) : Prop :=
  ∀ p, s.counts p = if s.leases.count p = 0 then none else some (s.leases.count p)

theorem Exact.next {s t : ActiveCalls} {label : Bool × PluginId} (h : s.Exact) (few : s.Few label)
    (step : s.next label = some t) : t.Exact := by
  obtain ⟨begins, p⟩ := label
  have bound := List.count_le_length (a := p) (l := s.leases)
  intro q
  have hp := h p
  have hq := h q
  cases begins with
  | true =>
    cases step
    simp only [beginActiveCall, Function.update_apply, List.count_cons]
    grind
  | false =>
    simp only [ActiveCalls.next, Option.ite_none_right_eq_some, Option.some.injEq] at step
    obtain ⟨hmem, rfl⟩ := step
    have pos := List.count_pos_iff.mpr hmem
    rw [if_neg (by omega)] at hp
    simp only [dropLease, hp, Function.update_apply, List.count_erase]
    grind

end ActiveCalls

/-- As long as the leases can be counted, `has_active_calls` gives the answer of `Attended`, and a plugin without
leases leaves nothing in the map. -/
theorem active_calls_work {labels : List (Bool × PluginId)} {s : ActiveCalls}
    (run : Run ActiveCalls.next ActiveCalls.Few ⟨fun _ => none, []⟩ labels s) :
    (∀ p, p ∉ s.leases → s.counts p = none) ∧ ∀ a : Attended, (∀ p, a.active p = true ↔ p ∈ s.leases) →
      ∀ p value, a.answers (.hasActiveCalls p) (.flag value) = true ↔ value = s.hasActiveCalls p := by
  have h : s.Exact := run.invariant (fun _ _ _ h few step => h.next few step) fun _ => rfl
  refine ⟨fun p hp => ?_, fun a hactive p value => ?_⟩
  · rw [h p, if_pos (List.count_eq_zero.mpr hp)]
  · have same : s.hasActiveCalls p = a.active p := by
      rw [ActiveCalls.hasActiveCalls, h p, Bool.eq_iff_iff, hactive, ← List.count_pos_iff]
      split <;> simp [*, Nat.pos_iff_ne_zero]
    rw [Attended.answers, same, beq_iff_eq]

theorem other_lease_is_active : ∃ s, Run ActiveCalls.next ActiveCalls.Few ⟨fun _ => none, []⟩
    [(true, "p"), (true, "q"), (false, "p")] s ∧ s.counts "p" = none ∧
      (holding ⟨none, none, some "q"⟩).answers (.hasActiveCalls "q") (.flag true) = true := by
  have run : Run ActiveCalls.next ActiveCalls.Few ⟨fun _ => none, []⟩
      [(true, "p"), (true, "q"), (false, "p")] _ :=
    .cons (by decide) rfl (.cons (by decide) rfl (.cons (by decide) rfl (.nil _)))
  obtain ⟨gone, answers⟩ := active_calls_work run
  refine ⟨_, run, gone "p" (by decide), (answers _ (fun p => ?_) "q" true).mpr (by decide)⟩
  show _ ↔ p ∈ ["q"]
  simp [holding, Attended.active, eq_comm]

end AudioDown.Core
