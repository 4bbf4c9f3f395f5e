/-
# AudioDown.Lib.Pool — interleaving tasks, and runs of a transition system

A pool is a list of tasks, each a program with a tag that says what it was started for.  One step of
the pool lets one task issue its next request; the request may start further tasks.

`Run step ok s labels t` is a run of any transition system whose steps all meet a condition `ok` on
the state before the step; `Run.invariant` is the one induction over runs.
-/
import AudioDown.Lib.Prog
import Mathlib.Data.List.Basic

namespace AudioDown.Lib

/-! ## Runs -/

/-- A run from `s` to `t` whose every step is taken under `ok`. -/
inductive Run {σ ℓ : Type} (step : σ → ℓ → Option σ) (ok : σ → ℓ → Prop) :
    σ → List ℓ → σ → Prop where
  | nil (s : σ) : Run step ok s [] s
  | cons {s t u : σ} {label : ℓ} {labels : List ℓ} (meets : ok s label)
      (taken : step s label = some t) (rest : Run step ok t labels u) :
      Run step ok s (label :: labels) u

namespace Run

variable {σ ℓ : Type} {step : σ → ℓ → Option σ} {ok : σ → ℓ → Prop} {labels : List ℓ}

theorem invariant {I : σ → Prop} (keeps : ∀ s label t, I s → ok s label → step s label = some t → I t)
    {s t : σ} (run : Run step ok s labels t) (init : I s) : I t := by
  induction run with
  | nil s => exact init
  | cons meets taken _ ih => exact ih (keeps _ _ _ init meets taken)

/-- Steps taken one after the other, each after a check. -/
def checked (step : σ → ℓ → Option σ) (check : σ → ℓ → Bool) (s : σ) (label : ℓ) : Option σ :=
  if check s label then step s label else none

theorem of_checked {c : σ → ℓ → Bool} (sound : ∀ s label, c s label = true → ok s label)
    {s t : σ} (h : labels.foldlM (checked step c) s = some t) : Run step ok s labels t := by
  induction labels generalizing s with
  | nil =>
    simp only [List.foldlM_nil, Option.pure_def, Option.some.injEq] at h
    subst h
    exact .nil s
  | cons label labels ih =>
    rw [List.foldlM_cons, Option.bind_eq_bind, Option.bind_eq_some_iff] at h
    obtain ⟨u, hu, hrest⟩ := h
    unfold checked at hu
    split at hu
    · exact .cons (sound s label ‹_›) hu (ih hrest)
    · cases hu

theorem of_decide [∀ s label, Decidable (ok s label)] {s t : σ}
    (h : labels.foldlM (checked step fun s label => decide (ok s label)) s = some t) : Run step ok s labels t :=
  of_checked (fun _ _ => of_decide_eq_true) h

theorem of_foldlM {s t : σ} (h : labels.foldlM step s = some t) : Run step (fun _ _ => True) s labels t :=
  of_checked (c := fun _ _ => true) (fun _ _ _ => trivial) h

end Run

/-! ## Pools -/

/-- A task: what it was started for, and what is left of it. -/
structure Task (Tag Act : Type) (Resp : Act → Type) (ρ : Type) where
  tag : Tag
  prog : Prog Act Resp ρ

namespace Pool

variable {Tag Act Choice σ ρ : Type} {Resp : Act → Type}

instance {P : Act → Prop} [DecidablePred P] (tasks : List (Task Tag Act Resp ρ)) (i : Nat) :
    Decidable (∀ tag a k, tasks[i]? = some ⟨tag, .act a k⟩ → P a) :=
  decidable_of_iff (∀ t ∈ tasks[i]?, ∀ a k, t.prog = .act a k → P a)
    ⟨fun h _ a k ht => h _ ht a k rfl, fun h t ht a k hp => h t.tag a k (by rw [← hp]; exact ht)⟩

/-- Task `i` issues its next request, under the environment's choice `c`. -/
def step (sem : Semantics Act Resp Choice σ) (fork : (a : Act) → Resp a → List (Task Tag Act Resp ρ))
    (i : Nat) (c : Choice) (s : σ) (tasks : List (Task Tag Act Resp ρ)) :
    Option (σ × List (Task Tag Act Resp ρ)) :=
  match tasks[i]? with
  | none => none
  | some task =>
    match task.prog with
    | .ret _ => none
    | .act a k =>
      some ((sem a c s).2, tasks.set i { task with prog := k (sem a c s).1 } ++ fork a (sem a c s).1)

variable {sem : Semantics Act Resp Choice σ}
  {fork : (a : Act) → Resp a → List (Task Tag Act Resp ρ)} {i : Nat} {c : Choice} {s s' : σ}
  {tasks tasks' : List (Task Tag Act Resp ρ)}

theorem step_eq_some (h : step sem fork i c s tasks = some (s', tasks')) :
    ∃ (tag : Tag) (a : Act) (k : Resp a → Prog Act Resp ρ), tasks[i]? = some ⟨tag, .act a k⟩ ∧
      s' = (sem a c s).2 ∧ tasks' = tasks.set i ⟨tag, k (sem a c s).1⟩ ++ fork a (sem a c s).1 := by
  unfold step at h
  cases ht : tasks[i]? with
  | none => simp [ht] at h
  | some task =>
    obtain ⟨tag, prog⟩ := task
    cases prog with
    | ret value => simp [ht] at h
    | act a k =>
      simp only [ht, Option.some.injEq, Prod.mk.injEq] at h
      exact ⟨tag, a, k, rfl, h.1.symm, h.2.symm⟩

variable {moved t : Task Tag Act Resp ρ} {started : List (Task Tag Act Resp ρ)}

/-- The tasks after a step, by position: the one that moved, the others, and those it started. -/
theorem getElem?_of_step {j : Nat} (h : (tasks.set i moved ++ started)[j]? = some t) : (j = i ∧ t = moved) ∨
    (j ≠ i ∧ tasks[j]? = some t) ∨ ∃ n, j = tasks.length + n ∧ started[n]? = some t := by
  rw [List.getElem?_append, List.length_set] at h
  split at h
  · rw [List.getElem?_set] at h
    split at h
    · rename_i hlt hij
      rw [if_pos (hij ▸ hlt)] at h
      exact .inl ⟨hij.symm, (Option.some.inj h).symm⟩
    · rename_i hne
      exact .inr (.inl ⟨Ne.symm hne, h⟩)
  · rename_i hge
    exact .inr (.inr ⟨j - tasks.length, by omega, h⟩)

theorem mem_of_step (h : t ∈ tasks.set i moved ++ started) :
    t = moved ∨ (∃ j, j ≠ i ∧ tasks[j]? = some t) ∨ t ∈ started := by
  obtain ⟨j, hj⟩ := List.mem_iff_getElem?.mp h
  rcases getElem?_of_step hj with ⟨-, h⟩ | h | ⟨n, -, h⟩
  · exact .inl h
  · exact .inr (.inl ⟨j, h⟩)
  · exact .inr (.inr (List.mem_of_getElem? h))

end Pool

end AudioDown.Lib
