/-
# AudioDown.Lib.Crew — tasks that keep notes

A crew is a pool of tasks over a shared state in which every worker has, beside what is left of its program,
notes of the answers it got so far.  The notes are not read by the programs; they say what a worker knows.
Outside events change the shared state and start further workers.

If every program asks only what its notes permit (`Prog.Traces`, one outline for each program), programs drop
out of the argument: an invariant of the shared state and of everybody's notes has to be kept by the permitted
requests and by the events (`System.invariant`).
-/
import AudioDown.Lib.Method
import AudioDown.Lib.Pool

namespace AudioDown.Lib

/-- A worker: what it was started for, what it knows, and what is left of its program. -/
structure Worker (Tag H Act : Type) (Resp : Act → Type) (ρ : Type) where
  tag : Tag
  notes : H
  prog : Prog Act Resp ρ

namespace Crew

variable {Tag H Act : Type} {Resp : Act → Type} {ρ Choice σ Event : Type}

/-- What can be seen of a worker without its program, but for whether it has returned. -/
structure Face (Tag H : Type) where
  tag : Tag
  notes : H
  returned : Bool

def face (w : Worker Tag H Act Resp ρ) : Face Tag H := ⟨w.tag, w.notes, w.prog.head.isNone⟩

/-- What requests do, what is noted of their answers, which workers they start; and what events do. -/
structure System (Tag H Act : Type) (Resp : Act → Type) (ρ Choice σ Event : Type) where
  sem : Semantics Act Resp Choice σ
  note : (a : Act) → Resp a → H → H
  fork : Tag → (a : Act) → Resp a → List (Worker Tag H Act Resp ρ)
  env : Event → σ → Option (σ × List (Worker Tag H Act Resp ρ))

structure State (Tag H Act : Type) (Resp : Act → Type) (ρ σ : Type) where
  shared : σ
  workers : List (Worker Tag H Act Resp ρ)

def State.faces (s : State Tag H Act Resp ρ σ) : List (Face Tag H) := s.workers.map face

inductive Label (Choice Event : Type) where
  /-- Worker `i` issues its next request. -/
  | work (i : Nat) (choice : Choice)
  | event (e : Event)

namespace System

variable (S : System Tag H Act Resp ρ Choice σ Event)

def step (s : State Tag H Act Resp ρ σ) : Label Choice Event → Option (State Tag H Act Resp ρ σ)
  | .work i c =>
    match s.workers[i]? with
    | some ⟨tag, notes, .act a k⟩ =>
      let r := (S.sem a c s.shared).1
      some ⟨(S.sem a c s.shared).2, s.workers.set i ⟨tag, S.note a r notes, k r⟩ ++ S.fork tag a r⟩
    | _ => none
  | .event e => (S.env e s.shared).map fun next => ⟨next.1, s.workers ++ next.2⟩

variable {S} {s t : State Tag H Act Resp ρ σ}

theorem step_work {i : Nat} {c : Choice} (h : S.step s (.work i c) = some t) :
    ∃ (tag : Tag) (notes : H) (a : Act) (k : Resp a → Prog Act Resp ρ),
      s.workers[i]? = some ⟨tag, notes, .act a k⟩ ∧ t.shared = (S.sem a c s.shared).2 ∧
        t.workers = s.workers.set i ⟨tag, S.note a (S.sem a c s.shared).1 notes, k (S.sem a c s.shared).1⟩ ++
          S.fork tag a (S.sem a c s.shared).1 := by
  unfold step at h
  cases hw : s.workers[i]? with
  | none => simp [hw] at h
  | some worker =>
    obtain ⟨tag, notes, prog⟩ := worker
    cases prog with
    | ret value => simp [hw] at h
    | act a k =>
      simp only [hw, Option.some.injEq] at h
      subst h
      exact ⟨tag, notes, a, k, rfl, rfl, rfl⟩

theorem step_event {e : Event} (h : S.step s (.event e) = some t) :
    ∃ started, S.env e s.shared = some (t.shared, started) ∧ t.workers = s.workers ++ started := by
  obtain ⟨⟨shared, started⟩, henv, rfl⟩ := Option.map_eq_some_iff.mp h
  exact ⟨started, henv, rfl⟩

def Permitted (S : System Tag H Act Resp ρ Choice σ Event) (P : Tag → H → Act → Prop)
    (w : Worker Tag H Act Resp ρ) : Prop :=
  w.prog.Traces S.note (P w.tag) (fun _ _ => True) w.notes

variable {P : Tag → H → Act → Prop}

theorem permitted_step {label : Label Choice Event}
    (forks : ∀ tag a r, ∀ w ∈ S.fork tag a r, S.Permitted P w)
    (events : ∀ e x x' started, S.env e x = some (x', started) → ∀ w ∈ started, S.Permitted P w)
    (h : ∀ w ∈ s.workers, S.Permitted P w) (ht : S.step s label = some t) :
    ∀ w ∈ t.workers, S.Permitted P w := by
  intro w hw
  cases label with
  | work i c =>
    obtain ⟨tag, notes, a, k, hi, -, hworkers⟩ := step_work ht
    rw [hworkers] at hw
    obtain hset | hfork := List.mem_append.mp hw
    · obtain hold | rfl := List.mem_or_eq_of_mem_set hset
      · exact h w hold
      · exact (h _ (List.mem_of_getElem? hi)).2 _
    · exact forks tag a _ w hfork
  | event e =>
    obtain ⟨started, henv, hworkers⟩ := step_event ht
    rw [hworkers] at hw
    obtain hold | hnew := List.mem_append.mp hw
    · exact h w hold
    · exact events e _ _ started henv w hnew

/-- The rule: an invariant of the shared state and the notes is kept by every permitted request, whether or not
the worker returns after it, and by every event. -/
theorem invariant {ok : State Tag H Act Resp ρ σ → Label Choice Event → Prop}
    {I : σ → List (Face Tag H) → Prop} (forks : ∀ tag a r, ∀ w ∈ S.fork tag a r, S.Permitted P w)
    (events : ∀ e x x' started, S.env e x = some (x', started) → ∀ w ∈ started, S.Permitted P w)
    (work : ∀ (s : State Tag H Act Resp ρ σ) i c tag notes a k returned,
      s.workers[i]? = some ⟨tag, notes, .act a k⟩ → s.faces[i]? = some ⟨tag, notes, false⟩ →
      P tag notes a → ok s (.work i c) → I s.shared s.faces →
      I (S.sem a c s.shared).2 (s.faces.set i ⟨tag, S.note a (S.sem a c s.shared).1 notes, returned⟩ ++
        (S.fork tag a (S.sem a c s.shared).1).map face))
    (event : ∀ (s : State Tag H Act Resp ρ σ) e x started, S.env e s.shared = some (x, started) →
      ok s (.event e) → I s.shared s.faces → I x (s.faces ++ started.map face))
    {labels : List (Label Choice Event)} (run : Run S.step ok s labels t)
    (permitted : ∀ w ∈ s.workers, S.Permitted P w) (init : I s.shared s.faces) : I t.shared t.faces := by
  have both : (∀ w ∈ t.workers, S.Permitted P w) ∧ I t.shared t.faces := by
    refine run.invariant (I := fun s => (∀ w ∈ s.workers, S.Permitted P w) ∧ I s.shared s.faces) ?_
      ⟨permitted, init⟩
    rintro s label t ⟨hp, hI⟩ hok ht
    refine ⟨permitted_step forks events hp ht, ?_⟩
    cases label with
    | work i c =>
      obtain ⟨tag, notes, a, k, hi, hshared, hworkers⟩ := step_work ht
      have hface : s.faces[i]? = some ⟨tag, notes, false⟩ := by
        rw [State.faces, List.getElem?_map, hi]
        rfl
      rw [State.faces, hworkers, List.map_append, List.map_set, hshared]
      exact work s i c tag notes a k _ hi hface (hp _ (List.mem_of_getElem? hi)).1 hok hI
    | event e =>
      obtain ⟨started, henv, hworkers⟩ := step_event ht
      rw [State.faces, hworkers, List.map_append]
      exact event s e _ started henv hok hI
  exact both.2

end System

/-! ## Trails -/

/-- The most detailed notes: every request and its answer, the last first. -/
abbrev Trail (Act : Type) (Resp : Act → Type) := List ((a : Act) × Resp a)

def Trail.note (a : Act) (r : Resp a) (trail : Trail Act Resp) : Trail Act Resp := ⟨a, r⟩ :: trail

theorem traces_extends {α : Type} {P : Trail Act Resp → Act → Prop} {Q : α → Trail Act Resp → Prop}
    {p : Prog Act Resp α} {trail : Trail Act Resp} (h : p.Traces Trail.note P Q trail) :
    p.Traces Trail.note P (fun value trail' => Q value trail' ∧ trail ⊆ trail') trail := by
  induction p generalizing trail with
  | ret value => exact ⟨h, List.Subset.refl _⟩
  | act a k ih =>
    refine ⟨h.1, fun r => (ih r (h.2 r)).weaken ?_⟩
    rintro value trail' ⟨hQ, hsub⟩
    exact ⟨hQ, fun x hx => hsub (List.mem_cons_of_mem _ hx)⟩

/-- A method, then what follows, which may still rely on what was on the trail before. -/
theorem noted_bind {ε α β : Type} {P : Trail Act Resp → Act → Prop} {Q : α → Trail Act Resp → Prop}
    {Q' : β → Trail Act Resp → Prop} {trail : Trail Act Resp} {x : ExceptT ε (Prog Act Resp) α}
    {f : α → ExceptT ε (Prog Act Resp) β} (hx : Noted Trail.note P Q trail x)
    (hf : ∀ value trail', Q value trail' → trail ⊆ trail' → Noted Trail.note P Q' trail' (f value)) :
    Noted Trail.note P Q' trail (x >>= f) := by
  refine Prog.Traces.bind (traces_extends hx) fun r trail' hr => ?_
  cases r with
  | ok value => exact hf value trail' (hr.1 value rfl) hr.2
  | error e =>
    intro value heq
    cases heq

end Crew

end AudioDown.Lib
