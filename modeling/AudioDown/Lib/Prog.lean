/-
# AudioDown.Lib.Prog — sequential programs as trees of atomic requests

A program is either finished or one atomic request followed by a continuation that receives the
answer.  Nothing is said here about what a request does: a `Semantics` answers it, given the
current state and a *choice* of the environment.  The same tree is therefore run alone
(`Prog.run`), cut at any request, or interleaved with other trees (`AudioDown.Lib.Pool`).

Two modalities carry the proofs about interleaved runs:

* `Along R Φ Q p s` — from state `s`, with interference `R` before each of its requests, `p`
  issues every request in a state satisfying `Φ`, and returns only values and states satisfying
  `Q`.  `R` is the rely, `Φ` the proof outline.
* `Reaches P p` — whatever admissible answers `p` receives, it issues a request satisfying `P`
  before it returns.

`Within` is the outline of a program that needs to know nothing of the state but what its answers say.
-/
import Mathlib.Order.Defs.Unbundled

namespace AudioDown.Lib

/-- A sequential program: finished with a value, or a request and what to do with its answer. -/
inductive Prog (Act : Type) (Resp : Act → Type) (α : Type) where
  | ret (value : α) : Prog Act Resp α
  | act (action : Act) (next : Resp action → Prog Act Resp α) : Prog Act Resp α

/-- What one request answers and does, once the environment has made its choice. -/
abbrev Semantics (Act : Type) (Resp : Act → Type) (Choice σ : Type) :=
  (a : Act) → Choice → σ → Resp a × σ

namespace Prog

variable {Act : Type} {Resp : Act → Type} {Choice σ α β γ : Type}

def bind : Prog Act Resp α → (α → Prog Act Resp β) → Prog Act Resp β
  | .ret a, f => f a
  | .act a k, f => .act a fun r => (k r).bind f

instance : Monad (Prog Act Resp) where
  pure := .ret
  bind := bind

@[simp] theorem ret_bind (a : α) (f : α → Prog Act Resp β) : (ret a).bind f = f a := rfl

@[simp] theorem bind_eq (p : Prog Act Resp α) (f : α → Prog Act Resp β) : p >>= f = p.bind f := rfl

@[simp] theorem pure_eq (a : α) : (pure a : Prog Act Resp α) = ret a := rfl

/-- The program with every request carried out by a program of its own, over other requests. -/
def substitute {Act' : Type} {Resp' : Act' → Type} (f : (a : Act) → Prog Act' Resp' (Resp a)) :
    Prog Act Resp α → Prog Act' Resp' α
  | .ret a => .ret a
  | .act a k => (f a).bind fun r => (k r).substitute f

theorem bind_assoc (p : Prog Act Resp α) (f : α → Prog Act Resp β) (g : β → Prog Act Resp γ) :
    (p.bind f).bind g = p.bind fun a => (f a).bind g := by
  induction p with
  | ret a => rfl
  | act a k ih => exact congrArg (act a) (funext ih)

theorem substitute_bind {Act' : Type} {Resp' : Act' → Type}
    {f : (a : Act) → Prog Act' Resp' (Resp a)} (p : Prog Act Resp α) (g : α → Prog Act Resp β) :
    (p.bind g).substitute f = (p.substitute f).bind fun a => (g a).substitute f := by
  induction p with
  | ret a => rfl
  | act a k ih =>
    show (f a).bind (fun r => ((k r).bind g).substitute f) = _
    rw [show ((act a k).substitute f).bind (fun a => (g a).substitute f) =
      ((f a).bind fun r => (k r).substitute f).bind fun a => (g a).substitute f from rfl, bind_assoc]
    exact congrArg ((f a).bind) (funext ih)

/-- The request a program is about to issue. -/
def head : Prog Act Resp α → Option Act
  | .ret _ => none
  | .act a _ => some a

@[simp] theorem head_ret (a : α) : (ret a : Prog Act Resp α).head = none := rfl

@[simp] theorem head_act (a : Act) (k : Resp a → Prog Act Resp α) : (act a k).head = some a := rfl

instance {P : Act → Prop} [DecidablePred P] :
    (p : Prog Act Resp α) → Decidable (∀ a k, p = .act a k → P a)
  | .ret _ => isTrue fun _ _ h => by cases h
  | .act a k => decidable_of_iff (P a) ⟨fun h _ _ heq => by cases heq; exact h, fun h => h a k rfl⟩

/-! ## Running alone -/

/-- The uninterrupted run, with the environment's choices given by `choose`. -/
def run (sem : Semantics Act Resp Choice σ) (choose : Act → Choice) : Prog Act Resp α → σ → α × σ
  | .ret a, s => (a, s)
  | .act a k, s => (k (sem a (choose a) s).1).run sem choose (sem a (choose a) s).2

section
variable {sem : Semantics Act Resp Choice σ} {choose : Act → Choice}

@[simp] theorem run_ret (a : α) (s : σ) : (ret a : Prog Act Resp α).run sem choose s = (a, s) :=
  rfl

@[simp] theorem run_act (a : Act) (k : Resp a → Prog Act Resp α) (s : σ) : (act a k).run sem choose s =
      (k (sem a (choose a) s).1).run sem choose (sem a (choose a) s).2 := rfl

theorem run_bind (p : Prog Act Resp α) (f : α → Prog Act Resp β) (s : σ) : (p.bind f).run sem choose s =
      (f (p.run sem choose s).1).run sem choose (p.run sem choose s).2 := by
  induction p generalizing s with
  | ret a => rfl
  | act a k ih => exact ih _ _

end

/-- A program carried out by other programs runs as one whose requests are theirs, run as a whole. -/
theorem run_substitute {Act' : Type} {Resp' : Act' → Type} {sem' : Semantics Act' Resp' Choice σ}
    {choose' : Act' → Choice} {f : (a : Act) → Prog Act' Resp' (Resp a)} (p : Prog Act Resp α)
    (s : σ) : (p.substitute f).run sem' choose' s =
      p.run (fun a (_ : Unit) s => (f a).run sem' choose' s) (fun _ => ()) s := by
  induction p generalizing s with
  | ret a => rfl
  | act a k ih => exact (run_bind _ _ s).trans (ih _ _)

/-! ## Proof outlines under interference -/

/-- `Along R Φ Q p s`: started in `s`, with interference `R` before every request and an admissible
choice at each, `p` issues each request under `Φ` and returns under `Q`. -/
def Along (sem : Semantics Act Resp Choice σ) (admissible : Choice → Prop) (R : σ → σ → Prop)
    (Φ : Act → σ → Prop) (Q : α → σ → Prop) : Prog Act Resp α → σ → Prop
  | .ret a, s => ∀ t, R s t → Q a t
  | .act a k, s => ∀ t, R s t → Φ a t ∧
      ∀ c, admissible c → (k (sem a c t).1).Along sem admissible R Φ Q (sem a c t).2

/-- Every request the program can issue satisfies `P`. -/
def Uses (P : Act → Prop) : Prog Act Resp α → Prop
  | .ret _ => True
  | .act a k => P a ∧ ∀ r, (k r).Uses P

variable {f : α → Prog Act Resp β}

theorem Uses.bind {P : Act → Prop} {p : Prog Act Resp α}
    (hp : p.Uses P) (hf : ∀ a, (f a).Uses P) : (p.bind f).Uses P := by
  induction p with
  | ret a => exact hf a
  | act a k ih => exact ⟨hp.1, fun r => ih r (hp.2 r)⟩

theorem Uses.mono {P P' : Act → Prop} {p : Prog Act Resp α} (hp : p.Uses P) (h : ∀ a, P a → P' a) :
    p.Uses P' := by
  induction p with
  | ret a => trivial
  | act a k ih => exact ⟨h a hp.1, fun r => ih r (hp.2 r)⟩

theorem uses_true (p : Prog Act Resp α) : p.Uses fun _ => True := by
  induction p with
  | ret a => trivial
  | act a k ih => exact ⟨trivial, ih⟩

section
variable {sem : Semantics Act Resp Choice σ} {admissible : Choice → Prop} {R : σ → σ → Prop}
  {Φ : Act → σ → Prop} {Q : α → σ → Prop} {Q' : β → σ → Prop}

variable {a : Act} {p : Prog Act Resp α} {s : σ}

theorem Along.rely [IsTrans σ R] {t : σ}
    (h : p.Along sem admissible R Φ Q s) (hst : R s t) : p.Along sem admissible R Φ Q t := by
  cases p with
  | ret a => exact fun u htu => h u (IsTrans.trans _ _ _ hst htu)
  | act a k => exact fun u htu => h u (IsTrans.trans _ _ _ hst htu)

theorem Along.head [Std.Refl R] {k : Resp a → Prog Act Resp α}
    (h : (act a k).Along sem admissible R Φ Q s) : Φ a s :=
  (h s (refl s)).1

theorem Along.step [Std.Refl R] {k : Resp a → Prog Act Resp α} {c : Choice}
    (h : (act a k).Along sem admissible R Φ Q s) (hc : admissible c) :
    (k (sem a c s).1).Along sem admissible R Φ Q (sem a c s).2 :=
  (h s (refl s)).2 c hc

theorem Along.bind [Std.Refl R] (hp : p.Along sem admissible R Φ Q s)
    (hf : ∀ a t, Q a t → (f a).Along sem admissible R Φ Q' t) : (p.bind f).Along sem admissible R Φ Q' s := by
  induction p generalizing s with
  | ret a => exact hf a s (hp s (refl s))
  | act a k ih =>
    intro t hst
    exact ⟨(hp t hst).1, fun c hc => ih _ ((hp t hst).2 c hc)⟩

/-- A program whose requests all keep an assertion `A` that interference keeps too, and that
implies `Φ`, has the outline `A` throughout. -/
theorem Along.of_uses {A : σ → Prop} {P : Act → Prop} (uses : p.Uses P) (stable : ∀ s t, R s t → A s → A t)
    (keeps : ∀ a c s, P a → admissible c → A s → A (sem a c s).2)
    (asserted : ∀ a s, P a → A s → Φ a s) (hs : A s) : p.Along sem admissible R Φ (fun _ => A) s := by
  induction p generalizing s with
  | ret a => exact fun t hst => stable s t hst hs
  | act a k ih =>
    intro t hst
    have ht := stable s t hst hs
    exact ⟨asserted a t uses.1 ht, fun c hc => ih _ (uses.2 _) (keeps a c t uses.1 hc ht)⟩

theorem Along.weaken {Q₂ : α → σ → Prop} (h : p.Along sem admissible R Φ Q s) (hQ : ∀ a t, Q a t → Q₂ a t) :
    p.Along sem admissible R Φ Q₂ s := by
  induction p generalizing s with
  | ret a => exact fun t hst => hQ a t (h t hst)
  | act a k ih => exact fun t hst => ⟨(h t hst).1, fun c hc => ih _ ((h t hst).2 c hc)⟩

end

/-! ## Cut at any request -/

/-- The first requests of a program, one for each choice; a finished program takes no more. -/
def steps (sem : Semantics Act Resp Choice σ) : List Choice → Prog Act Resp α → σ → Prog Act Resp α × σ
  | [], p, s => (p, s)
  | _ :: _, .ret a, s => (.ret a, s)
  | c :: cs, .act a k, s => (k (sem a c s).1).steps sem cs (sem a c s).2

/-- A sequence is cut in its first part, or in the second after the first has returned. -/
theorem steps_bind (sem : Semantics Act Resp Choice σ) (cs : List Choice) (p : Prog Act Resp α) (s : σ) :
    (∃ a k, (p.steps sem cs s).1 = .act a k ∧ ((p.bind f).steps sem cs s).1 = (Prog.act a k).bind f) ∨
      ∃ cs₁ cs₂ a t, p.steps sem cs₁ s = (.ret a, t) ∧ (p.bind f).steps sem cs s = (f a).steps sem cs₂ t := by
  induction cs generalizing p s with
  | nil =>
    cases p with
    | ret a => exact .inr ⟨[], [], a, s, rfl, rfl⟩
    | act a k => exact .inl ⟨a, k, rfl, rfl⟩
  | cons c cs ih =>
    cases p with
    | ret a => exact .inr ⟨[], c :: cs, a, s, rfl, rfl⟩
    | act a k =>
      refine (ih (k (sem a c s).1) (sem a c s).2).imp id ?_
      exact fun ⟨cs₁, cs₂, v, t, first, second⟩ => ⟨c :: cs₁, cs₂, v, t, first, second⟩

section
variable {sem : Semantics Act Resp Choice σ} {admissible : Choice → Prop} {R : σ → σ → Prop}
  {Φ : Act → σ → Prop} {Q : α → σ → Prop} {p : Prog Act Resp α}

theorem Along.steps [Std.Refl R] {s : σ} (h : p.Along sem admissible R Φ Q s) (cs : List Choice)
    (hcs : ∀ c ∈ cs, admissible c) : (p.steps sem cs s).1.Along sem admissible R Φ Q (p.steps sem cs s).2 := by
  induction cs generalizing p s with
  | nil => exact h
  | cons c cs ih =>
    cases p with
    | ret a => exact h
    | act a k =>
      exact ih (h.step (hcs c List.mem_cons_self)) fun c' hc' => hcs c' (List.mem_cons_of_mem _ hc')

theorem Along.run [Std.Refl R] {choose : Act → Choice} {s : σ} (h : p.Along sem admissible R Φ Q s)
    (hchoose : ∀ a, admissible (choose a)) : Q (p.run sem choose s).1 (p.run sem choose s).2 := by
  induction p generalizing s with
  | ret a => exact h s (refl s)
  | act a k ih => exact ih _ (h.step (hchoose a))

/-- Wherever the program is cut, an assertion holds that its requests keep where they are issued. -/
theorem Along.steps_keep [Std.Refl R] {A : σ → Prop} {P : Act → Prop} {s : σ}
    (h : p.Along sem admissible R Φ Q s) (uses : p.Uses P) (cs : List Choice) (hcs : ∀ c ∈ cs, admissible c)
    (keeps : ∀ a c t, P a → Φ a t → A t → A (sem a c t).2) (hs : A s) : A (p.steps sem cs s).2 := by
  induction cs generalizing p s with
  | nil => exact hs
  | cons c cs ih =>
    cases p with
    | ret a => exact hs
    | act a k =>
      exact ih (h.step (hcs c List.mem_cons_self)) (uses.2 _)
        (fun c' hc' => hcs c' (List.mem_cons_of_mem _ hc')) (keeps a c s uses.1 h.head hs)

end

/-! ## Outlines without a state -/

/-- Whatever possible answers it gets, the program issues only requests satisfying `P` and returns
only values satisfying `Q`. -/
def Within (possible : (a : Act) → Resp a → Prop) (P : Act → Prop) (Q : α → Prop) : Prog Act Resp α → Prop
  | .ret a => Q a
  | .act a k => P a ∧ ∀ r, possible a r → (k r).Within possible P Q

section
variable {possible : (a : Act) → Resp a → Prop} {P : Act → Prop} {Q : α → Prop} {Q' : β → Prop}

variable {p : Prog Act Resp α}

theorem Within.bind (hp : p.Within possible P Q)
    (hf : ∀ a, Q a → (f a).Within possible P Q') : (p.bind f).Within possible P Q' := by
  induction p with
  | ret a => exact hf a hp
  | act a k ih => exact ⟨hp.1, fun r hr => ih r (hp.2 r hr)⟩

theorem Within.weaken {Q₂ : α → Prop} (h : p.Within possible P Q)
    (hQ : ∀ a, Q a → Q₂ a) : p.Within possible P Q₂ := by
  induction p with
  | ret a => exact hQ a h
  | act a k ih => exact ⟨h.1, fun r hr => ih r (h.2 r hr)⟩

theorem Within.mono {P₂ : Act → Prop} (h : p.Within possible P Q)
    (hP : ∀ a, P a → P₂ a) : p.Within possible P₂ Q := by
  induction p with
  | ret value => exact h
  | act a k ih => exact ⟨hP a h.1, fun r hr => ih r (h.2 r hr)⟩

theorem Uses.within (h : p.Uses P) : p.Within possible P fun _ => True := by
  induction p with
  | ret a => trivial
  | act a k ih => exact ⟨h.1, fun r _ => ih r (h.2 r)⟩

theorem Within.uses (h : p.Within (fun _ _ => True) P Q) : p.Uses P := by
  induction p with
  | ret a => trivial
  | act a k ih => exact ⟨h.1, fun r => ih r (h.2 r trivial)⟩

theorem Within.substitute {Act' : Type} {Resp' : Act' → Type} {f : (a : Act) → Prog Act' Resp' (Resp a)}
    {possible' : (a : Act') → Resp' a → Prop} {P' : Act' → Prop} (h : p.Within possible P Q)
    (hf : ∀ a, P a → (f a).Within possible' P' (possible a)) : (p.substitute f).Within possible' P' Q := by
  induction p with
  | ret a => exact h
  | act a k ih => exact (hf a h.1).bind fun r hr => ih r (h.2 r hr)

theorem Within.along (sem : Semantics Act Resp Choice σ) {J : σ → Prop} {s : σ} (h : p.Within possible P Q)
    (answers : ∀ a c t, J t → possible a (sem a c t).1) (keeps : ∀ a c t, P a → J t → J (sem a c t).2)
    (hs : J s) : p.Along sem (fun _ => True) Eq (fun _ _ => True) (fun a t => Q a ∧ J t) s := by
  induction p generalizing s with
  | ret a =>
    rintro _ rfl
    exact ⟨h, hs⟩
  | act a k ih =>
    rintro _ rfl
    exact ⟨trivial, fun c _ => ih _ (h.2 _ (answers a c s hs)) (keeps a c s h.1 hs)⟩

/-! ### Outlines of a run

An outline says what a program asks as long as its answers are possible; whether they are is up to the
states it runs through.  `I` is what the requests it may issue keep, and what makes the answers
possible. -/

section
variable {sem : Semantics Act Resp Choice σ} {I : σ → Prop}

theorem Within.run {choose : Act → Choice} {p : Prog Act Resp α} {s : σ} (h : p.Within possible P Q)
    (step : ∀ a t, P a → I t → possible a (sem a (choose a) t).1 ∧ I (sem a (choose a) t).2)
    (hs : I s) : Q (p.run sem choose s).1 ∧ I (p.run sem choose s).2 := by
  induction p generalizing s with
  | ret a => exact ⟨h, hs⟩
  | act a k ih =>
    obtain ⟨answer, kept⟩ := step a s h.1 hs
    exact ih _ (h.2 _ answer) kept

/-- Every request the program issues, and the choice made for it, satisfy `ok`. -/
def Admits (sem : Semantics Act Resp Choice σ) (ok : Act → Choice → Prop) :
    List Choice → Prog Act Resp α → σ → Prop
  | [], _, _ => True
  | _ :: _, .ret _, _ => True
  | c :: cs, .act a k, s => ok a c ∧ (k (sem a c s).1).Admits sem ok cs (sem a c s).2

variable {ok : Act → Choice → Prop}

theorem admits_true (cs : List Choice) (p : Prog Act Resp α) (s : σ) : p.Admits sem (fun _ _ => True) cs s := by
  induction cs generalizing p s with
  | nil => trivial
  | cons c cs ih =>
    cases p with
    | ret a => trivial
    | act a k => exact ⟨trivial, ih _ _⟩

theorem Within.steps {p : Prog Act Resp α} {s : σ} (h : p.Within possible P Q)
    (cs : List Choice) (admits : p.Admits sem ok cs s)
    (step : ∀ a c t, P a → ok a c → I t → possible a (sem a c t).1 ∧ I (sem a c t).2) (hs : I s) :
    (p.steps sem cs s).1.Within possible P Q ∧ I (p.steps sem cs s).2 := by
  induction cs generalizing p s with
  | nil => exact ⟨h, hs⟩
  | cons c cs ih =>
    cases p with
    | ret a => exact ⟨h, hs⟩
    | act a k =>
      obtain ⟨answer, kept⟩ := step a c s h.1 admits.1 hs
      exact ih (h.2 _ answer) admits.2 kept

/-- What the first step outside `ok` brings about, and every later step keeps, holds at the end. -/
theorem Within.steps_not_admits {J : σ → Prop} {p : Prog Act Resp α} {s : σ}
    (h : p.Within possible P Q) (cs : List Choice) (not_admits : ¬ p.Admits sem ok cs s)
    (step : ∀ a c t, P a → I t → possible a (sem a c t).1 ∧ I (sem a c t).2)
    (breaks : ∀ a c t, P a → I t → ¬ ok a c → J (sem a c t).2)
    (keeps : ∀ a c t, P a → I t → J t → J (sem a c t).2) (hs : I s) : J (p.steps sem cs s).2 := by
  -- once `J` holds, the rest of the run keeps it together with `I`
  have stays : ∀ (cs : List Choice) (p : Prog Act Resp α) (s : σ), p.Within possible P Q →
      I s → J s → J (p.steps sem cs s).2 := by
    intro cs
    induction cs with
    | nil => exact fun _ _ _ _ hJ => hJ
    | cons c cs ih =>
      intro p s h hs hJ
      cases p with
      | ret a => exact hJ
      | act a k =>
        obtain ⟨answer, kept⟩ := step a c s h.1 hs
        exact ih _ _ (h.2 _ answer) kept (keeps a c s h.1 hs hJ)
  induction cs generalizing p s with
  | nil => exact absurd trivial not_admits
  | cons c cs ih =>
    cases p with
    | ret a => exact absurd trivial not_admits
    | act a k =>
      obtain ⟨answer, kept⟩ := step a c s h.1 hs
      by_cases hok : ok a c
      · exact ih (h.2 _ answer) (fun admits => not_admits ⟨hok, admits⟩) kept
      · exact stays cs _ _ (h.2 _ answer) kept (breaks a c s h.1 hs hok)

end

end

/-! ## Outlines with a memory -/

/-- Every request the program issues satisfies `P` of what a bookkeeper has noted of the answers so
far, and what it returns satisfies `Q` of it. -/
def Traces {H : Type} (note : (a : Act) → Resp a → H → H) (P : H → Act → Prop) (Q : α → H → Prop) :
    H → Prog Act Resp α → Prop
  | h, .ret a => Q a h
  | h, .act a k => P h a ∧ ∀ r, (k r).Traces note P Q (note a r h)

section
variable {H : Type} {note : (a : Act) → Resp a → H → H} {P : H → Act → Prop} {Q : α → H → Prop}
  {Q' : β → H → Prop}

variable {I : H → Prop} {S : Act → Prop} {h : H} {p : Prog Act Resp α}

theorem Traces.bind (hp : p.Traces note P Q h) (hf : ∀ a h', Q a h' → (f a).Traces note P Q' h') :
    (p.bind f).Traces note P Q' h := by
  induction p generalizing h with
  | ret a => exact hf a h hp
  | act a k ih => exact ⟨hp.1, fun r => ih r (hp.2 r)⟩

theorem Traces.weaken {Q₂ : α → H → Prop} (hp : p.Traces note P Q h)
    (hQ : ∀ a h', Q a h' → Q₂ a h') : p.Traces note P Q₂ h := by
  induction p generalizing h with
  | ret a => exact hQ a h hp
  | act a k ih => exact ⟨hp.1, fun r => ih r (hp.2 r)⟩

theorem Traces.uses (hp : p.Traces note P Q h) (hS : ∀ h a, P h a → S a) : p.Uses S := by
  induction p generalizing h with
  | ret a => trivial
  | act a k ih => exact ⟨hS h a hp.1, fun r => ih r (hp.2 r)⟩

theorem Traces.keeps (hp : p.Traces note P Q h) (uses : p.Uses S) (keeps : ∀ a r h, S a → I h → I (note a r h))
    (hI : I h) : p.Traces note P (fun a h' => Q a h' ∧ I h') h := by
  induction p generalizing h with
  | ret a => exact ⟨hp, hI⟩
  | act a k ih => exact ⟨hp.1, fun r => ih r (hp.2 r) (uses.2 r) (keeps a r h uses.1 hI)⟩

/-- Requests that are in order as long as something is noted that none of them changes. -/
theorem Uses.traces (uses : p.Uses S) (asserted : ∀ a h, S a → I h → P h a)
    (keeps : ∀ a r h, S a → I h → I (note a r h)) (hI : I h) : p.Traces note P (fun _ => I) h := by
  induction p generalizing h with
  | ret a => exact hI
  | act a k ih => exact ⟨asserted a h uses.1 hI, fun r => ih r (uses.2 r) (keeps a r h uses.1 hI)⟩

end

/-! ## Inevitable requests -/

/-- Whatever possible answers it gets, the program issues a request satisfying `P`. -/
def Reaches (possible : (a : Act) → Resp a → Prop) (P : Act → Prop) : Prog Act Resp α → Prop
  | .ret _ => False
  | .act a k => P a ∨ ∀ r, possible a r → (k r).Reaches possible P

/-- Wherever the program issues a request satisfying `P` and gets an answer satisfying `good`, what
follows satisfies `N`. -/
def Follows (P : Act → Prop) (good : (a : Act) → Resp a → Prop)
    (N : Prog Act Resp α → Prop) : Prog Act Resp α → Prop
  | .ret _ => True
  | .act a k => (P a → ∀ r, good a r → N (k r)) ∧ ∀ r, (k r).Follows P good N

/-- The next request is `b`, but for requests satisfying `L` with possible answers. -/
def Next (possible : (a : Act) → Resp a → Prop) (L : Act → Prop) (b : Act) : Prog Act Resp α → Prop
  | .ret _ => False
  | .act a k => a = b ∨ L a ∧ ∀ r, possible a r → (k r).Next possible L b

section
variable {possible good : (a : Act) → Resp a → Prop} {P L : Act → Prop} {b : Act}

variable {N : Prog Act Resp α → Prop} {p : Prog Act Resp α}

theorem Next.bind (f : α → Prog Act Resp β) (h : p.Next possible L b) : (p.bind f).Next possible L b := by
  induction p with
  | ret a => exact h.elim
  | act a k ih => exact h.imp id fun h => ⟨h.1, fun r hr => ih r (h.2 r hr)⟩

theorem Reaches.bind (f : α → Prog Act Resp β) (h : p.Reaches possible P) : (p.bind f).Reaches possible P := by
  induction p with
  | ret a => exact h.elim
  | act a k ih => exact h.imp id fun h r hr => ih r (h r hr)

theorem Follows.of_uses (h : p.Uses fun a => ¬ P a) : p.Follows P good N := by
  induction p with
  | ret a => trivial
  | act a k ih => exact ⟨fun hP => absurd hP h.1, fun r => ih r (h.2 r)⟩

theorem Follows.steps (sem : Semantics Act Resp Choice σ) (h : p.Follows P good N) (cs : List Choice) (s : σ) :
    (p.steps sem cs s).1.Follows P good N := by
  induction cs generalizing p s with
  | nil => exact h
  | cons c cs ih =>
    cases p with
    | ret a => exact h
    | act a k => exact ih (h.2 _) _

/-- What follows in the first part, continued by the second, and what follows in the second. -/
theorem Follows.bind {N' : Prog Act Resp β → Prop} (hp : p.Follows P good N)
    (continued : ∀ q, N q → N' (q.bind f)) (hf : ∀ a, (f a).Follows P good N') :
    (p.bind f).Follows P good N' := by
  induction p with
  | ret a => exact hf a
  | act a k ih => exact ⟨fun hP r hr => continued _ (hp.1 hP r hr), fun r => ih r (hp.2 r)⟩

end

end Prog

end AudioDown.Lib
