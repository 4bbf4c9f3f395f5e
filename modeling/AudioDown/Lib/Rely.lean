/-
# AudioDown.Lib.Rely — outlines of a program among others

`Obeys ok R Φ Q p s` is `Beside` with a promise: whatever the background does (`R` is one of its steps) and
as long as the program's own steps meet `ok`, the program issues every request in a state satisfying `Φ`
and returns under `Q`.  `Φ` is what the others may rely on.  `ok` may look at the state, so a request that
waits (for a lock, say) is one that is only taken when it can be.

`Secures` is the same for a method that can fail: `Q` of what it returns, `E` of the state it fails in.
-/
import AudioDown.Lib.Beside

namespace AudioDown.Lib

open Relation (ReflTransGen)

variable {Act : Type} {Resp : Act → Type} {Choice σ α β ε : Type}

namespace Prog

/-- Whatever the background does, `p` issues its requests under `Φ` and returns under `Q`. -/
def Obeys (sem : Semantics Act Resp Choice σ) (ok : Act → Choice → σ → Prop) (R : σ → σ → Prop)
    (Φ : Act → σ → Prop) (Q : α → σ → Prop) : Prog Act Resp α → σ → Prop
  | .ret a, s => ∀ t, ReflTransGen R s t → Q a t
  | .act a k, s => ∀ t, ReflTransGen R s t → Φ a t ∧ ∀ c, ok a c t →
      (k (sem a c t).1).Obeys sem ok R Φ Q (sem a c t).2

variable {sem : Semantics Act Resp Choice σ} {ok : Act → Choice → σ → Prop} {R : σ → σ → Prop}
  {Φ : Act → σ → Prop} {Q : α → σ → Prop} {Q' : β → σ → Prop} {A : σ → Prop} {s t : σ}

namespace Obeys

/-! ## Outlines along a run -/

variable {a : Act} {choose : Act → Choice} {p : Prog Act Resp α}

theorem background (h : p.Obeys sem ok R Φ Q s) (hstep : R s t) : p.Obeys sem ok R Φ Q t := by
  cases p with
  | ret a => exact fun u hu => h u (.head hstep hu)
  | act a k => exact fun u hu => h u (.head hstep hu)

theorem asserted {k : Resp a → Prog Act Resp α} (h : (Prog.act a k).Obeys sem ok R Φ Q s) : Φ a s :=
  (h s .refl).1

theorem own {k : Resp a → Prog Act Resp α} {c : Choice} (h : (Prog.act a k).Obeys sem ok R Φ Q s)
    (hc : ok a c s) : (k (sem a c s).1).Obeys sem ok R Φ Q (sem a c s).2 :=
  (h s .refl).2 c hc

theorem returned {a : α} (h : (Prog.ret a : Prog Act Resp α).Obeys sem ok R Φ Q s) : Q a s :=
  h s .refl

theorem run (h : p.Obeys sem ok R Φ Q s)
    (can : ∀ a t, Φ a t → ok a (choose a) t) : Q (p.run sem choose s).1 (p.run sem choose s).2 := by
  induction p generalizing s with
  | ret a => exact h.returned
  | act a k ih => exact ih _ (h.own (can a s h.asserted))

theorem run_keeps (h : p.Obeys sem ok R Φ Q s) (can : ∀ a t, Φ a t → ok a (choose a) t)
    (keeps : ∀ a t, Φ a t → A t → A (sem a (choose a) t).2) (hs : A s) : A (p.run sem choose s).2 := by
  induction p generalizing s with
  | ret a => exact hs
  | act a k ih => exact ih _ (h.own (can a s h.asserted)) (keeps a s h.asserted hs)

/-! ## Rules -/

theorem act {k : Resp a → Prog Act Resp α} (stable : StableUnder R A) (hs : A s)
    (h : ∀ t, A t → Φ a t ∧ ∀ c, ok a c t → (k (sem a c t).1).Obeys sem ok R Φ Q (sem a c t).2) :
    (Prog.act a k).Obeys sem ok R Φ Q s :=
  fun t ht => h t (stable.star hs ht)

theorem bind {f : α → Prog Act Resp β} (hp : p.Obeys sem ok R Φ Q s)
    (hf : ∀ a t, Q a t → (f a).Obeys sem ok R Φ Q' t) : (p.bind f).Obeys sem ok R Φ Q' s := by
  induction p generalizing s with
  | ret a => exact hf a s hp.returned
  | act a k ih =>
    intro t ht
    exact ⟨(hp t ht).1, fun c hc => ih _ ((hp t ht).2 c hc)⟩

end Obeys

end Prog

/-! ## Methods -/

/-- The outline of a method: `Q` of its value, or `E` where it fails. -/
def Secures (sem : Semantics Act Resp Choice σ) (ok : Act → Choice → σ → Prop) (R : σ → σ → Prop)
    (Φ : Act → σ → Prop) (E : σ → Prop) (Q : α → σ → Prop) (x : ExceptT ε (Prog Act Resp) α) (s : σ) : Prop :=
  x.run.Obeys sem ok R Φ (fun r t => (∀ value, r = .ok value → Q value t) ∧ (∀ e, r = .error e → E t)) s

namespace Secures

open Prog (StableUnder)

variable {sem : Semantics Act Resp Choice σ} {ok : Act → Choice → σ → Prop} {R : σ → σ → Prop}
  {Φ : Act → σ → Prop} {E : σ → Prop} {Q : α → σ → Prop} {Q' : β → σ → Prop} {s : σ}

theorem pure {value : α} (stable : StableUnder R (Q value)) (hs : Q value s) :
    Secures sem ok R Φ E Q (Pure.pure value : ExceptT ε (Prog Act Resp) α) s := by
  intro t ht
  refine ⟨fun value' heq => ?_, fun e heq => nomatch heq⟩
  cases heq
  exact stable.star hs ht

theorem throw {e : ε} (stable : StableUnder R E) (hs : E s) :
    Secures sem ok R Φ E Q (MonadExcept.throw e : ExceptT ε (Prog Act Resp) α) s :=
  fun _ ht => ⟨fun _ heq => (nomatch heq), fun _ _ => stable.star hs ht⟩

theorem bind {x : ExceptT ε (Prog Act Resp) α} {f : α → ExceptT ε (Prog Act Resp) β} (stable : StableUnder R E)
    (hx : Secures sem ok R Φ E Q x s) (hf : ∀ value t, Q value t → Secures sem ok R Φ E Q' (f value) t) :
    Secures sem ok R Φ E Q' (x >>= f) s := by
  refine Prog.Obeys.bind hx fun r t hr => ?_
  cases r with
  | ok value => exact hf value t (hr.1 value rfl)
  | error e => exact throw stable (hr.2 e rfl)

theorem act {A : σ → Prop} {a : Act} {k : Resp a → Prog Act Resp (Except ε α)}
    (stable : StableUnder R A) (hs : A s) (h : ∀ t, A t → Φ a t ∧ ∀ c, ok a c t →
      Secures sem ok R Φ E Q (ExceptT.mk (k (sem a c t).1)) (sem a c t).2) :
    Secures sem ok R Φ E Q (ExceptT.mk (.act a k)) s :=
  Prog.Obeys.act stable hs h

theorem weaken {Q₂ : α → σ → Prop} {E₂ : σ → Prop} {x : ExceptT ε (Prog Act Resp) α}
    (h : Secures sem ok R Φ E Q x s) (hQ : ∀ value t, Q value t → Q₂ value t)
    (hE : ∀ t, E t → E₂ t) : Secures sem ok R Φ E₂ Q₂ x s := by
  unfold Secures at h ⊢
  generalize x.run = p at h ⊢
  induction p generalizing s with
  | ret r =>
    intro t ht
    exact ⟨fun value hr => hQ value t ((h t ht).1 value hr), fun e hr => hE t ((h t ht).2 e hr)⟩
  | act a k ih =>
    intro t ht
    exact ⟨(h t ht).1, fun c hc => ih _ ((h t ht).2 c hc)⟩

end Secures

end AudioDown.Lib
