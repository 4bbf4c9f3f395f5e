/-
# AudioDown.Lib.Beside — a program beside a background

A program runs step by step while a background changes the state between its steps.  `Beside ok R Q p s`
says that, whatever the background does (`R` is one of its steps) and as long as the program's own steps
meet `ok`, the program returns under `Q`.  An assertion that the background keeps is all that is needed
of a state in which the program waits for its next step (`Beside.act`, `Beside.ret`).
-/
import AudioDown.Lib.Prog
import Mathlib.Logic.Relation

namespace AudioDown.Lib

open Relation (ReflTransGen)

namespace Prog

variable {Act : Type} {Resp : Act → Type} {Choice σ α β : Type}

/-- Whatever the background does, `p` returns under `Q`. -/
def Beside (sem : Semantics Act Resp Choice σ) (ok : Act → Choice → σ → Prop) (R : σ → σ → Prop)
    (Q : α → σ → Prop) : Prog Act Resp α → σ → Prop
  | .ret a, s => ∀ t, ReflTransGen R s t → Q a t
  | .act a k, s => ∀ t, ReflTransGen R s t → ∀ c, ok a c t →
      (k (sem a c t).1).Beside sem ok R Q (sem a c t).2

def StableUnder (R : σ → σ → Prop) (A : σ → Prop) : Prop := ∀ s t, A s → R s t → A t

variable {sem : Semantics Act Resp Choice σ} {ok : Act → Choice → σ → Prop} {R : σ → σ → Prop}
  {Q : α → σ → Prop} {Q' : β → σ → Prop} {A : σ → Prop} {s t : σ}

theorem StableUnder.star (stable : StableUnder R A) (hs : A s) (h : ReflTransGen R s t) : A t := by
  induction h with
  | refl => exact hs
  | tail _ hstep ih => exact stable _ _ ih hstep

theorem StableUnder.const (P : Prop) : StableUnder R fun _ => P := fun _ _ hP _ => hP

theorem StableUnder.and {B : σ → Prop} (hA : StableUnder R A) (hB : StableUnder R B) :
    StableUnder R fun s => A s ∧ B s :=
  fun s t hs hstep => ⟨hA s t hs.1 hstep, hB s t hs.2 hstep⟩

theorem StableUnder.any {ι : Type} {A : ι → σ → Prop} (h : ∀ i, StableUnder R (A i)) :
    StableUnder R fun s => ∃ i, A i s :=
  fun s t ⟨i, hs⟩ hstep => ⟨i, h i s t hs hstep⟩

namespace Beside

/-! ## Outlines along a run -/

variable {p : Prog Act Resp α}

theorem background (h : p.Beside sem ok R Q s) (hstep : R s t) : p.Beside sem ok R Q t := by
  cases p with
  | ret a => exact fun u hu => h u (.head hstep hu)
  | act a k => exact fun u hu => h u (.head hstep hu)

theorem own {a : Act} {k : Resp a → Prog Act Resp α} {c : Choice} (h : (Prog.act a k).Beside sem ok R Q s)
    (hc : ok a c s) : (k (sem a c s).1).Beside sem ok R Q (sem a c s).2 :=
  h s .refl c hc

theorem returned {a : α} (h : (Prog.ret a : Prog Act Resp α).Beside sem ok R Q s) : Q a s :=
  h s .refl

/-! ## Rules -/

theorem act {a : Act} {k : Resp a → Prog Act Resp α} (stable : StableUnder R A) (hs : A s)
    (h : ∀ t c, A t → ok a c t → (k (sem a c t).1).Beside sem ok R Q (sem a c t).2) :
    (Prog.act a k).Beside sem ok R Q s :=
  fun t ht c hc => h t c (stable.star hs ht) hc

theorem ret {a : α} (stable : StableUnder R (Q a)) (hs : Q a s) :
    (Prog.ret a : Prog Act Resp α).Beside sem ok R Q s :=
  fun _ ht => stable.star hs ht

theorem bind {f : α → Prog Act Resp β} (hp : p.Beside sem ok R Q s)
    (hf : ∀ a t, Q a t → (f a).Beside sem ok R Q' t) : (p.bind f).Beside sem ok R Q' s := by
  induction p generalizing s with
  | ret a => exact hf a s (hp s .refl)
  | act a k ih => exact fun t ht c hc => ih _ (hp t ht c hc)

theorem weaken {Q₂ : α → σ → Prop} (h : p.Beside sem ok R Q s)
    (hQ : ∀ a t, Q a t → Q₂ a t) : p.Beside sem ok R Q₂ s := by
  induction p generalizing s with
  | ret a => exact fun t ht => hQ a t (h t ht)
  | act a k ih => exact fun t ht c hc => ih _ (h t ht c hc)

end Beside

end Prog

end AudioDown.Lib
