/-
# AudioDown.Lib.Method — programs that return a result or an error

A method that can fail is a program in `ExceptT`: `?` is `bind`, and `map_err(|_| e)?` is `mapErr`.
`Keeps possible P Q x` is its outline over `Prog.Within`: as long as its answers are `possible`, it
issues only requests satisfying `P`, and if it succeeds, `Q` holds of what it returns.  `Noted` is the
same over `Prog.Traces`, where `P` and `Q` may look at the answers so far.
-/
import AudioDown.Lib.Prog

namespace AudioDown.Lib

variable {Act : Type} {Resp : Act → Type} {ε ε' α β : Type}

theorem bind_eq_ok {x : Except ε α} {f : α → Except ε β} {b : β} (h : (x >>= f) = .ok b) :
    ∃ a, x = .ok a ∧ f a = .ok b := by
  cases x with
  | error e => cases h
  | ok a => exact ⟨a, rfl, h⟩

theorem map_eq_ok {x : Except ε α} {f : α → β} {b : β} (h : x.map f = .ok b) : ∃ a, x = .ok a ∧ f a = b := by
  cases x with
  | error e => cases h
  | ok a =>
    cases h
    exact ⟨a, rfl, rfl⟩

/-- `.map_err(|_| error)?`. -/
def mapErr (x : Prog Act Resp (Except ε α)) (error : ε') : ExceptT ε' (Prog Act Resp) α :=
  ExceptT.mk (x.bind fun
    | .ok value => .ret (.ok value)
    | .error _ => .ret (.error error))

/-- A request, and what becomes of its answer. -/
def asking (a : Act) (f : Resp a → Except ε α) : ExceptT ε (Prog Act Resp) α :=
  ExceptT.mk (.act a fun r => .ret (f r))

def checking (x : Except ε α) : ExceptT ε (Prog Act Resp) α := ExceptT.mk (.ret x)

/-- `.map_err(f)?`. -/
def mapErrors (f : ε → ε') (x : ExceptT ε (Prog Act Resp) α) : ExceptT ε' (Prog Act Resp) α :=
  ExceptT.mk (x.run.bind fun r => .ret (r.mapError f))

/-! ## Running a method alone -/

section
variable {Choice σ : Type} {sem : Semantics Act Resp Choice σ} {choose : Act → Choice} {s t : σ}

variable {error : ε'} {f : α → ExceptT ε (Prog Act Resp) β} {value : α} {x : ExceptT ε (Prog Act Resp) α}

theorem run_bind_ok (h : Prog.run sem choose x.run s = (.ok value, t)) :
    Prog.run sem choose (x >>= f).run s = Prog.run sem choose (f value).run t := by
  refine (Prog.run_bind x.run (ExceptT.bindCont f) s).trans ?_
  rw [h]
  rfl

theorem run_bind_error {error : ε} (h : Prog.run sem choose x.run s = (.error error, t)) :
    Prog.run sem choose (x >>= f).run s = (.error error, t) := by
  refine (Prog.run_bind x.run (ExceptT.bindCont f) s).trans ?_
  rw [h]
  rfl

theorem run_lift {x : Prog Act Resp α} (h : x.run sem choose s = (value, t)) :
    Prog.run sem choose (ExceptT.lift x : ExceptT ε (Prog Act Resp) α).run s = (.ok value, t) := by
  refine (x.run_bind _ s).trans ?_
  rw [h]
  rfl

theorem run_mapErr_ok {x : Prog Act Resp (Except ε α)} (h : x.run sem choose s = (.ok value, t)) :
    Prog.run sem choose (mapErr x error).run s = (.ok value, t) := by
  refine (x.run_bind _ s).trans ?_
  rw [h]
  rfl

theorem run_mapErr_error {x : Prog Act Resp (Except ε α)} {e : ε} (h : x.run sem choose s = (.error e, t)) :
    Prog.run sem choose (mapErr x error).run s = (.error error, t) := by
  refine (x.run_bind _ s).trans ?_
  rw [h]
  rfl

end

/-! ## Outlines -/

def Keeps (possible : (a : Act) → Resp a → Prop) (P : Act → Prop) (Q : α → Prop)
    (x : ExceptT ε (Prog Act Resp) α) : Prop :=
  x.run.Within possible P fun r => ∀ value, r = .ok value → Q value

namespace Keeps

variable {possible : (a : Act) → Resp a → Prop} {P : Act → Prop} {Q : α → Prop} {Q' : β → Prop}

variable {e : ε} {f : α → ExceptT ε (Prog Act Resp) β} {x : ExceptT ε (Prog Act Resp) α}

theorem throw : Keeps possible P Q (MonadExcept.throw e : ExceptT ε (Prog Act Resp) α) := by
  intro value hvalue
  cases hvalue

theorem bind (hx : Keeps possible P Q x) (hf : ∀ value, Q value → Keeps possible P Q' (f value)) :
    Keeps possible P Q' (x >>= f) := by
  refine Prog.Within.bind hx fun r hr => ?_
  cases r with
  | ok value => exact hf value (hr value rfl)
  | error e => exact throw

theorem pure {value : α} (h : Q value) : Keeps possible P Q (Pure.pure value : ExceptT ε (Prog Act Resp) α) := by
  intro value' hvalue
  cases hvalue
  exact h

theorem thrown : Keeps possible P Q' ((MonadExcept.throw e : ExceptT ε (Prog Act Resp) α) >>= f) :=
  bind (Q := fun _ => False) throw fun _ h => h.elim

theorem lift {x : Prog Act Resp α} (h : x.Within possible P Q) :
    Keeps possible P Q (ExceptT.lift x : ExceptT ε (Prog Act Resp) α) :=
  h.bind fun _ hvalue => pure hvalue

theorem mapErr {x : Prog Act Resp (Except ε α)} {R : Except ε α → Prop} {error : ε'}
    (h : x.Within possible P R) : Keeps possible P (fun value => R (.ok value)) (mapErr x error) := by
  refine h.bind fun r hr => ?_
  cases r with
  | ok value => exact pure hr
  | error e => exact throw

theorem guard {c : Prop} [Decidable c] : Keeps possible P (fun _ => True)
      (if c then MonadExcept.throw e else Pure.pure () : ExceptT ε (Prog Act Resp) Unit) := by
  split
  · exact throw
  · exact pure trivial

theorem weaken {Q₂ : α → Prop} (h : Keeps possible P Q x)
    (hQ : ∀ value, Q value → Q₂ value) : Keeps possible P Q₂ x :=
  Prog.Within.weaken h fun _ hr value hvalue => hQ value (hr value hvalue)

end Keeps

/-! ## Outlines with a memory -/

/-- The outline of a method, from what is noted when it begins. -/
def Noted {H : Type} (note : (a : Act) → Resp a → H → H) (P : H → Act → Prop) (Q : α → H → Prop)
    (h : H) (x : ExceptT ε (Prog Act Resp) α) : Prop :=
  x.run.Traces note P (fun r h' => ∀ value, r = .ok value → Q value h') h

namespace Noted

variable {H : Type} {note : (a : Act) → Resp a → H → H} {P : H → Act → Prop} {Q : α → H → Prop}
  {Q' : β → H → Prop} {h : H}

variable {e : ε} {f : α → ExceptT ε (Prog Act Resp) β} {x : ExceptT ε (Prog Act Resp) α}

theorem throw : Noted note P Q h (MonadExcept.throw e : ExceptT ε (Prog Act Resp) α) := by
  intro value hvalue
  cases hvalue

theorem bind (hx : Noted note P Q h x) (hf : ∀ value h', Q value h' → Noted note P Q' h' (f value)) :
    Noted note P Q' h (x >>= f) := by
  refine Prog.Traces.bind hx fun r h' hr => ?_
  cases r with
  | ok value => exact hf value h' (hr value rfl)
  | error e => exact throw

theorem pure {value : α} (hQ : Q value h) :
    Noted note P Q h (Pure.pure value : ExceptT ε (Prog Act Resp) α) := by
  intro value' hvalue
  cases hvalue
  exact hQ

theorem thrown : Noted note P Q' h ((MonadExcept.throw e : ExceptT ε (Prog Act Resp) α) >>= f) :=
  bind (Q := fun _ _ => False) throw fun _ _ hfalse => hfalse.elim

theorem lift {x : Prog Act Resp α} (hx : x.Traces note P Q h) :
    Noted note P Q h (ExceptT.lift x : ExceptT ε (Prog Act Resp) α) :=
  hx.bind fun _ _ hvalue => pure hvalue

theorem mapErr {x : Prog Act Resp (Except ε α)} {error : ε'}
    (hx : x.Traces note P (fun r h' => ∀ value, r = .ok value → Q value h') h) :
    Noted note P Q h (mapErr x error) := by
  refine hx.bind fun r h' hr => ?_
  cases r with
  | ok value => exact pure (hr value rfl)
  | error e => exact throw

theorem asking {a : Act} {f : Resp a → Except ε α} (hP : P h a)
    (hQ : ∀ r value, f r = .ok value → Q value (note a r h)) : Noted note P Q h (asking a f) :=
  ⟨hP, hQ⟩

theorem checking {x : Except ε α} (hQ : ∀ value, x = .ok value → Q value h) :
    Noted note P Q h (checking x : ExceptT ε (Prog Act Resp) α) :=
  hQ

theorem mapErrors {f : ε → ε'} (hx : Noted note P Q h x) : Noted note P Q h (mapErrors f x) := by
  refine Prog.Traces.bind hx fun r h' hr => ?_
  cases r with
  | ok value => exact pure (hr value rfl)
  | error e => exact throw

theorem weaken {Q₂ : α → H → Prop} (hx : Noted note P Q h x)
    (hQ : ∀ value h', Q value h' → Q₂ value h') : Noted note P Q₂ h x :=
  Prog.Traces.weaken hx fun _ h' hr value heq => hQ value h' (hr value heq)

end Noted

end AudioDown.Lib
