/-
# AudioDown.Lib.Check — checks one after the other

A validation is a sequence of checks in `Except`: a condition that must hold (`require`), a value that must
be there (`okOr`), a check on every element (`forAll`).
-/
import AudioDown.Lib.Method

namespace AudioDown.Lib

variable {ε α β : Type}

/-- `if !condition { return Err(error) }` -/
def require (condition : Bool) (error : ε) : Except ε Unit := if condition then .ok () else .error error

/-- `value.ok_or(error)` -/
def okOr (value : Option α) (error : ε) : Except ε α :=
  match value with
  | some a => .ok a
  | none => .error error

def forAll (check : α → Except ε Unit) : List α → Except ε Unit
  | [] => .ok ()
  | x :: xs => check x >>= fun _ => forAll check xs

theorem require_eq_ok {condition : Bool} {error : ε} {u : Unit} :
    require condition error = .ok u ↔ condition = true := by
  cases condition with
  | true => exact ⟨fun _ => rfl, fun _ => rfl⟩
  | false => exact ⟨fun h => (nomatch h), fun h => (nomatch h)⟩

theorem require_bind_eq_ok {condition : Bool} {error : ε} {f : Unit → Except ε β} {b : β} :
    (require condition error >>= f) = .ok b ↔ condition = true ∧ f () = .ok b := by
  cases condition with
  | true => exact ⟨fun h => ⟨rfl, h⟩, fun h => h.2⟩
  | false => exact ⟨fun h => (nomatch h), fun h => (nomatch h.1)⟩

theorem okOr_eq_ok {value : Option α} {error : ε} {a : α} : okOr value error = .ok a ↔ value = some a := by
  cases value with
  | none => exact ⟨fun h => (nomatch h), fun h => (nomatch h)⟩
  | some b => exact ⟨fun h => congrArg some (Except.ok.inj h), fun h => congrArg Except.ok (Option.some.inj h)⟩

theorem bind_eq_ok_iff {x : Except ε α} {f : α → Except ε β} {b : β} :
    (x >>= f) = .ok b ↔ ∃ a, x = .ok a ∧ f a = .ok b := by
  refine ⟨bind_eq_ok, ?_⟩
  rintro ⟨a, rfl, h⟩
  exact h

theorem forAll_eq_ok {check : α → Except ε Unit} {xs : List α} :
    forAll check xs = .ok () ↔ ∀ x ∈ xs, check x = .ok () := by
  induction xs with
  | nil => exact ⟨fun _ _ hx => (nomatch hx), fun _ => rfl⟩
  | cons x xs ih =>
    rw [List.forall_mem_cons, ← ih, forAll, bind_eq_ok_iff]
    exact ⟨fun ⟨_, h⟩ => h, fun h => ⟨(), h⟩⟩

end AudioDown.Lib
