/-
# AudioDown.Domain.Basic — identifiers and times

The types of the domain crate that every other part of the model speaks of.
-/
import Mathlib.Algebra.Order.Ring.Int

namespace AudioDown

/-- Operation, risk-grant, credential and temporary-file identifiers.  Only equality and order matter. -/
abbrev Uuid := Nat

abbrev PluginId := String

/-- `DateTime<Utc>`, in nanoseconds. -/
abbrev Timestamp := Int

end AudioDown
