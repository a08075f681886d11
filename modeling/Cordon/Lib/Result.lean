import Mathlib.Data.List.Basic

/-!
# Taking successful computations apart

A function that can fail is a chain of binds in `Except`. These lemmas turn "the chain returned
`ok`" into "each link returned `ok`", which is the form every specification of such a function is
proved from. A check that returns nothing is a link too: `ensure` is the guard that refuses with a
given error.

They are equivalences, so that a specification can be proved in both directions by rewriting with
them. The values are of any type, and so are the errors; where a chain is refused, `bind_eq_error`
says that the first link that failed names the error.
-/

namespace Except

variable {ε α β : Type}

/-- A bind succeeds exactly when both of its parts do. -/
theorem bind_eq_ok {x : Except ε α} {f : α → Except ε β} {b : β} :
    (x >>= f) = .ok b ↔ ∃ a, x = .ok a ∧ f a = .ok b := by
  cases x with
  | error e => simp [bind, Except.bind]
  | ok a => simp [bind, Except.bind]

/-- So does a check in front of what goes on. -/
theorem unit_bind_eq_ok {x : Except ε Unit} {f : Unit → Except ε β} {b : β} :
    (x >>= f) = .ok b ↔ x = .ok () ∧ f () = .ok b := by
  cases x with
  | error e => simp [bind, Except.bind]
  | ok a => simp [bind, Except.bind]

/-- A bind fails where one of its parts does. -/
theorem bind_eq_error {x : Except ε α} {f : α → Except ε β} {e : ε} :
    (x >>= f) = .error e ↔ x = .error e ∨ ∃ a, x = .ok a ∧ f a = .error e := by
  cases x with
  | error e => simp [bind, Except.bind]
  | ok a => simp [bind, Except.bind]

theorem map_eq_ok {x : Except ε α} {f : α → β} {b : β} :
    (f <$> x) = .ok b ↔ ∃ a, x = .ok a ∧ f a = b := by
  cases x with
  | error e => simp [Functor.map, Except.map]
  | ok a => simp [Functor.map, Except.map]

@[simp]
theorem pure_eq_ok {a b : α} : (pure a : Except ε α) = .ok b ↔ a = b := by
  simp [pure, Except.pure]

@[simp]
theorem ok_bind (a : α) (f : α → Except ε β) : ((.ok a : Except ε α) >>= f) = f a :=
  rfl

@[simp]
theorem error_bind (e : ε) (f : α → Except ε β) :
    ((.error e : Except ε α) >>= f) = .error e :=
  rfl

/-- To throw is to fail. -/
theorem throw_eq_error (e : ε) : (throw e : Except ε α) = .error e :=
  rfl

@[simp]
theorem mapError_eq_ok {ε' : Type} {x : Except ε α} {f : ε → ε'} {a : α} :
    x.mapError f = .ok a ↔ x = .ok a := by
  cases x with
  | error e => simp [Except.mapError]
  | ok b => simp [Except.mapError]

/-- A guard: go on if the condition holds, refuse with the error otherwise. -/
def ensure (c : Bool) (e : ε) : Except ε Unit :=
  if c then .ok () else .error e

@[simp]
theorem ensure_eq_ok {c : Bool} {e : ε} {u : Unit} : ensure c e = .ok u ↔ c = true := by
  rcases c with - | - <;> simp [ensure]

end Except
