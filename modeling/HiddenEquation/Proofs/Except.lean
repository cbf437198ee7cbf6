/-!
# Results in stages

What it takes for a computation in stages to give a value, and where its error comes from: the
value of a later stage needs the values of all before it, and the error is that of the first stage
that fails.

* `Except.bind_eq_ok_iff`, `Except.bind_eq_error_iff` : one stage after another.
* `Except.map_eq_ok_iff`, `Except.map_eq_error_iff` : a last step that cannot fail.
-/

namespace Except

variable {ε α β : Type} {r : Except ε α} {e : ε} {b : β}

theorem bind_eq_ok_iff {f : α → Except ε β} : r >>= f = .ok b ↔ ∃ a, r = .ok a ∧ f a = .ok b := by
  cases r with
  | error e => simp [bind, Except.bind]
  | ok a => simp [bind, Except.bind]

theorem bind_eq_error_iff {f : α → Except ε β} :
    r >>= f = .error e ↔ r = .error e ∨ ∃ a, r = .ok a ∧ f a = .error e := by
  cases r with
  | error e => simp [bind, Except.bind]
  | ok a => simp [bind, Except.bind]

theorem map_eq_ok_iff {f : α → β} : r.map f = .ok b ↔ ∃ a, r = .ok a ∧ f a = b := by
  cases r with
  | error e => simp [Except.map]
  | ok a => simp [Except.map]

theorem map_eq_error_iff {f : α → β} : r.map f = .error e ↔ r = .error e := by
  cases r with
  | error e => simp [Except.map]
  | ok a => simp [Except.map]

end Except
