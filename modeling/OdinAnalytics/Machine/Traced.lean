import Mathlib.Tactic.Common

/-!
# Computations that leave a trace

`Traced ε τ α` is a computation that has a value or fails, and that appends events to a
trace in either case: a failure does not take back what was done before it. `Ends` is the
judgement that a computation ends so and does just these events, whatever was done before.

## Key results

- `Ends.bind`, `Ends.bind_error`: one computation after another
- `Ends.handle_ok`, `Ends.handle_error`: one with a handler for its failures
-/

namespace Machine

/-- A computation over the events that were done so far. -/
def Traced (ε τ α : Type) : Type := List τ → Except ε α × List τ

namespace Traced

variable {ε τ α β : Type}

instance : Monad (Traced ε τ) where
  pure a := fun t => (.ok a, t)
  bind x k := fun t =>
    match x t with
    | (.ok a, t) => k a t
    | (.error e, t) => (.error e, t)

/-- An event is done. -/
def emit (e : τ) : Traced ε τ Unit := fun t => (.ok (), t ++ [e])

/-- A failure, which ends the computation. -/
def fail (e : ε) : Traced ε τ α := fun t => (.error e, t)

/-- A failure is handled. -/
def handle (x : Traced ε τ α) (k : ε → Traced ε τ α) : Traced ε τ α := fun t =>
  match x t with
  | (.ok a, t) => (.ok a, t)
  | (.error e, t) => k e t

/-- A computation has this outcome, and these are its events. -/
def Ends (x : Traced ε τ α) (r : Except ε α) (t : List τ) : Prop :=
  ∀ before, x before = (r, before ++ t)

variable {x : Traced ε τ α} {k : α → Traced ε τ β} {r : Except ε β} {a : α} {e : ε}
  {t u : List τ}

/-- What a computation comes to from no events. -/
theorem Ends.run {r : Except ε α} (h : Ends x r t) : x [] = (r, t) := h []

/-- A value has no events. -/
theorem ends_pure (a : α) : Ends (pure a : Traced ε τ α) (.ok a) [] := fun before => by
  rw [List.append_nil]
  rfl

/-- One event. -/
theorem ends_emit (e : τ) : Ends (emit e : Traced ε τ Unit) (.ok ()) [e] := fun _ => rfl

/-- A failure has no events. -/
theorem ends_fail (e : ε) : Ends (fail e : Traced ε τ α) (.error e) [] := fun before => by
  rw [List.append_nil]
  rfl

/-- The events of two parts, one after the other. -/
theorem Ends.bind (hx : Ends x (.ok a) t) (hk : Ends (k a) r u) :
    Ends (x >>= k) r (t ++ u) := by
  intro before
  have hstep : (x >>= k) before = k a (before ++ t) := by
    show (match x before with | (.ok a, t) => k a t | (.error e, t) => (.error e, t)) = _
    rw [hx before]
  rw [hstep, hk, List.append_assoc]

/-- A failure of the first part ends the whole. -/
theorem Ends.bind_error (hx : Ends x (.error e) t) : Ends (x >>= k) (.error e) t := by
  intro before
  show (match x before with | (.ok a, t) => k a t | (.error e, t) => (.error e, t)) = _
  rw [hx before]

/-- The handler is not used without a failure. -/
theorem Ends.handle_ok {k : ε → Traced ε τ α} (hx : Ends x (.ok a) t) :
    Ends (handle x k) (.ok a) t := by
  intro before
  unfold handle
  rw [hx before]

/-- The events of the handler come after those of the failure. -/
theorem Ends.handle_error {k : ε → Traced ε τ α} {r : Except ε α} (hx : Ends x (.error e) t)
    (hk : Ends (k e) r u) : Ends (handle x k) r (t ++ u) := by
  intro before
  unfold handle
  rw [hx before]
  exact (hk _).trans (by rw [List.append_assoc])

end Traced

end Machine
