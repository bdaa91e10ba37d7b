import Mathlib.Tactic

/-!
# Computations that can fail

The rules for sequences of computations in `Except`, for any kind of failure.
-/

namespace PDS

variable {ε α β : Type} {x : Except ε α} {f : α → Except ε β} {b : β}

/-- A sequence goes on from a value. -/
@[simp] lemma ok_bind (a : α) (f : α → Except ε β) : (Except.ok a >>= f) = f a := rfl

/-- A sequence ends with the error of its first part. -/
@[simp] lemma error_bind (e : ε) (f : α → Except ε β) : ((Except.error e : Except ε α) >>= f) = .error e := rfl

/-- A computation that returns does so step by step. -/
lemma bind_ok_iff : (x >>= f) = .ok b ↔ ∃ a, x = .ok a ∧ f a = .ok b := by
  cases x with
  | error e => simp
  | ok a => simp

end PDS
