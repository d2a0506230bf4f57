import Mathlib.Tactic.Lemma

/-!
# How a call of the C++ code ends

The functions of the engine return a value, throw (`Assert`, `AssertI` and `Throw` all raise a
`utils::InternalError` or `utils::ArgError`), or run into undefined behaviour: an iterator
dereferenced at `end()`, `back()` of an empty deque, an iterator incremented after its node was
erased.  `Outcome` keeps the three apart, so that a theorem saying a call *completes* is not
satisfied by a call that crashes, and a crash is not mistaken for a reported error.  A fourth
end, `outOfFuel`, belongs to the model alone: the loops of the simulation kernel need not stop
(a model may keep sending events to itself within one instant), and are run with a bound.

`Outcome` is a monad; the `@[simp]` lemmas below are all the later modules use of its `bind`.
-/

namespace Vle

/-- The end of a call: a value, an exception carrying its message, undefined behaviour, or the
bound on a loop reached. -/
inductive Outcome (α : Type) where
  | ok (a : α)
  | raise (msg : String)
  | undefined
  | outOfFuel
  deriving DecidableEq, Repr

namespace Outcome

variable {α β : Type}

/-- Sequencing: an exception or undefined behaviour ends the rest of the call. -/
def bind : Outcome α → (α → Outcome β) → Outcome β
  | ok a, f => f a
  | raise m, _ => raise m
  | undefined, _ => undefined
  | outOfFuel, _ => outOfFuel

instance : Monad Outcome where
  pure := ok
  bind := bind

@[simp] lemma pure_eq (a : α) : (pure a : Outcome α) = ok a := rfl

@[simp] lemma ok_bind (a : α) (f : α → Outcome β) : (ok a >>= f) = f a := rfl

@[simp] lemma raise_bind (m : String) (f : α → Outcome β) : (raise m >>= f) = raise m := rfl

@[simp] lemma undefined_bind (f : α → Outcome β) : (undefined >>= f) = undefined := rfl

@[simp] lemma outOfFuel_bind (f : α → Outcome β) : (outOfFuel >>= f) = outOfFuel := rfl

@[simp] lemma bind_assoc {γ : Type} (x : Outcome α) (f : α → Outcome β) (g : β → Outcome γ) :
    (x >>= f >>= g) = (x >>= fun a => f a >>= g) := by
  cases x <;> rfl

/-- The bind lemma every inversion goes through: a sequenced call completes exactly when its
first part completes and the rest completes from there. -/
lemma bind_eq_ok {x : Outcome α} {f : α → Outcome β} {b : β} :
    (x >>= f) = ok b ↔ ∃ a, x = ok a ∧ f a = ok b := by
  cases x <;> simp

end Outcome

end Vle
