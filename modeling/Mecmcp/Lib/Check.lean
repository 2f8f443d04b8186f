import Mathlib

/-!
# Check — sequences of checks that may refuse

A check is an `Except ε Unit`.  The lemmas turn "this sequence of checks passed" into what each
of them established, so that a validator is inverted by `simp` and never unfolded by its callers.
-/

namespace Mecmcp

variable {ε ε' α β : Type}

/-- Refuse with `error` where `bad` holds. -/
def refuseIf (bad : Prop) [Decidable bad] (error : ε) : Except ε Unit :=
  if bad then .error error else .ok ()

/-- Run a check on every element of a list, stopping at the first refusal. -/
def checkAll (check : α → Except ε Unit) : List α → Except ε Unit
  | [] => .ok ()
  | a :: as => check a >>= fun _ => checkAll check as

@[simp] theorem refuseIf_ok {bad : Prop} [Decidable bad] {error : ε} :
    refuseIf bad error = .ok () ↔ ¬ bad := by
  unfold refuseIf
  split <;> simp_all

theorem bind_ok {x : Except ε α} {f : α → Except ε β} {b : β} :
    (x >>= f) = .ok b ↔ ∃ a, x = .ok a ∧ f a = .ok b := by
  cases x <;> simp [bind, Except.bind]

@[simp] theorem bind_unit_ok {x : Except ε Unit} {f : Unit → Except ε β} {b : β} :
    (x >>= f) = .ok b ↔ x = .ok () ∧ f () = .ok b := by
  simp [bind_ok, Unique.exists_iff]

@[simp] theorem mapError_ok {x : Except ε α} {f : ε → ε'} {a : α} :
    x.mapError f = .ok a ↔ x = .ok a := by
  cases x <;> simp [Except.mapError]

@[simp] theorem checkAll_ok {check : α → Except ε Unit} {as : List α} :
    checkAll check as = .ok () ↔ ∀ a ∈ as, check a = .ok () := by
  induction as with
  | nil => simp [checkAll]
  | cons a as ih => simp [checkAll, ih]

end Mecmcp
