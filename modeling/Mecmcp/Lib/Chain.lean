import Mathlib

/-!
# Chain — chains of steps

A chain is a list of items, each taking one head to the next.  Where a step can be told from the head
it leads to, and no step leads to the start, the last head tells the whole chain
(`Chain.forall₂_of_head`).
-/

namespace Mecmcp

/-- The items lead from `start` to a head. -/
inductive Chain {H α : Type} (step : H → α → H → Prop) (start : H) : List α → H → Prop
  | nil : Chain step start [] start
  | snoc {items : List α} {head next : H} {item : α} (h : Chain step start items head)
      (hstep : step head item next) : Chain step start (items ++ [item]) next

namespace Chain

variable {H α : Type} {step : H → α → H → Prop} {start head next : H} {items items' : List α}

theorem append (h : Chain step start items head) (h' : Chain step head items' next) :
    Chain step start (items ++ items') next := by
  induction h' with
  | nil => rwa [List.append_nil]
  | snoc _ hstep ih =>
    rw [← List.append_assoc]
    exact ih.snoc hstep

theorem cons {item : α} (hstep : step start item head) (h : Chain step head items next) :
    Chain step start (item :: items) next :=
  append (.snoc .nil hstep) h

/-- **The last head tells the chain**, up to what a step does not tell of its item. -/
theorem forall₂_of_head {R : α → α → Prop}
    (hstep : ∀ p p' x x' q, step p x q → step p' x' q → p = p' ∧ R x x')
    (hstart : ∀ p x, ¬ step p x start) (h : Chain step start items head)
    (h' : Chain step start items' head) : List.Forall₂ R items items' := by
  induction h generalizing items' with
  | nil =>
    cases h' with
    | nil => exact .nil
    | snoc _ hlast => exact absurd hlast (hstart _ _)
  | snoc h hlast ih =>
    cases h' with
    | nil => exact absurd hlast (hstart _ _)
    | snoc h' hlast' =>
      obtain ⟨rfl, hitem⟩ := hstep _ _ _ _ _ hlast hlast'
      exact List.rel_append (ih h') (.cons hitem .nil)

end Chain

end Mecmcp
