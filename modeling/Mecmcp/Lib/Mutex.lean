import Mathlib.Logic.Function.Basic
import Mathlib.Data.Nat.Notation

/-!
# Mutex — exclusive locks of a table of processes

A lock records its holder, and each process is at a place in its code where it holds the lock or
does not.  `Exclusive` says that the two agree; there is one rule for each thing a process can do:
move on without touching the lock, take it while it is free, give it back, and die.
-/

namespace Mecmcp

variable {P : Type} {holds : P → Bool} {holder : Option ℕ} {procs : ℕ → Option P} {p q : ℕ}
  {next : Option P}

def Exclusive (holds : P → Bool) (holder : Option ℕ) (procs : ℕ → Option P) : Prop :=
  ∀ p, holder = some p ↔ (procs p).any holds = true

theorem Exclusive.unique (h : Exclusive holds holder procs) (hp : (procs p).any holds = true)
    (hq : (procs q).any holds = true) : p = q :=
  Option.some.inj (((h p).mpr hp).symm.trans ((h q).mpr hq))

theorem Exclusive.keep (h : Exclusive holds holder procs)
    (hnext : next.any holds = (procs p).any holds) :
    Exclusive holds holder (Function.update procs p next) := by
  intro q
  by_cases hq : q = p
  · subst hq
    rw [Function.update_self, hnext]
    exact h q
  · rw [Function.update_of_ne hq]
    exact h q

theorem Exclusive.acquire (h : Exclusive holds none procs) (hnext : next.any holds = true) :
    Exclusive holds (some p) (Function.update procs p next) := by
  intro q
  by_cases hq : q = p
  · subst hq
    simp [hnext]
  · have hfree : ¬ (procs q).any holds = true := fun hany => by cases (h q).mpr hany
    rw [Function.update_of_ne hq]
    exact ⟨fun heq => absurd (Option.some.inj heq).symm hq, fun hany => absurd hany hfree⟩

theorem Exclusive.release (h : Exclusive holds holder procs) (hp : holder = some p)
    (hnext : next.any holds = false) : Exclusive holds none (Function.update procs p next) := by
  intro q
  by_cases hq : q = p
  · subst hq
    simp [hnext]
  · rw [Function.update_of_ne hq]
    refine ⟨fun heq => (by cases heq), fun hany => ?_⟩
    exact absurd (Option.some.inj (((h q).mpr hany).symm.trans hp)) hq

/-- The locks of a process that dies are released. -/
def released (holder : Option ℕ) (p : ℕ) : Option ℕ := if holder = some p then none else holder

theorem Exclusive.die (h : Exclusive holds holder procs) :
    Exclusive holds (released holder p) (Function.update procs p none) := by
  unfold released
  split
  · next hp => exact h.release hp rfl
  · next hp =>
    refine h.keep ?_
    rw [Option.any_none]
    exact (Bool.eq_false_iff.mpr fun hany => hp ((h p).mpr hany)).symm

end Mecmcp
