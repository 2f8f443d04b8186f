import Mecmcp.Lib.Prog

/-!
# Pool — runs of a system, and pools of threads

Two general notions.  `Reachable` are the states a transition function leads to when every step
meets a condition; `Reachable.invariant` is its induction rule, and `Reachable.run` turns an
evaluated run into a reachable state.

A `Pool` holds threads, each with the request it serves and the rest of its program.  `Pool.Kept`
says that every thread keeps its discipline in some state of knowledge that agrees with the world;
`Kept.advance` is the rule for one answered call: the knowledge of the thread that made it grows,
and that of every other thread must still agree.
-/

namespace Mecmcp

/-! ### Runs -/

variable {S A : Type} {step : S → A → Option S} {init : S} {ok : S → A → Prop}
variable {s s' : S} {as : List A}

/-- The states reached from `init` by steps that meet the condition `ok`. -/
inductive Reachable (step : S → A → Option S) (init : S) (ok : S → A → Prop) : S → Prop where
  | start : Reachable step init ok init
  | next {s s' : S} {a : A} (h : Reachable step init ok s) (hok : ok s a)
      (hstep : step s a = some s') : Reachable step init ok s'

theorem Reachable.invariant {P : S → Prop} (hinit : P init)
    (hstep : ∀ s a s', P s → ok s a → step s a = some s' → P s')
    (h : Reachable step init ok s) : P s := by
  induction h with
  | start => exact hinit
  | next _ hok hs ih => exact hstep _ _ _ ih hok hs

def runActions (step : S → A → Option S) : S → List A → Option S
  | s, [] => some s
  | s, a :: as => (step s a).bind fun s' => runActions step s' as

theorem Reachable.run (h : Reachable step init (fun _ _ => True) s)
    (hrun : runActions step s as = some s') : Reachable step init (fun _ _ => True) s' := by
  induction as generalizing s with
  | nil =>
    cases hrun
    exact h
  | cons a as ih =>
    obtain ⟨t, hstep, hrest⟩ := Option.bind_eq_some_iff.mp hrun
    exact ih (.next h trivial hstep) hrest

/-- The state after a list of steps that all meet a condition. -/
def runChecked (step : S → A → Option S) (ok : S → A → Prop) [∀ s a, Decidable (ok s a)] :
    S → List A → Option S
  | s, [] => some s
  | s, a :: as => if ok s a then (step s a).bind fun s' => runChecked step ok s' as else none

theorem Reachable.checked [∀ s a, Decidable (ok s a)]
    (h : Reachable step init ok s) (hrun : runChecked step ok s as = some s') :
    Reachable step init ok s' := by
  induction as generalizing s with
  | nil =>
    cases hrun
    exact h
  | cons a as ih =>
    simp only [runChecked, Option.ite_none_right_eq_some] at hrun
    obtain ⟨hok, hrun⟩ := hrun
    obtain ⟨t, hstep, hrest⟩ := Option.bind_eq_some_iff.mp hrun
    exact ih (.next h hok hstep) hrest

/-! ### Pools -/

/-- A thread: the request it serves and the rest of its program. -/
structure Thread (I : Interface) (ε R : Type) where
  request : R
  prog : Prog I ε Unit

def Pool (I : Interface) (ε R : Type) : Type := ℕ → Option (Thread I ε R)

namespace Pool

variable {I : Interface} {ε R σ : Type}

/-- No thread. -/
def empty : Pool I ε R := fun _ => none

/-- Replace the thread of one number. -/
def set (pool : Pool I ε R) (t : ℕ) (thread : Option (Thread I ε R)) : Pool I ε R :=
  fun t' => if t' = t then thread else pool t'

@[simp] theorem set_self (pool : Pool I ε R) (t : ℕ) (thread : Option (Thread I ε R)) :
    pool.set t thread t = thread := if_pos rfl

theorem set_of_ne (pool : Pool I ε R) {t t' : ℕ} (thread : Option (Thread I ε R)) (h : t' ≠ t) :
    pool.set t thread t' = pool t' := if_neg h

/-- Every thread keeps its discipline in a state of knowledge that agrees with the world, and ends
with `final`. -/
def Kept (D : R → Discipline I σ) (final : R → σ → Prop) (Agrees : ℕ → R → σ → Prop)
    (pool : Pool I ε R) : Prop :=
  ∀ t thread, pool t = some thread → ∃ s, Agrees t thread.request s ∧
    thread.prog.Keeps (D thread.request) s fun _ => final thread.request

variable {D : R → Discipline I σ} {final : R → σ → Prop} {Agrees Agrees' : ℕ → R → σ → Prop}
  {pool : Pool I ε R} {t : ℕ}

theorem kept_empty : (empty : Pool I ε R).Kept D final Agrees := by
  intro t thread h
  cases h

theorem Kept.mono (h : pool.Kept D final Agrees)
    (hstable : ∀ t request s, Agrees t request s → Agrees' t request s) :
    pool.Kept D final Agrees' := by
  intro t thread ht
  obtain ⟨s, ha, hk⟩ := h t thread ht
  exact ⟨s, hstable t thread.request s ha, hk⟩

theorem Kept.spawn (h : pool.Kept D final Agrees) {thread : Thread I ε R} {s : σ}
    (ha : Agrees t thread.request s)
    (hk : thread.prog.Keeps (D thread.request) s fun _ => final thread.request) :
    (pool.set t (some thread)).Kept D final Agrees := by
  intro t' thread' ht'
  by_cases hne : t' = t
  · subst hne
    rw [set_self] at ht'
    cases ht'
    exact ⟨s, ha, hk⟩
  · rw [set_of_ne _ _ hne] at ht'
    exact h t' thread' ht'

theorem Kept.remove (h : pool.Kept D final Agrees)
    (hstable : ∀ t' request s, t' ≠ t → Agrees t' request s → Agrees' t' request s) :
    (pool.set t none).Kept D final Agrees' := by
  intro t' thread ht'
  by_cases hne : t' = t
  · subst hne
    rw [set_self] at ht'
    cases ht'
  · rw [set_of_ne _ _ hne] at ht'
    obtain ⟨s, ha, hk⟩ := h t' thread ht'
    exact ⟨s, hstable t' thread.request s hne ha, hk⟩

/-- A thread's call is answered: it was allowed, and the pool is kept again if the answer is an
expected one, the thread's new knowledge agrees with the world, and so does that of the others. -/
theorem Kept.advance (h : pool.Kept D final Agrees) {request : R} {c : I.Call}
    {next : I.Answer c → Prog I ε Unit} (ht : pool t = some ⟨request, .call c next⟩) :
    ∃ s, Agrees t request s ∧ (D request).allowed s c ∧
      ∀ (Agrees' : ℕ → R → σ → Prop) answer, (D request).expected s c answer →
        Agrees' t request ((D request).next s c answer) →
        (∀ t' request' s', t' ≠ t → Agrees t' request' s' → Agrees' t' request' s') →
        (pool.set t (some ⟨request, next answer⟩)).Kept D final Agrees' := by
  obtain ⟨s, ha, hallowed, hnext⟩ := h t _ ht
  refine ⟨s, ha, hallowed, fun Agrees' answer hexpected hown hothers => ?_⟩
  intro t' thread ht'
  by_cases hne : t' = t
  · subst hne
    rw [set_self] at ht'
    cases ht'
    exact ⟨_, hown, hnext answer hexpected⟩
  · rw [set_of_ne _ _ hne] at ht'
    obtain ⟨s', ha', hk'⟩ := h t' thread ht'
    exact ⟨s', hothers t' thread.request s' hne ha', hk'⟩

end Pool

end Mecmcp
