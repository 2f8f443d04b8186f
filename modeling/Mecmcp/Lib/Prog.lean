import Mecmcp.Lib.Check

/-!
# Prog — programs over an interface of calls, and a logic for them

`Prog I ε α` is a program that makes calls of the interface `I`, continues with their answers, and
returns an `α` or fails with an `ε`.  Between two calls anything else may happen in the world, so a
program is reasoned about by what it has been told: a `Discipline` says which calls are allowed in
a state of knowledge, what may be expected of the answers, and how an answer changes the knowledge.

`Prog.Keeps D p s Q` says that `p`, started with knowledge `s`, makes only calls that `D` allows and
ends with `Q`.  There is one rule for each way of building programs; they are `simp` lemmas.
-/

namespace Mecmcp

/-- An interface: the calls, and the type of each answer. -/
structure Interface where
  Call : Type
  Answer : Call → Type

/-- A program that makes calls of `I`. -/
inductive Prog (I : Interface) (ε α : Type) where
  | ret (value : α)
  | fail (error : ε)
  | call (c : I.Call) (next : I.Answer c → Prog I ε α)

namespace Prog

variable {I : Interface} {ε α β : Type}

def bind : Prog I ε α → (α → Prog I ε β) → Prog I ε β
  | ret value, f => f value
  | fail error, _ => fail error
  | call c next, f => call c fun answer => (next answer).bind f

instance : Monad (Prog I ε) where
  pure := ret
  bind := bind

def ask (c : I.Call) : Prog I ε (I.Answer c) := call c ret

/-- Fail where the result is an error. -/
def ofExcept : Except ε α → Prog I ε α
  | .ok value => ret value
  | .error error => fail error

/-- Run a program and hand its failure to the caller as a value. -/
def attempt : Prog I ε α → Prog I ε (Except ε α)
  | ret value => ret (.ok value)
  | fail error => ret (.error error)
  | call c next => call c fun answer => (next answer).attempt

/-- Forget the result. -/
def discard (p : Prog I ε α) : Prog I ε Unit := p >>= fun _ => pure ()

end Prog

/-! ### Disciplines -/

/-- What a program may do with what it knows. -/
structure Discipline (I : Interface) (σ : Type) where
  allowed : σ → I.Call → Prop
  expected : σ → (c : I.Call) → I.Answer c → Prop
  next : σ → (c : I.Call) → I.Answer c → σ

namespace Prog

variable {I : Interface} {ε α β σ : Type}

/-- The program makes only calls the discipline allows, and ends with `Q`. -/
def Keeps (D : Discipline I σ) : Prog I ε α → σ → (Except ε α → σ → Prop) → Prop
  | ret value, s, Q => Q (.ok value) s
  | fail error, s, Q => Q (.error error) s
  | call c next, s, Q => D.allowed s c ∧
      ∀ answer, D.expected s c answer → (next answer).Keeps D (D.next s c answer) Q

/-- The postcondition of a program that `f` follows: a failure ends the whole. -/
def Then (D : Discipline I σ) (f : α → Prog I ε β) (Q : Except ε β → σ → Prop) :
    Except ε α → σ → Prop
  | .ok value, s => (f value).Keeps D s Q
  | .error error, s => Q (.error error) s

variable {D : Discipline I σ} {s : σ}
variable {f : α → Prog I ε β} {Q : Except ε α → σ → Prop} {value : α} {error : ε} {p : Prog I ε α}

@[simp] theorem then_ok {Q : Except ε β → σ → Prop} :
    Then D f Q (.ok value) s ↔ (f value).Keeps D s Q := Iff.rfl

@[simp] theorem then_error {Q : Except ε β → σ → Prop} :
    Then D f Q (.error error) s ↔ Q (.error error) s := Iff.rfl

@[simp] theorem keeps_pure :
    (pure value : Prog I ε α).Keeps D s Q ↔ Q (.ok value) s := Iff.rfl

@[simp] theorem keeps_ret :
    (ret value : Prog I ε α).Keeps D s Q ↔ Q (.ok value) s := Iff.rfl

@[simp] theorem keeps_fail :
    (fail error : Prog I ε α).Keeps D s Q ↔ Q (.error error) s := Iff.rfl

@[simp] theorem keeps_ask {c : I.Call} {Q : Except ε (I.Answer c) → σ → Prop} :
    (ask c : Prog I ε (I.Answer c)).Keeps D s Q ↔
      D.allowed s c ∧ ∀ answer, D.expected s c answer → Q (.ok answer) (D.next s c answer) :=
  Iff.rfl

@[simp] theorem keeps_ofExcept {result : Except ε α} :
    (ofExcept result : Prog I ε α).Keeps D s Q ↔ Q result s := by
  cases result <;> rfl

@[simp] theorem keeps_bind {Q : Except ε β → σ → Prop} :
    (p >>= f).Keeps D s Q ↔ p.Keeps D s (Then D f Q) := by
  show (p.bind f).Keeps D s Q ↔ _
  induction p generalizing s with
  | ret value => rfl
  | fail error => rfl
  | call c next ih => exact and_congr_right fun _ => forall₂_congr fun answer _ => ih answer

@[simp] theorem keeps_attempt {Q : Except ε (Except ε α) → σ → Prop} :
    p.attempt.Keeps D s Q ↔ p.Keeps D s fun result s' => Q (.ok result) s' := by
  induction p generalizing s with
  | ret value => rfl
  | fail error => rfl
  | call c next ih => exact and_congr_right fun _ => forall₂_congr fun answer _ => ih answer

@[simp] theorem keeps_ite {P : Prop} [Decidable P] {q : Prog I ε α} :
    (if P then p else q).Keeps D s Q ↔ (P → p.Keeps D s Q) ∧ (¬ P → q.Keeps D s Q) := by
  by_cases h : P <;> simp [h]

theorem Keeps.mono {Q' : Except ε α → σ → Prop} (h : p.Keeps D s Q)
    (hQ : ∀ result s', Q result s' → Q' result s') : p.Keeps D s Q' := by
  induction p generalizing s with
  | ret value => exact hQ _ _ h
  | fail error => exact hQ _ _ h
  | call c next ih => exact ⟨h.1, fun answer ha => ih answer (h.2 answer ha)⟩

theorem Keeps.discard {Q : σ → Prop} (h : p.Keeps D s fun _ => Q) :
    p.discard.Keeps D s fun _ => Q := by
  unfold Prog.discard
  rw [keeps_bind]
  exact h.mono fun result s' hs => by cases result <;> exact hs

end Prog

end Mecmcp
