import Mathlib.Data.List.Basic

/-!
# History — order in a history

A history is a list, newest entry first.  `Separated p q` says that between any two `p` entries
there is a `q` entry.  It is kept along a run by looking at one thing only: when a `p` entry is
added, no earlier `p` entry is still open (`Since p q`).  Both are decidable on a given history.
`AtEach p Q` says that whenever a `p` entry was added, `Q` held of the history until then.
-/

namespace Mecmcp

open List

variable {α : Type} {p q : α → Prop} {new old : List α}
variable {older : List α} {entry : α} {Q : List α → Prop}

/-- A `p` happened, and no `q` has happened since. -/
def Since (p q : α → Prop) : List α → Prop
  | [] => False
  | entry :: older => p entry ∨ ¬ q entry ∧ Since p q older

/-- Between any two `p` entries there is a `q` entry. -/
def Separated (p q : α → Prop) (history : List α) : Prop :=
  ∀ newer later between earlier older,
    history = newer ++ later :: (between ++ earlier :: older) → p later → p earlier →
    ∃ entry ∈ between, q entry

theorem since_append (hnew : ∀ entry ∈ new, ¬ p entry) (h : Since p q (new ++ old)) :
    Since p q old ∧ ∀ entry ∈ new, ¬ q entry := by
  induction new with
  | nil => exact ⟨h, by simp⟩
  | cons entry new ih =>
    obtain hp | ⟨hq, hrest⟩ := h
    · exact absurd hp (hnew entry (mem_cons_self ..))
    · obtain ⟨hold, hall⟩ := ih (fun e he => hnew e (mem_cons_of_mem _ he)) hrest
      exact ⟨hold, forall_mem_cons.mpr ⟨hq, hall⟩⟩

theorem since_of_split {between : List α} (hp : p entry)
    (hnone : ∀ e ∈ between, ¬ q e) : Since p q (between ++ entry :: older) := by
  induction between with
  | nil => exact .inl hp
  | cons e between ih =>
    obtain ⟨hq, hrest⟩ := forall_mem_cons.mp hnone
    exact .inr ⟨hq, ih hrest⟩

theorem since_append_of_none (hnone : ∀ entry ∈ new, ¬ q entry) (h : Since p q old) :
    Since p q (new ++ old) := by
  induction new with
  | nil => exact h
  | cons entry new ih =>
    obtain ⟨hq, hrest⟩ := forall_mem_cons.mp hnone
    exact .inr ⟨hq, ih hrest⟩

theorem since_of_mem (hmem : entry ∈ new) (hp : p entry)
    (hall : ∀ e ∈ new, q e → p e) : Since p q (new ++ old) := by
  induction new with
  | nil => cases hmem
  | cons first new ih =>
    by_cases hfirst : p first
    · exact .inl hfirst
    · obtain ⟨hq, hrest⟩ := forall_mem_cons.mp hall
      obtain rfl | hmem := mem_cons.mp hmem
      · exact absurd hp hfirst
      · exact .inr ⟨fun h => hfirst (hq h), ih hmem hrest⟩

theorem split_of_since (h : Since p q old) : ∃ between entry older,
    old = between ++ entry :: older ∧ p entry ∧ ∀ e ∈ between, ¬ q e := by
  induction old with
  | nil => cases h
  | cons first rest ih =>
    obtain hp | ⟨hq, hrest⟩ := h
    · exact ⟨[], first, rest, rfl, hp, fun _ he => absurd he not_mem_nil⟩
    · obtain ⟨between, entry, older, rfl, hp, hnone⟩ := ih hrest
      exact ⟨first :: between, entry, older, rfl, hp, forall_mem_cons.mpr ⟨hq, hnone⟩⟩

theorem separated_nil : Separated p q [] := by
  intro newer later between earlier older h
  cases newer <;> cases h

theorem separated_cons (hold : Separated p q old)
    (hopen : p entry → ¬ Since p q old) : Separated p q (entry :: old) := by
  intro newer later between earlier older h hlater hearlier
  cases newer with
  | nil =>
    obtain ⟨rfl, rfl⟩ := List.cons.inj h
    by_contra hnone
    refine hopen hlater (since_of_split hearlier fun e he hq => hnone ⟨e, he, hq⟩)
  | cons first newer =>
    exact hold newer later between earlier older (List.cons.inj h).2 hlater hearlier

theorem separated_append (hnew : ∀ entry ∈ new, ¬ p entry) (hold : Separated p q old) :
    Separated p q (new ++ old) := by
  induction new with
  | nil => exact hold
  | cons entry new ih =>
    obtain ⟨hentry, hrest⟩ := forall_mem_cons.mp hnew
    exact separated_cons (ih hrest) fun hp => absurd hp hentry

theorem separated_cons_iff :
    Separated p q (entry :: old) ↔ (p entry → ¬ Since p q old) ∧ Separated p q old := by
  refine ⟨fun h => ⟨fun hp hopen => ?_, ?_⟩, fun h => separated_cons h.2 h.1⟩
  · obtain ⟨between, earlier, older, rfl, hearlier, hnone⟩ := split_of_since hopen
    obtain ⟨e, he, hq⟩ := h [] entry between earlier older rfl hp hearlier
    exact hnone e he hq
  · intro newer later between earlier older heq hlater hearlier
    exact h (entry :: newer) later between earlier older (by rw [heq]; rfl) hlater hearlier

instance decidableSince [DecidablePred p] [DecidablePred q] :
    (history : List α) → Decidable (Since p q history)
  | [] => .isFalse id
  | entry :: older =>
    have := decidableSince older
    inferInstanceAs (Decidable (p entry ∨ ¬ q entry ∧ Since p q older))

instance decidableSeparated [DecidablePred p] [DecidablePred q] :
    (history : List α) → Decidable (Separated p q history)
  | [] => .isTrue separated_nil
  | _ :: older =>
    have := decidableSeparated older
    decidable_of_iff _ separated_cons_iff.symm

/-! ### What held when an entry was added -/

/-- Whenever a `p` entry was added, `Q` held of the history until then. -/
def AtEach (p : α → Prop) (Q : List α → Prop) : List α → Prop
  | [] => True
  | entry :: older => (p entry → Q older) ∧ AtEach p Q older

theorem atEach_append_of
    (hnew : ∀ newer entry older, new = newer ++ entry :: older → p entry → Q (older ++ old))
    (h : AtEach p Q old) : AtEach p Q (new ++ old) := by
  induction new with
  | nil => exact h
  | cons entry new ih =>
    refine ⟨hnew [] entry new rfl, ih fun newer e older heq => ?_⟩
    exact hnew (entry :: newer) e older (by rw [heq]; rfl)

theorem atEach_append (hnew : ∀ entry ∈ new, ¬ p entry)
    (h : AtEach p Q old) : AtEach p Q (new ++ old) := by
  refine atEach_append_of (fun newer entry older heq hp => ?_) h
  exact absurd hp (hnew entry (heq ▸ mem_append_right _ (mem_cons_self ..)))

theorem AtEach.split {newer : List α}
    (h : AtEach p Q (newer ++ entry :: older)) (hp : p entry) : Q older := by
  induction newer with
  | nil => exact h.1 hp
  | cons first newer ih => exact ih h.2

end Mecmcp
