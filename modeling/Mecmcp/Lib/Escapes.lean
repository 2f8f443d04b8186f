import Mathlib

/-!
# Escapes — replacing three-symbol escapes

`unescape escape` walks over a list and replaces every three symbols that `escape` reads as one by
that symbol; everything else is kept.  The alphabet is arbitrary: bytes, bytes with a mark, or
bytes with the unreadable ones forgotten.

`collapse` forgets how long a run of unreadable symbols (`none`) is.  Escapes are made of readable
symbols only, so what one round of decoding gives is, up to the length of such runs, determined by
what it was given up to the length of such runs (`collapse_unescape`).
-/

namespace Mecmcp

open List Option

section Unescape

variable {α β : Type*}

/-- One round of decoding. -/
def unescape (escape : α → α → α → Option α) : List α → List α
  | x :: y :: z :: rest =>
    match escape x y z with
    | some b => b :: unescape escape rest
    | none => x :: unescape escape (y :: z :: rest)
  | text => text

variable {escape : α → α → α → Option α}
variable {x : α} {rest text : List α}

@[simp] theorem unescape_nil : unescape escape [] = [] := by rw [unescape]; simp

theorem unescape_of_some {y z b : α} (h : escape x y z = some b) :
    unescape escape (x :: y :: z :: rest) = b :: unescape escape rest := by
  rw [unescape, h]

theorem unescape_cons (h : ∀ y z more, rest = y :: z :: more → escape x y z = none) :
    unescape escape (x :: rest) = x :: unescape escape rest := by
  rcases rest with _ | ⟨y, _ | ⟨z, more⟩⟩
  · simp [unescape]
  · simp [unescape]
  · rw [unescape, h y z more rfl]

theorem unescape_induction {motive : List α → Prop} (nil : motive [])
    (escaped : ∀ x y z b rest, escape x y z = some b → motive rest →
      motive (x :: y :: z :: rest))
    (kept : ∀ x rest, (∀ y z more, rest = y :: z :: more → escape x y z = none) → motive rest →
      motive (x :: rest)) (text : List α) : motive text := by
  -- on the length: an escape takes three symbols at once
  induction hn : text.length using Nat.strong_induction_on generalizing text with
  | _ n ih =>
    subst hn
    rcases text with _ | ⟨x, rest⟩
    · exact nil
    by_cases hsome : ∃ y z more b, rest = y :: z :: more ∧ escape x y z = some b
    · obtain ⟨y, z, more, b, rfl, hb⟩ := hsome
      exact escaped x y z b more hb (ih more.length (by simp; omega) more rfl)
    · refine kept x rest (fun y z more hrest => ?_) (ih rest.length (by simp) rest rfl)
      rcases hb : escape x y z with _ | b
      · rfl
      · exact absurd ⟨y, z, more, b, hrest, hb⟩ hsome

theorem unescape_ne_nil (h : text ≠ []) : unescape escape text ≠ [] := by
  induction text using @unescape_induction _ escape with
  | nil => exact absurd rfl h
  | escaped x y z b rest hb ih => simp [unescape_of_some hb]
  | kept x rest hnone ih => simp [unescape_cons hnone]

theorem map_unescape {escape' : β → β → β → Option β} {f : α → β}
    (hf : ∀ x y z, escape' (f x) (f y) (f z) = (escape x y z).map f) (text : List α) :
    (unescape escape text).map f = unescape escape' (text.map f) := by
  induction text using @unescape_induction _ escape with
  | nil => simp
  | escaped x y z b rest hb ih =>
    have hb' : escape' (f x) (f y) (f z) = some (f b) := by rw [hf, hb]; rfl
    simp only [map_cons, unescape_of_some hb, unescape_of_some hb', ih]
  | kept x rest hnone ih =>
    rw [unescape_cons hnone, map_cons, map_cons, ih, unescape_cons]
    intro y' z' more' hrest
    obtain ⟨y, tail, rfl, rfl, htail⟩ := map_eq_cons_iff.mp hrest
    obtain ⟨z, more, rfl, rfl, -⟩ := map_eq_cons_iff.mp htail
    rw [hf, hnone y z more rfl]
    rfl

theorem unescape_append_cons {sep : α}
    (hsep : ∀ x y z b, escape x y z = some b → x ≠ sep ∧ y ≠ sep ∧ z ≠ sep)
    (front back : List α) :
    unescape escape (front ++ sep :: back) =
      unescape escape front ++ sep :: unescape escape back := by
  induction front using @unescape_induction _ escape with
  | nil =>
    rw [nil_append, unescape_nil, nil_append, unescape_cons]
    intro y z more _
    rcases hb : escape sep y z with _ | b
    · rfl
    · exact absurd rfl (hsep _ _ _ _ hb).1
  | escaped x y z b rest hb ih =>
    simp only [cons_append, unescape_of_some hb, ih]
  | kept x rest hnone ih =>
    rw [cons_append, unescape_cons hnone, cons_append, ← ih, unescape_cons]
    intro y z more hrest
    rcases hb : escape x y z with _ | b
    · rfl
    -- an escape here would lie in front of the separator or hold it
    have hne := hsep _ _ _ _ hb
    rcases rest with _ | ⟨y', _ | ⟨z', rest⟩⟩
    · exact absurd (List.cons.inj hrest).1.symm hne.2.1
    · exact absurd (List.cons.inj (List.cons.inj hrest).2).1.symm hne.2.2
    · have hy := (List.cons.inj hrest).1
      have hz := (List.cons.inj (List.cons.inj hrest).2).1
      rw [← hb, ← hy, ← hz, hnone y' z' rest rfl]

variable {readable : α → Bool}

theorem countP_unescape
    (hread : ∀ x y z b, escape x y z = some b → readable x ∧ readable y ∧ readable z)
    (text : List α) :
    (unescape escape text).countP readable ≤ text.countP readable ∧
      ((unescape escape text).countP readable = text.countP readable →
        unescape escape text = text) := by
  induction text using @unescape_induction _ escape with
  | nil => simp
  | escaped x y z b rest hb ih =>
    obtain ⟨hx, hy, hz⟩ := hread _ _ _ _ hb
    have hlt : (unescape escape (x :: y :: z :: rest)).countP readable <
        (x :: y :: z :: rest).countP readable := by
      have hone : (b :: unescape escape rest).countP readable ≤
          (unescape escape rest).countP readable + 1 := by
        rw [countP_cons]
        split <;> omega
      rw [unescape_of_some hb]
      simp only [countP_cons, hx, hy, hz, if_true] at hone ⊢
      omega
    exact ⟨hlt.le, fun heq => absurd heq hlt.ne⟩
  | kept x rest hnone ih =>
    rw [unescape_cons hnone, countP_cons, countP_cons]
    refine ⟨by omega, fun heq => ?_⟩
    rw [ih.2 (by omega)]

theorem unescape_eq_self_of_le {escape' : α → α → α → Option α}
    (hle : ∀ x y z b, escape' x y z = some b → escape x y z = some b)
    (hread : ∀ x y z b, escape x y z = some b → readable x ∧ readable y ∧ readable z)
    (h : unescape escape text = text) : unescape escape' text = text := by
  induction text using @unescape_induction _ escape with
  | nil => simp
  | escaped x y z b rest hb ih =>
    exfalso
    have hcount := congrArg (List.countP readable) h
    obtain ⟨hx, hy, hz⟩ := hread _ _ _ _ hb
    have hrest := (countP_unescape hread rest).1
    rw [unescape_of_some hb, countP_cons] at hcount
    simp only [countP_cons, hx, hy, hz, if_true] at hcount
    split at hcount <;> omega
  | kept x rest hnone ih =>
    rw [unescape_cons hnone] at h
    rw [unescape_cons, ih (List.cons.inj h).2]
    intro y z more hrest
    rcases hb : escape' x y z with _ | b
    · rfl
    · rw [← hle _ _ _ _ hb, hnone y z more hrest]

end Unescape

/-! ### Runs of unreadable symbols -/

section Collapse

variable {α : Type*}

/-- A symbol in front of a collapsed list. -/
def consRun : Option α → List (Option α) → List (Option α)
  | none, none :: rest => none :: rest
  | symbol, rest => symbol :: rest

/-- Every run of unreadable symbols as one. -/
def collapse : List (Option α) → List (Option α) := List.foldr consRun []

@[simp] theorem collapse_nil : collapse ([] : List (Option α)) = [] := rfl

@[simp] theorem collapse_cons (symbol : Option α) (rest : List (Option α)) :
    collapse (symbol :: rest) = consRun symbol (collapse rest) := rfl

@[simp] theorem consRun_some (a : α) (rest : List (Option α)) :
    consRun (some a) rest = some a :: rest := by rw [consRun]; simp

theorem consRun_none_none (rest : List (Option α)) :
    consRun none (none :: rest) = none :: rest := rfl

theorem consRun_none (rest : List (Option α)) :
    (∃ more, rest = none :: more ∧ consRun none rest = rest) ∨
      consRun none rest = none :: rest := by
  rcases rest with _ | ⟨_ | a, more⟩
  · exact Or.inr rfl
  · exact Or.inl ⟨more, rfl, rfl⟩
  · exact Or.inr rfl

theorem consRun_none_idem (rest : List (Option α)) :
    consRun none (consRun none rest) = consRun none rest := by
  rcases consRun_none rest with ⟨more, hrest, hsame⟩ | hnew
  · rw [hsame, hsame]
  · rw [hnew, consRun_none_none]

theorem some_mem_consRun {a : α} {symbol : Option α} {rest : List (Option α)} :
    some a ∈ consRun symbol rest ↔ some a = symbol ∨ some a ∈ rest := by
  rcases symbol with _ | b
  · rcases consRun_none rest with ⟨more, hrest, hsame⟩ | hnew
    · simp [hsame]
    · simp [hnew]
  · simp

variable {text : List (Option α)}

theorem some_mem_collapse {a : α} :
    some a ∈ collapse text ↔ some a ∈ text := by
  induction text with
  | nil => simp
  | cons symbol rest ih => rw [collapse_cons, some_mem_consRun, ih, mem_cons]

theorem countP_collapse (text : List (Option α)) :
    (collapse text).countP Option.isSome = text.countP Option.isSome := by
  induction text with
  | nil => rfl
  | cons symbol rest ih =>
    rw [collapse_cons, countP_cons, ← ih]
    rcases symbol with _ | a
    · rcases consRun_none (collapse rest) with ⟨more, hrest, hsame⟩ | hnew
      · simp [hsame]
      · simp [hnew]
    · simp

theorem collapse_eq_map_some {symbols : List α}
    (h : collapse text = symbols.map some) : text = symbols.map some := by
  induction text generalizing symbols with
  | nil => exact h
  | cons symbol rest ih =>
    rcases symbol with _ | a
    · exfalso
      have hnone : none ∈ collapse (none :: rest) := by
        rw [collapse_cons]
        rcases consRun_none (collapse rest) with ⟨more, hrest, hsame⟩ | hnew
        · rw [hsame, hrest]; exact mem_cons_self
        · rw [hnew]; exact mem_cons_self
      rw [h] at hnone
      simp at hnone
    · rw [collapse_cons, consRun_some] at h
      obtain ⟨b, more, rfl, hb, hmore⟩ := map_eq_cons_iff.mp h.symm
      rw [map_cons, hb, ih hmore.symm, hmore, ← hmore]

theorem collapse_eq_some_cons {a : α} {text more : List (Option α)}
    (h : collapse text = some a :: more) :
    ∃ rest, text = some a :: rest ∧ collapse rest = more := by
  rcases text with _ | ⟨_ | b, rest⟩
  · simp at h
  · rw [collapse_cons] at h
    rcases consRun_none (collapse rest) with ⟨more', hrest, hsame⟩ | hnew
    · rw [hsame, hrest] at h
      simp at h
    · rw [hnew] at h
      simp at h
  · rw [collapse_cons, consRun_some] at h
    obtain ⟨hb, hrest⟩ := List.cons.inj h
    exact ⟨rest, by rw [hb], hrest⟩

variable {escape : Option α → Option α → Option α → Option (Option α)}

/-- **Decoding respects runs.**  Where escapes are made of readable symbols, the decoded text is
determined up to the length of runs by the text up to the length of runs. -/
theorem collapse_unescape
    (hread : ∀ x y z b, escape x y z = some b → x.isSome ∧ y.isSome ∧ z.isSome)
    (text : List (Option α)) :
    collapse (unescape escape text) = collapse (unescape escape (collapse text)) := by
  have hrun (rest : List (Option α)) :
      unescape escape (none :: rest) = none :: unescape escape rest := by
    refine unescape_cons fun y z more _ => ?_
    rcases hb : escape none y z with _ | b
    · rfl
    · exact absurd (hread _ _ _ _ hb).1 (by simp)
  induction text using @unescape_induction _ escape with
  | nil => simp
  | escaped x y z b rest hb ih =>
    obtain ⟨hx, hy, hz⟩ := hread _ _ _ _ hb
    obtain ⟨x, rfl⟩ := isSome_iff_exists.mp hx
    obtain ⟨y, rfl⟩ := isSome_iff_exists.mp hy
    obtain ⟨z, rfl⟩ := isSome_iff_exists.mp hz
    simp only [collapse_cons, consRun_some, unescape_of_some hb, ih]
  | kept x rest hnone ih =>
    rw [unescape_cons hnone, collapse_cons, collapse_cons, ih]
    rcases x with _ | a
    · -- the run goes on, or a new one begins
      rcases consRun_none (collapse rest) with ⟨more, hrest, hsame⟩ | hnew
      · rw [hsame, hrest, hrun, collapse_cons, consRun_none_idem]
      · rw [hnew, hrun, collapse_cons]
    · rw [consRun_some, consRun_some, unescape_cons, collapse_cons, consRun_some]
      -- the next two symbols of the collapsed rest are readable only when they are the next two
      intro y z more hrest
      rcases hb : escape (some a) y z with _ | b
      · rfl
      obtain ⟨-, hy, hz⟩ := hread _ _ _ _ hb
      obtain ⟨y, rfl⟩ := isSome_iff_exists.mp hy
      obtain ⟨z, rfl⟩ := isSome_iff_exists.mp hz
      obtain ⟨tail, rfl, htail⟩ := collapse_eq_some_cons hrest
      obtain ⟨tail, rfl, -⟩ := collapse_eq_some_cons htail
      rw [← hb, hnone _ _ _ rfl]

end Collapse

end Mecmcp
