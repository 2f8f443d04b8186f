import Mecmcp.Lib.Text

/-!
# Cuts — replacing ordered ranges of a text

`replaceFrom mark text cursor cuts` is the text from `cursor` on with `mark` in the place of every
cut.  Cuts are ordered and disjoint (`CutsIn`); a sweep over sorted spans that skips what begins
before the last kept end gives such a list.
-/

namespace Mecmcp

open List

variable {text : Text} {a b cursor : ℕ} {spans : List Span}

/-- The text from `cursor` on, with `mark` in the place of the cuts. -/
def replaceFrom (mark text : Text) (cursor : ℕ) : List Span → Text
  | [] => text.drop cursor
  | (start, stop) :: cuts => slice text cursor start ++ mark ++ replaceFrom mark text stop cuts

/-- Ordered, disjoint ranges between two positions. -/
def CutsIn (lo hi : ℕ) : List Span → Prop
  | [] => lo ≤ hi
  | (start, stop) :: cuts => lo ≤ start ∧ start ≤ stop ∧ CutsIn stop hi cuts

/-- Some cut covers the range. -/
def CutsCover (cuts : List Span) (start stop : ℕ) : Prop :=
  ∃ cut ∈ cuts, cut.1 ≤ start ∧ stop ≤ cut.2

theorem slice_append_slice {c : ℕ} (hab : a ≤ b) (hbc : b ≤ c) :
    slice text a b ++ slice text b c = slice text a c := by
  rw [slice, slice, slice, drop_take, drop_take, drop_take]
  have hsplit : c - a = (b - a) + (c - b) := by omega
  rw [hsplit, take_add, drop_drop, Nat.add_sub_cancel' hab]

theorem slice_append_drop (hab : a ≤ b) :
    slice text a b ++ text.drop b = text.drop a := by
  have hdrop : text.drop b = (text.drop a).drop (b - a) := by
    rw [drop_drop, Nat.add_sub_cancel' hab]
  rw [slice, drop_take, hdrop, take_append_drop]

variable {mark text : Text}
variable {lo hi cursor : ℕ} {cuts : List Span}

theorem CutsIn.le (h : CutsIn lo hi cuts) : lo ≤ hi := by
  induction cuts generalizing lo with
  | nil => exact h
  | cons cut cuts ih =>
    obtain ⟨hlo, hcut, hrest⟩ := h
    exact (hlo.trans hcut).trans (ih hrest)

theorem CutsIn.mono {lo' hi' : ℕ} (h : CutsIn lo hi cuts) (hlo : lo' ≤ lo)
    (hhi : hi ≤ hi') : CutsIn lo' hi' cuts := by
  induction cuts generalizing lo lo' with
  | nil => exact (hlo.trans h).trans hhi
  | cons cut cuts ih => exact ⟨hlo.trans h.1, h.2.1, ih h.2.2 le_rfl⟩

theorem replaceFrom_split {next : ℕ} (h : CutsIn next hi cuts) (hle : cursor ≤ next) :
    slice text cursor next ++ replaceFrom mark text next cuts =
      replaceFrom mark text cursor cuts := by
  cases cuts with
  | nil => exact slice_append_drop hle
  | cons cut cuts =>
    obtain ⟨start, stop⟩ := cut
    rw [replaceFrom, replaceFrom, ← append_assoc, ← append_assoc,
      slice_append_slice hle h.1]

theorem replaceFrom_take {n : ℕ} (h : CutsIn cursor n cuts) :
    replaceFrom mark (text.take n) cursor cuts ++ text.drop n = replaceFrom mark text cursor cuts := by
  induction cuts generalizing cursor with
  | nil =>
    have hfront : (text.take n).drop cursor = slice text cursor n := rfl
    rw [replaceFrom, replaceFrom, hfront, slice_append_drop h]
  | cons cut cuts ih =>
    obtain ⟨start, stop⟩ := cut
    have hstart : start ≤ n := h.2.1.trans h.2.2.le
    have hslice : slice (text.take n) cursor start = slice text cursor start := by
      rw [slice, slice, take_take, Nat.min_eq_left hstart]
    rw [replaceFrom, replaceFrom, hslice, append_assoc, ih h.2.2]

/-! ### Sweeps -/

/-- The spans that are kept: each begins no earlier than the last kept one ended. -/
def sweep (cursor : ℕ) : List Span → List Span
  | [] => []
  | (start, stop) :: spans =>
    if start < cursor then sweep cursor spans else (start, stop) :: sweep stop spans

theorem sweep_subset : sweep cursor spans ⊆ spans := by
  induction spans generalizing cursor with
  | nil => exact List.Subset.refl _
  | cons span spans ih =>
    obtain ⟨start, stop⟩ := span
    intro kept hkept
    rw [sweep] at hkept
    by_cases hskip : start < cursor
    · rw [if_pos hskip] at hkept
      exact mem_cons_of_mem _ (ih hkept)
    · rw [if_neg hskip] at hkept
      rcases mem_cons.mp hkept with rfl | hkept
      · exact mem_cons_self
      · exact mem_cons_of_mem _ (ih hkept)

theorem mem_sweep_or {cursor : ℕ} {spans : List Span}
    (hsorted : spans.Pairwise fun a b => a.1 ≤ b.1) {span : Span} (hspan : span ∈ spans) :
    span ∈ sweep cursor spans ∨
      (∃ kept ∈ sweep cursor spans, kept.1 ≤ span.1 ∧ span.1 < kept.2) ∨ span.1 < cursor := by
  induction spans generalizing cursor with
  | nil => exact absurd hspan not_mem_nil
  | cons head spans ih =>
    obtain ⟨start, stop⟩ := head
    obtain ⟨hhead, hsorted⟩ := pairwise_cons.mp hsorted
    rw [sweep]
    by_cases hskip : start < cursor
    · rw [if_pos hskip]
      rcases mem_cons.mp hspan with rfl | hspan
      · exact Or.inr (Or.inr hskip)
      · exact ih hsorted hspan
    · rw [if_neg hskip]
      rcases mem_cons.mp hspan with rfl | hspan
      · exact Or.inl mem_cons_self
      · rcases @ih stop hsorted hspan with h | ⟨kept, hkept, hin⟩ | h
        · exact Or.inl (mem_cons_of_mem _ h)
        · exact Or.inr (Or.inl ⟨kept, mem_cons_of_mem _ hkept, hin⟩)
        · exact Or.inr (Or.inl ⟨(start, stop), mem_cons_self, hhead _ hspan, h⟩)

theorem le_of_mem_sweep (hspans : ∀ span ∈ spans, span.1 ≤ span.2) {kept : Span}
    (hkept : kept ∈ sweep cursor spans) : cursor ≤ kept.1 := by
  induction spans generalizing cursor with
  | nil => exact absurd hkept not_mem_nil
  | cons span spans ih =>
    obtain ⟨start, stop⟩ := span
    obtain ⟨hspan, hspans⟩ := forall_mem_cons.mp hspans
    rw [sweep] at hkept
    by_cases hskip : start < cursor
    · rw [if_pos hskip] at hkept
      exact ih hspans hkept
    · rw [if_neg hskip, mem_cons] at hkept
      rcases hkept with rfl | hkept
      · exact not_lt.mp hskip
      · exact (not_lt.mp hskip).trans (hspan.trans (ih hspans hkept))

theorem pairwise_sweep (hspans : ∀ span ∈ spans, span.1 ≤ span.2) :
    (sweep cursor spans).Pairwise fun a b => a.2 ≤ b.1 := by
  induction spans generalizing cursor with
  | nil => exact .nil
  | cons span spans ih =>
    obtain ⟨start, stop⟩ := span
    have hspans' := (forall_mem_cons.mp hspans).2
    rw [sweep]
    split_ifs
    · exact ih hspans'
    · exact .cons (fun kept hkept => le_of_mem_sweep hspans' hkept) (ih hspans')

/-- Non-overlapping spans, none of which begins together with a longer one, such that every other
span begins in one of them. -/
structure Chosen (spans chosen : List Span) : Prop where
  subset : chosen ⊆ spans
  longest : ∀ a ∈ chosen, ∀ b ∈ spans, b.1 = a.1 → b.2 ≤ a.2
  apart : ∀ a ∈ chosen, ∀ b ∈ chosen, a ≠ b → a.2 ≤ b.1 ∨ b.2 ≤ a.1
  begins : ∀ a ∈ spans, a ∈ chosen ∨ ∃ b ∈ chosen, b.1 ≤ a.1 ∧ a.1 < b.2

theorem Chosen.mem_of_earlier {chosen chosen' : List Span} (h : Chosen spans chosen)
    (h' : Chosen spans chosen') {a : Span} (hspan : a.1 ≤ a.2)
    (hearlier : ∀ b : Span, b.1 < a.1 → b ∈ chosen' → b ∈ chosen) (ha : a ∈ chosen) :
    a ∈ chosen' := by
  rcases h'.begins a (h.subset ha) with hmem | ⟨b, hb, hle, hlt⟩
  · exact hmem
  · rcases hle.lt_or_eq with hbefore | hsame
    · -- two chosen spans would overlap
      have hne : a ≠ b := by
        rintro rfl
        exact lt_irrefl _ hbefore
      have hapart := h.apart a ha b (hearlier b hbefore hb) hne
      omega
    · have hends := le_antisymm (h.longest a ha b (h'.subset hb) hsame)
        (h'.longest b hb a (h.subset ha) hsame.symm)
      rwa [Prod.ext hsame hends] at hb

/-- Only one choice can be made. -/
theorem Chosen.mem_iff {chosen chosen' : List Span} (h : Chosen spans chosen)
    (h' : Chosen spans chosen') (hspans : ∀ span ∈ spans, span.1 ≤ span.2) (a : Span) :
    a ∈ chosen ↔ a ∈ chosen' := by
  induction hn : a.1 using Nat.strong_induction_on generalizing a with
  | _ n ih =>
    subst hn
    constructor
    · intro ha
      exact h.mem_of_earlier h' (hspans a (h.subset ha)) (fun b hb => (ih b.1 hb b rfl).mpr) ha
    · intro ha
      exact h'.mem_of_earlier h (hspans a (h'.subset ha)) (fun b hb => (ih b.1 hb b rfl).mp) ha

/-- A sweep over sorted spans, the longer first where two begin together, makes the choice. -/
theorem chosen_sweep (hspans : ∀ span ∈ spans, span.1 ≤ span.2)
    (hsorted : spans.Pairwise fun a b => a.1 < b.1 ∨ a.1 = b.1 ∧ b.2 ≤ a.2) :
    Chosen spans (sweep 0 spans) where
  subset := sweep_subset
  longest := by
    suffices ∀ cursor, ∀ a ∈ sweep cursor spans, ∀ b ∈ spans, b.1 = a.1 → b.2 ≤ a.2 from this 0
    intro cursor
    induction spans generalizing cursor with
    | nil => simp
    | cons span spans ih =>
      obtain ⟨hspan, hspans'⟩ := forall_mem_cons.mp hspans
      obtain ⟨hfirst, hsorted'⟩ := pairwise_cons.mp hsorted
      intro a ha b hb hsame
      rw [sweep] at ha
      by_cases hskip : span.1 < cursor
      · rw [if_pos hskip] at ha
        have hcursor := le_of_mem_sweep hspans' ha
        rcases mem_cons.mp hb with rfl | hb
        · omega
        · exact ih hspans' hsorted' cursor a ha b hb hsame
      · rw [if_neg hskip, mem_cons] at ha
        rcases ha with rfl | ha
        · rcases mem_cons.mp hb with rfl | hb
          · exact le_rfl
          · rcases hfirst b hb with h | h <;> omega
        · have hcursor := le_of_mem_sweep hspans' ha
          have hspan' := hspans' a (sweep_subset ha)
          rcases mem_cons.mp hb with rfl | hb
          · omega
          · exact ih hspans' hsorted' _ a ha b hb hsame
  apart := by
    have : Std.Symm fun a b : Span => a.2 ≤ b.1 ∨ b.2 ≤ a.1 := ⟨fun _ _ => Or.symm⟩
    have hapart : (sweep 0 spans).Pairwise fun a b => a.2 ≤ b.1 ∨ b.2 ≤ a.1 :=
      (pairwise_sweep hspans).imp Or.inl
    intro a ha b hb
    exact hapart.forall ha hb
  begins := by
    intro a ha
    have hstarts : spans.Pairwise fun a b => a.1 ≤ b.1 := hsorted.imp fun h => by omega
    rcases mem_sweep_or hstarts ha with h | h | h
    · exact .inl h
    · exact .inr h
    · exact absurd h (Nat.not_lt_zero _)

theorem cutsIn_sweep {hi : ℕ} (f : Span → ℕ)
    (hf : ∀ span ∈ spans, span.1 ≤ f span ∧ f span ≤ span.2)
    (hspans : ∀ span ∈ spans, span.2 ≤ hi) (hcursor : cursor ≤ hi) :
    CutsIn cursor hi ((sweep cursor spans).map fun span => (span.1, f span)) := by
  induction spans generalizing cursor with
  | nil => exact hcursor
  | cons span spans ih =>
    obtain ⟨start, stop⟩ := span
    have hf' := fun s hs => hf s (mem_cons_of_mem _ hs)
    have hspans' := fun s hs => hspans s (mem_cons_of_mem _ hs)
    rw [sweep]
    by_cases hskip : start < cursor
    · rw [if_pos hskip]
      exact ih hf' hspans' hcursor
    · rw [if_neg hskip, map_cons]
      have hends := hf (start, stop) mem_cons_self
      have hstop := hspans (start, stop) mem_cons_self
      exact ⟨not_lt.mp hskip, hends.1, (ih hf' hspans' hstop).mono hends.2 le_rfl⟩

end Mecmcp
