import Mecmcp.Redact.Cuts

/-!
# Union — what of the spans of a line is hidden

`splice_spans` (`text.rs`) sorts the spans, the longer first where two begin together, and goes over
them once; a span that begins before the end of the last replaced one is dropped as already covered.
That is so if it also ends there.  What a dropped span has beyond the end of the one it begins in is
copied to the output, unless a later replaced span has it.  So the union of the spans is hidden
exactly if non-overlapping ones can be chosen that hold it: `splice_hides_union_iff`.
-/

namespace Mecmcp.Redact

open List

/-! ### The replaced spans -/

/-- The spans that `splice_spans` replaces. -/
def keptSpans (spans : List Span) : List Span :=
  sweep 0 (spans.insertionSort fun a b => spanLe a b = true)

/-- The ranges of the line that are not copied to the output. -/
def spliceCuts (line : Text) (spans : List Span) : List Span :=
  (keptSpans spans).map fun span => (span.1, coreEnd line span)

def InSpan (p : ℕ) (span : Span) : Prop := span.1 ≤ p ∧ p < span.2
deriving Decidable

def InTrailingRun (line : Text) (p : ℕ) (span : Span) : Prop :=
  coreEnd line span ≤ p ∧ p < span.2
deriving Decidable

/-- The character at a position is copied to the output. -/
def ComesThrough (line : Text) (spans : List Span) (p : ℕ) : Prop :=
  ∀ cut ∈ spliceCuts line spans, ¬ InSpan p cut
deriving Decidable

/-- The characters in some span do not come through, trailing runs apart, and all others do. -/
def HidesUnion (line : Text) (spans : List Span) : Prop :=
  (∀ p < line.length, (∃ span ∈ spans, InSpan p span) →
    (∀ span ∈ spans, ¬ InTrailingRun line p span) → ¬ ComesThrough line spans p) ∧
  ∀ p < line.length, (∀ span ∈ spans, ¬ InSpan p span) → ComesThrough line spans p

variable {line : Text} {spans : List Span}

theorem keptSpans_subset : keptSpans spans ⊆ spans := fun _ hspan =>
  (mem_insertionSort _).mp (sweep_subset hspan)

theorem cut_or_trailing {span : Span} {p : ℕ} (hkept : span ∈ keptSpans spans)
    (hp : InSpan p span) (hrun : ¬ InTrailingRun line p span) : ¬ ComesThrough line spans p := by
  intro hthrough
  refine hthrough (span.1, coreEnd line span) (mem_map_of_mem hkept) ⟨hp.1, ?_⟩
  exact not_le.mp fun hcore => hrun ⟨hcore, hp.2⟩

theorem inSpan_of_not_through {p : ℕ} (hspans : ∀ span ∈ spans, InLine line.length span)
    (h : ¬ ComesThrough line spans p) : ∃ kept ∈ keptSpans spans, InSpan p kept := by
  simp only [ComesThrough, spliceCuts, not_forall, not_not, mem_map] at h
  obtain ⟨cut, ⟨kept, hkept, rfl⟩, hcut⟩ := h
  have hcore := @coreEnd_le line kept (hspans kept (keptSpans_subset hkept)).1
  exact ⟨kept, hkept, hcut.1, hcut.2.trans_le hcore.2⟩

/-- The output of `splice_spans` is the line with the placeholder in the place of ordered, disjoint
ranges of it.  The ranges hide the union of the spans, and nothing else, exactly if there are
non-overlapping spans, none of which begins together with a longer one, such that every other span
begins in one of them and what it has, trailing runs apart, is in them. -/
theorem splice_hides_union_iff (line : Text) (spans : List Span)
    (hspans : ∀ span ∈ spans, InLine line.length span) :
    (spliceSpans line spans = replaceFrom placeholder line 0 (spliceCuts line spans) ∧
      CutsIn 0 line.length (spliceCuts line spans)) ∧
    (HidesUnion line spans ↔ ∃ chosen, Chosen spans chosen ∧
      ∀ span ∈ spans, ∀ p, InSpan p span → (∀ other ∈ spans, ¬ InTrailingRun line p other) →
        ∃ a ∈ chosen, InSpan p a) := by
  have hsorted : ∀ span ∈ spans.insertionSort fun a b => spanLe a b = true,
      InLine line.length span := fun span hspan => hspans span ((mem_insertionSort _).mp hspan)
  have hkept : Chosen spans (keptSpans spans) := chosen_sorted fun span hspan => (hspans span hspan).1
  refine ⟨⟨spliceFrom_eq hsorted, ?_⟩, ?_, ?_⟩
  · exact cutsIn_sweep (coreEnd line) (fun s hs => coreEnd_le (hsorted s hs).1)
      (fun s hs => (hsorted s hs).2) (Nat.zero_le _)
  · rintro ⟨hhidden, -⟩
    refine ⟨keptSpans spans, hkept, fun span hspan p hp hrun => ?_⟩
    exact inSpan_of_not_through hspans
      (hhidden p (hp.2.trans_le (hspans span hspan).2) ⟨span, hspan, hp⟩ hrun)
  · rintro ⟨chosen, hchosen, hcover⟩
    refine ⟨fun p _ ⟨span, hspan, hp⟩ hrun => ?_, fun p _ hout => ?_⟩
    · obtain ⟨a, ha, hpa⟩ := hcover span hspan p hp hrun
      -- there is only one choice, and the sweep makes it
      have ha' := (hchosen.mem_iff hkept (fun span hspan => (hspans span hspan).1) a).mp ha
      exact cut_or_trailing ha' hpa (hrun a (keptSpans_subset ha'))
    · by_contra hhidden
      obtain ⟨kept, hkept, hp⟩ := inSpan_of_not_through hspans hhidden
      exact hout kept (keptSpans_subset hkept) hp

theorem quoted_and_bare_hash_hidden :
    (∀ span ∈ shapeMatchingSpans "foo \"$9$aaa\" bar $9$bbb".toList, InLine 23 span) ∧
    HidesUnion "foo \"$9$aaa\" bar $9$bbb".toList
      (shapeMatchingSpans "foo \"$9$aaa\" bar $9$bbb".toList) := by
  have hspans : shapeMatchingSpans "foo \"$9$aaa\" bar $9$bbb".toList = [(5, 11), (17, 23)] := by
    decide +kernel
  refine ⟨inLine_shapeMatchingSpans "foo \"$9$aaa\" bar $9$bbb".toList,
    (splice_hides_union_iff _ _ (inLine_shapeMatchingSpans _)).2.mpr
      ⟨[(5, 11), (17, 23)], ?_, fun span hspan p hp _ => ⟨span, hspans ▸ hspan, hp⟩⟩⟩
  rw [hspans]
  constructor <;> decide

/-- A quoted text with a marker of encryption in front, and a hash at its end that runs on behind
the closing quote. -/
def overlappingLine : Text := "\"ENC a $9$b\"c".toList

/-- The hash is a span of its own, but its last two characters come through. -/
theorem overlapping_hash_comes_through :
    (7, 13) ∈ shapeMatchingSpans overlappingLine ∧
    (∀ span ∈ shapeMatchingSpans overlappingLine, InLine overlappingLine.length span) ∧
    spliceSpans overlappingLine (shapeMatchingSpans overlappingLine) =
      "\"[REDACTED]\"c".toList ∧
    ¬ HidesUnion overlappingLine (shapeMatchingSpans overlappingLine) := by
  refine ⟨by decide +kernel, inLine_shapeMatchingSpans _, by decide +kernel, fun h => ?_⟩
  exact h.1 12 (by decide +kernel) (by decide +kernel) (by decide +kernel) (by decide +kernel)

end Mecmcp.Redact
