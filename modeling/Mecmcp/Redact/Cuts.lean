import Mecmcp.Lib.Cuts
import Mecmcp.Redact.Spans

/-!
# Cuts — which ranges of a line are replaced

`lineCuts line` are the ranges of the line that redaction replaces, and `redactLine_eq` says so: a
redacted line is the line with the placeholder in the place of these ranges.  What survives of a line
and where is a question about its cuts.
-/

namespace Mecmcp.Redact

open List Option

variable {i n start cursor : ℕ} {text line : Text} {p : Char → Bool} {tokens : List Span}
  {span : Span}

/-! ### Spans lie in the line -/

/-- A range of a line of length `n`. -/
def InLine (n : ℕ) (span : Span) : Prop := span.1 ≤ span.2 ∧ span.2 ≤ n

theorem inLine_tokenSpansFrom {start : Option ℕ} (hn : i + text.length ≤ n)
    (hstart : ∀ s ∈ start, s ≤ i) : ∀ span ∈ tokenSpansFrom i start text, InLine n span := by
  induction text generalizing i start with
  | nil =>
    intro span hspan
    obtain ⟨s, hs, rfl⟩ : ∃ s, start = some s ∧ (s, i) = span := by
      simpa [tokenSpansFrom] using hspan
    exact ⟨hstart s hs, by simpa using hn⟩
  | cons c text ih =>
    rw [length_cons] at hn
    intro span hspan
    rw [tokenSpansFrom] at hspan
    by_cases hc : isWhitespace c = true
    · rw [if_pos hc, mem_append] at hspan
      rcases hspan with hspan | hspan
      · obtain ⟨s, hs, rfl⟩ : ∃ s, start = some s ∧ (s, i) = span := by simpa using hspan
        exact ⟨hstart s hs, by dsimp only; omega⟩
      · exact ih (by omega) (by simp) span hspan
    · rw [if_neg hc] at hspan
      refine ih (by omega) ?_ span hspan
      intro s hs
      rcases start with _ | s'
      · simp at hs
        omega
      · have := hstart s' rfl
        simp at hs
        omega

theorem inLine_whitespaceTokenSpans (line : Text) :
    ∀ span ∈ whitespaceTokenSpans line, InLine line.length span :=
  inLine_tokenSpansFrom (by omega) (by simp)

theorem inLine_quotedSpansFrom {opened : Option (Char × ℕ)}
    (hn : i + text.length ≤ n) (hopened : ∀ o ∈ opened, o.2 ≤ i) :
    ∀ span ∈ quotedSpansFrom i opened text, InLine n span := by
  induction text generalizing i opened with
  | nil =>
    intro span hspan
    exact absurd hspan not_mem_nil
  | cons c text ih =>
    rw [length_cons] at hn
    intro span hspan
    rcases opened with _ | ⟨quote, start⟩
    · refine ih (by omega) ?_ span hspan
      intro o ho
      by_cases hc : isQuote c = true
      · simp [hc] at ho
        simp [← ho]
      · simp [hc] at ho
    · have hstart := hopened (quote, start) rfl
      simp only [quotedSpansFrom] at hspan
      by_cases hc : c = quote
      · rw [if_pos hc] at hspan
        rcases mem_cons.mp hspan with rfl | hspan
        · exact ⟨hstart, by dsimp only; omega⟩
        · exact ih (by omega) (by simp) span hspan
      · rw [if_neg hc] at hspan
        refine ih (by omega) ?_ span hspan
        intro o ho
        have hle := hopened o ho
        omega

theorem inLine_quotedContentSpans (line : Text) :
    ∀ span ∈ quotedContentSpans line, InLine line.length span :=
  inLine_quotedSpansFrom (by omega) (by simp)

theorem findChar_lt (h : findChar p text = some i) :
    i < text.length := by
  induction text generalizing i with
  | nil => simp [findChar] at h
  | cons c text ih =>
    rw [findChar] at h
    rw [length_cons]
    by_cases hc : p c = true
    · rw [if_pos hc, some_inj] at h
      omega
    · rw [if_neg hc, map_eq_some_iff] at h
      obtain ⟨j, hj, rfl⟩ := h
      have := ih hj
      omega

theorem rfindChar_lt (h : rfindChar p text = some i) :
    i < text.length := by
  rw [rfindChar, map_eq_some_iff] at h
  obtain ⟨j, hj, rfl⟩ := h
  have := findChar_lt hj
  rw [length_reverse] at this
  omega

theorem inLine_authorityPassword {authority : Text} (hn : start + authority.length ≤ n) :
    ∀ span ∈ authorityPassword start authority, InLine n span := by
  intro span hspan
  unfold authorityPassword at hspan
  rcases hat : rfindChar (· == '@') authority with _ | atPos
  · simp [hat] at hspan
  · have hlt := rfindChar_lt hat
    rcases hcolon : findChar (· == ':') (authority.take atPos) with _ | colon
    · simp [hat, hcolon] at hspan
    · simp only [hat, hcolon] at hspan
      by_cases hlong : colon + 1 < atPos
      · rw [if_pos hlong, mem_singleton] at hspan
        rw [hspan]
        exact ⟨by dsimp only; omega, by dsimp only; omega⟩
      · rw [if_neg hlong] at hspan
        exact absurd hspan not_mem_nil

theorem inLine_userinfoPasswordSpansFrom {fuel : ℕ} :
    ∀ span ∈ userinfoPasswordSpansFrom line fuel cursor, InLine line.length span := by
  induction fuel generalizing cursor with
  | zero =>
    intro span hspan
    exact absurd hspan not_mem_nil
  | succ fuel ih =>
    intro span hspan
    rw [userinfoPasswordSpansFrom] at hspan
    rcases hfound : findSub "://".toList (line.drop cursor) with _ | rel
    · rw [hfound] at hspan
      exact absurd hspan not_mem_nil
    · rw [hfound] at hspan
      simp only [mem_append] at hspan
      rcases hspan with hspan | hspan
      · have hfits := findSub_length hfound
        rw [length_drop] at hfits
        have hthree : "://".toList.length = 3 := by rfl
        refine inLine_authorityPassword ?_ span hspan
        rw [length_take, length_drop]
        omega
      · exact ih span hspan

theorem firstValueStart_mem
    (h : firstValueStart line tokens = some start) : ∃ token ∈ tokens, token.1 = start := by
  induction tokens with
  | nil => simp [firstValueStart] at h
  | cons token tokens ih =>
    rw [firstValueStart] at h
    split at h
    · exact ⟨token, mem_cons_self, Option.some.inj h⟩
    · obtain ⟨other, hmem, hstart⟩ := ih h
      exact ⟨other, mem_cons_of_mem _ hmem, hstart⟩

theorem inLine_firstValue (htokens : ∀ token ∈ tokens, InLine line.length token)
    (h : firstValueStart line tokens = some start) : InLine line.length (start, line.length) := by
  obtain ⟨token, hmem, rfl⟩ := firstValueStart_mem h
  have hin := htokens token hmem
  exact ⟨hin.1.trans hin.2, le_rfl⟩

theorem inLine_snmpv3AuthPrivSpans (line : Text) :
    ∀ span ∈ snmpv3AuthPrivSpans line, InLine line.length span := by
  have hauth : ∀ tokens : List Span, (∀ token ∈ tokens, InLine line.length token) →
      ∀ span ∈ authPrivSpansFrom line tokens, InLine line.length span := by
    intro tokens
    induction tokens with
    | nil =>
      intro _ span hspan
      exact absurd hspan not_mem_nil
    | cons token tokens ih =>
      intro htokens span hspan
      have htokens' := fun t ht => htokens t (mem_cons_of_mem _ ht)
      simp only [authPrivSpansFrom, mem_append] at hspan
      rcases hspan with hspan | hspan
      · split at hspan
        · obtain ⟨start, hstart, rfl⟩ : ∃ start, firstValueStart line tokens = some start ∧
              (start, line.length) = span := by simpa using hspan
          exact inLine_firstValue htokens' hstart
        · exact absurd hspan not_mem_nil
      · exact ih htokens' span hspan
  intro span hspan
  unfold snmpv3AuthPrivSpans at hspan
  dsimp only at hspan
  split at hspan
  · exact hauth _ (inLine_whitespaceTokenSpans line) span hspan
  · exact absurd hspan not_mem_nil

theorem inLine_shapeMatchingSpans (line : Text) :
    ∀ span ∈ shapeMatchingSpans line, InLine line.length span := by
  intro span hspan
  simp only [shapeMatchingSpans, mem_append, mem_filter] at hspan
  rcases hspan with ((⟨hspan, -⟩ | ⟨hspan, -⟩) | hspan) | hspan
  · exact inLine_quotedContentSpans line span hspan
  · exact inLine_whitespaceTokenSpans line span hspan
  · exact inLine_userinfoPasswordSpansFrom span hspan
  · exact inLine_snmpv3AuthPrivSpans line span hspan

theorem inLine_subtokenSpansFrom (hn : i + text.length ≤ n)
    (hstart : start ≤ i) : ∀ span ∈ subtokenSpansFrom i start text, InLine n span := by
  induction text generalizing i start with
  | nil =>
    intro span hspan
    rw [subtokenSpansFrom] at hspan
    split at hspan
    · rw [mem_singleton.mp hspan]
      exact ⟨hstart, by simpa using hn⟩
    · exact absurd hspan not_mem_nil
  | cons c text ih =>
    rw [length_cons] at hn
    intro span hspan
    rw [subtokenSpansFrom] at hspan
    split at hspan
    · rcases mem_append.mp hspan with hspan | hspan
      · split at hspan
        · rw [mem_singleton.mp hspan]
          exact ⟨hstart, by dsimp only; omega⟩
        · exact absurd hspan not_mem_nil
      · exact ih (by omega) le_rfl span hspan
    · exact ih (by omega) (by omega) span hspan

theorem length_slice_le {line : Text} {start stop : ℕ} :
    (slice line start stop).length ≤ stop - start := by
  rw [slice, length_drop, length_take]
  omega

theorem subtokenValueStart_le (hspan : span.1 ≤ span.2)
    (h : subtokenValueStart line span = some start) : span.1 ≤ start ∧ start ≤ span.2 := by
  have hkey : ∀ {sep : Char} {rel : ℕ}, keyBefore sep (slice line span.1 span.2) = some rel →
      rel < span.2 - span.1 := by
    intro sep rel hrel
    rw [keyBefore, filter_eq_some_iff] at hrel
    exact (findChar_lt hrel.1).trans_le length_slice_le
  rw [subtokenValueStart, map_eq_some_iff] at h
  obtain ⟨rel, hrel, rfl⟩ := h
  rcases or_eq_some_iff.mp hrel with hrel | ⟨-, hrel⟩
  · have := hkey hrel
    omega
  · have := hkey hrel
    omega

theorem inLine_tokenValueStart {s e : ℕ}
    (htoken : InLine line.length (s, e)) (htokens : ∀ token ∈ tokens, InLine line.length token)
    (h : tokenValueStart line s e tokens = some start) : InLine line.length (start, line.length) := by
  unfold tokenValueStart at h
  split at h
  · rename_i valueStart hfound
    split at h
    · obtain ⟨span, hmem, hvalue⟩ := exists_of_findSome?_eq_some hfound
      have hspan : InLine e span := by
        refine inLine_subtokenSpansFrom ?_ le_rfl span hmem
        have := @length_slice_le line s e
        have hle := htoken.1
        omega
      have hle := (subtokenValueStart_le hspan.1 hvalue).2
      rw [some_inj] at h
      have he := htoken.2
      have hspan2 := hspan.2
      exact ⟨by dsimp only; omega, le_rfl⟩
    · exact inLine_firstValue htokens h
  · dsimp only at h
    split at h
    · rename_i runEnd hrun
      have hlt := (attachedValueKeyEndFrom_lt hrun).2
      have hle := @length_slice_le line s e
      have he := htoken.2
      have hs := htoken.1
      rw [some_inj] at h
      exact ⟨by dsimp only; omega, le_rfl⟩
    · split at h
      · exact inLine_firstValue htokens h
      · cases h

theorem inLine_keySpansFrom (htokens : ∀ token ∈ tokens, InLine line.length token) :
    ∀ span ∈ keySpansFrom line tokens, InLine line.length span ∧ span.2 = line.length := by
  induction tokens with
  | nil =>
    intro span hspan
    exact absurd hspan not_mem_nil
  | cons token tokens ih =>
    have htokens' := fun t ht => htokens t (.tail _ ht)
    intro span hspan
    rw [keySpansFrom, mem_append] at hspan
    rcases hspan with hspan | hspan
    · obtain ⟨start, hstart, rfl⟩ : ∃ start, tokenValueStart line token.1 token.2 tokens = some start ∧
          (start, line.length) = span := by simpa using hspan
      exact ⟨inLine_tokenValueStart (htokens token (.head _)) htokens' hstart, rfl⟩
    · exact ih htokens' span hspan

theorem inLine_valueSpans (line : Text) (force : Bool) :
    ∀ span ∈ valueSpans line force, InLine line.length span := by
  intro span hspan
  unfold valueSpans at hspan
  split at hspan
  · simp only [mem_append] at hspan
    rcases hspan with (hspan | hspan) | hspan
    · exact (inLine_keySpansFrom (inLine_whitespaceTokenSpans line) span hspan).1
    · exact inLine_shapeMatchingSpans line span hspan
    · split at hspan
      · exact inLine_quotedContentSpans line span hspan
      · exact absurd hspan not_mem_nil
  · exact inLine_shapeMatchingSpans line span hspan

/-! ### Cuts -/

/-- Where the replaced part of a span ends: trailing punctuation is kept. -/
def coreEnd (line : Text) (span : Span) : ℕ :=
  span.1 + (trimEnd structuralChars (slice line span.1 span.2)).length

/-- The spans that are left after the sweep. -/
def sweptSpans (line : Text) (force : Bool) : List Span :=
  sweep 0 ((valueSpans line force).insertionSort fun a b => spanLe a b = true)

/-- What the last fallback replaces. -/
def lastTokenCuts (line : Text) (force : Bool) : List Span :=
  match rfindChar isWhitespace line with
  | some space =>
    let trimmed := trimEnd [';'] (line.drop (space + 1))
    if !trimmed.isEmpty && (force || looksLikeSecretValue trimmed) then
      [(space + 1, space + 1 + trimmed.length)]
    else []
  | none => if force || looksLikeSecretValue line then [(0, line.length)] else []

def colonCuts (line : Text) (force : Bool) : List Span :=
  match findChar (· == ':') line with
  | some colon =>
    if force || looksLikeSecretValue (trimText (line.drop (colon + 1))) then
      [(colon + 1, line.length)]
    else lastTokenCuts line force
  | none => lastTokenCuts line force

def equalsCuts (line : Text) (force : Bool) : List Span :=
  match rfindChar (· == '=') line with
  | some eq =>
    if force || looksLikeSecretValue (trimText (line.drop (eq + 1))) then [(eq + 1, line.length)]
    else colonCuts line force
  | none => colonCuts line force

/-- The ranges of a line that are replaced, given whether it is forced. -/
def valueCuts (line : Text) (force : Bool) : List Span :=
  if (valueSpans line force).isEmpty then equalsCuts line force
  else (sweptSpans line force).map fun span => (span.1, coreEnd line span)

/-- The ranges of a line that `redactLine` replaces. -/
def lineCuts (line : Text) : List Span :=
  match findSub secretDataMarker line with
  | some idx => valueCuts (line.take idx) true
  | none => valueCuts line (hasDenylistedKey line)

theorem length_trimEnd_le (set : List Char) (text : Text) :
    (trimEnd set text).length ≤ text.length := by
  rw [trimEnd, length_reverse]
  exact (dropWhile_suffix _).length_le.trans (length_reverse).le

theorem coreEnd_le {line : Text} {span : Span} (h : span.1 ≤ span.2) :
    span.1 ≤ coreEnd line span ∧ coreEnd line span ≤ span.2 := by
  have hle := (length_trimEnd_le structuralChars (slice line span.1 span.2)).trans length_slice_le
  unfold coreEnd
  omega

theorem spliceFrom_eq {spans : List Span} (hspans : ∀ span ∈ spans, InLine line.length span) :
    spliceFrom line cursor spans = replaceFrom placeholder line cursor
      ((sweep cursor spans).map fun span => (span.1, coreEnd line span)) := by
  induction spans generalizing cursor with
  | nil => rfl
  | cons span spans ih =>
    obtain ⟨start, stop⟩ := span
    have hspans' := fun s hs => hspans s (.tail _ hs)
    have hin := hspans (start, stop) (.head _)
    rw [spliceFrom, sweep]
    by_cases hskip : start < cursor
    · rw [if_pos hskip, if_pos hskip]
      exact ih hspans'
    · rw [if_neg hskip, if_neg hskip, map_cons, replaceFrom]
      have hcore := @coreEnd_le line (start, stop) hin.1
      have hrest : CutsIn stop line.length
          ((sweep stop spans).map fun span => (span.1, coreEnd line span)) :=
        cutsIn_sweep (coreEnd line) (fun s hs => coreEnd_le (hspans' s hs).1)
          (fun s hs => (hspans' s hs).2) hin.2
      rw [← replaceFrom_split hrest hcore.2, ← ih hspans']
      simp only [coreEnd, append_assoc]

theorem cutsIn_lastTokenCuts (line : Text) (force : Bool) :
    CutsIn 0 line.length (lastTokenCuts line force) := by
  unfold lastTokenCuts
  split
  · rename_i space hspace
    have hlt := rfindChar_lt hspace
    have hle := length_trimEnd_le [';'] (line.drop (space + 1))
    rw [length_drop] at hle
    dsimp only
    split
    · exact ⟨Nat.zero_le _, by omega, by simp only [CutsIn]; omega⟩
    · exact Nat.zero_le _
  · split
    · exact ⟨le_rfl, Nat.zero_le _, le_rfl⟩
    · exact Nat.zero_le _

theorem cutsIn_colonCuts (line : Text) (force : Bool) :
    CutsIn 0 line.length (colonCuts line force) := by
  unfold colonCuts
  split
  · rename_i colon hcolon
    have hlt := findChar_lt hcolon
    split
    · exact ⟨Nat.zero_le _, by omega, le_rfl⟩
    · exact cutsIn_lastTokenCuts line force
  · exact cutsIn_lastTokenCuts line force

theorem cutsIn_equalsCuts (line : Text) (force : Bool) :
    CutsIn 0 line.length (equalsCuts line force) := by
  unfold equalsCuts
  split
  · rename_i eq heq
    have hlt := rfindChar_lt heq
    split
    · exact ⟨Nat.zero_le _, by omega, le_rfl⟩
    · exact cutsIn_colonCuts line force
  · exact cutsIn_colonCuts line force

theorem spanLe_total (a b : Span) : spanLe a b = true ∨ spanLe b a = true := by
  simp only [spanLe, Bool.or_eq_true, Bool.and_eq_true, decide_eq_true_eq, beq_iff_eq]
  omega

theorem spanLe_trans {a b c : Span} (hab : spanLe a b = true) (hbc : spanLe b c = true) :
    spanLe a c = true := by
  simp only [spanLe, Bool.or_eq_true, Bool.and_eq_true, decide_eq_true_eq, beq_iff_eq] at *
  omega

instance : Std.Total (fun a b : Span => spanLe a b = true) := ⟨spanLe_total⟩

instance : IsTrans Span (fun a b : Span => spanLe a b = true) := ⟨fun _ _ _ => spanLe_trans⟩

theorem mem_sortedSpans {force : Bool} :
    span ∈ (valueSpans line force).insertionSort (fun a b => spanLe a b = true) ↔
      span ∈ valueSpans line force :=
  mem_insertionSort _

/-- The sweep of `splice_spans` makes the one choice of spans there is. -/
theorem chosen_sorted {spans : List Span} (hspans : ∀ span ∈ spans, span.1 ≤ span.2) :
    Chosen spans (sweep 0 (spans.insertionSort fun a b => spanLe a b = true)) := by
  have hmem {span : Span} : span ∈ spans.insertionSort (fun a b => spanLe a b = true) ↔
      span ∈ spans := mem_insertionSort _
  have hchosen := chosen_sweep (fun span hspan => hspans span (hmem.mp hspan))
    ((pairwise_insertionSort (fun a b : Span => spanLe a b = true) spans).imp fun h => by
      simpa [spanLe] using h)
  exact ⟨fun _ hspan => hmem.mp (sweep_subset hspan),
    fun a ha b hb => hchosen.longest a ha b (hmem.mpr hb), hchosen.apart,
    fun a ha => hchosen.begins a (hmem.mpr ha)⟩

theorem cutsIn_valueCuts (line : Text) (force : Bool) :
    CutsIn 0 line.length (valueCuts line force) := by
  unfold valueCuts
  split
  · exact cutsIn_equalsCuts line force
  · refine cutsIn_sweep (coreEnd line) (fun span hspan => ?_) (fun span hspan => ?_) (Nat.zero_le _)
    · exact coreEnd_le (inLine_valueSpans line force span (mem_sortedSpans.mp hspan)).1
    · exact (inLine_valueSpans line force span (mem_sortedSpans.mp hspan)).2

theorem redactLastToken_eq (line : Text) (force : Bool) :
    redactLastToken line force = replaceFrom placeholder line 0 (lastTokenCuts line force) := by
  unfold redactLastToken lastTokenCuts
  rcases rfindChar isWhitespace line with _ | space
  · by_cases hwhole : (force || looksLikeSecretValue line) = true
    · simp only [hwhole, if_true, replaceFrom, slice]
      simp
    · simp only [hwhole]
      rfl
  · dsimp only
    by_cases hlast : (!(trimEnd [';'] (line.drop (space + 1))).isEmpty &&
        (force || looksLikeSecretValue (trimEnd [';'] (line.drop (space + 1))))) = true
    · rw [if_pos hlast, if_pos hlast, replaceFrom, replaceFrom, slice, drop_zero,
        drop_drop]
    · rw [if_neg hlast, if_neg hlast, replaceFrom, drop_zero]

theorem take_append_placeholder (line : Text) (n : ℕ) :
    line.take n ++ placeholder = replaceFrom placeholder line 0 [(n, line.length)] := by
  simp [replaceFrom, slice]

theorem redactAfterColon_eq (line : Text) (force : Bool) :
    redactAfterColon line force = replaceFrom placeholder line 0 (colonCuts line force) := by
  unfold redactAfterColon colonCuts
  rcases findChar (· == ':') line with _ | colon
  · exact redactLastToken_eq line force
  · dsimp only
    by_cases hvalue : (force || looksLikeSecretValue (trimText (line.drop (colon + 1)))) = true
    · rw [if_pos hvalue, if_pos hvalue, take_append_placeholder]
    · rw [if_neg hvalue, if_neg hvalue, redactLastToken_eq]

theorem redactAfterEquals_eq (line : Text) (force : Bool) :
    redactAfterEquals line force = replaceFrom placeholder line 0 (equalsCuts line force) := by
  unfold redactAfterEquals equalsCuts
  rcases rfindChar (· == '=') line with _ | eq
  · exact redactAfterColon_eq line force
  · dsimp only
    by_cases hvalue : (force || looksLikeSecretValue (trimText (line.drop (eq + 1)))) = true
    · rw [if_pos hvalue, if_pos hvalue, take_append_placeholder]
    · rw [if_neg hvalue, if_neg hvalue, redactAfterColon_eq]

theorem redactValueSpan_eq (line : Text) (force : Bool) :
    redactValueSpan line force = replaceFrom placeholder line 0 (valueCuts line force) := by
  unfold redactValueSpan valueCuts
  split
  · exact redactAfterEquals_eq line force
  · exact spliceFrom_eq fun span hspan =>
      inLine_valueSpans line force span (mem_sortedSpans.mp hspan)

/-- **A redacted line is the line with its cuts, ordered and disjoint, replaced by the
placeholder.** -/
theorem redactLine_cuts (line : Text) : CutsIn 0 line.length (lineCuts line) ∧
    redactLine line = replaceFrom placeholder line 0 (lineCuts line) := by
  unfold redactLine lineCuts
  rcases findSub secretDataMarker line with _ | idx
  · exact ⟨cutsIn_valueCuts line _, redactValueSpan_eq line _⟩
  · have hcuts := cutsIn_valueCuts (line.take idx) true
    refine ⟨hcuts.mono le_rfl (by simp), ?_⟩
    dsimp only
    rw [redactValueSpan_eq, replaceFrom_take (hcuts.mono le_rfl (length_take_le idx line))]

end Mecmcp.Redact
