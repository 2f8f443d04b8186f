import Mecmcp.Redact.Cuts

/-!
# Marker — the value of a line marked `## SECRET-DATA`

Such a line is forced whatever its fields are called.  The value is the last token before the marker.
It is replaced if, of the spans found before the marker, non-overlapping ones can be chosen of which
one holds it; without any span the fallbacks decide, and the last of them looks for the value after
the last whitespace of what stands before the marker, which is where the value stands only if nothing
separates it from the marker.
-/

namespace Mecmcp.Redact

open List

/-! ### Marked lines -/

/-- A line as `front value blanks marker rest`: fields and whitespace, the value, and whitespace up
to the first marker. -/
structure MarkedLine where
  front : Text
  value : Text
  blanks : Text
  rest : Text
  /-- there is a field before the value -/
  hasField : ∃ c ∈ front, isWhitespace c = false
  frontEnds : ∃ init space, front = init ++ [space] ∧ isWhitespace space = true
  valueToken : ∀ c ∈ value, isWhitespace c = false
  /-- the value is not just punctuation -/
  valueCore : ∃ c ∈ value, structuralChars.contains c = false
  blanksBlank : ∀ c ∈ blanks, isWhitespace c = true
  firstMarker : findSub secretDataMarker (front ++ value ++ blanks ++ secretDataMarker ++ rest) =
    some (front ++ value ++ blanks).length

def MarkedLine.before (line : MarkedLine) : Text := line.front ++ line.value ++ line.blanks

def MarkedLine.text (line : MarkedLine) : Text := line.before ++ secretDataMarker ++ line.rest

def MarkedLine.valueEnd (line : MarkedLine) : ℕ :=
  line.front.length + (trimEnd structuralChars line.value).length

/-- The quoted content whose closing quote ends the value, if there is one. -/
def MarkedLine.quoted (line : MarkedLine) : Option Span :=
  (quotedContentSpans line.before).find? fun span => span.2 + 1 == line.valueEnd

/-- The place of the value: the quoted content if it ends with a closing quote, or else the token,
both without trailing punctuation. -/
def MarkedLine.place (line : MarkedLine) : Span :=
  match line.quoted with
  | some span => (span.1, coreEnd line.before span)
  | none => (line.front.length, line.valueEnd)

/-- The value is replaced by the placeholder. -/
def MarkedLine.Replaced (line : MarkedLine) : Prop :=
  CutsCover (lineCuts line.text) line.place.1 line.place.2

theorem lineCuts_marked (line : MarkedLine) : lineCuts line.text = valueCuts line.before true := by
  have htext : line.text = line.front ++ line.value ++ line.blanks ++ secretDataMarker ++ line.rest :=
    rfl
  rw [lineCuts, htext, line.firstMarker]
  dsimp only
  rw [append_assoc _ secretDataMarker, take_left]
  rfl

/-! ### Lines without a span -/

variable (line : MarkedLine) {c : Char}

theorem not_mem_blanks (hc : isWhitespace c = false) : c ∉ line.blanks := by
  intro hmem
  rw [line.blanksBlank c hmem] at hc
  exact absurd hc (by decide)

theorem length_before :
    line.before.length = line.front.length + line.value.length + line.blanks.length := by
  rw [MarkedLine.before, length_append, length_append]

theorem valueEnd_le : line.valueEnd ≤ line.before.length := by
  have hle := length_trimEnd_le structuralChars line.value
  rw [MarkedLine.valueEnd, length_before]
  omega

theorem front_lt_valueEnd : line.front.length < line.valueEnd := by
  have hne : trimEnd structuralChars line.value ≠ [] := by
    obtain ⟨c, hc, hcore⟩ := line.valueCore
    intro hempty
    rw [trimEnd, reverse_eq_nil_iff, dropWhile_eq_nil_iff] at hempty
    have := hempty c (mem_reverse.mpr hc)
    rw [hcore] at this
    exact absurd this (by decide)
  have hpos := length_pos_iff.mpr hne
  rw [MarkedLine.valueEnd]
  omega

theorem covered_from_iff {n : ℕ} :
    CutsCover [(n, line.before.length)] line.front.length line.valueEnd ↔ n ≤ line.front.length := by
  have hle := valueEnd_le line
  constructor
  · rintro ⟨cut, hcut, hstart, -⟩
    rw [mem_singleton.mp hcut] at hstart
    exact hstart
  · intro hn
    exact ⟨_, mem_singleton.mpr rfl, hn, hle⟩

theorem covered_lastTokenCuts_iff :
    CutsCover (lastTokenCuts line.before true) line.front.length line.valueEnd ↔ line.blanks = [] := by
  rcases eq_nil_or_concat line.blanks with hblanks | ⟨init, space, hblanks⟩
  · obtain ⟨init, space, hfront, hspace⟩ := line.frontEnds
    have hbefore : line.before = init ++ space :: line.value := by
      rw [MarkedLine.before, hblanks, hfront]
      simp
    have hlength : line.front.length = init.length + 1 := by rw [hfront]; simp
    have hlast : rfindChar isWhitespace line.before = some init.length := by
      rw [hbefore]
      exact rfindChar_append_cons line.valueToken hspace init
    have hdrop : line.before.drop (init.length + 1) = line.value := by
      rw [hbefore, ← drop_drop, drop_left, drop_one, tail_cons]
    have hcore := front_lt_valueEnd line
    have hsemicolon : (trimEnd structuralChars line.value).length ≤
        (trimEnd [';'] line.value).length := length_trimEnd_mono (by simp [structuralChars]) line.value
    have hne : (trimEnd [';'] line.value).isEmpty = false := by
      rw [isEmpty_eq_false_iff, ← length_pos_iff]
      rw [MarkedLine.valueEnd] at hcore
      omega
    rw [lastTokenCuts, hlast]
    dsimp only
    rw [hdrop, hne, Bool.not_false, Bool.true_or, Bool.and_true, if_pos rfl]
    refine ⟨fun _ => hblanks, fun _ => ⟨_, mem_singleton.mpr rfl, ?_, ?_⟩⟩
    · rw [hlength]
    · rw [MarkedLine.valueEnd, hlength]
      dsimp only
      omega
  · rw [concat_eq_append] at hblanks
    have hspace : isWhitespace space = true := line.blanksBlank space (by rw [hblanks]; simp)
    have hbefore : line.before = (line.front ++ line.value ++ init) ++ space :: [] := by
      rw [MarkedLine.before, hblanks, ← append_assoc]
    have hlast : rfindChar isWhitespace line.before =
        some (line.front ++ line.value ++ init).length := by
      rw [hbefore]
      exact rfindChar_append_cons (by simp) hspace _
    have hdrop : line.before.drop ((line.front ++ line.value ++ init).length + 1) = [] := by
      rw [hbefore, ← drop_drop, drop_left]
      rfl
    rw [lastTokenCuts, hlast]
    dsimp only
    rw [hdrop]
    constructor
    · rintro ⟨cut, hcut, -⟩
      exact absurd hcut not_mem_nil
    · intro hempty
      rw [hempty] at hblanks
      simp at hblanks

theorem before_of_front {init back : Text} (hsplit : line.front = init ++ c :: back) :
    line.before = init ++ c :: (back ++ line.value ++ line.blanks) ∧
      init.length < line.front.length := by
  simp [MarkedLine.before, hsplit]

theorem before_of_value {init back : Text} (hsplit : line.value = init ++ c :: back) :
    line.before = (line.front ++ init) ++ c :: (back ++ line.blanks) := by
  simp [MarkedLine.before, hsplit]

/-- Without a span and without `=`: the first `:` stands before the value, or there is none and the
marker follows it directly. -/
theorem covered_colonCuts_iff (line : MarkedLine) :
    CutsCover (colonCuts line.before true) line.front.length line.valueEnd ↔
      ':' ∈ line.front ∨ (¬(':' ∈ line.front ∨ ':' ∈ line.value) ∧ line.blanks = []) := by
  by_cases hfront : ':' ∈ line.front
  · obtain ⟨init, back, hsplit, hinit⟩ := eq_append_cons_of_mem hfront
    obtain ⟨hbefore, hlength⟩ := before_of_front line hsplit
    have hfirst : findChar (· == ':') line.before = some init.length := by
      rw [hbefore]
      exact findChar_append_cons (beq_eq_false_of_not_mem hinit) rfl _
    rw [colonCuts, hfirst]
    dsimp only
    rw [Bool.true_or, if_pos rfl, covered_from_iff]
    simp only [hfront, true_or, iff_true]
    omega
  · by_cases hvalue : ':' ∈ line.value
    · obtain ⟨init, back, hsplit, hinit⟩ := eq_append_cons_of_mem hvalue
      have hfirst : findChar (· == ':') line.before = some (line.front ++ init).length := by
        rw [before_of_value line hsplit]
        exact findChar_append_cons (beq_eq_false_of_not_mem (by simp [hfront, hinit])) rfl _
      rw [colonCuts, hfirst]
      dsimp only
      rw [Bool.true_or, if_pos rfl, covered_from_iff, length_append]
      simp only [hfront, hvalue, or_true, not_true_eq_false, false_and, or_false, iff_false]
      omega
    · have hnone : findChar (· == ':') line.before = none := by
        refine findChar_eq_none (beq_eq_false_of_not_mem ?_)
        simp [MarkedLine.before, hfront, hvalue, not_mem_blanks line (c := ':') (by decide)]
      rw [colonCuts, hnone]
      dsimp only
      rw [covered_lastTokenCuts_iff]
      simp [hfront, hvalue]

/-- Without a span: the value is replaced if the last `=` stands before it, or without one the first
`:`, or without either if the marker follows it directly. -/
theorem covered_equalsCuts_iff :
    CutsCover (equalsCuts line.before true) line.front.length line.valueEnd ↔
      ('=' ∈ line.front ∧ '=' ∉ line.value) ∨
      ('=' ∉ line.front ++ line.value ∧ ':' ∈ line.front) ∨
      ('=' ∉ line.front ++ line.value ∧ ':' ∉ line.front ++ line.value ∧ line.blanks = []) := by
  have hblank : '=' ∉ line.blanks := not_mem_blanks line (by decide)
  by_cases hvalue : '=' ∈ line.value
  · -- the last `=` stands in the value
    obtain ⟨init, back, hsplit, hback⟩ := exists_last hvalue
    have hlast : rfindChar (· == '=') line.before = some (line.front ++ init).length := by
      rw [before_of_value line hsplit]
      refine rfindChar_append_cons (beq_eq_false_of_not_mem ?_) rfl _
      simp [hback, hblank]
    rw [equalsCuts, hlast]
    dsimp only
    rw [Bool.true_or, if_pos rfl, covered_from_iff, length_append]
    simp only [hvalue, not_true_eq_false, and_false, mem_append, or_true, false_and, or_false,
      iff_false]
    omega
  · by_cases hfront : '=' ∈ line.front
    · obtain ⟨init, back, hsplit, hback⟩ := exists_last hfront
      obtain ⟨hbefore, hlength⟩ := before_of_front line hsplit
      have hlast : rfindChar (· == '=') line.before = some init.length := by
        rw [hbefore]
        refine rfindChar_append_cons (beq_eq_false_of_not_mem ?_) rfl _
        simp [hback, hvalue, hblank]
      rw [equalsCuts, hlast]
      dsimp only
      rw [Bool.true_or, if_pos rfl, covered_from_iff]
      simp only [hfront, hvalue, not_false_eq_true, and_self, true_or, iff_true]
      omega
    · have hnone : rfindChar (· == '=') line.before = none := by
        refine rfindChar_eq_none (beq_eq_false_of_not_mem ?_)
        simp [MarkedLine.before, hfront, hvalue, hblank]
      rw [equalsCuts, hnone]
      dsimp only
      simp only [hfront, hvalue, false_and, mem_append, or_self, not_false_eq_true, true_and,
        false_or]
      exact covered_colonCuts_iff line

theorem place_of_no_span {line : MarkedLine} (h : valueSpans line.before true = []) :
    line.place = (line.front.length, line.valueEnd) := by
  have hquoted : quotedContentSpans line.before = [] := by
    rw [valueSpans, if_pos rfl] at h
    obtain ⟨hfirst, hlast⟩ := append_eq_nil_iff.mp h
    have hkeys := (append_eq_nil_iff.mp hfirst).1
    rw [hkeys] at hlast
    exact hlast
  rw [MarkedLine.place, MarkedLine.quoted, hquoted]
  rfl

/-- `set foo "a b"; ## SECRET-DATA`. -/
def quotedLine : MarkedLine where
  front := "set foo \"a ".toList
  value := "b\";".toList
  blanks := " ".toList
  rest := []
  hasField := ⟨'s', by decide, by decide⟩
  frontEnds := ⟨"set foo \"a".toList, ' ', by decide, by decide⟩
  valueToken := fun c hc => by
    have hall : "b\";".toList.all (fun c => !isWhitespace c) = true := by decide
    simpa using List.all_eq_true.mp hall c hc
  valueCore := ⟨'b', by decide, by decide⟩
  blanksBlank := List.all_eq_true.mp (by decide)
  firstMarker := by decide

/-- `set foo bar ## SECRET-DATA`. -/
def spacedLine : MarkedLine where
  front := "set foo ".toList
  value := "bar".toList
  blanks := " ".toList
  rest := []
  hasField := ⟨'s', by decide, by decide⟩
  frontEnds := ⟨"set foo".toList, ' ', by decide, by decide⟩
  valueToken := fun c hc => by
    have hall : "bar".toList.all (fun c => !isWhitespace c) = true := by decide
    simpa using List.all_eq_true.mp hall c hc
  valueCore := ⟨'b', by decide, by decide⟩
  blanksBlank := List.all_eq_true.mp (by decide)
  firstMarker := by decide

end Mecmcp.Redact
