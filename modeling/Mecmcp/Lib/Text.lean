import Mathlib

/-!
# Text — characters, substrings and spans

Texts as lists of characters: trimming, searching for a character or a substring, and the pieces
between separators.  A span is a pair of positions; `slice` is the text between them.
-/

namespace Mecmcp

open List Option

variable {text pattern : Text} {start stop i : ℕ} {c sep : Char} {p : Char → Bool} {set : List Char}

/-! ### Characters -/

/-- The characters with the Unicode property `White_Space`. -/
def isWhitespace (c : Char) : Bool :=
  let n := c.toNat
  (9 ≤ n && n ≤ 13) || [0x20, 0x85, 0xa0, 0x1680].contains n || (0x2000 ≤ n && n ≤ 0x200a) ||
    [0x2028, 0x2029, 0x202f, 0x205f, 0x3000].contains n

/-- An ASCII letter or digit. -/
def isAsciiAlnum (c : Char) : Bool :=
  let n := c.toNat
  (48 ≤ n && n ≤ 57) || (65 ≤ n && n ≤ 90) || (97 ≤ n && n ≤ 122)

/-! ### Texts -/

abbrev Text : Type := List Char

/-- Whitespace removed at both ends. -/
def trimText (text : Text) : Text :=
  ((text.dropWhile isWhitespace).reverse.dropWhile isWhitespace).reverse

/-- The characters of `set` removed at the end. -/
def trimEnd (set : List Char) (text : Text) : Text :=
  (text.reverse.dropWhile set.contains).reverse

/-- Position of the first occurrence of a pattern. -/
def findSub (pattern : Text) : Text → Option ℕ
  | [] => if pattern = [] then some 0 else none
  | c :: text => if pattern.isPrefixOf (c :: text) then some 0 else (findSub pattern text).map (· + 1)

def containsSub (pattern text : Text) : Bool := (findSub pattern text).isSome

/-- Position of the first character with a property. -/
def findChar (p : Char → Bool) : Text → Option ℕ
  | [] => none
  | c :: text => if p c then some 0 else (findChar p text).map (· + 1)

/-- Position of the last character with a property. -/
def rfindChar (p : Char → Bool) (text : Text) : Option ℕ :=
  (findChar p text.reverse).map fun i => text.length - 1 - i

def eqIgnoreAsciiCase (a b : Text) : Bool := a.map Char.toLower == b.map Char.toLower

/-! ### Spans -/

abbrev Span : Type := ℕ × ℕ

/-- The text between two positions. -/
def slice (text : Text) (start stop : ℕ) : Text := (text.take stop).drop start

theorem mem_of_mem_slice (h : c ∈ slice text start stop) :
    c ∈ text :=
  mem_of_mem_take (mem_of_mem_drop h)

theorem slice_eq_of_append {a b c : Text} (htext : text = a ++ (b ++ c))
    (hstart : start = a.length) (hstop : stop = a.length + b.length) : slice text start stop = b := by
  subst htext hstart hstop
  rw [slice, ← append_assoc, ← length_append, take_left, drop_left]

/-! ### Searching -/

theorem beq_eq_false_of_not_mem (h : c ∉ text) : ∀ d ∈ text, (d == c) = false := by
  intro d hd
  refine beq_eq_false_iff_ne.mpr ?_
  rintro rfl
  exact h hd

theorem findChar_eq_none (h : ∀ c ∈ text, p c = false) :
    findChar p text = none := by
  induction text with
  | nil => rfl
  | cons c text ih =>
    rw [findChar, h c mem_cons_self, ih fun d hd => h d (mem_cons_of_mem _ hd)]
    rfl

theorem findChar_append_cons {front : Text} (hfront : ∀ d ∈ front, p d = false) (hc : p c = true)
    (back : Text) :
    findChar p (front ++ c :: back) = some front.length := by
  induction front with
  | nil => rw [nil_append, findChar, if_pos hc, length_nil]
  | cons d front ih =>
    rw [cons_append, findChar, hfront d mem_cons_self,
      ih fun e he => hfront e (mem_cons_of_mem _ he)]
    rfl

theorem rfindChar_eq_none (h : ∀ c ∈ text, p c = false) :
    rfindChar p text = none := by
  rw [rfindChar, findChar_eq_none fun c hc => h c (mem_reverse.mp hc)]
  rfl

theorem rfindChar_append_cons {back : Text} (hback : ∀ d ∈ back, p d = false) (hc : p c = true)
    (front : Text) :
    rfindChar p (front ++ c :: back) = some front.length := by
  have hfound := findChar_append_cons (fun d hd => hback d (mem_reverse.mp hd)) hc front.reverse
  rw [rfindChar, reverse_append, reverse_cons, append_assoc, singleton_append,
    hfound, map_some, length_append, length_cons, length_reverse]
  congr 1
  omega

theorem exists_last (h : c ∈ text) :
    ∃ front back, text = front ++ c :: back ∧ c ∉ back := by
  induction text with
  | nil => exact absurd h not_mem_nil
  | cons d text ih =>
    by_cases hmem : c ∈ text
    · obtain ⟨front, back, rfl, hback⟩ := ih hmem
      exact ⟨d :: front, back, rfl, hback⟩
    · rcases mem_cons.mp h with rfl | h
      · exact ⟨[], text, rfl, hmem⟩
      · exact absurd h hmem

theorem isInfix_of_findSub (h : findSub pattern text = some i) :
    pattern <:+: text := by
  induction text generalizing i with
  | nil =>
    by_cases hempty : pattern = []
    · exact hempty ▸ infix_rfl
    · simp [findSub, hempty] at h
  | cons c text ih =>
    by_cases hhere : pattern.isPrefixOf (c :: text) = true
    · exact (List.isPrefixOf_iff_prefix.mp hhere).isInfix
    · rw [findSub, if_neg hhere] at h
      obtain ⟨j, hj, -⟩ := map_eq_some_iff.mp h
      exact (ih hj).trans (suffix_cons c text).isInfix

theorem findSub_length (h : findSub pattern text = some i) :
    i + pattern.length ≤ text.length := by
  induction text generalizing i with
  | nil =>
    by_cases hempty : pattern = []
    · simp [findSub, hempty] at h
      simp [hempty, ← h]
    · simp [findSub, hempty] at h
  | cons c text ih =>
    rw [findSub] at h
    by_cases hhere : pattern.isPrefixOf (c :: text) = true
    · rw [if_pos hhere, some_inj] at h
      have := (List.isPrefixOf_iff_prefix.mp hhere).length_le
      omega
    · rw [if_neg hhere, map_eq_some_iff] at h
      obtain ⟨j, hj, rfl⟩ := h
      have := ih hj
      rw [length_cons]
      omega

theorem findSub_eq_none (hpattern : c ∈ pattern) (htext : c ∉ text) :
    findSub pattern text = none := by
  rcases h : findSub pattern text with _ | i
  · rfl
  · exact absurd ((isInfix_of_findSub h).subset hpattern) htext

theorem isInfix_of_containsSub (h : containsSub pattern text = true) :
    pattern <:+: text := by
  obtain ⟨i, hi⟩ := isSome_iff_exists.mp h
  exact isInfix_of_findSub hi

theorem containsSub_eq_false (hpattern : c ∈ pattern)
    (htext : c ∉ text) : containsSub pattern text = false := by
  rw [containsSub, findSub_eq_none hpattern htext]
  rfl

/-! ### Trimming -/

theorem trimEnd_append_singleton (hc : set.contains c = false)
    (text : Text) : trimEnd set (text ++ [c]) = text ++ [c] := by
  have hnot : ¬set.contains c = true := by rw [hc]; decide
  rw [trimEnd, reverse_append, reverse_singleton, singleton_append,
    dropWhile_cons_of_neg hnot, reverse_cons, reverse_reverse]

theorem trimEnd_eq_self (h : ∀ c ∈ text, set.contains c = false) :
    trimEnd set text = text := by
  rcases eq_nil_or_concat text with rfl | ⟨front, c, rfl⟩
  · rfl
  · rw [concat_eq_append] at h ⊢
    exact trimEnd_append_singleton (h c (by simp)) front

theorem length_trimEnd_mono {set' : List Char} (hset : ∀ c ∈ set, set'.contains c = true)
    (text : Text) : (trimEnd set' text).length ≤ (trimEnd set text).length := by
  have hdrop : ∀ chars : List Char,
      (chars.dropWhile set'.contains).length ≤ (chars.dropWhile set.contains).length := by
    intro chars
    induction chars with
    | nil => exact le_rfl
    | cons c chars ih =>
      by_cases hc : set.contains c = true
      · have hc' := hset c (contains_iff_mem.mp hc)
        rw [dropWhile_cons_of_pos hc, dropWhile_cons_of_pos hc']
        exact ih
      · rw [dropWhile_cons_of_neg hc]
        exact (dropWhile_suffix _).length_le
  rw [trimEnd, trimEnd, length_reverse, length_reverse]
  exact hdrop _

theorem trimText_of_ends {d : Char} (hc : isWhitespace c = false) (hd : isWhitespace d = false)
    (text : Text) : trimText (c :: (text ++ [d])) = c :: (text ++ [d]) := by
  have hc' : ¬isWhitespace c = true := by rw [hc]; decide
  have hd' : ¬isWhitespace d = true := by rw [hd]; decide
  rw [trimText, dropWhile_cons_of_neg hc']
  simp [dropWhile_cons_of_neg hd']

/-! ### Pieces between separators -/

theorem splitOn_cons_of_ne (hne : c ≠ sep) (text : Text) :
    ∃ head tail, text.splitOn sep = head :: tail ∧ (c :: text).splitOn sep = (c :: head) :: tail := by
  rcases hsplit : text.splitOn sep with _ | ⟨head, tail⟩
  · exact absurd hsplit (splitOnP_ne_nil _ _)
  · refine ⟨head, tail, rfl, ?_⟩
    have hc : ¬(c == sep) = true := by simpa using hne
    rw [List.splitOn, splitOnP_cons_eq_if_modifyHead, if_neg hc, ← List.splitOn, hsplit,
      modifyHead_cons]

theorem mem_of_mem_splitOn {piece : Text} (h : piece ∈ text.splitOn sep)
    (hc : c ∈ piece) : c ∈ text ∧ c ≠ sep := by
  induction text generalizing piece with
  | nil =>
    rw [splitOn_nil, mem_singleton] at h
    simp [h] at hc
  | cons d text ih =>
    by_cases hd : d = sep
    · rw [hd, ← nil_append (sep :: text), splitOn_append_cons_self, splitOn_nil,
        singleton_append, mem_cons] at h
      rcases h with rfl | h
      · exact absurd hc not_mem_nil
      · exact (ih h hc).imp_left (mem_cons_of_mem _)
    · obtain ⟨head, tail, hsplit, hsplit'⟩ := splitOn_cons_of_ne hd text
      rw [hsplit', mem_cons] at h
      rw [hsplit] at ih
      rcases h with rfl | h
      · rcases mem_cons.mp hc with rfl | hc
        · exact ⟨mem_cons_self, hd⟩
        · exact (ih mem_cons_self hc).imp_left (mem_cons_of_mem _)
      · exact (ih (mem_cons_of_mem _ h) hc).imp_left (mem_cons_of_mem _)

end Mecmcp
