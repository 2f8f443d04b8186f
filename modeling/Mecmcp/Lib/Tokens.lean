import Mathlib

/-!
# Tokens — words between blanks, parts between separators

A text is cut into parts at separators and each part into words at blanks (`parts`).  `Scan` reads
the same off from the right, one character at a time: the word at the front, the words behind it in
the first part, and the parts behind that one.  `parts_eq_scan` is the bridge; with it a change of
the text that leaves the scan alone leaves words and parts alone.

`collapse` replaces every run of blanks by one given blank.  `parts_collapse_trim` says it changes no
word and no part, and `collapse_trim_eq` that on a trimmed text without separators it prints the
words with that blank between them.
-/

namespace Mecmcp.Tokens

open List

variable {α : Type} (blank sep : α → Bool)

/-- The words of a text: what stands between blanks, where something does. -/
def words (text : List α) : List (List α) :=
  (text.splitOnP blank).filter fun word => !word.isEmpty

def parts (text : List α) : List (List (List α)) :=
  (text.splitOnP sep).map (words blank)

/-! ### Reading from the right -/

/-- What has been read of a text, from its end. -/
structure Scan (α : Type) where
  /-- the word the text begins with, empty where it begins with a blank or a separator -/
  word : List α
  /-- the other words of the first part -/
  rest : List (List α)
  /-- the words of the other parts -/
  later : List (List (List α))

namespace Scan

/-- The words of the first part. -/
def first (s : Scan α) : List (List α) :=
  if s.word.isEmpty then s.rest else s.word :: s.rest

/-- The words of all parts. -/
def all (s : Scan α) : List (List (List α)) := s.first :: s.later

/-- Read one more character. -/
def step (c : α) (s : Scan α) : Scan α :=
  if sep c then ⟨[], [], s.all⟩
  else if blank c then ⟨[], s.first, s.later⟩
  else ⟨c :: s.word, s.rest, s.later⟩

end Scan

def scan (text : List α) : Scan α := text.foldr (Scan.step blank sep) ⟨[], [], []⟩

@[simp] theorem scan_nil : scan blank sep ([] : List α) = ⟨[], [], []⟩ := rfl

@[simp] theorem scan_cons (c : α) (text : List α) :
    scan blank sep (c :: text) = (scan blank sep text).step blank sep c := rfl

theorem scan_spec (text : List α) : ∃ part later front,
    text.splitOnP sep = part :: later ∧ later.map (words blank) = (scan blank sep text).later ∧
      part.splitOnP blank = (scan blank sep text).word :: front ∧
      front.filter (fun word => !word.isEmpty) = (scan blank sep text).rest := by
  induction text with
  | nil => exact ⟨[], [], [], by simp⟩
  | cons c text ih =>
    obtain ⟨part, later, front, hpart, hlater, hword, hrest⟩ := ih
    have hfirst : words blank part = (scan blank sep text).first := by
      rw [words, hword, Scan.first, filter_cons, hrest]
      cases hempty : (scan blank sep text).word.isEmpty <;> simp
    rw [scan_cons, Scan.step, splitOnP_cons_eq_if_modifyHead, hpart]
    split_ifs with hsep hblank
    · refine ⟨[], part :: later, [], rfl, ?_, by simp, rfl⟩
      rw [map_cons, hfirst, hlater]
      rfl
    · refine ⟨c :: part, later, part.splitOnP blank, rfl, hlater, ?_, hfirst⟩
      rw [splitOnP_cons_eq_if_modifyHead, if_pos hblank]
    · refine ⟨c :: part, later, front, rfl, hlater, ?_, hrest⟩
      rw [splitOnP_cons_eq_if_modifyHead, if_neg hblank, hword]
      rfl

theorem parts_eq_scan (text : List α) : parts blank sep text = (scan blank sep text).all := by
  obtain ⟨part, later, front, hpart, hlater, hword, hrest⟩ := scan_spec blank sep text
  rw [parts, hpart, map_cons, hlater, words, hword, filter_cons, hrest, Scan.all,
    Scan.first]
  cases (scan blank sep text).word.isEmpty <;> simp

/-! ### Blanks at the ends -/

theorem all_step_blank {c : α} (hc : blank c = true) (hsep : sep c = false) (s : Scan α) :
    (s.step blank sep c).all = s.all := by
  simp [Scan.step, hc, hsep, Scan.all, Scan.first]

/-- Both ends without their blanks. -/
def trim (text : List α) : List α :=
  ((text.dropWhile blank).reverse.dropWhile blank).reverse

section
variable {blank sep} (hdisjoint : ∀ c, blank c = true → sep c = false)

include hdisjoint

theorem all_dropWhile (text : List α) :
    (scan blank sep (text.dropWhile blank)).all = (scan blank sep text).all := by
  induction text with
  | nil => rfl
  | cons c text ih =>
    by_cases hc : blank c = true
    · rw [dropWhile_cons_of_pos hc, ih, scan_cons, all_step_blank blank sep hc (hdisjoint c hc)]
    · rw [dropWhile_cons_of_neg hc]

theorem scan_blanks {blanks : List α} (h : ∀ c ∈ blanks, blank c = true) :
    scan blank sep blanks = ⟨[], [], []⟩ := by
  induction blanks with
  | nil => rfl
  | cons c blanks ih =>
    have hc := h c mem_cons_self
    rw [scan_cons, ih fun d hd => h d (mem_cons_of_mem c hd)]
    simp [Scan.step, hc, hdisjoint c hc, Scan.first]

theorem scan_append_blanks (text : List α) {blanks : List α} (h : ∀ c ∈ blanks, blank c = true) :
    scan blank sep (text ++ blanks) = scan blank sep text := by
  have hblanks := scan_blanks hdisjoint h
  rw [scan, foldr_append]
  rw [scan] at hblanks
  rw [hblanks]
  rfl

theorem scan_trimEnd (text : List α) :
    scan blank sep (text.reverse.dropWhile blank).reverse = scan blank sep text := by
  have hsplit : text = (text.reverse.dropWhile blank).reverse ++
      (text.reverse.takeWhile blank).reverse := by
    rw [← reverse_append, takeWhile_append_dropWhile, reverse_reverse]
  conv_rhs => rw [hsplit]
  rw [scan_append_blanks hdisjoint]
  intro c hc
  exact mem_takeWhile_imp (mem_reverse.mp hc)

theorem all_trim (text : List α) :
    (scan blank sep (trim blank text)).all = (scan blank sep text).all := by
  rw [trim, scan_trimEnd hdisjoint, all_dropWhile hdisjoint]

end

/-! ### Runs of blanks -/

/-- Every run of blanks replaced by `space`; `after` says that a blank was just read. -/
def collapse (space : α) (after : Bool) : List α → List α
  | [] => []
  | c :: text =>
    if blank c then
      if after then collapse space true text else space :: collapse space true text
    else c :: collapse space false text

section
variable {blank sep} (hdisjoint : ∀ c, blank c = true → sep c = false) {space : α}
  (hspace : blank space = true)

include hdisjoint hspace

theorem scan_collapse (text : List α) :
    scan blank sep (collapse blank space false text) = scan blank sep text ∧
      (scan blank sep (collapse blank space true text)).all = (scan blank sep text).all := by
  induction text with
  | nil => exact ⟨rfl, rfl⟩
  | cons c text ih =>
    obtain ⟨hfalse, htrue⟩ := ih
    by_cases hc : blank c = true
    · have hsep := hdisjoint c hc
      constructor
      · -- of the text behind it, a blank keeps the words and parts
        rw [collapse, if_pos hc, if_neg Bool.false_ne_true, scan_cons, scan_cons]
        simp only [Scan.step, hspace, hdisjoint space hspace, hc, hsep, Bool.false_eq_true,
          if_false, if_true]
        obtain ⟨hfirst, hlater⟩ := List.cons.inj htrue
        rw [hfirst, hlater]
      · rw [collapse, if_pos hc, if_pos rfl, htrue, scan_cons, all_step_blank blank sep hc hsep]
    · simp only [collapse, if_neg hc, scan_cons, hfalse, and_self]

/-- **Collapsing a trimmed text changes no word and no part.** -/
theorem parts_collapse_trim (text : List α) :
    parts blank sep (collapse blank space false (trim blank text)) = parts blank sep text := by
  rw [parts_eq_scan, parts_eq_scan, (scan_collapse hdisjoint hspace _).1, all_trim hdisjoint]

end

/-! ### Printing the words -/

variable {blank}
variable {text : List α} {c : α}

theorem words_eq_scan (text : List α) :
    words blank text = (scan blank (fun _ => false) text).first := by
  have h := parts_eq_scan blank (fun _ => false) text
  have hone : text.splitOnP (fun _ => false) = [text] := by
    induction text with
    | nil => rfl
    | cons c text ih =>
      rw [splitOnP_cons_eq_if_modifyHead, if_neg Bool.false_ne_true, ih (parts_eq_scan _ _ _)]
      rfl
  rw [parts, hone] at h
  exact (List.cons.inj h).1

theorem first_ne_nil (hne : text ≠ []) (hlast : ∀ c, text.getLast? = some c → blank c = false) :
    (scan blank (fun _ => false) text).first ≠ [] := by
  induction text with
  | nil => exact absurd rfl hne
  | cons c text ih =>
    by_cases hc : blank c = true
    · have htext : text ≠ [] := by
        rintro rfl
        simp [hlast c rfl] at hc
      have hbehind := ih htext fun d hd => hlast d (by rw [getLast?_cons_of_ne_nil htext, hd])
      simpa [Scan.step, hc, Scan.first] using hbehind
    · simp [Scan.step, hc, Scan.first]

theorem intercalate_cons_front (glue : List α) (c : α) (word : List α) (rest : List (List α)) :
    glue.intercalate ((c :: word) :: rest) = c :: glue.intercalate (word :: rest) := by
  cases rest with
  | nil => simp
  | cons next rest => simp [intercalate_cons_cons]

/-- Collapsing prints the words with the blank between them, after one more where the text begins
with a blank that is not dropped. -/
theorem collapse_eq (space : α) (text : List α)
    (hlast : ∀ c, text.getLast? = some c → blank c = false) :
    collapse blank space true text =
        [space].intercalate (scan blank (fun _ => false) text).first ∧
      collapse blank space false text =
        (if text.head?.any blank then [space] else []) ++
          [space].intercalate (scan blank (fun _ => false) text).first := by
  induction text with
  | nil => exact ⟨rfl, rfl⟩
  | cons c text ih =>
    by_cases hempty : text = []
    · subst hempty
      have hc : blank c = false := hlast c rfl
      simp [collapse, hc, Scan.step, Scan.first]
    · have hbehind : ∀ d, text.getLast? = some d → blank d = false :=
        fun d hd => hlast d (by rw [getLast?_cons_of_ne_nil hempty, hd])
      obtain ⟨htrue, hfalse⟩ := ih hbehind
      by_cases hc : blank c = true
      · simp [collapse, hc, Scan.step, Scan.first, htrue]
      · have hfront : c :: collapse blank space false text =
            [space].intercalate ((scan blank (fun _ => false) (c :: text)).first) := by
          obtain ⟨d, text, rfl⟩ := exists_cons_of_ne_nil hempty
          have hcons : (scan blank (fun _ => false) (c :: d :: text)).first =
              (c :: (scan blank (fun _ => false) (d :: text)).word) ::
                (scan blank (fun _ => false) (d :: text)).rest := by
            rw [scan_cons _ _ c]
            simp [Scan.step, hc, Scan.first]
          rw [hfalse, hcons]
          by_cases hd : blank d = true
          · -- the word ends here, and the last character belongs to another one
            have hword : (scan blank (fun _ => false) (d :: text)).word = [] := by
              simp [Scan.step, hd]
            have hfirst : (scan blank (fun _ => false) (d :: text)).first =
                (scan blank (fun _ => false) (d :: text)).rest := by
              rw [Scan.first, hword]
              rfl
            obtain ⟨next, rest, hnext⟩ :=
              exists_cons_of_ne_nil (first_ne_nil hempty hbehind)
            rw [hword, ← hfirst, hnext, intercalate_cons_cons]
            simp [hd]
          · have hword : (scan blank (fun _ => false) (d :: text)).word ≠ [] := by
              simp [Scan.step, hd]
            have hfirst : (scan blank (fun _ => false) (d :: text)).first =
                (scan blank (fun _ => false) (d :: text)).word ::
                  (scan blank (fun _ => false) (d :: text)).rest := by
              rw [Scan.first, if_neg (by simpa only [List.isEmpty_iff] using hword)]
            rw [hfirst, intercalate_cons_front]
            simp [hd]
        simp [collapse, hc, hfront]

theorem head_trim (h : (trim blank text).head? = some c) :
    blank c = false := by
  have hsplit : text.dropWhile blank = trim blank text ++
      ((text.dropWhile blank).reverse.takeWhile blank).reverse := by
    rw [trim, ← reverse_append, takeWhile_append_dropWhile, reverse_reverse]
  have hhead : (text.dropWhile blank).head? = some c := by
    rw [hsplit, head?_append, h]
    rfl
  have hnot := head?_dropWhile_not blank text
  rw [hhead] at hnot
  simpa using hnot

theorem last_trim (h : (trim blank text).getLast? = some c) :
    blank c = false := by
  have hnot := head?_dropWhile_not blank (text.dropWhile blank).reverse
  rw [trim, getLast?_reverse] at h
  rw [h] at hnot
  simpa using hnot

/-- **A trimmed and collapsed text is its words with the blank between them.** -/
theorem collapse_trim_eq (space : α) (text : List α) :
    collapse blank space false (trim blank text) = [space].intercalate (words blank text) := by
  have hdisjoint : ∀ c, blank c = true → (fun _ : α => false) c = false := fun _ _ => rfl
  have hhead : (trim blank text).head?.any blank = false := by
    cases h : (trim blank text).head? with
    | none => rfl
    | some c =>
      have hc : blank c = false := head_trim h
      simpa using hc
  rw [(collapse_eq space _ fun c => last_trim).2, hhead, words_eq_scan]
  have hall := all_trim hdisjoint text
  rw [(List.cons.inj hall).1]
  rfl

theorem words_collapse_trim {space : α} (hspace : blank space = true) (text : List α) :
    words blank (collapse blank space false (trim blank text)) = words blank text := by
  have hdisjoint : ∀ c, blank c = true → (fun _ : α => false) c = false := fun _ _ => rfl
  rw [words_eq_scan, words_eq_scan, (scan_collapse hdisjoint hspace _).1]
  exact (List.cons.inj (all_trim hdisjoint text)).1

end Mecmcp.Tokens
