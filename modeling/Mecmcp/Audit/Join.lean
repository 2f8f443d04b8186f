import Mecmcp.Audit.DeviceLog

/-!
# Join — when a device commit joins to its request

The line a commit carries is free text, a space, the marker `request.id=` and the id.  The readers
take the first marker of a line, and the git reader also takes `Device:` from any line.  So the
commit joins to its own request and device exactly when the free text has no such marker, or one
that happens to name the same (`commit_joins_iff`).
-/

namespace Mecmcp.Audit

open List

variable {text front device : Text} {c : Char}

/-! ### Searching around a character that is not searched for -/

section

variable {pattern : Text}

theorem isPrefixOf_append_cons (hc : c ∉ pattern) (front back : Text) :
    pattern.isPrefixOf (front ++ c :: back) = pattern.isPrefixOf front := by
  rw [Bool.eq_iff_iff, isPrefixOf_iff_prefix, isPrefixOf_iff_prefix]
  constructor
  · intro hpattern
    by_cases hlength : pattern.length ≤ front.length
    · exact prefix_of_prefix_length_le hpattern (prefix_append _ _) hlength
    · -- a longer pattern would reach over the character
      have hlong : front ++ [c] <+: pattern := by
        refine prefix_of_prefix_length_le ⟨back, by simp⟩ hpattern ?_
        rw [length_append, length_singleton]
        omega
      exact absurd (hlong.subset (by simp)) hc
  · exact fun h => h.trans (prefix_append _ _)

theorem findSub_append_cons (hc : c ∉ pattern) (hpattern : pattern ≠ []) (front back : Text) :
    findSub pattern (front ++ c :: back) =
      (findSub pattern front).or ((findSub pattern back).map (· + (front.length + 1))) := by
  have hnil : findSub pattern [] = none := if_neg hpattern
  induction front with
  | nil =>
    have hhere : pattern.isPrefixOf (c :: back) = false := by
      have hfront := isPrefixOf_append_cons hc [] back
      rw [nil_append] at hfront
      rw [hfront]
      rcases pattern with _ | ⟨d, pattern⟩
      · exact absurd rfl hpattern
      · rfl
    rw [hnil, nil_append, findSub, hhere]
    rfl
  | cons d front ih =>
    have hhere := isPrefixOf_append_cons hc (d :: front) back
    rw [cons_append] at hhere ⊢
    rw [findSub, findSub, hhere, ih]
    split
    · rfl
    · rcases findSub pattern front with _ | i
      · rcases findSub pattern back with _ | j
        · rfl
        · simp [Nat.add_assoc]
      · rfl

theorem containsSub_append_cons (hc : c ∉ pattern) (hpattern : pattern ≠ []) (front back : Text) :
    containsSub pattern (front ++ c :: back) =
      (containsSub pattern front || containsSub pattern back) := by
  rw [containsSub, findSub_append_cons hc hpattern, containsSub, containsSub]
  rcases findSub pattern front with _ | i <;> simp

theorem findSub_of_not_containsSub {text : Text} (h : containsSub pattern text = false) :
    findSub pattern text = none := by
  rcases hfind : findSub pattern text with _ | i
  · rfl
  · simp [containsSub, hfind] at h

theorem secondPiece_eq_none {line : Text} (h : containsSub pattern line = false) :
    secondPiece pattern line = none := by
  rw [secondPiece, findSub_of_not_containsSub h]

/-- The text in front of the first occurrence. -/
def upTo (pattern text : Text) : Text :=
  match findSub pattern text with
  | none => text
  | some j => text.take j

theorem secondPiece_eq (pattern line : Text) : secondPiece pattern line =
    (findSub pattern line).map fun i => upTo pattern (line.drop (i + pattern.length)) := by
  rw [secondPiece]
  rcases findSub pattern line with _ | i
  · rfl
  · simp only [upTo, Option.map_some]
    rcases findSub pattern (line.drop (i + pattern.length)) with _ | j <;> rfl

theorem upTo_of_not_containsSub {text : Text} (h : containsSub pattern text = false) :
    upTo pattern text = text := by
  rw [upTo, findSub_of_not_containsSub h]

theorem upTo_append_cons (hc : c ∉ pattern) (hpattern : pattern ≠ []) (front back : Text) :
    upTo pattern (front ++ c :: back) =
      if containsSub pattern front then upTo pattern front else front ++ c :: upTo pattern back := by
  rw [upTo, findSub_append_cons hc hpattern, containsSub, upTo]
  rcases hfront : findSub pattern front with _ | i
  · rcases hback : findSub pattern back with _ | j
    · simp [upTo, hback]
    · have htake : (front ++ c :: back).take (j + (front.length + 1)) = front ++ c :: back.take j := by
        rw [show j + (front.length + 1) = front.length + (j + 1) by omega, take_length_add_append,
          take_succ_cons]
      simp [upTo, hback, htake]
  · have hlength := findSub_length hfront
    simp [take_append_of_le_length (show i ≤ front.length by omega)]

/-- Behind a text that has the pattern, only what follows its last piece can change. -/
theorem secondPiece_append_cons (hc : c ∉ pattern) (hpattern : pattern ≠ []) {front : Text} {i : ℕ}
    (hfind : findSub pattern front = some i) (back : Text) :
    secondPiece pattern (front ++ c :: back) =
      if containsSub pattern (front.drop (i + pattern.length)) then secondPiece pattern front
      else (secondPiece pattern front).map (· ++ c :: upTo pattern back) := by
  have hlength := findSub_length hfind
  rw [secondPiece_eq, secondPiece_eq, findSub_append_cons hc hpattern, hfind, Option.some_or,
    Option.map_some, Option.map_some, drop_append_of_le_length hlength,
    upTo_append_cons hc hpattern]
  split_ifs with hsecond
  · rfl
  · rw [Bool.not_eq_true] at hsecond
    rw [Option.map_some, upTo_of_not_containsSub hsecond]

theorem findSub_indent (hc : c ∉ pattern) (hpattern : pattern ≠ []) (n : ℕ) (text : Text) :
    findSub pattern (List.replicate n c ++ text) = (findSub pattern text).map (· + n) := by
  induction n with
  | zero => simp
  | succ n ih =>
    have hcons := findSub_append_cons hc hpattern [] (List.replicate n c ++ text)
    rw [findSub, if_neg hpattern, nil_append, Option.none_or, ih, Option.map_map] at hcons
    exact hcons

theorem containsSub_indent (hc : c ∉ pattern) (hpattern : pattern ≠ []) (n : ℕ) (text : Text) :
    containsSub pattern (List.replicate n c ++ text) = containsSub pattern text := by
  rw [containsSub, findSub_indent hc hpattern, Option.isSome_map, containsSub]

theorem secondPiece_indent (hc : c ∉ pattern) (hpattern : pattern ≠ []) (n : ℕ) (text : Text) :
    secondPiece pattern (List.replicate n c ++ text) = secondPiece pattern text := by
  rw [secondPiece_eq, secondPiece_eq, findSub_indent hc hpattern]
  rcases findSub pattern text with _ | i
  · rfl
  · have hdrop : (List.replicate n c ++ text).drop (i + n + pattern.length) =
        text.drop (i + pattern.length) := by
      rw [show i + n + pattern.length = n + (i + pattern.length) by omega, ← drop_drop,
        drop_left' length_replicate]
    simp [hdrop]

theorem findSub_self_append (hpattern : pattern ≠ []) (text : Text) :
    findSub pattern (pattern ++ text) = some 0 := by
  rcases htext : pattern ++ text with _ | ⟨d, rest⟩
  · exact absurd (append_eq_nil_iff.mp htext).1 hpattern
  · rw [findSub, ← htext, if_pos]
    exact isPrefixOf_iff_prefix.mpr (prefix_append _ _)

theorem secondPiece_self_append (hpattern : pattern ≠ []) {piece : Text}
    (hpiece : containsSub pattern piece = false) :
    secondPiece pattern (pattern ++ piece) = some piece := by
  rw [secondPiece, findSub_self_append hpattern]
  simp [findSub_of_not_containsSub hpiece]

theorem findSub_behind (hc : c ∉ pattern) (hpattern : pattern ≠ []) {front : Text}
    (hfront : findSub pattern front = none) (text : Text) :
    findSub pattern (front ++ c :: (pattern ++ text)) = some (front.length + 1) := by
  rw [findSub_append_cons hc hpattern, hfront, findSub_self_append hpattern]
  simp

theorem secondPiece_behind (hc : c ∉ pattern) (hpattern : pattern ≠ []) {front piece : Text}
    (hfront : containsSub pattern front = false) (hpiece : containsSub pattern piece = false) :
    secondPiece pattern (front ++ c :: (pattern ++ piece)) = some piece := by
  have hrest : (front ++ c :: (pattern ++ piece)).drop (front.length + 1 + pattern.length) =
      piece := by
    have hsplit : front ++ c :: (pattern ++ piece) = (front ++ [c] ++ pattern) ++ piece := by simp
    rw [hsplit, drop_left']
    simp
    omega
  rw [secondPiece_eq, findSub_behind hc hpattern (findSub_of_not_containsSub hfront),
    Option.map_some, hrest, upTo_of_not_containsSub hpiece]

end

/-! ### Words -/

theorem containsSub_append_right {pattern back : Text} (h : containsSub pattern back = true)
    (front : Text) : containsSub pattern (front ++ back) = true := by
  induction front with
  | nil => exact h
  | cons c front ih =>
    rw [cons_append, containsSub, findSub]
    split_ifs
    · rfl
    · rwa [Option.isSome_map]

theorem dropWhile_of_head (h : ∀ c ∈ text.head?, isWhitespace c = false) :
    text.dropWhile isWhitespace = text := by
  rcases text with _ | ⟨c, text⟩
  · rfl
  · exact dropWhile_cons_of_neg (by simp [h c rfl])

/-- A word at the end of a text is kept by trimming. -/
theorem exists_trimText_append {word : Text} (hne : word ≠ [])
    (hword : ∀ c ∈ word, isWhitespace c = false) (front : Text) :
    ∃ start, trimText (front ++ word) = start ++ word := by
  obtain ⟨start, hstart⟩ : ∃ start, (front ++ word).dropWhile isWhitespace = start ++ word := by
    rw [dropWhile_append]
    split_ifs
    · exact ⟨[], dropWhile_of_head fun c hc => hword c (mem_of_mem_head? hc)⟩
    · exact ⟨_, rfl⟩
  have hlast : ∀ c ∈ (word.reverse ++ start.reverse).head?, isWhitespace c = false := by
    rw [head?_append_of_ne_nil _ (by simpa using hne)]
    exact fun c hc => hword c (mem_reverse.mp (mem_of_mem_head? hc))
  refine ⟨start, ?_⟩
  rw [trimText, hstart, reverse_append, dropWhile_of_head hlast, reverse_append, reverse_reverse,
    reverse_reverse]

theorem trimText_of_no_whitespace (h : ∀ c ∈ text, isWhitespace c = false) :
    trimText text = text := by
  rw [trimText, dropWhile_of_head fun c hc => h c (mem_of_mem_head? hc),
    dropWhile_of_head fun c hc => h c (mem_reverse.mp (mem_of_mem_head? hc)), reverse_reverse]

theorem splitWhitespace_append_cons (hc : isWhitespace c = true) (front back : Text) :
    splitWhitespace (front ++ c :: back) = splitWhitespace front ++ splitWhitespace back := by
  rw [splitWhitespace, splitOnP_append_cons _ _ hc, filter_append]
  rfl

theorem splitWhitespace_nil : splitWhitespace [] = [] := by
  rw [splitWhitespace, splitOnP_nil]
  rfl

theorem splitWhitespace_cons (hc : isWhitespace c = true) (text : Text) :
    splitWhitespace (c :: text) = splitWhitespace text := by
  have hcons := splitWhitespace_append_cons hc [] text
  rwa [splitWhitespace_nil, nil_append, nil_append] at hcons

theorem splitWhitespace_word {word : Text} (hne : word ≠ [])
    (h : ∀ c ∈ word, isWhitespace c = false) : splitWhitespace word = [word] := by
  rw [splitWhitespace, splitOnP_eq_singleton h, filter_cons_of_pos]
  · rfl
  · simpa using hne

theorem splitWhitespace_dropWhile (text : Text) :
    splitWhitespace (text.dropWhile isWhitespace) = splitWhitespace text := by
  induction text with
  | nil => rfl
  | cons c text ih =>
    by_cases hc : isWhitespace c = true
    · rw [dropWhile_cons_of_pos hc, ih, splitWhitespace_cons hc]
    · rw [dropWhile_cons_of_neg hc]

theorem splitWhitespace_append_blank {blank : Text} (h : ∀ c ∈ blank, isWhitespace c = true)
    (text : Text) : splitWhitespace (text ++ blank) = splitWhitespace text := by
  induction blank generalizing text with
  | nil => rw [append_nil]
  | cons c blank ih =>
    have hblank : ∀ c ∈ blank, isWhitespace c = true := fun d hd => h d (mem_cons_of_mem _ hd)
    have hrest := ih hblank []
    rw [nil_append, splitWhitespace_nil] at hrest
    rw [splitWhitespace_append_cons (h c mem_cons_self), hrest, append_nil]

theorem splitWhitespace_trimText (text : Text) :
    splitWhitespace (trimText text) = splitWhitespace text := by
  have hend (t : Text) : splitWhitespace (t.reverse.dropWhile isWhitespace).reverse =
      splitWhitespace t := by
    have hsplit := congrArg List.reverse (takeWhile_append_dropWhile
      (p := isWhitespace) (l := t.reverse))
    rw [reverse_append, reverse_reverse] at hsplit
    have hblank : ∀ c ∈ (t.reverse.takeWhile isWhitespace).reverse, isWhitespace c = true := by
      intro c hc
      exact mem_takeWhile_imp (mem_reverse.mp hc)
    rw [← splitWhitespace_append_blank hblank, hsplit]
  rw [trimText, hend, splitWhitespace_dropWhile]

/-! ### The id of a line -/

theorem isUuidChar_bounds (h : isUuidChar c = true) :
    (45 ≤ c.toNat ∧ c.toNat ≤ 45) ∨ (48 ≤ c.toNat ∧ c.toNat ≤ 57) ∨
      (97 ≤ c.toNat ∧ c.toNat ≤ 102) := by
  simp only [isUuidChar, Bool.or_eq_true, Bool.and_eq_true, decide_eq_true_eq, beq_iff_eq] at h
  rcases h with (h | h) | rfl
  · exact Or.inr (Or.inl h)
  · exact Or.inr (Or.inr h)
  · exact Or.inl ⟨le_rfl, le_rfl⟩

theorem isWhitespace_of_isUuidChar (h : isUuidChar c = true) :
    isWhitespace c = false := by
  have hbounds := isUuidChar_bounds h
  simp only [isWhitespace, Bool.or_eq_false_iff, Bool.and_eq_false_iff, decide_eq_false_iff_not,
    contains_eq_mem, mem_cons, not_mem_nil, or_false]
  omega

theorem not_mem_requestId (id : RequestId) (hc : isUuidChar c = false) : c ∉ id.text :=
  fun hmem => by simp [id.uuidChars c hmem] at hc

theorem blank_not_mem : ' ' ∉ requestMarker ∧ ' ' ∉ deviceMarker := by decide

theorem marker_ne_nil : requestMarker ≠ [] ∧ deviceMarker ≠ [] := by decide

theorem containsSub_requestId (id : RequestId) : containsSub requestMarker id.text = false :=
  containsSub_eq_false (show '=' ∈ requestMarker by decide) (not_mem_requestId id (by decide))

theorem containsSub_marked (id : RequestId) :
    containsSub requestMarker (requestMarker ++ id.text) = true := by
  rw [containsSub, findSub_self_append marker_ne_nil.1]
  rfl

/-- A word ends at white space or a comma. -/
def endsWord (c : Char) : Bool := isWhitespace c || c == ','

/-- The first word of a text, up to a comma. -/
theorem firstWord_eq_iff {piece word : Text} (hne : word ≠ [])
    (hword : ∀ c ∈ word, endsWord c = false) :
    trimText (firstWord (piece.takeWhile (· ≠ ','))) = word ↔
      ∃ blanks tail, piece = blanks ++ (word ++ tail) ∧ (∀ c ∈ blanks, isWhitespace c = true) ∧
        ∀ c ∈ tail.head?, endsWord c = true := by
  have hplain (text : Text) : trimText (firstWord text) = firstWord text :=
    trimText_of_no_whitespace fun c hc => by simpa using mem_takeWhile_imp hc
  rw [hplain, firstWord]
  constructor
  · rintro rfl
    set inner := piece.takeWhile (· ≠ ',')
    refine ⟨inner.takeWhile isWhitespace, (inner.dropWhile isWhitespace).dropWhile (!isWhitespace ·) ++
      piece.dropWhile (· ≠ ','), ?_, fun c hc => mem_takeWhile_imp hc, ?_⟩
    · rw [← append_assoc _ _ (piece.dropWhile _), takeWhile_append_dropWhile, ← append_assoc,
        takeWhile_append_dropWhile, takeWhile_append_dropWhile]
    · have hspace := head?_dropWhile_not (!isWhitespace ·) (inner.dropWhile isWhitespace)
      have hcomma := head?_dropWhile_not (· ≠ ',') piece
      intro c hc
      rcases hrest : (inner.dropWhile isWhitespace).dropWhile (!isWhitespace ·) with _ | ⟨d, rest⟩
      · rw [hrest, nil_append] at hc
        rw [Option.mem_def.mp hc] at hcomma
        simp_all [endsWord]
      · simp_all [endsWord]
  · rintro ⟨blanks, tail, rfl, hblanks, htail⟩
    have hends : ∀ c, endsWord c = false → isWhitespace c = false ∧ c ≠ ',' := fun c hc => by
      simpa [endsWord] using hc
    have hcomma : ∀ c ∈ blanks ++ word, c ≠ ',' := by
      intro c hc
      rcases mem_append.mp hc with hc | hc
      · rintro rfl
        exact absurd (hblanks _ hc) (by decide)
      · exact (hends c (hword c hc)).2
    have hrest : (tail.takeWhile (· ≠ ',')).takeWhile (!isWhitespace ·) = [] := by
      rcases tail with _ | ⟨c, tail⟩
      · rfl
      · by_cases hc : c = ','
        · simp [hc]
        · have hspace : isWhitespace c = true := by simpa [endsWord, hc] using htail c rfl
          simp [hc, hspace]
    have hstart : ∀ c ∈ (word ++ tail.takeWhile (· ≠ ',')).head?, isWhitespace c = false := by
      rw [head?_append_of_ne_nil _ hne]
      exact fun c hc => (hends c (hword c (mem_of_mem_head? hc))).1
    rw [← append_assoc, takeWhile_append_of_pos (by simpa using hcomma), append_assoc,
      dropWhile_append_of_pos hblanks, dropWhile_of_head hstart, takeWhile_append_of_pos, hrest,
      append_nil]
    exact fun c hc => by simp [(hends c (hword c hc)).1]

/-- The first `request.id=` of a text, if there is one, is followed by the id. -/
def NamesNoOtherRequest (text id : Text) : Prop :=
  ∀ piece, secondPiece requestMarker text = some piece →
    ∃ blanks tail, piece = blanks ++ (id ++ tail) ∧ (∀ c ∈ blanks, isWhitespace c = true) ∧
      ∀ c ∈ tail.head?, endsWord c = true

/-- The first `Device:` of a text, if there is one, is followed by the device, white space apart,
and by another `Device:`. -/
def NamesNoOtherDevice (text device : Text) : Prop :=
  ∀ i, findSub deviceMarker text = some i →
    containsSub deviceMarker (text.drop (i + deviceMarker.length)) = true ∧
    trimText (upTo deviceMarker (text.drop (i + deviceMarker.length))) = device

/-! ### One entry of a log -/

/-- A name without white space at its ends and without a marker. -/
structure PlainName (name : Text) : Prop where
  trimmed : trimText name = name
  noRequest : containsSub requestMarker name = false
  noDevice : containsSub deviceMarker name = false

section

variable {front : Text} (id : RequestId) (indent : ℕ)

def logLine (front : Text) : Text :=
  List.replicate (indent + 1) ' ' ++ (front ++ ' ' :: (requestMarker ++ id.text))

theorem logLine_eq : logLine id indent front =
    (List.replicate (indent + 1) ' ' ++ front) ++ ' ' :: (requestMarker ++ id.text) := by
  rw [logLine, append_assoc]

theorem containsSub_logLine : containsSub requestMarker (logLine id indent front) = true := by
  rw [logLine_eq, containsSub_append_cons blank_not_mem.1 marker_ne_nil.1, containsSub_marked,
    Bool.or_true]

theorem containsSub_device_request :
    containsSub deviceMarker (requestMarker ++ id.text) = false := by
  refine containsSub_eq_false (show ':' ∈ deviceMarker by decide) ?_
  rw [mem_append, not_or]
  exact ⟨by decide, not_mem_requestId id (by decide)⟩

theorem containsSub_device_logLine :
    containsSub deviceMarker (logLine id indent front) = containsSub deviceMarker front := by
  rw [logLine, containsSub_indent blank_not_mem.2 marker_ne_nil.2,
    containsSub_append_cons blank_not_mem.2 marker_ne_nil.2, containsSub_device_request,
    Bool.or_false]

theorem endsWord_requestId : ∀ c ∈ id.text, endsWord c = false := by
  intro c hc
  have hcomma : c ≠ ',' := fun heq => not_mem_requestId id (by decide) (heq ▸ hc)
  simp [endsWord, isWhitespace_of_isUuidChar (id.uuidChars c hc), hcomma]

theorem requestIdIn_logLine (h : containsSub requestMarker front = false) :
    requestIdIn (logLine id indent front) = id.text := by
  rw [requestIdIn, logLine, secondPiece_indent blank_not_mem.1 marker_ne_nil.1,
    secondPiece_behind blank_not_mem.1 marker_ne_nil.1 h (containsSub_requestId id)]
  exact (firstWord_eq_iff id.nonempty (endsWord_requestId id)).mpr ⟨[], [], by simp, nofun, nofun⟩

theorem upTo_requestMarker : upTo requestMarker (requestMarker ++ id.text) = [] := by
  rw [upTo, findSub_self_append marker_ne_nil.1]
  rfl

theorem requestIdIn_logLine_iff :
    requestIdIn (logLine id indent front) = id.text ↔ NamesNoOtherRequest front id.text := by
  have hword := endsWord_requestId id
  rcases hfind : findSub requestMarker front with _ | i
  · have hnone : containsSub requestMarker front = false := by rw [containsSub, hfind]; rfl
    refine iff_of_true (requestIdIn_logLine id indent hnone) fun piece hpiece => ?_
    rw [secondPiece_eq_none hnone] at hpiece
    cases hpiece
  · obtain ⟨piece, hpiece⟩ : ∃ piece, secondPiece requestMarker front = some piece :=
      ⟨_, by rw [secondPiece_eq, hfind]; rfl⟩
    rw [NamesNoOtherRequest, hpiece]
    simp only [Option.some.injEq, forall_eq']
    rw [requestIdIn, logLine, secondPiece_indent blank_not_mem.1 marker_ne_nil.1,
      secondPiece_append_cons blank_not_mem.1 marker_ne_nil.1 hfind, hpiece, upTo_requestMarker]
    split_ifs
    · exact firstWord_eq_iff id.nonempty hword
    · refine (firstWord_eq_iff id.nonempty hword).trans ⟨?_, ?_⟩
      · rintro ⟨blanks, tail, hsplit, hblanks, htail⟩
        rcases eq_nil_or_concat tail with rfl | ⟨tail, c, rfl⟩
        · -- the blank would be the last character of the id
          have hlast := congrArg List.getLast? hsplit
          rw [append_nil, getLast?_concat, getLast?_append_of_ne_nil _ id.nonempty] at hlast
          exact absurd (hword ' ' (mem_of_getLast? hlast.symm)) (by decide)
        · rw [concat_eq_append, ← append_assoc, ← append_assoc] at hsplit
          obtain ⟨rfl, -⟩ := append_inj' hsplit rfl
          refine ⟨blanks, tail, append_assoc _ _ _, hblanks, fun c hc => htail c ?_⟩
          simp [head?_append, Option.mem_def.mp hc]
      · rintro ⟨blanks, tail, rfl, hblanks, htail⟩
        refine ⟨blanks, tail ++ [' '], by simp, hblanks, fun c hc => ?_⟩
        rcases tail with _ | ⟨d, tail⟩
        · obtain rfl : ' ' = c := by simpa using hc
          decide
        · exact htail c hc

/-- Without a second `Device:` in the text the device would be read up to the id. -/
theorem device_logLine_iff {device : Text} (hdevice : PlainName device) :
    (∀ piece, secondPiece deviceMarker (logLine id indent front) = some piece →
      trimText piece = device) ↔ NamesNoOtherDevice front device := by
  rcases hfind : findSub deviceMarker front with _ | i
  · have hnone : containsSub deviceMarker front = false := by rw [containsSub, hfind]; rfl
    rw [secondPiece_eq_none (by rw [containsSub_device_logLine, hnone])]
    simp [NamesNoOtherDevice, hfind]
  · have hpiece : secondPiece deviceMarker front =
        some (upTo deviceMarker (front.drop (i + deviceMarker.length))) := by
      rw [secondPiece_eq, hfind]
      rfl
    rw [NamesNoOtherDevice, hfind, logLine, secondPiece_indent blank_not_mem.2 marker_ne_nil.2,
      secondPiece_append_cons blank_not_mem.2 marker_ne_nil.2 hfind, hpiece,
      upTo_of_not_containsSub (containsSub_device_request id)]
    simp only [Option.some.injEq, forall_eq']
    split_ifs with hsecond
    · simp [hsecond]
    · refine iff_of_false (fun h => ?_) fun h => hsecond h.1
      have hplain : requestMarker.all (!isWhitespace ·) = true := rfl
      have hword : ∀ c ∈ requestMarker ++ id.text, isWhitespace c = false := fun c hc =>
        (mem_append.mp hc).elim (by simpa using all_eq_true.mp hplain c) fun hc =>
          isWhitespace_of_isUuidChar (id.uuidChars c hc)
      obtain ⟨start, hstart⟩ := exists_trimText_append (by simp [marker_ne_nil.1]) hword
        (upTo deviceMarker (front.drop (i + deviceMarker.length)) ++ [' '])
      have hname := h _ rfl
      rw [append_assoc, singleton_append] at hstart
      rw [hstart] at hname
      have hrequest := hdevice.noRequest
      rw [← hname, containsSub_append_right (containsSub_marked id)] at hrequest
      cases hrequest

theorem step_logLine {sha device : Text} (hdevice : PlainName device) :
    (GitState.step ⟨some sha, some device, []⟩ (logLine id indent front)).commits =
        [⟨device, sha, id.text⟩] ↔
      NamesNoOtherRequest front id.text ∧ NamesNoOtherDevice front device := by
  have hcommit : commitMarker.isPrefixOf (logLine id indent front) = false := by
    rw [logLine, replicate_succ]
    rfl
  have hne := id.nonempty
  rw [← requestIdIn_logLine_iff id indent, ← device_logLine_iff id indent hdevice, GitState.step,
    GitState.header, hcommit, containsSub_logLine]
  rcases secondPiece deviceMarker (logLine id indent front) with _ | piece <;>
    by_cases hempty : requestIdIn (logLine id indent front) = [] <;>
    simp [hempty, hne.symm, and_comm]

end

theorem containsSub_commitLine {pattern name : Text} (hblank : ' ' ∉ pattern)
    (hpattern : pattern ≠ []) (hhead : containsSub pattern "commit".toList = false)
    (hname : containsSub pattern name = false) :
    containsSub pattern (commitMarker ++ name) = false := by
  have hsplit : commitMarker ++ name = "commit".toList ++ ' ' :: name := rfl
  rw [hsplit, containsSub_append_cons hblank hpattern, hhead, hname]
  rfl

theorem step_commit {sha : Text} (hsha : PlainName sha) (state : GitState) :
    state.step (commitMarker ++ sha) =
      { state with commitSha := some sha, deviceId := none } := by
  have hprefix : commitMarker.isPrefixOf (commitMarker ++ sha) = true :=
    isPrefixOf_iff_prefix.mpr (prefix_append _ _)
  have hdevice := containsSub_commitLine blank_not_mem.2 marker_ne_nil.2 (by decide) hsha.noDevice
  have hrequest := containsSub_commitLine blank_not_mem.1 marker_ne_nil.1 (by decide)
    hsha.noRequest
  rw [GitState.step, GitState.header, hprefix, secondPiece_eq_none hdevice, hrequest]
  simp [hsha.trimmed]

theorem step_device (hdevice : PlainName device) (state : GitState) :
    state.step (deviceMarker ++ ' ' :: device) = { state with deviceId := some device } := by
  have hcommit : commitMarker.isPrefixOf (deviceMarker ++ ' ' :: device) = false := rfl
  have hpiece : containsSub deviceMarker (' ' :: device) = false := by
    have hcons := containsSub_append_cons blank_not_mem.2 marker_ne_nil.2 [] device
    rw [nil_append, hdevice.noDevice] at hcons
    rw [hcons]
    decide
  have hrequest : containsSub requestMarker (deviceMarker ++ ' ' :: device) = false := by
    rw [containsSub_append_cons blank_not_mem.1 marker_ne_nil.1, hdevice.noRequest]
    decide
  have htrim : trimText (' ' :: device) = device := by
    have hblank : isWhitespace ' ' = true := by decide
    rw [trimText, dropWhile_cons_of_pos hblank, ← trimText, hdevice.trimmed]
  rw [GitState.step, GitState.header, hcommit, secondPiece_self_append marker_ne_nil.2 hpiece,
    hrequest]
  simp [htrim]

/-- The first line of a Junos entry, with a UTC timestamp. -/
structure JunosHeader where
  index : Text
  date : Text
  time : Text
  rest : Text
  gap : ℕ
  indexDigits : index ≠ [] ∧ ∀ c ∈ index, '0' ≤ c ∧ c ≤ '9'
  dateChars : '-' ∈ date ∧ ∀ c ∈ date, ('0' ≤ c ∧ c ≤ '9') ∨ c = '-'
  timeChars : ':' ∈ time ∧ ∀ c ∈ time, ('0' ≤ c ∧ c ≤ '9') ∨ c = ':'

def JunosHeader.line (header : JunosHeader) : Text :=
  header.index ++ List.replicate (header.gap + 1) ' ' ++ header.date ++ ' ' :: header.time ++
    ' ' :: ("UTC".toList ++ header.rest)

/-- `YYYY-MM-DDTHH:MM:SSZ`. -/
def JunosHeader.timestamp (header : JunosHeader) : Text :=
  header.date ++ 'T' :: header.time ++ ['Z']

theorem isWhitespace_of_digit (h : '0' ≤ c ∧ c ≤ '9') :
    isWhitespace c = false ∧ c ≠ 'U' := by
  have hbounds : 48 ≤ c.toNat ∧ c.toNat ≤ 57 := h
  constructor
  · simp only [isWhitespace, Bool.or_eq_false_iff, Bool.and_eq_false_iff, decide_eq_false_iff_not,
      contains_eq_mem, mem_cons, not_mem_nil, or_false]
    omega
  · rintro rfl
    revert hbounds
    decide

namespace JunosHeader

variable (header : JunosHeader)

/-- What stands before `UTC`, up to a space. -/
def stamp : Text :=
  (header.index ++ ' ' :: (List.replicate header.gap ' ' ++ header.date)) ++ ' ' :: header.time

theorem line_eq : header.line = header.stamp ++ ' ' :: ("UTC".toList ++ header.rest) := by
  simp [line, stamp, replicate_succ]

theorem index_chars {c : Char} (hc : c ∈ header.index) : isWhitespace c = false ∧ c ≠ 'U' :=
  isWhitespace_of_digit (header.indexDigits.2 c hc)

theorem date_chars {c : Char} (hc : c ∈ header.date) : isWhitespace c = false ∧ c ≠ 'U' := by
  rcases header.dateChars.2 c hc with h | rfl
  · exact isWhitespace_of_digit h
  · decide

theorem time_chars {c : Char} (hc : c ∈ header.time) : isWhitespace c = false ∧ c ≠ 'U' := by
  rcases header.timeChars.2 c hc with h | rfl
  · exact isWhitespace_of_digit h
  · decide

theorem findSub_utc : findSub "UTC".toList header.line = some (header.stamp.length + 1) := by
  have hnone : findSub "UTC".toList header.stamp = none := by
    refine findSub_eq_none (show 'U' ∈ "UTC".toList by decide) fun hmem => ?_
    simp only [stamp, mem_append, mem_cons, mem_replicate] at hmem
    rcases hmem with (h | h | h | h) | h | h
    · exact (header.index_chars h).2 rfl
    · exact absurd h (by decide)
    · exact absurd h.2 (by decide)
    · exact (header.date_chars h).2 rfl
    · exact absurd h (by decide)
    · exact (header.time_chars h).2 rfl
  rw [line_eq, findSub_behind (by decide) (by decide) hnone]

theorem splitWhitespace_stamp :
    splitWhitespace header.stamp = [header.index, header.date, header.time] := by
  have hblank : isWhitespace ' ' = true := by decide
  have hgap : splitWhitespace (List.replicate header.gap ' ' ++ header.date) =
      splitWhitespace header.date := by
    induction header.gap with
    | zero => rfl
    | succ n ih => rw [replicate_succ, cons_append, splitWhitespace_cons hblank, ih]
  rw [stamp, splitWhitespace_append_cons hblank, splitWhitespace_append_cons hblank, hgap,
    splitWhitespace_word header.indexDigits.1 fun c hc => (header.index_chars hc).1,
    splitWhitespace_word (ne_nil_of_mem header.dateChars.1) fun c hc =>
      (header.date_chars hc).1,
    splitWhitespace_word (ne_nil_of_mem header.timeChars.1) fun c hc =>
      (header.time_chars hc).1]
  rfl

theorem extractJunosTimestamp_line :
    extractJunosTimestamp header.line = some header.timestamp := by
  have htake : header.line.take (header.stamp.length + 1) = header.stamp ++ [' '] := by
    have hsplit : header.line = (header.stamp ++ [' ']) ++ ("UTC".toList ++ header.rest) := by
      rw [line_eq]
      simp
    rw [hsplit, take_left']
    simp
  have hwords : splitWhitespace (trimText (header.line.take (header.stamp.length + 1))) =
      [header.index, header.date, header.time] := by
    rw [htake, splitWhitespace_trimText, splitWhitespace_append_blank (by simp [isWhitespace]),
      splitWhitespace_stamp]
  rw [extractJunosTimestamp, header.findSub_utc]
  simp only [hwords]
  simp [header.dateChars.1, header.timeChars.1, timestamp]

theorem step_line (device : Text) :
    JunosState.step device ⟨none, false, []⟩ header.line = ⟨some header.timestamp, false, []⟩ := by
  rcases hindex : header.index with _ | ⟨c, index⟩
  · exact absurd hindex header.indexDigits.1
  have hc : c ∈ header.index := hindex ▸ mem_cons_self
  have hdigit := header.indexDigits.2 c hc
  have hcons : ∃ text, header.line = c :: text := ⟨_, by rw [line, hindex]; rfl⟩
  obtain ⟨text, htext⟩ := hcons
  have hstamp := header.extractJunosTimestamp_line
  have hws := (header.index_chars hc).1
  have hblank : c ≠ ' ' ∧ c ≠ '\t' := by
    constructor
    · rintro rfl
      exact absurd hws (by decide)
    · rintro rfl
      exact absurd hws (by decide)
  have hheader : JunosState.header ⟨none, false, []⟩ header.line =
      ⟨some header.timestamp, false, []⟩ := by
    rw [JunosState.header, hstamp, htext, dropWhile_cons_of_neg (by simp [hws])]
    simp [hblank, hdigit]
  rw [JunosState.step, hheader]
  rfl

end JunosHeader

theorem junos_step_logLine {timestamp : Text} (id : RequestId) (indent : ℕ) :
    (JunosState.step device ⟨some timestamp, false, []⟩ (logLine id indent front)).commits =
        [⟨device, timestamp, id.text⟩] ↔ NamesNoOtherRequest front id.text := by
  have hheader : JunosState.header ⟨some timestamp, false, []⟩ (logLine id indent front) =
      ⟨some timestamp, true, []⟩ := by
    rw [JunosState.header, if_pos]
    left
    rw [logLine, replicate_succ]
    rfl
  have hne := id.nonempty
  rw [← requestIdIn_logLine_iff id indent, JunosState.step, hheader, containsSub_logLine]
  by_cases hempty : requestIdIn (logLine id indent front) = [] <;> simp [hempty, hne.symm]

/-! ### The join -/

/-- A device that writes the comment of a commit, indented, into its log. -/
def logSink (indent : ℕ) (line : Text) (log : List Text) : Option Text × List Text :=
  (none, log ++ [List.replicate (indent + 1) ' ' ++ line])

/-- **When a commit joins to its request.**  `apply_commit_metadata` writes the only comment line of
an entry.  The git reader gives just the reference to the entry's device, commit and the request,
exactly when the first `request.id=` in the free text (comment, provider, model, skills and user),
if there is one, is followed by the same id and the first `Device:` in it by the same device.  The
Junos reader gives just the reference to the timestamp and the request exactly when the former
holds. -/
theorem commit_joins_iff (toLowercase : Text → Text) (comment : Option Text)
    (attribution : Attribution) (agent : AgentIdentity) (hagent : attribution.agent = some agent)
    (indent : ℕ) (sha device : Text) (hsha : PlainName sha) (hdevice : PlainName device)
    (header : JunosHeader) :
    (parseDeviceLog (applyCommitMetadata toLowercase (logSink indent) comment attribution
          [commitMarker ++ sha, deviceMarker ++ ' ' :: device]).2 =
        [⟨device, sha, attribution.requestId.text⟩] ↔
      NamesNoOtherRequest (commitText toLowercase comment agent attribution.onBehalfOf)
          attribution.requestId.text ∧
        NamesNoOtherDevice (commitText toLowercase comment agent attribution.onBehalfOf) device) ∧
    (parseDeviceLogWithFormat .junosNative (some device) (applyCommitMetadata toLowercase
          (logSink indent) comment attribution [header.line]).2 =
        [⟨device, header.timestamp, attribution.requestId.text⟩] ↔
      NamesNoOtherRequest (commitText toLowercase comment agent attribution.onBehalfOf)
        attribution.requestId.text) := by
  have happly (log : List Text) :
      (applyCommitMetadata toLowercase (logSink indent) comment attribution log).2 =
        log ++ [logLine attribution.requestId indent
          (commitText toLowercase comment agent attribution.onBehalfOf)] := by
    rw [applyCommitMetadata, hagent]
    rfl
  rw [happly, happly]
  constructor
  · rw [parseDeviceLog, cons_append, cons_append, nil_append, foldl_cons, foldl_cons, foldl_cons,
      foldl_nil, step_commit hsha, step_device hdevice]
    exact step_logLine _ indent hdevice
  · have hparse (lines : List Text) : parseDeviceLogWithFormat .junosNative (some device) lines =
        (lines.foldl (JunosState.step device) ⟨none, false, []⟩).commits := rfl
    rw [hparse, cons_append, nil_append, foldl_cons, foldl_cons, foldl_nil, header.step_line device]
    exact junos_step_logLine _ indent

def sampleAttribution : Attribution :=
  { agent := some ⟨"m-1".toList, "acme".toList, .public, []⟩
    onBehalfOf := none
    requestId := ⟨"ab12".toList, by simp, by simp [isUuidChar]⟩ }

def sampleHeader : JunosHeader :=
  { index := "0".toList, date := "2026-08-12".toList, time := "18:36:55".toList,
    rest := " by netconf".toList, gap := 2, indexDigits := by simp, dateChars := by simp,
    timeChars := by simp }

/-- A commit with the comment `CHG001`. -/
theorem plain_comment_joins :
    parseDeviceLog (applyCommitMetadata id (logSink 3) (some "CHG001".toList) sampleAttribution
        [commitMarker ++ "c0ffee".toList, deviceMarker ++ ' ' :: "edge1".toList]).2 =
      [⟨"edge1".toList, "c0ffee".toList, "ab12".toList⟩] := by
  refine (commit_joins_iff id (some "CHG001".toList) sampleAttribution _ rfl 3 "c0ffee".toList
    "edge1".toList ⟨?_, ?_, ?_⟩ ⟨?_, ?_, ?_⟩ sampleHeader).1.mpr ⟨?_, ?_⟩
  case refine_7 =>
    intro piece hpiece
    rw [secondPiece_eq_none (by decide)] at hpiece
    cases hpiece
  case refine_8 =>
    intro i hi
    rw [findSub_of_not_containsSub (by decide)] at hi
    cases hi
  all_goals decide

/-- A comment that quotes another request and another device moves the commit to both. -/
theorem quoted_comment_joins_elsewhere :
    parseDeviceLog (applyCommitMetadata id (logSink 3)
        (some "redo request.id=ff00, Device: edge2".toList) sampleAttribution
        [commitMarker ++ "c0ffee".toList, deviceMarker ++ ' ' :: "edge1".toList]).2 =
      [⟨"edge2 | acme-public, m-1, none request.id=ab12".toList, "c0ffee".toList,
        "ff00".toList⟩] := by
  decide

end Mecmcp.Audit
