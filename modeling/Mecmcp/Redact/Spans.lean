import Mecmcp.Redact.Text

/-!
# Spans — what the scans of a line find

Lemmas about the scans `redactLine` is made of: the tokens and quotes of a line that is given in
pieces, the value of a key inside one token, and the characters a redacted line can have.
-/

namespace Mecmcp.Redact

open List Option

variable {c : Char} {word text content line run out : Text} {stop cursor start : ℕ} {force : Bool}
  {scanner : Scanner}

/-! ### Tokens -/

theorem isWhitespace_of_isIdent (h : isIdent c = true) : isWhitespace c = false := by
  simp only [isIdent, Bool.or_eq_true, beq_iff_eq] at h
  rcases h with (halnum | rfl) | rfl
  · simp only [isAsciiAlnum, isWhitespace, Bool.or_eq_true, Bool.and_eq_true, decide_eq_true_eq,
      Bool.or_eq_false_iff, Bool.and_eq_false_iff, decide_eq_false_iff_not,
      contains_eq_mem, mem_cons, not_mem_nil, or_false] at halnum ⊢
    omega
  · decide
  · decide

theorem tokenSpansFrom_word (i s : ℕ) (hword : ∀ c ∈ word, isWhitespace c = false) (rest : Text) :
    tokenSpansFrom i (some s) (word ++ rest) = tokenSpansFrom (i + word.length) (some s) rest := by
  induction word generalizing i with
  | nil => rfl
  | cons c word ih =>
    rw [cons_append, tokenSpansFrom, hword c mem_cons_self, if_neg (by decide),
      getD_some, ih (i + 1) fun d hd => hword d (.tail _ hd),
      length_cons, Nat.add_assoc, Nat.add_comm 1]

theorem tokenSpansFrom_none (i : ℕ) (hne : word ≠ [])
    (hword : ∀ c ∈ word, isWhitespace c = false) (rest : Text) :
    tokenSpansFrom i none (word ++ rest) = tokenSpansFrom (i + word.length) (some i) rest := by
  rcases word with _ | ⟨c, word⟩
  · exact absurd rfl hne
  · rw [cons_append, tokenSpansFrom, hword c mem_cons_self, if_neg (by decide),
      getD_none, tokenSpansFrom_word (i + 1) i fun d hd => hword d (.tail _ hd),
      length_cons, Nat.add_assoc, Nat.add_comm 1]

theorem tokenSpansFrom_word_space (i : ℕ) (hne : word ≠ [])
    (hword : ∀ c ∈ word, isWhitespace c = false) (rest : Text) :
    tokenSpansFrom i none (word ++ ' ' :: rest) =
      (i, i + word.length) :: tokenSpansFrom (i + word.length + 1) none rest := by
  rw [tokenSpansFrom_none i hne hword, tokenSpansFrom, if_pos (by decide)]
  rfl

theorem tokenSpansFrom_last (i : ℕ) (hne : word ≠ []) (hword : ∀ c ∈ word, isWhitespace c = false) :
    tokenSpansFrom i none word = [(i, i + word.length)] := by
  have hspans := tokenSpansFrom_none i hne hword []
  rw [append_nil] at hspans
  rw [hspans]
  rfl

/-! ### Quotes -/

theorem quotedSpansFrom_unquoted (i : ℕ) (htext : ∀ c ∈ text, isQuote c = false) (rest : Text) :
    quotedSpansFrom i none (text ++ rest) = quotedSpansFrom (i + text.length) none rest := by
  induction text generalizing i with
  | nil => rfl
  | cons c text ih =>
    simp only [cons_append, quotedSpansFrom, htext c mem_cons_self, Bool.false_eq_true,
      if_false]
    rw [ih (i + 1) fun d hd => htext d (.tail _ hd), length_cons,
      Nat.add_assoc, Nat.add_comm 1]

theorem quotedSpansFrom_content (i start : ℕ) {quote : Char}
    (hcontent : quote ∉ content) (rest : Text) :
    quotedSpansFrom i (some (quote, start)) (content ++ quote :: rest) =
      (start, i + content.length) :: quotedSpansFrom (i + content.length + 1) none rest := by
  induction content generalizing i with
  | nil => simp [quotedSpansFrom]
  | cons c content ih =>
    have hne : ¬c = quote := fun heq => hcontent (heq ▸ mem_cons_self)
    simp only [cons_append, quotedSpansFrom, hne, if_false]
    rw [ih (i + 1) fun hmem => hcontent (.tail _ hmem), length_cons]
    simp only [Nat.add_assoc, Nat.add_comm 1]

theorem quotedSpansFrom_quoted (i : ℕ)
    (htext : ∀ c ∈ text, isQuote c = false) (hcontent : '"' ∉ content) (rest : Text) :
    quotedSpansFrom i none (text ++ '"' :: (content ++ '"' :: rest)) =
      (i + text.length + 1, i + text.length + 1 + content.length) ::
        quotedSpansFrom (i + text.length + 1 + content.length + 1) none rest := by
  rw [quotedSpansFrom_unquoted i htext]
  exact quotedSpansFrom_content _ _ hcontent rest

theorem quotedSpansFrom_nil (i : ℕ) (htext : ∀ c ∈ text, isQuote c = false) :
    quotedSpansFrom i none text = [] := by
  have hspans := quotedSpansFrom_unquoted i htext []
  rw [append_nil] at hspans
  rw [hspans]
  rfl

/-! ### The key in one token -/

theorem subtokenSpansFrom_whole (i start : ℕ)
    (htext : ∀ c ∈ text, subtokenSplitChars.contains c = false) :
    subtokenSpansFrom i start text =
      if start < i + text.length then [(start, i + text.length)] else [] := by
  induction text generalizing i with
  | nil => rfl
  | cons c text ih =>
    rw [subtokenSpansFrom, htext c mem_cons_self, if_neg (by decide),
      ih (i + 1) fun d hd => htext d (.tail _ hd), length_cons, Nat.add_assoc,
      Nat.add_comm 1]

theorem tokenValueStart_whole {token : Text} {s : ℕ} (tokens : List Span)
    (hslice : slice line s (s + token.length) = token)
    (hsplit : ∀ c ∈ token, subtokenSplitChars.contains c = false)
    (hequals : keyBefore '=' token = none) (hcolon : keyBefore ':' token = none) :
    tokenValueStart line s (s + token.length) tokens =
      match attachedValueKeyEnd token with
      | some runEnd => some (s + runEnd)
      | none =>
        if !(trimEnd [':', ';'] token).isEmpty && isDenylistedKey (trimEnd [':', ';'] token) then
          firstValueStart line tokens else none := by
  have hsub : (subtokenSpans line s (s + token.length)).findSome? (subtokenValueStart line) =
      none := by
    rw [subtokenSpans, hslice, subtokenSpansFrom_whole s s hsplit]
    by_cases hlen : s < s + token.length
    · simp [hlen, subtokenValueStart, hslice, hequals, hcolon]
    · simp [hlen]
  rcases hend : attachedValueKeyEnd token with _ | runEnd
  · simp only [tokenValueStart, hsub, hslice, hend]
  · simp only [tokenValueStart, hsub, hslice, hend]

theorem attachedValueKeyEndFrom_run (i : ℕ) (run : Text)
    (htext : ∀ c ∈ text, isIdent c = true) (rest : Text) :
    attachedValueKeyEndFrom i run (text ++ rest) =
      attachedValueKeyEndFrom (i + text.length) (text.reverse ++ run) rest := by
  induction text generalizing i run with
  | nil => rfl
  | cons c text ih =>
    rw [cons_append, attachedValueKeyEndFrom, if_pos (htext c mem_cons_self),
      ih (i + 1) (c :: run) fun d hd => htext d (.tail _ hd), length_cons,
      reverse_cons, append_assoc, singleton_append, Nat.add_assoc, Nat.add_comm 1]

theorem attachedValueKeyEndFrom_ident (i : ℕ) (run : Text)
    (htext : ∀ c ∈ text, isIdent c = true) : attachedValueKeyEndFrom i run text = none := by
  have hend := attachedValueKeyEndFrom_run i run htext []
  rw [append_nil] at hend
  rw [hend]
  rfl

theorem attachedValueKeyEndFrom_skip (i : ℕ) (run : Text) (hc : isIdent c = false)
    (hkey : isDenylistedKey run.reverse = false) (rest : Text) :
    attachedValueKeyEndFrom i run (c :: rest) = attachedValueKeyEndFrom (i + 1) [] rest := by
  rw [attachedValueKeyEndFrom, hc, if_neg (by decide), hkey, Bool.false_and, if_neg (by decide)]

theorem attachedValueKeyEndFrom_shift (i : ℕ) (run text : Text) :
    attachedValueKeyEndFrom i run text =
      (attachedValueKeyEndFrom 0 run text).map (i + ·) := by
  induction text generalizing i run with
  | nil => rfl
  | cons c text ih =>
    rw [attachedValueKeyEndFrom, attachedValueKeyEndFrom]
    by_cases hc : isIdent c = true
    · rw [if_pos hc, if_pos hc, ih (i + 1), ih (0 + 1), Option.map_map]
      congr 1
      funext n
      simp only [Function.comp_apply]
      omega
    · rw [if_neg hc, if_neg hc]
      by_cases hkey : (isDenylistedKey run.reverse && (c :: text).any isAsciiAlnum) = true
      · rw [if_pos hkey, if_pos hkey]
        rfl
      · rw [if_neg hkey, if_neg hkey, ih (i + 1), ih (0 + 1), Option.map_map]
        congr 1
        funext n
        simp only [Function.comp_apply]
        omega

theorem attachedValueKeyEndFrom_lt {i : ℕ}
    (h : attachedValueKeyEndFrom i run text = some stop) : i ≤ stop ∧ stop < i + text.length := by
  induction text generalizing i run with
  | nil => simp [attachedValueKeyEndFrom] at h
  | cons c text ih =>
    rw [attachedValueKeyEndFrom] at h
    rw [length_cons]
    by_cases hc : isIdent c = true
    · rw [if_pos hc] at h
      have := ih h
      omega
    · rw [if_neg hc] at h
      by_cases hkey : (isDenylistedKey run.reverse && (c :: text).any isAsciiAlnum) = true
      · rw [if_pos hkey, some_inj] at h
        omega
      · rw [if_neg hkey] at h
        have := ih h
        omega

theorem attachedValueKeyEnd_pos (h : attachedValueKeyEnd text = some stop) : 0 < stop := by
  rcases text with _ | ⟨c, text⟩
  · simp [attachedValueKeyEnd, attachedValueKeyEndFrom] at h
  · rw [attachedValueKeyEnd, attachedValueKeyEndFrom] at h
    have hempty : isDenylistedKey (List.reverse []) = false := by decide
    rw [hempty, Bool.false_and] at h
    by_cases hc : isIdent c = true
    · rw [if_pos hc] at h
      exact (attachedValueKeyEndFrom_lt h).1
    · rw [if_neg hc, if_neg (by decide)] at h
      exact (attachedValueKeyEndFrom_lt h).1

theorem attachedValueKeyEndFrom_no_value (i : ℕ) (run : Text)
    (htext : text.any isAsciiAlnum = false) : attachedValueKeyEndFrom i run text = none := by
  induction text generalizing i run with
  | nil => rfl
  | cons c text ih =>
    have hrest : text.any isAsciiAlnum = false := by
      rw [any_cons, Bool.or_eq_false_iff] at htext
      exact htext.2
    unfold attachedValueKeyEndFrom
    rw [htext, Bool.and_false, ih _ _ hrest, ih _ _ hrest]
    simp

theorem attachedValueKeyEndFrom_punctuation (i : ℕ) (run text : Text) {tail : Text}
    (htail : tail.any isAsciiAlnum = false) :
    attachedValueKeyEndFrom i run (text ++ tail) = attachedValueKeyEndFrom i run text := by
  induction text generalizing i run with
  | nil => exact attachedValueKeyEndFrom_no_value i run htail
  | cons c text ih =>
    rw [cons_append, attachedValueKeyEndFrom, attachedValueKeyEndFrom, ih, ih,
      ← cons_append, any_append, htail, Bool.or_false]

theorem hasDenylistedKey_append_cons (front : Text) (back : Text) (hc : isIdent c = false) :
    hasDenylistedKey (front ++ c :: back) = (hasDenylistedKey front || hasDenylistedKey back) := by
  rw [hasDenylistedKey, splitOnP_append_cons _ _ (by rw [hc]; rfl), any_append]
  rfl

theorem hasDenylistedKey_run (hrun : ∀ c ∈ run, isIdent c = true) :
    hasDenylistedKey run = isDenylistedKey run := by
  have hident : ∀ c ∈ run, (!isIdent c) = false := by
    intro c hc
    rw [hrun c hc]
    rfl
  rw [hasDenylistedKey, splitOnP_eq_singleton hident, any_cons, any_nil,
    Bool.or_false]

/-! ### Shapes -/

theorem isCryptHash_of_head (hc : c ≠ '$') (text : Text) :
    isCryptHash (c :: text) = false := by
  unfold isCryptHash
  split
  · rename_i heq
    exact absurd (List.cons.inj heq).1 hc
  · rfl

theorem looksLikeSecretValue_of_plain (hcrypt : isCryptHash text = false)
    (hequals : text.count '=' < 2) (hspace : ' ' ∉ text) :
    looksLikeSecretValue text = isEncMarker text := by
  have haq : containsPanAqSuffix text = false := by
    rw [containsPanAqSuffix, ← Bool.not_eq_true]
    intro hcontains
    have hcount := (isInfix_of_containsSub hcontains).sublist.count_le '='
    have htwo : "-AQ==".toList.count '=' = 2 := by decide
    omega
  have hpem : containsPemMarker text = false := containsSub_eq_false (by decide) hspace
  rw [looksLikeSecretValue, hcrypt, haq, hpem, Bool.false_or, Bool.false_or, Bool.or_false]

theorem userinfoPasswordSpans_eq_nil (hcolon : ':' ∉ line) :
    userinfoPasswordSpans line = [] := by
  unfold userinfoPasswordSpans
  rcases line.length with _ | fuel
  · rfl
  · have hnone : findSub "://".toList (line.drop 0) = none :=
      findSub_eq_none (c := ':') (by decide) hcolon
    rw [userinfoPasswordSpansFrom, hnone]

/-! ### Splicing -/

theorem spliceFrom_cons {front value rest : Text} (spans : List Span)
    (hline : line.drop cursor = front ++ (value ++ rest)) (hstart : start = cursor + front.length)
    (hstop : stop = start + value.length) (hvalue : trimEnd structuralChars value = value) :
    spliceFrom line cursor ((start, stop) :: spans) =
      front ++ placeholder ++ spliceFrom line stop spans ∧ line.drop stop = rest := by
  have hdrop : line.drop start = value ++ rest := by
    rw [hstart, ← drop_drop, hline, drop_left]
  have hfront : slice line cursor start = front := by
    rw [slice, drop_take, hline, hstart, Nat.add_sub_cancel_left, take_left]
  have hcore : slice line start stop = value := by
    rw [slice, drop_take, hdrop, hstop, Nat.add_sub_cancel_left, take_left]
  have hafter : slice line stop stop = [] := by
    rw [slice, drop_take, Nat.sub_self, take_zero]
  refine ⟨?_, by rw [hstop, ← drop_drop, hdrop, drop_left]⟩
  rw [spliceFrom, if_neg (by omega), hfront, hcore, hvalue]
  dsimp only
  rw [← hstop, hafter, append_nil]

theorem spliceFrom_skip (spans : List Span) (h : start < cursor) :
    spliceFrom line cursor ((start, stop) :: spans) = spliceFrom line cursor spans := by
  rw [spliceFrom, if_pos h]

/-! ### Characters of a redacted line -/

theorem mem_spliceFrom {spans : List Span}
    (h : c ∈ spliceFrom line cursor spans) : c ∈ line ∨ c ∈ placeholder := by
  induction spans generalizing cursor with
  | nil => exact .inl (mem_of_mem_drop h)
  | cons span spans ih =>
    obtain ⟨start, stop⟩ := span
    rw [spliceFrom] at h
    by_cases hskip : start < cursor
    · rw [if_pos hskip] at h
      exact ih h
    · rw [if_neg hskip] at h
      simp only [mem_append] at h
      rcases h with ((h | h) | h) | h
      · exact .inl (mem_of_mem_slice h)
      · exact .inr h
      · exact .inl (mem_of_mem_slice h)
      · exact ih h

theorem mem_redactLastToken (h : c ∈ redactLastToken line force) : c ∈ line ∨ c ∈ placeholder := by
  unfold redactLastToken at h
  split at h
  · dsimp only at h
    split at h
    · simp only [mem_append] at h
      rcases h with (h | h) | h
      · exact .inl (mem_of_mem_take h)
      · exact .inr h
      · exact .inl (mem_of_mem_drop (mem_of_mem_drop h))
    · exact .inl h
  · split at h
    · exact .inr h
    · exact .inl h

theorem mem_redactAfterColon (h : c ∈ redactAfterColon line force) :
    c ∈ line ∨ c ∈ placeholder := by
  unfold redactAfterColon at h
  split at h
  · split at h
    · exact (mem_append.mp h).imp mem_of_mem_take id
    · exact mem_redactLastToken h
  · exact mem_redactLastToken h

theorem mem_redactAfterEquals (h : c ∈ redactAfterEquals line force) :
    c ∈ line ∨ c ∈ placeholder := by
  unfold redactAfterEquals at h
  split at h
  · split at h
    · exact (mem_append.mp h).imp mem_of_mem_take id
    · exact mem_redactAfterColon h
  · exact mem_redactAfterColon h

theorem mem_redactValueSpan (h : c ∈ redactValueSpan line force) : c ∈ line ∨ c ∈ placeholder := by
  unfold redactValueSpan at h
  split at h
  · exact mem_redactAfterEquals h
  · exact mem_spliceFrom h

theorem mem_redactLine (h : c ∈ redactLine line) :
    c ∈ line ∨ c ∈ placeholder := by
  unfold redactLine at h
  split at h
  · rcases mem_append.mp h with h | h
    · exact (mem_redactValueSpan h).imp_left mem_of_mem_take
    · exact .inl (mem_of_mem_drop h)
  · exact mem_redactValueSpan h

theorem mem_scanPlain {trimmed : Text}
    (hout : out ∈ (scanner.scanPlain line trimmed).2) (hc : c ∈ out) :
    c ∈ line ∨ c ∈ placeholder := by
  unfold Scanner.scanPlain at hout
  split at hout
  · split at hout
    · exact .inl (mem_singleton.mp hout ▸ hc)
    · exact absurd hout not_mem_nil
  · split at hout
    · rcases mem_cons.mp hout with rfl | hout
      · exact .inl hc
      · exact .inr (mem_singleton.mp hout ▸ hc)
    · split at hout <;> exact mem_redactLine (mem_singleton.mp hout ▸ hc)

theorem mem_scanLine
    (hout : out ∈ (scanner.scanLine line).2) (hc : c ∈ out) : c ∈ line ∨ c ∈ placeholder := by
  unfold Scanner.scanLine at hout
  dsimp only at hout
  split at hout
  · exact mem_scanPlain hout hc
  · split at hout
    · exact mem_scanPlain hout hc
    · split at hout
      · exact mem_redactLine (mem_singleton.mp hout ▸ hc)
      · split at hout
        · exact .inl (mem_singleton.mp hout ▸ hc)
        · rw [mem_singleton] at hout
          rw [hout] at hc
          exact (mem_append.mp hc).imp mem_of_mem_take id

/-- What holds of the characters of the lines and of the placeholder holds of those of the lines a
scanner gives. -/
theorem forall_mem_scanLines {p : Char → Prop} (hplaceholder : ∀ c ∈ placeholder, p c)
    {lines : List Text} (hlines : ∀ line ∈ lines, ∀ c ∈ line, p c) (scanner : Scanner) :
    ∀ out ∈ (scanner.scanLines lines).2, ∀ c ∈ out, p c := by
  induction lines generalizing scanner with
  | nil =>
    intro out hout
    exact absurd hout not_mem_nil
  | cons line lines ih =>
    intro out hout c hc
    rw [Scanner.scanLines, mem_append] at hout
    rcases hout with hout | hout
    · rcases mem_scanLine hout hc with hline | hmark
      · exact hlines line (.head _) c hline
      · exact hplaceholder c hmark
    · exact ih (fun l hl => hlines l (.tail _ hl)) _ out hout c hc

end Mecmcp.Redact
