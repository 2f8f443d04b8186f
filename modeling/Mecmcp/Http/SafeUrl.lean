import Mecmcp.Lib.Text

/-!
# SafeUrl — URLs in error messages

`SafeUrl::from_unparsed` cuts a text at its first `?` or `#` and then hides what stands before the
last `@` of the rest.  What follows the cut is never shown.  A credential with a `?` or `#` in it
loses its `@` to the cut, and its beginning is shown (`unparsed_url_hides_iff`).
-/

namespace Mecmcp.Http

open List

/-- `CREDENTIAL_BEARING_DELIMITERS`. -/
def isCredentialBearing (c : Char) : Bool := c == '?' || c == '#'

def redactedMark : Text := "[redacted]".toList

/-- The text before the cut, from its last `@` on. -/
def renderHead (head : Text) : Text :=
  match rfindChar (· == '@') head with
  | some pos => redactedMark ++ head.drop pos
  | none => head

/-- `SafeUrl::from_unparsed`. -/
def fromUnparsed (raw : Text) : Text :=
  match findChar isCredentialBearing raw with
  | some cut => renderHead (raw.take cut) ++ redactedMark
  | none => renderHead raw

/-! ### The two steps -/

theorem renderHead_last {back : Text} (hback : '@' ∉ back) (front : Text) :
    renderHead (front ++ '@' :: back) = redactedMark ++ '@' :: back := by
  have hfind : rfindChar (· == '@') (front ++ '@' :: back) = some front.length :=
    rfindChar_append_cons (beq_eq_false_of_not_mem hback) rfl front
  rw [renderHead, hfind]
  simp only [drop_left]

theorem renderHead_plain {head : Text} (h : '@' ∉ head) : renderHead head = head := by
  rw [renderHead, rfindChar_eq_none (beq_eq_false_of_not_mem h)]

theorem fromUnparsed_cut {front : Text} (hfront : ∀ c ∈ front, isCredentialBearing c = false)
    {d : Char} (hd : isCredentialBearing d = true) (tail : Text) :
    fromUnparsed (front ++ d :: tail) = renderHead front ++ redactedMark := by
  rw [fromUnparsed, findChar_append_cons hfront hd]
  simp only [take_left]

theorem fromUnparsed_behind {start front : Text} (hstart : ∀ c ∈ start, isCredentialBearing c = false)
    (hfront : ∀ c ∈ front, isCredentialBearing c = false) {d : Char}
    (hd : isCredentialBearing d = true) (tail rest : Text) :
    fromUnparsed (start ++ (front ++ d :: tail ++ rest)) =
      renderHead (start ++ front) ++ redactedMark := by
  rw [append_assoc, ← append_assoc, cons_append]
  exact fromUnparsed_cut (fun c hc => (mem_append.mp hc).elim (hstart c) (hfront c)) hd _

theorem takeWhile_cut {front : Text} (hfront : ∀ c ∈ front, isCredentialBearing c = false)
    {d : Char} (hd : isCredentialBearing d = true) (tail : Text) :
    (front ++ d :: tail).takeWhile (!isCredentialBearing ·) = front := by
  rw [takeWhile_append_of_pos (by simpa using hfront), takeWhile_cons_of_neg (by simp [hd]),
    append_nil]

theorem fromUnparsed_plain {raw : Text} (h : ∀ c ∈ raw, isCredentialBearing c = false) :
    fromUnparsed raw = renderHead raw := by
  rw [fromUnparsed, findChar_eq_none h]

/-- A text has no delimiter, or a first one. -/
theorem delimiter_cases (text : Text) : (∀ c ∈ text, isCredentialBearing c = false) ∨
    ∃ front d tail, text = front ++ d :: tail ∧ isCredentialBearing d = true ∧
      ∀ c ∈ front, isCredentialBearing c = false := by
  rcases hdrop : text.dropWhile (!isCredentialBearing ·) with _ | ⟨d, tail⟩
  · exact .inl (by simpa using hdrop)
  · have hne : text.dropWhile (!isCredentialBearing ·) ≠ [] := by simp [hdrop]
    have hd := head_dropWhile_not (!isCredentialBearing ·) hne
    refine .inr ⟨text.takeWhile (!isCredentialBearing ·), d, tail, ?_, ?_, fun c hc => ?_⟩
    · rw [← hdrop, takeWhile_append_dropWhile]
    · simpa [hdrop] using hd
    · simpa using mem_takeWhile_imp hc

theorem fromUnparsed_at {text text' H : Text} (htext : ∀ c ∈ text, isCredentialBearing c = false)
    (htext' : ∀ c ∈ text', isCredentialBearing c = false) (hH : '@' ∉ H) :
    fromUnparsed (text ++ '@' :: H) = fromUnparsed (text' ++ '@' :: H) := by
  have hfront : ∀ front, (∀ c ∈ front, isCredentialBearing c = false) → ∀ start : Text,
      (∀ c ∈ start, isCredentialBearing c = false) →
      ∀ c ∈ start ++ '@' :: front, isCredentialBearing c = false := by
    intro front hfront start hstart
    simpa [or_imp, forall_and] using ⟨hstart, rfl, hfront⟩
  rcases delimiter_cases H with hplain | ⟨front, d, tail, rfl, hd, hcut⟩
  · rw [fromUnparsed_plain (hfront H hplain text htext),
      fromUnparsed_plain (hfront H hplain text' htext'), renderHead_last hH, renderHead_last hH]
  · have hat : '@' ∉ front := fun hmem => hH (mem_append_left _ hmem)
    rw [← cons_append, ← append_assoc, ← append_assoc,
      fromUnparsed_cut (hfront front hcut text htext) hd,
      fromUnparsed_cut (hfront front hcut text' htext') hd, renderHead_last hat, renderHead_last hat]

/-- The texts are the same, or the same from their last `@` on. -/
def SameShown (front front' : Text) : Prop :=
  front = front' ∨ ∃ init init' back, front = init ++ '@' :: back ∧ front' = init' ++ '@' :: back ∧
    '@' ∉ back

theorem renderHead_eq_iff {front front' : Text} :
    renderHead front = renderHead front' ↔ SameShown front front' := by
  constructor
  · intro h
    have hmark : ∀ back : Text, '@' ∈ redactedMark ++ '@' :: back := by simp
    by_cases hat : '@' ∈ front
    · obtain ⟨init, back, rfl, hback⟩ := exists_last hat
      rw [renderHead_last hback] at h
      by_cases hat' : '@' ∈ front'
      · obtain ⟨init', back', rfl, hback'⟩ := exists_last hat'
        rw [renderHead_last hback', append_cancel_left_eq, cons.injEq] at h
        exact .inr ⟨init, init', back, rfl, by rw [h.2], hback⟩
      · exact absurd (h ▸ hmark back) (by rwa [renderHead_plain hat'])
    · rw [renderHead_plain hat] at h
      by_cases hat' : '@' ∈ front'
      · obtain ⟨init', back', rfl, hback'⟩ := exists_last hat'
        rw [renderHead_last hback'] at h
        exact absurd (h ▸ hmark back') hat
      · exact .inl (h.trans (renderHead_plain hat'))
  · rintro (rfl | ⟨init, init', back, rfl, rfl, hback⟩)
    · rfl
    · rw [renderHead_last hback, renderHead_last hback]

/-- What stands before the texts and has no `@` decides nothing. -/
theorem sameShown_append {start : Text} (hstart : '@' ∉ start) {front front' : Text} :
    SameShown (start ++ front) (start ++ front') ↔ SameShown front front' := by
  constructor
  · rintro (h | ⟨init, init', back, hfront, hfront', hback⟩)
    · exact .inl (append_cancel_left h)
    · -- the last `@` lies behind `start`
      have hsplit : ∀ {text init : Text}, start ++ text = init ++ '@' :: back →
          ∃ init, text = init ++ '@' :: back := by
        intro text init h
        rcases append_eq_append_iff.mp h with ⟨mid, rfl, rfl⟩ | ⟨mid, rfl, hmid⟩
        · exact ⟨mid, rfl⟩
        · rcases mid with _ | ⟨c, mid⟩
          · exact ⟨[], hmid.symm⟩
          · rw [cons_append, cons.injEq] at hmid
            exact absurd (by simp [← hmid.1]) hstart
      obtain ⟨init, rfl⟩ := hsplit hfront
      obtain ⟨init', rfl⟩ := hsplit hfront'
      exact .inr ⟨init, init', back, rfl, rfl, hback⟩
  · rintro (rfl | ⟨init, init', back, rfl, rfl, hback⟩)
    · exact .inl rfl
    · exact .inr ⟨start ++ init, start ++ init', back, by simp, by simp, hback⟩

/-- **Two credentials in an unparsed URL.**  If both or neither contain a `?` or `#`, the messages
agree exactly if the text before the credential has one, or the credentials have none, or their
parts before the first one are the same, or both have an `@` there and are the same from the last
`@` on.  A message shows a part of the text before the first `?` or `#`, and nothing from there
on. -/
theorem unparsed_url_hides_iff (S H U U' : Text) (hS : '@' ∉ S) (hH : '@' ∉ H)
    (hagree : U.any isCredentialBearing = U'.any isCredentialBearing) :
    (fromUnparsed (S ++ (U ++ '@' :: H)) = fromUnparsed (S ++ (U' ++ '@' :: H)) ↔
      S.any isCredentialBearing = true ∨ U.any isCredentialBearing = false ∨
        SameShown (U.takeWhile (!isCredentialBearing ·)) (U'.takeWhile (!isCredentialBearing ·))) ∧
    ∀ front d tail, (∀ c ∈ front, isCredentialBearing c = false) → isCredentialBearing d = true →
      ∃ shown, shown <:+ front ∧ (fromUnparsed (front ++ d :: tail) = shown ++ redactedMark ∨
        fromUnparsed (front ++ d :: tail) = redactedMark ++ shown ++ redactedMark) := by
  refine ⟨?_, fun front d tail hfront hd => ?_⟩
  · rcases delimiter_cases S with hplain | ⟨front, d, tail, rfl, hd, hfront⟩
    · have hS' : S.any isCredentialBearing = false := by simpa using hplain
      rcases delimiter_cases U with hU | ⟨front, d, tail, rfl, hd, hfront⟩
      · have hnone : U.any isCredentialBearing = false := by simpa using hU
        have hU' : ∀ c ∈ U', isCredentialBearing c = false := by simpa [hnone] using hagree.symm
        refine iff_of_true ?_ (.inr (.inl hnone))
        rw [← append_assoc, ← append_assoc]
        refine fromUnparsed_at ?_ ?_ hH <;> simpa [or_imp, forall_and] using ⟨hplain, by assumption⟩
      · rcases delimiter_cases U' with hU' | ⟨front', d', tail', rfl, hd', hfront'⟩
        · have hnone : U'.any isCredentialBearing = false := by simpa using hU'
          simp [hnone, hd] at hagree
        · rw [fromUnparsed_behind hplain hfront hd, fromUnparsed_behind hplain hfront' hd',
            takeWhile_cut hfront hd, takeWhile_cut hfront' hd', append_cancel_right_eq,
            renderHead_eq_iff, sameShown_append hS, hS']
          simp [hd]
    · simp [fromUnparsed_cut hfront hd, hd]
  · rw [fromUnparsed_cut hfront hd]
    by_cases hat : '@' ∈ front
    · obtain ⟨init, back, rfl, hback⟩ := exists_last hat
      exact ⟨'@' :: back, suffix_append _ _, .inr (by rw [renderHead_last hback])⟩
    · exact ⟨front, suffix_rfl, .inl (by rw [renderHead_plain hat])⟩

/-- Without a `?` or `#` in it a password is hidden. -/
theorem unparsed_url_hides_password :
    fromUnparsed "https://u:a@h/".toList = fromUnparsed "https://u:b@h/".toList :=
  (unparsed_url_hides_iff "https://".toList "h/".toList "u:a".toList "u:b".toList (by decide)
    (by decide) (by decide)).1.mpr (.inr (.inl (by decide)))

/-- A password with a `?` in it is shown up to there. -/
theorem unparsed_url_shows_password :
    fromUnparsed "https://u:a?@h/".toList = "https://u:a[redacted]".toList ∧
      fromUnparsed "https://u:b?@h/".toList = "https://u:b[redacted]".toList := by decide

end Mecmcp.Http
