import Mecmcp.Openapi.ExpandPath

/-!
# PathShape — a parameter never changes the shape of a request

The bytes of a rendered path are followed through any number of rounds of percent-decoding, each
with a mark that says whether it is a byte of the template.  The check of `expand_path` decodes
with another hexadecimal parser, replaces what is not UTF-8 after every round and stops after four
rounds.  Its decoder agrees with the byte-wise one unless a control character appears
(`checked_eq_or_control`), replacing what is not UTF-8 does not touch the ASCII bytes, and a round
that changes nothing is a fixed point, so four rounds speak for every depth
(`decodeRounds_sound`).
-/

namespace Mecmcp.Openapi

open List

variable {byte digit high low percent : UInt8} {text text' name template : Bytes} {utf8 : LossyUtf8}
  {marked front segment : List MarkedByte} {params : List (Bytes × Bytes)}
  {expansions : List Expansion} {offset : ℕ} {symbol : MarkedByte}

/-! ### Byte-wise decoding -/

/-- `%` and two hexadecimal digits. -/
def plainEscape (percent high low : UInt8) : Option UInt8 :=
  if percent = 37 then
    match hexDigit high, hexDigit low with
    | some h, some l => some (h * 16 + l)
    | _, _ => none
  else none

def percentDecode : Bytes → Bytes := unescape plainEscape

theorem hexDigit_lt (h : hexDigit byte = some digit) :
    byte < 128 ∧ digit < 16 ∧ byte ≠ 47 := by
  unfold hexDigit at h
  simp only [Bool.and_eq_true, decide_eq_true_eq] at h
  grind

theorem fromStrRadix_readable (h : fromStrRadix high low = some byte) :
    high < 128 ∧ low < 128 := by
  unfold fromStrRadix at h
  split at h
  · next hplus => exact ⟨by rw [hplus]; decide, (hexDigit_lt h).1⟩
  · rcases hhigh : hexDigit high with _ | digit
    · simp [hhigh] at h
    rcases hlow : hexDigit low with _ | digit'
    · simp [hhigh, hlow] at h
    exact ⟨(hexDigit_lt hhigh).1, (hexDigit_lt hlow).1⟩

theorem plainEscape_eq_some (h : plainEscape percent high low = some byte) :
    percent = 37 ∧ ∃ hi lo, hexDigit high = some hi ∧ hexDigit low = some lo := by
  unfold plainEscape at h
  split at h
  · next hpercent =>
    rcases hhigh : hexDigit high with _ | hi
    · simp [hhigh] at h
    rcases hlow : hexDigit low with _ | lo
    · simp [hhigh, hlow] at h
    exact ⟨hpercent, hi, lo, rfl, rfl⟩
  · simp at h

/-- The escapes of the check are those of byte-wise decoding and `%+` with a digit, which is a
control character. -/
theorem checkedEscape_cases (percent high low : UInt8) :
    checkedEscape percent high low = plainEscape percent high low ∨
      ∃ byte, checkedEscape percent high low = some byte ∧ isAsciiControl byte = true := by
  unfold checkedEscape plainEscape
  by_cases hpercent : percent = 37
  · rw [if_pos hpercent, if_pos hpercent, fromStrRadix]
    by_cases hplus : high = 43
    · rw [if_pos hplus, hplus]
      have hnone : hexDigit 43 = none := by decide
      rw [hnone]
      rcases hlow : hexDigit low with _ | byte
      · exact Or.inl rfl
      · refine Or.inr ⟨byte, rfl, ?_⟩
        have hlt := (hexDigit_lt hlow).2.1
        have h32 : byte < 32 := by grind
        simp [isAsciiControl, h32]
    · rw [if_neg hplus]
      exact Or.inl rfl
  · rw [if_neg hpercent, if_neg hpercent]
    exact Or.inl rfl

theorem checkedEscape_of_plain (h : plainEscape percent high low = some byte) :
    checkedEscape percent high low = some byte := by
  obtain ⟨hpercent, hi, lo, hhigh, hlow⟩ := plainEscape_eq_some h
  have hplus : high ≠ 43 := by
    rintro rfl
    have hnone : hexDigit 43 = none := by decide
    simp [hnone] at hhigh
  rw [plainEscape, if_pos hpercent] at h
  rw [checkedEscape, if_pos hpercent, fromStrRadix, if_neg hplus]
  exact h

theorem checkedEscape_readable (h : checkedEscape percent high low = some byte) :
    percent < 128 ∧ high < 128 ∧ low < 128 := by
  unfold checkedEscape at h
  split at h
  · next hpercent => exact ⟨by rw [hpercent]; decide, fromStrRadix_readable h⟩
  · simp at h

theorem checked_eq_or_control (text : Bytes) :
    unescape checkedEscape text = percentDecode text ∨
      ∃ byte ∈ unescape checkedEscape text, isAsciiControl byte = true := by
  induction text using @unescape_induction _ checkedEscape with
  | nil => exact Or.inl rfl
  | escaped x y z b rest hb ih =>
    rw [unescape_of_some hb]
    rcases checkedEscape_cases x y z with hplain | ⟨byte, hbyte, hcontrol⟩
    · rw [percentDecode, unescape_of_some (hplain ▸ hb)]
      rcases ih with heq | ⟨byte, hmem, hcontrol⟩
      · exact Or.inl (by rw [heq, percentDecode])
      · exact Or.inr ⟨byte, mem_cons_of_mem _ hmem, hcontrol⟩
    · cases hb.symm.trans hbyte
      exact Or.inr ⟨b, mem_cons_self, hcontrol⟩
  | kept x rest hnone ih =>
    have hplain : ∀ y z more, rest = y :: z :: more → plainEscape x y z = none := by
      intro y z more hrest
      rcases hb : plainEscape x y z with _ | b
      · rfl
      · rw [← checkedEscape_of_plain hb, hnone y z more hrest]
    rw [unescape_cons hnone, percentDecode, unescape_cons hplain]
    rcases ih with heq | ⟨byte, hmem, hcontrol⟩
    · exact Or.inl (by rw [heq, percentDecode])
    · exact Or.inr ⟨byte, mem_cons_of_mem _ hmem, hcontrol⟩

/-! ### The ASCII bytes -/

/-- The escapes of the check, on bytes with the unreadable ones forgotten. -/
def skeletonEscape : Option UInt8 → Option UInt8 → Option UInt8 → Option (Option UInt8)
  | some percent, some high, some low => (checkedEscape percent high low).map asciiByte
  | _, _, _ => none

theorem asciiByte_of_lt (h : byte < 128) : asciiByte byte = some byte := if_pos h

theorem skeletonEscape_asciiByte (percent high low : UInt8) :
    skeletonEscape (asciiByte percent) (asciiByte high) (asciiByte low) =
      (checkedEscape percent high low).map asciiByte := by
  rcases hb : checkedEscape percent high low with _ | byte
  · -- no escape: forgetting a byte does not make one
    unfold asciiByte
    split <;> split <;> split <;> simp [skeletonEscape, hb]
  · obtain ⟨hpercent, hhigh, hlow⟩ := checkedEscape_readable hb
    rw [asciiByte_of_lt hpercent, asciiByte_of_lt hhigh, asciiByte_of_lt hlow, skeletonEscape, hb]

theorem skeletonEscape_readable {x y z : Option UInt8} {b : Option UInt8}
    (h : skeletonEscape x y z = some b) : x.isSome ∧ y.isSome ∧ z.isSome := by
  unfold skeletonEscape at h
  split at h
  · exact ⟨rfl, rfl, rfl⟩
  · simp at h

theorem asciiSkeleton_unescape (text : Bytes) :
    asciiSkeleton (unescape checkedEscape text) =
      collapse (unescape skeletonEscape (asciiSkeleton text)) := by
  rw [asciiSkeleton, map_unescape skeletonEscape_asciiByte,
    collapse_unescape (fun _ _ _ _ => skeletonEscape_readable), asciiSkeleton]

theorem mem_iff_mem_asciiSkeleton (hbyte : byte < 128) :
    byte ∈ text ↔ some byte ∈ asciiSkeleton text := by
  rw [asciiSkeleton, some_mem_collapse, mem_map]
  constructor
  · exact fun hmem => ⟨byte, hmem, asciiByte_of_lt hbyte⟩
  · rintro ⟨byte', hmem, heq⟩
    unfold asciiByte at heq
    split at heq
    · exact Option.some.inj heq ▸ hmem
    · simp at heq

theorem countP_asciiSkeleton (text : Bytes) :
    (asciiSkeleton text).countP Option.isSome = text.countP (fun byte => decide (byte < 128)) := by
  rw [asciiSkeleton, countP_collapse, countP_map]
  congr 1
  funext byte
  by_cases h : byte < 128 <;> simp [asciiByte, h]

theorem eq_of_asciiSkeleton_eq {ascii : Bytes} (hascii : ∀ byte ∈ ascii, byte < 128)
    (h : asciiSkeleton text = asciiSkeleton ascii) : text = ascii := by
  have hmap : ascii.map asciiByte = ascii.map some :=
    map_congr_left fun byte hmem => asciiByte_of_lt (hascii byte hmem)
  have hsome : ∀ symbols : Bytes, collapse (symbols.map some) = symbols.map some := by
    intro symbols
    induction symbols with
    | nil => rfl
    | cons symbol rest ih => rw [map_cons, collapse_cons, consRun_some, ih]
  rw [asciiSkeleton, asciiSkeleton, hmap, hsome] at h
  have htext := collapse_eq_map_some h
  clear h hmap
  induction text generalizing ascii with
  | nil =>
    rcases ascii with _ | ⟨byte, rest⟩
    · rfl
    · simp at htext
  | cons byte text ih =>
    rcases ascii with _ | ⟨byte', rest⟩
    · simp at htext
    · rw [map_cons, map_cons] at htext
      obtain ⟨hhead, htail⟩ := List.cons.inj htext
      have hbyte : byte = byte' := by
        unfold asciiByte at hhead
        split at hhead
        · exact Option.some.inj hhead
        · simp at hhead
      rw [hbyte, ih (fun byte hmem => hascii byte (.tail _ hmem)) htail]

theorem isStructural_lt (h : isStructural byte = true) : byte < 128 := by
  simp only [isStructural, isAsciiControl, Bool.or_eq_true, beq_iff_eq, decide_eq_true_eq] at h
  grind

theorem structural_congr (h : asciiSkeleton text = asciiSkeleton text')
    (hnone : ∀ byte ∈ text', isStructural byte = false) :
    ∀ byte ∈ text, isStructural byte = false := by
  intro byte hmem
  by_contra hstructural
  have hstructural' : isStructural byte = true := by simpa using hstructural
  have hlt := isStructural_lt hstructural'
  rw [mem_iff_mem_asciiSkeleton hlt, h, ← mem_iff_mem_asciiSkeleton hlt] at hmem
  exact hstructural (hnone byte hmem)

theorem relative_congr (h : asciiSkeleton text = asciiSkeleton text')
    (hnone : isRelative text' = false) : isRelative text = false := by
  by_contra hrel
  have hascii : ∀ byte ∈ text, byte < 128 := by
    simp only [isRelative, Bool.not_eq_false, Bool.or_eq_true, beq_iff_eq] at hrel
    rcases hrel with rfl | rfl <;> simp
  rw [eq_of_asciiSkeleton_eq hascii h.symm] at hnone
  exact hrel hnone

/-! ### Every depth -/

/-- Nothing in the text changes the shape of a request. -/
def Harmless (text : Bytes) : Prop :=
  (∀ byte ∈ text, isStructural byte = false) ∧ isRelative text = false

/-- **Four rounds speak for all.**  A text the check lets pass is left alone by decoding, or
harmless after every number of rounds. -/
theorem decodeRounds_sound {rounds : ℕ} {current : Bytes}
    (h : decodeRounds utf8 name rounds current = none)
    (hskel : asciiSkeleton text = asciiSkeleton current) :
    percentDecode text = text ∨ ∀ n, Harmless (percentDecode^[n + 1] text) := by
  induction rounds generalizing current text with
  | zero => simp [decodeRounds] at h
  | succ rounds ih =>
    rw [decodeRounds] at h
    have hdecoded : asciiSkeleton (unescape checkedEscape text) =
        asciiSkeleton (percentDecodeLossy utf8 current) := by
      rw [percentDecodeLossy, utf8.keepsAscii, asciiSkeleton_unescape, asciiSkeleton_unescape,
        hskel]
    by_cases hsame : percentDecodeLossy utf8 current = current
    · -- no ASCII byte went away, so there was no escape
      left
      have hcount := congrArg (List.countP Option.isSome) (hdecoded.trans (by rw [hsame, ← hskel]))
      rw [countP_asciiSkeleton, countP_asciiSkeleton] at hcount
      have hread : ∀ x y z b, checkedEscape x y z = some b →
          decide (x < 128) ∧ decide (y < 128) ∧ decide (z < 128) := by
        intro x y z b hb
        simpa using checkedEscape_readable hb
      exact unescape_eq_self_of_le (fun _ _ _ _ => checkedEscape_of_plain) hread
        ((countP_unescape hread text).2 hcount)
    · right
      rw [if_neg hsame] at h
      rcases hfind : (percentDecodeLossy utf8 current).find? isStructural with _ | byte
      · rw [hfind] at h
        have hnone : ∀ byte ∈ percentDecodeLossy utf8 current, isStructural byte = false := by
          simpa using find?_eq_none.mp hfind
        by_cases hrel : isRelative (percentDecodeLossy utf8 current) = true
        · simp [hrel] at h
        · simp only [hrel] at h
          have hclean := structural_congr hdecoded hnone
          have heq : unescape checkedEscape text = percentDecode text := by
            rcases checked_eq_or_control text with heq | ⟨byte, hmem, hcontrol⟩
            · exact heq
            · exact absurd (hclean byte hmem) (by simp [isStructural, hcontrol])
          have hfirst : Harmless (percentDecode text) :=
            heq ▸ ⟨hclean, relative_congr hdecoded (by simpa using hrel)⟩
          intro n
          rcases ih h (heq ▸ hdecoded) with hfix | hall
          · rw [Function.iterate_succ_apply, Function.iterate_fixed hfix]
            exact hfirst
          · rcases n with _ | n
            · exact hfirst
            · rw [Function.iterate_succ_apply]
              exact hall n
      · simp [hfind] at h

/-! ### Encoded values -/

theorem isStructural_of_isUnreserved (h : isUnreserved byte = true) :
    isStructural byte = false ∧ byte ≠ 37 := by
  simp only [isUnreserved, isAsciiAlphanumeric, Bool.or_eq_true, Bool.and_eq_true, beq_iff_eq,
    decide_eq_true_eq] at h
  simp only [isStructural, isAsciiControl, Bool.or_eq_false_iff, beq_eq_false_iff_ne,
    decide_eq_false_iff_not]
  rcases h with ((((⟨hlo, hhi⟩ | ⟨hlo, hhi⟩) | ⟨hlo, hhi⟩) | rfl) | rfl | rfl) | rfl
  all_goals grind

theorem upperHex_spec (h : digit < 16) :
    hexDigit (upperHex digit) = some digit ∧ isUnreserved (upperHex digit) = true := by
  have hall : ∀ n : Fin 16, hexDigit (upperHex (UInt8.ofNat n)) = some (UInt8.ofNat n) ∧
      isUnreserved (upperHex (UInt8.ofNat n)) = true := by decide
  have hn : digit.toNat < 16 := h
  have hdigit := hall ⟨digit.toNat, hn⟩
  simpa using hdigit

theorem div_sixteen_lt (byte : UInt8) : byte / 16 < 16 := by
  rw [UInt8.lt_iff_toNat_lt, UInt8.toNat_div]
  have hbyte := byte.toNat_lt
  have h16 : (16 : UInt8).toNat = 16 := rfl
  rw [h16]
  omega

theorem mod_sixteen_lt (byte : UInt8) : byte % 16 < 16 := by
  rw [UInt8.lt_iff_toNat_lt, UInt8.toNat_mod]
  have h16 : (16 : UInt8).toNat = 16 := rfl
  rw [h16]
  omega

theorem plainEscape_upperHex (byte : UInt8) :
    plainEscape 37 (upperHex (byte / 16)) (upperHex (byte % 16)) = some byte := by
  have hbyte : byte / 16 * 16 + byte % 16 = byte := by
    have hlt := byte.toNat_lt
    have h16 : (16 : UInt8).toNat = 16 := rfl
    rw [← UInt8.toNat_inj]
    simp only [UInt8.toNat_add, UInt8.toNat_mul, UInt8.toNat_div, UInt8.toNat_mod, h16]
    omega
  rw [plainEscape, if_pos rfl, (upperHex_spec (div_sixteen_lt byte)).1,
    (upperHex_spec (mod_sixteen_lt byte)).1]
  simp only [hbyte]

theorem mem_encodeByte {b : UInt8} (h : b ∈ encodeByte byte) : isStructural b = false := by
  unfold encodeByte at h
  split at h
  · next hunreserved =>
    rw [mem_singleton.mp h]
    exact (isStructural_of_isUnreserved hunreserved).1
  · simp only [mem_cons, not_mem_nil, or_false] at h
    rcases h with rfl | rfl | rfl
    · decide
    · exact (isStructural_of_isUnreserved (upperHex_spec (div_sixteen_lt byte)).2).1
    · exact (isStructural_of_isUnreserved (upperHex_spec (mod_sixteen_lt byte)).2).1

theorem percentDecode_encodeByte (byte : UInt8) (rest : Bytes) :
    percentDecode (encodeByte byte ++ rest) = byte :: percentDecode rest := by
  unfold encodeByte
  split
  · next hunreserved =>
    refine unescape_cons fun high low more _ => ?_
    rw [plainEscape, if_neg (isStructural_of_isUnreserved hunreserved).2]
  · exact unescape_of_some (plainEscape_upperHex byte)

theorem percentDecode_encode (value : Bytes) :
    percentDecode (value.flatMap encodeByte) = value := by
  induction value with
  | nil => rfl
  | cons byte rest ih => rw [flatMap_cons, percentDecode_encodeByte, ih]

/-- What a rendered value is known to be. -/
structure Encoded (value encoded : Bytes) : Prop where
  decodes : percentDecode encoded = value
  nonempty : encoded ≠ []
  plain : ∀ byte ∈ encoded, isStructural byte = false
  notRelative : isRelative encoded = false

theorem encodeSegment_encoded {value encoded : Bytes}
    (h : encodeSegment utf8 name value = .ok encoded) : Encoded value encoded := by
  unfold encodeSegment at h
  split at h
  · simp at h
  next hempty =>
  split at h
  · simp at h
  next hrel =>
  split at h
  · simp at h
  split at h
  · simp at h
  cases h
  refine ⟨percentDecode_encode value, fun hnil => hempty ?_, ?_, ?_⟩
  · rw [← percentDecode_encode value, hnil]
    rfl
  · intro b hb
    obtain ⟨byte, -, hbyte⟩ := mem_flatMap.mp hb
    exact mem_encodeByte hbyte
  · by_contra hdots
    apply hrel
    simp only [isRelative, Bool.not_eq_false, Bool.or_eq_true, beq_iff_eq] at hdots
    rw [← percentDecode_encode value]
    rcases hdots with heq | heq <;> rw [heq] <;> decide

/-! ### Bytes with their origin -/

/-- A byte of a rendered path, and whether it is one of the template's own. -/
structure MarkedByte where
  byte : UInt8
  literal : Bool
  deriving DecidableEq, Repr

def literalByte (byte : UInt8) : MarkedByte := ⟨byte, true⟩

def insertedByte (byte : UInt8) : MarkedByte := ⟨byte, false⟩

def markedEscape (percent high low : MarkedByte) : Option MarkedByte :=
  (plainEscape percent.byte high.byte low.byte).map insertedByte

/-- One round of byte-wise percent-decoding, with the origin of what is kept. -/
def decodeMarked : List MarkedByte → List MarkedByte := unescape markedEscape

theorem map_byte_decodeMarked (marked : List MarkedByte) :
    (decodeMarked marked).map MarkedByte.byte = percentDecode (marked.map MarkedByte.byte) := by
  refine map_unescape (fun percent high low => ?_) marked
  rw [markedEscape, Option.map_map]
  exact Option.map_id'.symm

theorem map_byte_iterate (n : ℕ) (marked : List MarkedByte) :
    (decodeMarked^[n] marked).map MarkedByte.byte =
      percentDecode^[n] (marked.map MarkedByte.byte) := by
  induction n generalizing marked with
  | zero => rfl
  | succ n ih =>
    rw [Function.iterate_succ_apply, Function.iterate_succ_apply, ih, map_byte_decodeMarked]

theorem decodeMarked_eq_self
    (h : percentDecode (marked.map MarkedByte.byte) = marked.map MarkedByte.byte) :
    decodeMarked marked = marked := by
  have hread : ∀ x y z b, markedEscape x y z = some b →
      decide (x.byte < 128) ∧ decide (y.byte < 128) ∧ decide (z.byte < 128) := by
    intro x y z b hb
    obtain ⟨byte, hbyte, -⟩ := Option.map_eq_some_iff.mp hb
    simpa using checkedEscape_readable (checkedEscape_of_plain hbyte)
  refine (@countP_unescape _ _ (fun x => decide (x.byte < 128)) hread marked).2 ?_
  have hcount := congrArg (List.countP fun byte => decide (byte < 128))
    ((map_byte_decodeMarked marked).trans h)
  rw [countP_map, countP_map] at hcount
  exact hcount

/-- What a template and its parameters stand for: the text of the template with the encoded values
in the place of the placeholders. -/
inductive Renders (encodes : Bytes → Bytes → Prop) (params : List (Bytes × Bytes)) :
    Bytes → List MarkedByte → Prop
  | text {text : Bytes} (hopen : 123 ∉ text) (hclose : 125 ∉ text) :
    Renders encodes params text (text.map literalByte)
  | placeholder {text name value encoded rest : Bytes} {marked : List MarkedByte}
    (hopen : 123 ∉ text) (hclose : 125 ∉ text) (hname : 123 ∉ name ∧ 125 ∉ name)
    (hvalue : (params.find? fun param => param.1 == name).map Prod.snd = some value)
    (hencodes : encodes value encoded) (hrest : Renders encodes params rest marked) :
    Renders encodes params (text ++ 123 :: (name ++ 125 :: rest))
      (text.map literalByte ++ (encoded.map insertedByte ++ marked))

theorem Renders.mono {encodes encodes' : Bytes → Bytes → Prop}
    (h : Renders encodes params template marked)
    (hmono : ∀ value encoded, encodes value encoded → encodes' value encoded) :
    Renders encodes' params template marked := by
  induction h with
  | text hopen hclose => exact .text hopen hclose
  | placeholder hopen hclose hname hvalue hencodes hrest ih =>
    exact .placeholder hopen hclose hname hvalue (hmono _ _ hencodes) ih

/-- The inserted bytes of a text that begins at `offset` lie in the expansions. -/
def CoveredFrom (expansions : List Expansion) (offset : ℕ) (marked : List MarkedByte) : Prop :=
  ∀ i byte, marked[i]? = some (insertedByte byte) →
    ∃ expansion ∈ expansions, expansion.start ≤ offset + i ∧ offset + i < expansion.stop

theorem CoveredFrom.append {back : List MarkedByte} (hfront : CoveredFrom expansions offset front)
    (hback : CoveredFrom expansions (offset + front.length) back) :
    CoveredFrom expansions offset (front ++ back) := by
  intro i byte hbyte
  by_cases hi : i < front.length
  · rw [getElem?_append_left hi] at hbyte
    exact hfront i byte hbyte
  · rw [getElem?_append_right (by omega)] at hbyte
    obtain ⟨expansion, hmem, hrange⟩ := hback _ byte hbyte
    exact ⟨expansion, hmem, by omega, by omega⟩

theorem coveredFrom_literal (expansions : List Expansion) (offset : ℕ) (text : Bytes) :
    CoveredFrom expansions offset (text.map literalByte) := by
  intro i byte hbyte
  rw [getElem?_map, Option.map_eq_some_iff] at hbyte
  obtain ⟨byte', -, hbyte'⟩ := hbyte
  simp [literalByte, insertedByte] at hbyte'

theorem map_byte_literal (text : Bytes) :
    (text.map literalByte).map MarkedByte.byte = text := by
  rw [map_map]
  exact map_id' text

theorem map_byte_inserted (text : Bytes) :
    (text.map insertedByte).map MarkedByte.byte = text := by
  rw [map_map]
  exact map_id' text

/-- **The loop over the placeholders.**  It renders the rest of the template behind what is there,
and notes where every value landed. -/
theorem renderTemplate_renders {state state' : Rendering} {rest : Bytes}
    (h : renderTemplate utf8 params state rest = .ok state') :
    ∃ marked, Renders Encoded params rest marked ∧
      state'.out = state.out ++ marked.map MarkedByte.byte ∧
      (∀ expansion ∈ state.expansions, expansion ∈ state'.expansions) ∧
      CoveredFrom state'.expansions state.out.length marked := by
  fun_induction renderTemplate utf8 params state rest with
  | case1 state rest hopen hbrace => simp at h
  | case2 state rest hopen hbrace =>
    obtain rfl := Except.ok.inj h
    have hclose : 125 ∉ rest := by simpa using hbrace
    refine ⟨_, .text (splitOnce_eq_none hopen) hclose, ?_, fun _ hmem => hmem,
      coveredFrom_literal _ _ _⟩
    rw [map_byte_literal]
  | case3 => simp at h
  | case4 => simp at h
  | case5 => simp at h
  | case6 => simp at h
  | case7 => simp at h
  | case8 state rest literal after hopen hbrace name tail hclose hname param hparam encoded
      hencoded start ih =>
    obtain ⟨marked, hrenders, hout, hkeep, hcovered⟩ := ih h
    obtain ⟨rfl, hliteral⟩ := splitOnce_eq_some hopen
    obtain ⟨rfl, hname'⟩ := splitOnce_eq_some hclose
    refine ⟨_, .placeholder hliteral (by simpa using hbrace) ⟨by simpa using hname, hname'⟩
      (by rw [hparam]; rfl) (encodeSegment_encoded hencoded) hrenders, ?_, ?_, ?_⟩
    · simp only [hout, map_append, map_byte_literal, map_byte_inserted, append_assoc]
    · exact fun expansion hmem => hkeep expansion (mem_append_left _ hmem)
    · have hnew := hkeep ⟨name, start, start + encoded.length⟩ (by simp)
      have hvalue : CoveredFrom state'.expansions start (encoded.map insertedByte) := by
        intro i byte hbyte
        have hi := (List.getElem?_eq_some_iff.mp hbyte).1
        rw [length_map] at hi
        exact ⟨_, hnew, Nat.le_add_right _ _, Nat.add_lt_add_left hi _⟩
      refine (coveredFrom_literal _ _ _).append ?_
      rw [length_map]
      refine hvalue.append ?_
      rw [length_map]
      simpa [start, Nat.add_assoc] using hcovered

/-! ### Segments -/

/-- The pieces of a marked path between the slashes. -/
def markedSegments (marked : List MarkedByte) : List (List MarkedByte) :=
  marked.splitOnP fun symbol => symbol.byte == 47

theorem markedSegments_nil : markedSegments [] = [[]] := List.splitOnP_nil

/-- The first byte of a path: a slash begins a new segment, another byte is put in front of the
first one. -/
theorem markedSegments_cons (symbol : MarkedByte) (marked : List MarkedByte) :
    (symbol.byte = 47 ∧ markedSegments (symbol :: marked) = [] :: markedSegments marked) ∨
      (symbol.byte ≠ 47 ∧ ∃ head tail, markedSegments marked = head :: tail ∧
        markedSegments (symbol :: marked) = (symbol :: head) :: tail) := by
  rw [markedSegments, splitOnP_cons_eq_if_modifyHead, ← markedSegments]
  by_cases hslash : symbol.byte = 47
  · exact Or.inl ⟨hslash, if_pos (by simpa using hslash)⟩
  · right
    refine ⟨hslash, ?_⟩
    rcases hsegments : markedSegments marked with _ | ⟨head, tail⟩
    · exact absurd hsegments (splitOnP_ne_nil _ _)
    · refine ⟨head, tail, rfl, ?_⟩
      rw [if_neg (by simpa using hslash), modifyHead_cons]

theorem map_markedSegments (marked : List MarkedByte) :
    (marked.map MarkedByte.byte).splitOn 47 = (markedSegments marked).map (List.map MarkedByte.byte)
    := by
  induction marked with
  | nil => rfl
  | cons symbol marked ih =>
    rw [map_cons, List.splitOn, splitOnP_cons_eq_if_modifyHead, ← List.splitOn, ih]
    rcases markedSegments_cons symbol marked with
      ⟨hslash, hcons⟩ | ⟨hslash, head, tail, hrest, hcons⟩
    · rw [if_pos (by simpa using hslash), hcons, map_cons, map_nil]
    · rw [if_neg (by simpa using hslash), hcons, hrest, map_cons, map_cons,
        modifyHead_cons, map_cons]

theorem markedSegments_append (hfront : ∀ symbol ∈ front, symbol.byte ≠ 47)
    (marked : List MarkedByte) :
    ∃ head tail, markedSegments marked = head :: tail ∧
      markedSegments (front ++ marked) = (front ++ head) :: tail := by
  induction front with
  | nil =>
    rcases hsegments : markedSegments marked with _ | ⟨head, tail⟩
    · exact absurd hsegments (splitOnP_ne_nil _ _)
    · exact ⟨head, tail, rfl, hsegments⟩
  | cons symbol front ih =>
    obtain ⟨head, tail, hmarked, hfrontSegments⟩ :=
      ih fun symbol hmem => hfront symbol (.tail _ hmem)
    refine ⟨head, tail, hmarked, ?_⟩
    rcases markedSegments_cons symbol (front ++ marked) with
      ⟨hslash, -⟩ | ⟨-, head', tail', hrest, hcons⟩
    · exact absurd hslash (hfront symbol (.head _))
    · rw [hfrontSegments] at hrest
      obtain ⟨rfl, rfl⟩ := List.cons.inj hrest
      exact hcons

def WholeValue (segment : List MarkedByte) : Prop :=
  (∃ symbol ∈ segment, symbol.literal = false) →
    ∃ front value encoded back, Encoded value encoded ∧
      segment = front ++ (encoded.map insertedByte ++ back)

theorem wholeValue_literal_cons (h : WholeValue segment) :
    WholeValue (literalByte byte :: segment) := by
  rintro ⟨symbol, hsymbol, hmark⟩
  rcases mem_cons.mp hsymbol with rfl | hsymbol
  · simp [literalByte] at hmark
  · obtain ⟨front, value, encoded, back, hencoded, rfl⟩ := h ⟨symbol, hsymbol, hmark⟩
    exact ⟨literalByte byte :: front, value, encoded, back, hencoded, rfl⟩

theorem wholeValue_literal_append
    (h : ∀ segment ∈ markedSegments marked, WholeValue segment) (text : Bytes) :
    ∀ segment ∈ markedSegments (text.map literalByte ++ marked), WholeValue segment := by
  induction text with
  | nil => exact h
  | cons byte text ih =>
    intro segment hmem
    rw [map_cons, cons_append] at hmem
    rcases markedSegments_cons (literalByte byte) (text.map literalByte ++ marked) with
      ⟨-, hcons⟩ | ⟨-, head, tail, hrest, hcons⟩
    · rw [hcons, mem_cons] at hmem
      rcases hmem with rfl | hmem
      · rintro ⟨symbol, hsymbol, -⟩
        simp at hsymbol
      · exact ih segment hmem
    · rw [hcons, mem_cons] at hmem
      rw [hrest] at ih
      rcases hmem with rfl | hmem
      · exact wholeValue_literal_cons (ih head (.head _))
      · exact ih segment (.tail _ hmem)

theorem isStructural_slash : isStructural 47 = true := by decide

theorem Renders.wholeValue (h : Renders Encoded params template marked) :
    ∀ segment ∈ markedSegments marked, WholeValue segment := by
  have hnil : ∀ segment ∈ markedSegments [], WholeValue segment := by
    intro segment hmem
    rw [markedSegments_nil, mem_singleton] at hmem
    rintro ⟨symbol, hsymbol, -⟩
    simp [hmem] at hsymbol
  induction h with
  | @text text hopen hclose =>
    have htext := wholeValue_literal_append hnil text
    rwa [append_nil] at htext
  | @placeholder text name value encoded rest marked hopen hclose hname hvalue hencodes hrest ih =>
    refine wholeValue_literal_append (fun segment hmem => ?_) text
    have hslash : ∀ symbol ∈ encoded.map insertedByte, symbol.byte ≠ 47 := by
      intro symbol hsymbol heq
      obtain ⟨byte, hbyte, rfl⟩ := mem_map.mp hsymbol
      have hplain := hencodes.plain byte hbyte
      rw [show byte = 47 from heq, isStructural_slash] at hplain
      simp at hplain
    obtain ⟨head, tail, hmarked, happend⟩ := markedSegments_append hslash marked
    rw [happend, mem_cons] at hmem
    rcases hmem with rfl | hmem
    · exact fun _ => ⟨[], value, encoded, head, hencodes, rfl⟩
    · exact ih segment (hmarked ▸ mem_cons_of_mem _ hmem)

theorem Renders.inserted_plain (h : Renders Encoded params template marked) :
    ∀ symbol ∈ marked, isStructural symbol.byte = true → symbol.literal = true := by
  have hliteral : ∀ text : Bytes, ∀ symbol ∈ text.map literalByte, symbol.literal = true := by
    intro text symbol hmem
    obtain ⟨byte, -, rfl⟩ := mem_map.mp hmem
    rfl
  induction h with
  | text hopen hclose => exact fun symbol hmem _ => hliteral _ symbol hmem
  | @placeholder text name value encoded rest marked hopen hclose hname hvalue hencodes hrest ih =>
    intro symbol hmem hstructural
    rcases mem_append.mp hmem with hmem | hmem
    · exact hliteral _ symbol hmem
    rcases mem_append.mp hmem with hmem | hmem
    · obtain ⟨byte, hbyte, rfl⟩ := mem_map.mp hmem
      rw [insertedByte, hencodes.plain byte hbyte] at hstructural
      simp at hstructural
    · exact ih symbol hmem hstructural

theorem mem_of_mem_markedSegments
    (hsegment : segment ∈ markedSegments marked) (hsymbol : symbol ∈ segment) :
    symbol ∈ marked := by
  induction marked generalizing segment with
  | nil =>
    rw [markedSegments_nil, mem_singleton] at hsegment
    simp [hsegment] at hsymbol
  | cons first marked ih =>
    rcases markedSegments_cons first marked with ⟨-, hcons⟩ | ⟨-, head, tail, hrest, hcons⟩
    · rw [hcons, mem_cons] at hsegment
      rcases hsegment with rfl | hsegment
      · simp at hsymbol
      · exact .tail _ (ih hsegment hsymbol)
    · rw [hcons, mem_cons] at hsegment
      rw [hrest] at ih
      rcases hsegment with rfl | hsegment
      · rcases mem_cons.mp hsymbol with rfl | hsymbol
        · exact .head _
        · exact .tail _ (ih (.head _) hsymbol)
      · exact .tail _ (ih (.tail _ hsegment) hsymbol)

/-! ### The check of the joined segments -/

/-- The inserted bytes of consecutive segments lie in the expansions. -/
def CoveredSegments (expansions : List Expansion) : ℕ → List (List MarkedByte) → Prop
  | _, [] => True
  | offset, segment :: rest =>
    CoveredFrom expansions offset segment ∧
      CoveredSegments expansions (offset + segment.length + 1) rest

theorem CoveredFrom.tail (h : CoveredFrom expansions offset (symbol :: marked)) :
    CoveredFrom expansions (offset + 1) marked := by
  intro i byte hbyte
  obtain ⟨expansion, hmem, hrange⟩ := h (i + 1) byte (by simpa using hbyte)
  exact ⟨expansion, hmem, by omega, by omega⟩

theorem CoveredFrom.cons {expansions : List Expansion} {offset : ℕ} {symbol : MarkedByte}
    {marked segment : List MarkedByte} (h : CoveredFrom expansions offset (symbol :: marked))
    (hsegment : CoveredFrom expansions (offset + 1) segment) :
    CoveredFrom expansions offset (symbol :: segment) := by
  intro i byte hbyte
  rcases i with _ | i
  · exact h 0 byte (by simpa using hbyte)
  · obtain ⟨expansion, hmem, hrange⟩ := hsegment i byte (by simpa using hbyte)
    exact ⟨expansion, hmem, by omega, by omega⟩

theorem CoveredFrom.segments (h : CoveredFrom expansions offset marked) :
    CoveredSegments expansions offset (markedSegments marked) := by
  induction marked generalizing offset with
  | nil => exact ⟨h, trivial⟩
  | cons symbol marked ih =>
    have hrest := ih h.tail
    rcases markedSegments_cons symbol marked with ⟨-, hcons⟩ | ⟨-, head, tail, hsegments, hcons⟩
    · rw [hcons]
      exact ⟨fun i byte hbyte => by simp at hbyte, hrest⟩
    · rw [hsegments] at hrest
      rw [hcons]
      refine ⟨h.cons hrest.1, ?_⟩
      have hoffset : offset + (symbol :: head).length + 1 = offset + 1 + head.length + 1 := by
        rw [length_cons]
        omega
      rw [hoffset]
      exact hrest.2

theorem joinedSegments_checks
    {segments : List (List MarkedByte)} (hcovered : CoveredSegments expansions offset segments)
    (h : joinedSegments utf8 expansions offset (segments.map (List.map MarkedByte.byte)) = none) :
    ∀ segment ∈ segments, (∃ symbol ∈ segment, symbol.literal = false) →
      ∃ name, structuralAfterDecoding utf8 name (segment.map MarkedByte.byte) = none := by
  induction segments generalizing offset with
  | nil => simp
  | cons first rest ih =>
    obtain ⟨hfirst, hrest⟩ := hcovered
    rw [map_cons, joinedSegments, length_map] at h
    intro segment hmem hinserted
    rcases hfind : expansions.find? (fun expansion =>
        expansion.start < offset + first.length && offset < expansion.stop) with _ | expansion
    · rw [hfind] at h
      rcases mem_cons.mp hmem with rfl | hmem
      · -- an inserted byte would lie in an expansion that overlaps the segment
        obtain ⟨⟨byte, literal⟩, hsymbol, rfl⟩ := hinserted
        obtain ⟨i, hi, hget⟩ := mem_iff_getElem.mp hsymbol
        obtain ⟨expansion, hexpansion, hrange⟩ :=
          hfirst i byte (List.getElem?_eq_some_iff.mpr ⟨hi, hget⟩)
        have hnone := find?_eq_none.mp hfind expansion hexpansion
        simp only [Bool.and_eq_true, decide_eq_true_eq] at hnone
        omega
      · exact ih hrest h segment hmem hinserted
    · rw [hfind] at h
      rcases hcheck : structuralAfterDecoding utf8 expansion.name (first.map MarkedByte.byte) with
        _ | error
      · simp only [hcheck] at h
        rcases mem_cons.mp hmem with rfl | hmem
        · exact ⟨expansion.name, hcheck⟩
        · exact ih hrest h segment hmem hinserted
      · simp [hcheck] at h

/-! ### The shape of the path -/

theorem percentDecode_intercalate (segments : List Bytes) :
    percentDecode ([47].intercalate segments) = [47].intercalate (segments.map percentDecode) := by
  have hsep : ∀ x y z b, plainEscape x y z = some b → x ≠ 47 ∧ y ≠ 47 ∧ z ≠ 47 := by
    intro x y z b hb
    obtain ⟨hx, hi, lo, hhigh, hlow⟩ := plainEscape_eq_some hb
    refine ⟨?_, (hexDigit_lt hhigh).2.2, (hexDigit_lt hlow).2.2⟩
    rw [hx]
    decide
  induction segments with
  | nil => rfl
  | cons segment rest ih =>
    rcases rest with _ | ⟨next, rest⟩
    · simp [List.intercalate]
    · have hsplit : percentDecode (segment ++ 47 :: [47].intercalate (next :: rest)) =
          percentDecode segment ++ 47 :: percentDecode ([47].intercalate (next :: rest)) :=
        unescape_append_cons hsep _ _
      rw [intercalate_cons_cons, append_assoc, singleton_append, hsplit, ih,
        map_cons, map_cons, map_cons, intercalate_cons_cons, append_assoc,
        singleton_append]

theorem iterate_percentDecode_intercalate (n : ℕ) (segments : List Bytes) :
    percentDecode^[n] ([47].intercalate segments) =
      [47].intercalate (segments.map percentDecode^[n]) := by
  induction n generalizing segments with
  | zero => simp
  | succ n ih =>
    rw [Function.iterate_succ_apply, percentDecode_intercalate, ih, map_map]
    rfl

theorem wholeValue_ne_relative (h : WholeValue segment)
    (hinserted : ∃ symbol ∈ segment, symbol.literal = false) :
    isRelative (segment.map MarkedByte.byte) = false := by
  obtain ⟨front, value, encoded, back, hencoded, rfl⟩ := h hinserted
  rw [map_append, map_append, map_byte_inserted]
  have hnonempty := hencoded.nonempty
  have hrelative := hencoded.notRelative
  by_contra hdots
  simp only [isRelative, Bool.not_eq_false, Bool.or_eq_true, beq_iff_eq] at hdots
  simp only [isRelative, Bool.or_eq_false_iff, beq_eq_false_iff_ne] at hrelative
  have hmem : ∀ byte ∈ encoded, byte = 46 := by
    intro byte hbyte
    have hall : byte ∈ front.map MarkedByte.byte ++ (encoded ++ back.map MarkedByte.byte) := by
      simp [hbyte]
    rcases hdots with hdots | hdots <;> · rw [hdots] at hall; simpa using hall
  have hlength : encoded.length ≤ 2 := by
    rcases hdots with hdots | hdots
    · have := congrArg List.length hdots
      simp only [length_append, length_cons, length_nil] at this
      omega
    · have := congrArg List.length hdots
      simp only [length_append, length_cons, length_nil] at this
      omega
  rcases encoded with _ | ⟨x, _ | ⟨y, _ | ⟨z, rest⟩⟩⟩
  · exact hnonempty rfl
  · exact hrelative.1 (by rw [hmem x (by simp)])
  · exact hrelative.2 (by rw [hmem x (by simp), hmem y (by simp)])
  · simp only [length_cons] at hlength
    omega

theorem iterate_percentDecode_ne_nil (h : text ≠ []) (n : ℕ) :
    percentDecode^[n] text ≠ [] := by
  induction n generalizing text with
  | zero => exact h
  | succ n ih =>
    rw [Function.iterate_succ_apply]
    exact ih (unescape_ne_nil h)

theorem segment_keeps_shape
    (hplain : ∀ symbol ∈ segment, isStructural symbol.byte = true → symbol.literal = true)
    (hrelative : isRelative (segment.map MarkedByte.byte) = false)
    (hcheck : structuralAfterDecoding utf8 name (segment.map MarkedByte.byte) = none) (n : ℕ) :
    (∀ symbol ∈ decodeMarked^[n] segment,
        isStructural symbol.byte = true → symbol.literal = true) ∧
      isRelative ((decodeMarked^[n] segment).map MarkedByte.byte) = false := by
  rcases decodeRounds_sound hcheck rfl with hfix | hall
  · rw [Function.iterate_fixed (decodeMarked_eq_self hfix)]
    exact ⟨hplain, hrelative⟩
  rcases n with _ | n
  · exact ⟨hplain, hrelative⟩
  obtain ⟨hclean, hrel⟩ := hall n
  rw [← map_byte_iterate] at hclean hrel
  refine ⟨fun symbol hmem hstructural => ?_, hrel⟩
  rw [hclean symbol.byte (mem_map_of_mem hmem)] at hstructural
  simp at hstructural

theorem expandPath_ok {path : Bytes} (h : expandPath utf8 template params = .ok path) :
    ∃ marked, Renders Encoded params template marked ∧ marked.map MarkedByte.byte = path ∧
      ∀ segment ∈ markedSegments marked, (∃ symbol ∈ segment, symbol.literal = false) →
        ∃ name, structuralAfterDecoding utf8 name (segment.map MarkedByte.byte) = none := by
  unfold expandPath at h
  split at h
  · simp at h
  next state hstate =>
  split at h
  · simp at h
  split at h
  · simp at h
  next hjoined =>
  cases h
  obtain ⟨marked, hrenders, hout, -, hcovered⟩ := renderTemplate_renders hstate
  rw [nil_append] at hout
  refine ⟨marked, hrenders, hout.symm, ?_⟩
  intro segment hmem hinserted
  unfold structuralAfterJoining at hjoined
  split at hjoined
  · -- without an expansion there is no inserted byte
    next hempty =>
    obtain ⟨⟨byte, literal⟩, hsymbol, rfl⟩ := hinserted
    obtain ⟨i, hi, hget⟩ := mem_iff_getElem.mp (mem_of_mem_markedSegments hmem hsymbol)
    obtain ⟨expansion, hexpansion, -⟩ :=
      hcovered i byte (List.getElem?_eq_some_iff.mpr ⟨hi, hget⟩)
    rw [List.isEmpty_iff.mp hempty] at hexpansion
    simp at hexpansion
  · rw [hout, map_markedSegments] at hjoined
    exact joinedSegments_checks hcovered.segments hjoined segment hmem hinserted

/-- **A parameter never changes the shape of a request, at any decode depth.**  The path is the
template's text with an encoding of the supplied value in the place of every placeholder, and one
round of decoding gives the value back.  After any number of rounds the path is what its segments
have become, between the same slashes; in what a segment with an inserted byte has become there is
no slash, backslash, question mark, number sign or control character that is not a byte of the
template, and it is neither empty nor `.` nor `..`. -/
theorem parameter_keeps_path_shape {utf8 : LossyUtf8} {template : Bytes}
    {params : List (Bytes × Bytes)} {path : Bytes}
    (h : expandPath utf8 template params = .ok path) :
    ∃ marked,
      Renders (fun value encoded => percentDecode encoded = value ∧ encoded ≠ []) params template
        marked ∧
      marked.map MarkedByte.byte = path ∧
      ∀ n,
        percentDecode^[n] path = [47].intercalate
          ((markedSegments marked).map fun segment =>
            (decodeMarked^[n] segment).map MarkedByte.byte) ∧
        ∀ segment ∈ markedSegments marked, (∃ symbol ∈ segment, symbol.literal = false) →
          (∀ symbol ∈ decodeMarked^[n] segment,
            isStructural symbol.byte = true → symbol.literal = true) ∧
          (decodeMarked^[n] segment).map MarkedByte.byte ∉ [[], [46], [46, 46]] := by
  obtain ⟨marked, hrenders, hpath, hchecked⟩ := expandPath_ok h
  refine ⟨marked, hrenders.mono fun _ _ henc => ⟨henc.decodes, henc.nonempty⟩, hpath, ?_⟩
  intro n
  constructor
  · rw [← hpath]
    conv_lhs => rw [← @intercalate_splitOn _ (marked.map MarkedByte.byte) _ _ 47]
    rw [iterate_percentDecode_intercalate, map_markedSegments, map_map]
    congr 1
    refine map_congr_left fun segment _ => ?_
    exact (map_byte_iterate n segment).symm
  · intro segment hmem hinserted
    obtain ⟨name, hcheck⟩ := hchecked segment hmem hinserted
    have hplain : ∀ symbol ∈ segment, isStructural symbol.byte = true → symbol.literal = true :=
      fun symbol hsymbol => hrenders.inserted_plain symbol (mem_of_mem_markedSegments hmem hsymbol)
    obtain ⟨hkeeps, hrel⟩ := segment_keeps_shape hplain
      (wholeValue_ne_relative (hrenders.wholeValue segment hmem) hinserted) hcheck n
    refine ⟨hkeeps, ?_⟩
    have hne : (decodeMarked^[n] segment).map MarkedByte.byte ≠ [] := by
      rw [map_byte_iterate]
      refine iterate_percentDecode_ne_nil (fun hnil => ?_) n
      obtain ⟨symbol, hsymbol, -⟩ := hinserted
      rw [map_eq_nil_iff.mp hnil] at hsymbol
      simp at hsymbol
    simp only [isRelative, Bool.or_eq_false_iff, beq_eq_false_iff_ne] at hrel
    simp only [mem_cons, not_mem_nil, or_false, not_or]
    exact ⟨hne, hrel.1, hrel.2⟩

/-- A conversion that replaces nothing: what is known of `from_utf8_lossy` holds of it. -/
def keepUtf8 : LossyUtf8 := ⟨id, fun _ => rfl⟩

/-- `/a/{b}` with the value `x y` is rendered as `/a/x%20y`. -/
theorem space_keeps_path_shape :
    ∃ marked,
      Renders (fun value encoded => percentDecode encoded = value ∧ encoded ≠ [])
        [([98], [120, 32, 121])] [47, 97, 47, 123, 98, 125] marked ∧
      marked.map MarkedByte.byte = [47, 97, 47, 120, 37, 50, 48, 121] ∧
      ∀ n,
        percentDecode^[n] [47, 97, 47, 120, 37, 50, 48, 121] = [47].intercalate
          ((markedSegments marked).map fun segment =>
            (decodeMarked^[n] segment).map MarkedByte.byte) ∧
        ∀ segment ∈ markedSegments marked, (∃ symbol ∈ segment, symbol.literal = false) →
          (∀ symbol ∈ decodeMarked^[n] segment,
            isStructural symbol.byte = true → symbol.literal = true) ∧
          (decodeMarked^[n] segment).map MarkedByte.byte ∉ [[], [46], [46, 46]] :=
  @parameter_keeps_path_shape keepUtf8 _ _ _ (by decide +kernel)

end Mecmcp.Openapi
