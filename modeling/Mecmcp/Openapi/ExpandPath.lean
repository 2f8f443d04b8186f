import Mecmcp.Lib.Escapes

/-!
# ExpandPath — path templates

`expand_path` fills the `{placeholder}`s of a path template.  A value is refused when it is empty,
relative, or has a byte that changes the shape of a request, in itself or after some rounds of
percent-decoding; what is left is percent-encoded.  The rendered segments an expansion landed in
are checked once more, because an escape may only come together next to literal text.

Strings are their UTF-8 bytes.  `String::from_utf8_lossy` is not part of the repository: it is a
`LossyUtf8`, of which only what it does to ASCII bytes is known.
-/

namespace Mecmcp.Openapi

open List

abbrev Bytes : Type := List UInt8

def asciiByte (byte : UInt8) : Option UInt8 := if byte < 128 then some byte else none

def asciiSkeleton (text : Bytes) : List (Option UInt8) := collapse (text.map asciiByte)

/-- A conversion that replaces bytes that are not UTF-8: ASCII bytes stay, and a run of other
bytes becomes another such run. -/
structure LossyUtf8 where
  convert : Bytes → Bytes
  keepsAscii : ∀ text, asciiSkeleton (convert text) = asciiSkeleton text

/-! ### Bytes -/

def isAsciiAlphanumeric (byte : UInt8) : Bool :=
  (48 ≤ byte && byte ≤ 57) || (65 ≤ byte && byte ≤ 90) || (97 ≤ byte && byte ≤ 122)

def isAsciiControl (byte : UInt8) : Bool := byte < 32 || byte == 127

/-- Letters, digits and `-`, `.`, `_`, `~`. -/
def isUnreserved (byte : UInt8) : Bool :=
  isAsciiAlphanumeric byte || byte == 45 || byte == 46 || byte == 95 || byte == 126

/-- `/`, `\`, `?`, `#` and the control characters. -/
def isStructural (byte : UInt8) : Bool :=
  byte == 47 || byte == 92 || byte == 63 || byte == 35 || isAsciiControl byte

/-- The value of a hexadecimal digit. -/
def hexDigit (byte : UInt8) : Option UInt8 :=
  if 48 ≤ byte && byte ≤ 57 then some (byte - 48)
  else if 65 ≤ byte && byte ≤ 70 then some (byte - 55)
  else if 97 ≤ byte && byte ≤ 102 then some (byte - 87)
  else none

/-- A digit of `{:02X}`. -/
def upperHex (digit : UInt8) : UInt8 := if digit < 10 then digit + 48 else digit + 55

/-- `u8::from_str_radix` on two bytes, in base 16: like every integer parser of the standard
library it reads a leading plus sign. -/
def fromStrRadix (high low : UInt8) : Option UInt8 :=
  if high = 43 then hexDigit low
  else
    match hexDigit high, hexDigit low with
    | some h, some l => some (h * 16 + l)
    | _, _ => none

/-! ### Errors -/

inductive PathError where
  | empty (name : Bytes)
  | segmentBreak (name : Bytes)
  | relativeComponent (name : Bytes)
  | queryOrFragment (name : Bytes)
  | controlCharacter (name : Bytes)
  | missingParameter (name : Bytes)
  | unknownParameter (name : Bytes)
  | malformedTemplate
  deriving DecidableEq, Repr

def structuralError (name : Bytes) (byte : UInt8) : PathError :=
  if byte == 63 || byte == 35 then .queryOrFragment name
  else if isAsciiControl byte then .controlCharacter name
  else .segmentBreak name

/-! ### One value -/

variable (utf8 : LossyUtf8)
variable {byte : UInt8} {text : Bytes}

def checkedEscape (percent high low : UInt8) : Option UInt8 :=
  if percent = 37 then fromStrRadix high low else none

def percentDecodeLossy (input : Bytes) : Bytes := utf8.convert (unescape checkedEscape input)

/-- `.` and `..`. -/
def isRelative (text : Bytes) : Bool := text == [46] || text == [46, 46]

/-- The rounds of `structural_after_decoding` that are left, on the text decoded so far. -/
def decodeRounds (name : Bytes) : ℕ → Bytes → Option PathError
  | 0, _ => some (.segmentBreak name)
  | rounds + 1, current =>
    let decoded := percentDecodeLossy utf8 current
    if decoded = current then none
    else
      match decoded.find? isStructural with
      | some byte => some (structuralError name byte)
      | none =>
        if isRelative decoded then some (.relativeComponent name)
        else decodeRounds name rounds decoded

def maxDecodeRounds : ℕ := 4

def structuralAfterDecoding (name value : Bytes) : Option PathError :=
  decodeRounds utf8 name maxDecodeRounds value

/-- A byte of a value as it is rendered. -/
def encodeByte (byte : UInt8) : Bytes :=
  if isUnreserved byte then [byte] else [37, upperHex (byte / 16), upperHex (byte % 16)]

def encodeSegment (name value : Bytes) : Except PathError Bytes :=
  if value.isEmpty then .error (.empty name)
  else if isRelative value then .error (.relativeComponent name)
  else
    match value.find? isStructural with
    | some byte => .error (structuralError name byte)
    | none =>
      match structuralAfterDecoding utf8 name value with
      | some error => .error error
      | none => .ok (value.flatMap encodeByte)

/-! ### The template -/

/-- Where one expanded value landed in the rendered path. -/
structure Expansion where
  name : Bytes
  start : ℕ
  stop : ℕ
  deriving DecidableEq, Repr

/-- What the loop over the placeholders keeps. -/
structure Rendering where
  out : Bytes
  used : List Bool
  expansions : List Expansion
  deriving DecidableEq, Repr

/-- The text before and after the first such byte. -/
def splitOnce (byte : UInt8) : Bytes → Option (Bytes × Bytes)
  | [] => none
  | head :: rest =>
    if head = byte then some ([], rest)
    else (splitOnce byte rest).map fun parts => (head :: parts.1, parts.2)

theorem splitOnce_eq_some {before after : Bytes} (h : splitOnce byte text = some (before, after)) :
    text = before ++ byte :: after ∧ byte ∉ before := by
  induction text generalizing before with
  | nil => simp [splitOnce] at h
  | cons head rest ih =>
    rw [splitOnce] at h
    split at h
    · next hhead =>
      cases h
      simp [hhead]
    · next hhead =>
      obtain ⟨⟨front, back⟩, hparts, hcons⟩ := Option.map_eq_some_iff.mp h
      cases hcons
      obtain ⟨hrest, hfront⟩ := ih hparts
      refine ⟨by simp [hrest], ?_⟩
      simp only [mem_cons, not_or]
      exact ⟨fun heq => hhead heq.symm, hfront⟩

theorem splitOnce_eq_none (h : splitOnce byte text = none) :
    byte ∉ text := by
  induction text with
  | nil => simp
  | cons head rest ih =>
    rw [splitOnce] at h
    split at h
    · simp at h
    · next hhead =>
      simp only [mem_cons, not_or]
      exact ⟨fun heq => hhead heq.symm, ih (Option.map_eq_none_iff.mp h)⟩

theorem splitOnce_length {parts : Bytes × Bytes}
    (h : splitOnce byte text = some parts) : parts.2.length < text.length := by
  have htext := congrArg List.length (splitOnce_eq_some h).1
  simp only [length_append, length_cons] at htext
  omega

/-- The loop of `expand_path`, on the rest of the template. -/
def renderTemplate (params : List (Bytes × Bytes)) (state : Rendering) (rest : Bytes) :
    Except PathError Rendering :=
  match _hopen : splitOnce 123 rest with
  | none =>
    if rest.contains 125 then .error .malformedTemplate
    else .ok { state with out := state.out ++ rest }
  | some (literal, after) =>
    if literal.contains 125 then .error .malformedTemplate
    else
      match _hclose : splitOnce 125 after with
      | none => .error .malformedTemplate
      | some (name, tail) =>
        if name.contains 123 then .error .malformedTemplate
        else
          match params.find? (fun param => param.1 == name) with
          | none => .error (.missingParameter name)
          | some param =>
            match encodeSegment utf8 name param.2 with
            | .error error => .error error
            | .ok encoded =>
              let start := state.out.length + literal.length
              renderTemplate params
                { out := state.out ++ literal ++ encoded
                  used := state.used.set (params.findIdx (fun param => param.1 == name)) true
                  expansions := state.expansions ++
                    [{ name := name, start := start, stop := start + encoded.length }] }
                tail
termination_by rest.length
decreasing_by
  exact (splitOnce_length _hclose).trans (splitOnce_length _hopen)

/-- The loop of `structural_after_joining`, from a segment that begins at `offset` on. -/
def joinedSegments (expansions : List Expansion) : ℕ → List Bytes → Option PathError
  | _, [] => none
  | offset, segment :: rest =>
    let stop := offset + segment.length
    match expansions.find? (fun expansion => expansion.start < stop && offset < expansion.stop) with
    | none => joinedSegments expansions (stop + 1) rest
    | some expansion =>
      match structuralAfterDecoding utf8 expansion.name segment with
      | some error => some error
      | none => joinedSegments expansions (stop + 1) rest

def structuralAfterJoining (path : Bytes) (expansions : List Expansion) : Option PathError :=
  if expansions.isEmpty then none else joinedSegments utf8 expansions 0 (path.splitOn 47)

def expandPath (template : Bytes) (params : List (Bytes × Bytes)) : Except PathError Bytes :=
  match renderTemplate utf8 params
      { out := [], used := List.replicate params.length false, expansions := [] } template with
  | .error error => .error error
  | .ok state =>
    match (params.zip state.used).find? (fun param => !param.2) with
    | some param => .error (.unknownParameter param.1.1)
    | none =>
      match structuralAfterJoining utf8 state.out state.expansions with
      | some error => .error error
      | none => .ok state.out

end Mecmcp.Openapi
