import Mecmcp.Redact.Json
import Mecmcp.Redact.Text

/-!
# Xml — redaction of XML event streams

`xml.rs` over the events of the parser.  The open elements are a stack; contiguous text and reference
events are one run, decided once when it ends.  Decoding is the parser's (`XmlCodec`), text redaction
is a parameter, and the result is the list of events that are written.
-/

namespace Mecmcp.Redact

open List Option

/-! ### Events -/

abbrev Attributes : Type := List (Text × Text)

/-- The events of the reader; the end of the input is the end of the list. -/
inductive XmlEvent where
  | start (name : Text) (attributes : Attributes)
  | empty (name : Text) (attributes : Attributes)
  | close (name : Text)
  | text (raw : Text)
  | generalRef (name : Text)
  | cdata (content : Text)
  | comment (raw : Text)
  /-- declarations, processing instructions and document types -/
  | other (raw : Text)

/-- What the parser decodes: text, references and attribute values, where `none` is an error, and
the part of a name after its prefix. -/
structure XmlCodec where
  unescape : Text → Option Text
  resolveGeneralRef : Text → Option Text
  normalizedValue : Text → Option Text
  localName : Text → Text

inductive XmlError where
  | invalidXml
  | unclosed (name : Text)
  deriving DecidableEq

/-- Escape `<`, `>`, `&`, `'` and `"`. -/
def escapeText (raw : Text) : Text :=
  raw.flatMap fun
    | '<' => "&lt;".toList
    | '>' => "&gt;".toList
    | '&' => "&amp;".toList
    | '\'' => "&apos;".toList
    | '"' => "&quot;".toList
    | c => [c]

def redactComment (text : Text) : Text :=
  match findSub secretDataMarker text with
  | some idx => if (trimText (text.take idx)).isEmpty then text else placeholder ++ text.drop idx
  | none => if looksLikeSecretValue text then placeholder else text

/-! ### Secret ancestors -/

/-- The element `name` is a BGP route community: `above` are the elements around it, `below` those
inside it, the innermost last. -/
def isBgpRouteCommunityAncestor (above : List Text) (name : Text) (below : List Text)
    (value : Text) : Bool :=
  normalize name == "community".toList && above.any isBgpScopeKey && isBgpCommunityTag value &&
    match below with
    | [] => true
    | [inner] => normalize inner == "member".toList || normalize inner == "members".toList
    | _ => false

/-- Whether an open element is secret; `above` are the ones already passed. -/
def anyAncestorSecretFrom (extraExactElem : Text → Bool) (bgpRouteCommunities : Bool)
    (value : Text) (above : List Text) : (tagStack : List Text) → Bool
  | [] => false
  | name :: below =>
    (extraExactElem name || (isDenylistedKey name &&
      !(bgpRouteCommunities && isBgpRouteCommunityAncestor above name below value))) ||
    anyAncestorSecretFrom extraExactElem bgpRouteCommunities value (above ++ [name]) below

/-- The stack has the outermost element first. -/
def anyAncestorSecret (extraExactElem : Text → Bool) (bgpRouteCommunities : Bool)
    (tagStack : List Text) (value : Text) : Bool :=
  anyAncestorSecretFrom extraExactElem bgpRouteCommunities value [] tagStack

/-! ### Redaction -/

structure XmlState where
  /-- local names of the open elements, the outermost first -/
  tagStack : List Text
  textRun : Option Text

section

variable (codec : XmlCodec) (redactText : Text → Text) (extraExactElem : Text → Bool)
  (bgpRouteCommunities : Bool)

/-- A text or CDATA body under the given elements. -/
def redactBody (tagStack : List Text) (body : Text) : Text :=
  if anyAncestorSecret extraExactElem bgpRouteCommunities tagStack body ||
      looksLikeSecretValue body then placeholder
  else redactText body

def redactAttribute (tagStack : List Text) (attr : Text × Text) :
    Except XmlError (Text × Text) :=
  match codec.normalizedValue attr.2 with
  | none => .error .invalidXml
  | some value =>
    let redacted := if anyAncestorSecret extraExactElem bgpRouteCommunities tagStack value ||
        isDenylistedKey (codec.localName attr.1) || looksLikeSecretValue value then placeholder
      else value
    .ok (attr.1, escapeText redacted)

def redactAttributes (tagStack : List Text) : Attributes → Except XmlError Attributes
  | [] => .ok []
  | attr :: attributes =>
    match redactAttribute codec extraExactElem bgpRouteCommunities tagStack attr with
    | .error e => .error e
    | .ok redacted =>
      match redactAttributes tagStack attributes with
      | .error e => .error e
      | .ok rest => .ok (redacted :: rest)

def flushTextRun (state : XmlState) : List XmlEvent :=
  match state.textRun with
  | none => []
  | some joined => [.text (escapeText
      (redactBody redactText extraExactElem bgpRouteCommunities state.tagStack joined))]

/-- Append to the buffered run. -/
def XmlState.push (state : XmlState) (text : Text) : XmlState :=
  { state with textRun := some (state.textRun.getD [] ++ text) }

def redactEvent (state : XmlState) : XmlEvent → Except XmlError (XmlState × List XmlEvent)
  | .text raw =>
    match codec.unescape raw with
    | none => .error .invalidXml
    | some decoded => .ok (state.push decoded, [])
  | .generalRef name =>
    match codec.resolveGeneralRef name with
    | none => .error .invalidXml
    | some decoded => .ok (state.push decoded, [])
  | .start name attributes =>
    let stack := state.tagStack ++ [codec.localName name]
    match redactAttributes codec extraExactElem bgpRouteCommunities stack attributes with
    | .error e => .error e
    | .ok redacted => .ok (⟨stack, none⟩,
        flushTextRun redactText extraExactElem bgpRouteCommunities state ++ [.start name redacted])
  | .empty name attributes =>
    match redactAttributes codec extraExactElem bgpRouteCommunities
        (state.tagStack ++ [codec.localName name]) attributes with
    | .error e => .error e
    | .ok redacted => .ok (⟨state.tagStack, none⟩,
        flushTextRun redactText extraExactElem bgpRouteCommunities state ++ [.empty name redacted])
  | .close name => .ok (⟨state.tagStack.dropLast, none⟩,
      flushTextRun redactText extraExactElem bgpRouteCommunities state ++ [.close name])
  | .cdata content => .ok (⟨state.tagStack, none⟩,
      flushTextRun redactText extraExactElem bgpRouteCommunities state ++
        [.cdata (redactBody redactText extraExactElem bgpRouteCommunities state.tagStack content)])
  | .comment raw => .ok (⟨state.tagStack, none⟩,
      flushTextRun redactText extraExactElem bgpRouteCommunities state ++
        [.comment (escapeText (redactComment raw))])
  | .other raw => .ok (⟨state.tagStack, none⟩,
      flushTextRun redactText extraExactElem bgpRouteCommunities state ++ [.other raw])

/-- The events in turn; an element that is open at the end is an error. -/
def redactEvents (state : XmlState) : List XmlEvent → Except XmlError (List XmlEvent)
  | [] =>
    match state.tagStack.getLast? with
    | some unclosed => .error (.unclosed unclosed)
    | none => .ok (flushTextRun redactText extraExactElem bgpRouteCommunities state)
  | event :: events =>
    match redactEvent codec redactText extraExactElem bgpRouteCommunities state event with
    | .error e => .error e
    | .ok (next, out) =>
      match redactEvents next events with
      | .error e => .error e
      | .ok rest => .ok (out ++ rest)

/-- `xml::redact`. -/
def redactXml (events : List XmlEvent) : Except XmlError (List XmlEvent) :=
  redactEvents codec redactText (fun _ => false) false ⟨[], none⟩ events

end

/-! ### Well-formed streams -/

/-- Everything the stream carries can be decoded. -/
def Decodes (codec : XmlCodec) : XmlEvent → Prop
  | .text raw => (codec.unescape raw).isSome
  | .generalRef name => (codec.resolveGeneralRef name).isSome
  | .start _ attributes | .empty _ attributes =>
    ∀ attr ∈ attributes, (codec.normalizedValue attr.2).isSome
  | _ => True

def stackAfter (codec : XmlCodec) (tagStack : List Text) : XmlEvent → List Text
  | .start name _ => tagStack ++ [codec.localName name]
  | .close _ => tagStack.dropLast
  | _ => tagStack

/-- The events decode and the elements are closed at the end. -/
def WellFormed (codec : XmlCodec) (events : List XmlEvent) : Prop :=
  (∀ event ∈ events, Decodes codec event) ∧ events.foldl (stackAfter codec) [] = []

/-- The elements and attribute names of a stream. -/
def structureOf : XmlEvent → List (Text × List Text × ℕ)
  | .start name attributes => [(name, attributes.map Prod.fst, 0)]
  | .empty name attributes => [(name, attributes.map Prod.fst, 1)]
  | .close name => [(name, [], 2)]
  | _ => []

/-! ### Streams that differ below secret elements -/

/-- A denylisted element is among the open ones. -/
def UnderSecret (tagStack : List Text) : Prop := ∃ name ∈ tagStack, isDenylistedKey name = true

/-- The same attribute names, and the same values unless an open element is secret. -/
def AgreeAttributes (tagStack : List Text) (attributes attributes' : Attributes) : Prop :=
  attributes.map Prod.fst = attributes'.map Prod.fst ∧
    (UnderSecret tagStack ∨ attributes = attributes')

/-- The same event, but for its content where an open element is secret. -/
def AgreeEvent (codec : XmlCodec) (tagStack : List Text) : XmlEvent → XmlEvent → Prop
  | .start name attributes, event' => ∃ attributes', event' = .start name attributes' ∧
      AgreeAttributes (tagStack ++ [codec.localName name]) attributes attributes'
  | .empty name attributes, event' => ∃ attributes', event' = .empty name attributes' ∧
      AgreeAttributes (tagStack ++ [codec.localName name]) attributes attributes'
  | .text raw, event' => ∃ raw', event' = .text raw' ∧ (UnderSecret tagStack ∨ raw = raw')
  | .generalRef name, event' => ∃ name', event' = .generalRef name' ∧
      (UnderSecret tagStack ∨ name = name')
  | .cdata content, event' => ∃ content', event' = .cdata content' ∧
      (UnderSecret tagStack ∨ content = content')
  | event, event' => event' = event

def AgreeEvents (codec : XmlCodec) (tagStack : List Text) : List XmlEvent → List XmlEvent → Prop
  | [], events' => events' = []
  | event :: events, events' => ∃ event' rest, events' = event' :: rest ∧
      AgreeEvent codec tagStack event event' ∧
      AgreeEvents codec (stackAfter codec tagStack event) events rest

/-! ### One event in two streams -/

theorem anyAncestorSecretFrom_plain (value : Text) (above tagStack : List Text) :
    anyAncestorSecretFrom (fun _ => false) false value above tagStack =
      tagStack.any isDenylistedKey := by
  induction tagStack generalizing above with
  | nil => rfl
  | cons name below ih => simp [anyAncestorSecretFrom, ih]

theorem anyAncestorSecret_of_underSecret {tagStack : List Text} (h : UnderSecret tagStack)
    (value : Text) : anyAncestorSecret (fun _ => false) false tagStack value = true := by
  rw [anyAncestorSecret, anyAncestorSecretFrom_plain]
  exact List.any_eq_true.mpr h

section

variable {codec : XmlCodec} {redactText : Text → Text}
variable {tagStack : List Text} {state state' : XmlState}

theorem redactBody_eq {body body' : Text} (h : UnderSecret tagStack ∨ body = body') :
    redactBody redactText (fun _ => false) false tagStack body =
      redactBody redactText (fun _ => false) false tagStack body' := by
  rcases h with hsecret | rfl
  · simp [redactBody, anyAncestorSecret_of_underSecret hsecret]
  · rfl

theorem redactAttribute_secret (hsecret : UnderSecret tagStack)
    (attr : Text × Text) (hdecodes : (codec.normalizedValue attr.2).isSome) :
    redactAttribute codec (fun _ => false) false tagStack attr =
      .ok (attr.1, escapeText placeholder) := by
  obtain ⟨value, hvalue⟩ := isSome_iff_exists.mp hdecodes
  simp [redactAttribute, hvalue, anyAncestorSecret_of_underSecret hsecret]

theorem redactAttributes_secret (hsecret : UnderSecret tagStack)
    (attributes : Attributes) (hdecodes : ∀ attr ∈ attributes,
      (codec.normalizedValue attr.2).isSome) :
    redactAttributes codec (fun _ => false) false tagStack attributes =
      .ok ((attributes.map Prod.fst).map fun name => (name, escapeText placeholder)) := by
  induction attributes with
  | nil => rfl
  | cons attr attributes ih =>
    have hhead := redactAttribute_secret hsecret attr (hdecodes attr (by simp))
    have htail := ih fun other hmem => hdecodes other (mem_cons_of_mem _ hmem)
    simp [redactAttributes, hhead, htail]

theorem redactAttributes_ok (tagStack : List Text) (attributes : Attributes)
    (hdecodes : ∀ attr ∈ attributes, (codec.normalizedValue attr.2).isSome) :
    ∃ redacted, redactAttributes codec (fun _ => false) false tagStack attributes = .ok redacted ∧
      redacted.map Prod.fst = attributes.map Prod.fst := by
  induction attributes with
  | nil => exact ⟨[], rfl, rfl⟩
  | cons attr attributes ih =>
    obtain ⟨rest, hrest, hnames⟩ := ih fun other hmem => hdecodes other (mem_cons_of_mem _ hmem)
    obtain ⟨value, hvalue⟩ := isSome_iff_exists.mp (hdecodes attr (by simp))
    simp [redactAttributes, redactAttribute, hvalue, hrest, hnames]

theorem redactAttributes_eq {attributes attributes' : Attributes}
    (h : AgreeAttributes tagStack attributes attributes')
    (hdecodes : ∀ attr ∈ attributes, (codec.normalizedValue attr.2).isSome)
    (hdecodes' : ∀ attr ∈ attributes', (codec.normalizedValue attr.2).isSome) :
    redactAttributes codec (fun _ => false) false tagStack attributes =
      redactAttributes codec (fun _ => false) false tagStack attributes' := by
  obtain ⟨hnames, hsecret | rfl⟩ := h
  · rw [redactAttributes_secret hsecret attributes hdecodes,
      redactAttributes_secret hsecret attributes' hdecodes', hnames]
  · rfl

/-- Two readers at the same place: the same open elements, and the same buffered run unless one of
them is secret. -/
structure SameSoFar (state state' : XmlState) : Prop where
  tagStack : state'.tagStack = state.tagStack
  textRun : UnderSecret state.tagStack ∧ state.textRun.isSome = state'.textRun.isSome ∨
    state.textRun = state'.textRun

theorem SameSoFar.fresh (tagStack : List Text) : SameSoFar ⟨tagStack, none⟩ ⟨tagStack, none⟩ :=
  ⟨rfl, .inr rfl⟩

theorem SameSoFar.push (h : SameSoFar state state') {text text' : Text}
    (htext : UnderSecret state.tagStack ∨ text = text') :
    SameSoFar (state.push text) (state'.push text') := by
  refine ⟨h.tagStack, ?_⟩
  rcases htext with hsecret | rfl
  · exact .inl ⟨hsecret, rfl⟩
  · rcases h.textRun with ⟨hsecret, -⟩ | hrun
    · exact .inl ⟨hsecret, rfl⟩
    · exact .inr (by simp [XmlState.push, hrun])

theorem SameSoFar.flush (h : SameSoFar state state') :
    flushTextRun redactText (fun _ => false) false state =
      flushTextRun redactText (fun _ => false) false state' := by
  rw [flushTextRun, flushTextRun, h.tagStack]
  rcases h.textRun with ⟨hsecret, hsome⟩ | hrun
  · rcases hrun : state.textRun with _ | joined <;> rcases hrun' : state'.textRun with _ | joined' <;>
      simp only [hrun, hrun', isSome_none, isSome_some, reduceCtorEq] at hsome ⊢
    rw [redactBody_eq (.inl hsecret)]
  · rw [hrun]

theorem flushTextRun_structure (state : XmlState) :
    (flushTextRun redactText (fun _ => false) false state).flatMap structureOf = [] := by
  rcases h : state.textRun with _ | joined <;> simp [flushTextRun, h, structureOf]

variable (redactText) in
/-- **One event.**  Two readers at the same place that read agreeing events write the same events,
with the elements and attribute names of what they read, and are at the same place again. -/
theorem redactEvent_agree {event event' : XmlEvent}
    (hsame : SameSoFar state state') (hagree : AgreeEvent codec state.tagStack event event')
    (hdecodes : Decodes codec event) (hdecodes' : Decodes codec event') :
    ∃ next next' out,
      redactEvent codec redactText (fun _ => false) false state event = .ok (next, out) ∧
      redactEvent codec redactText (fun _ => false) false state' event' = .ok (next', out) ∧
      SameSoFar next next' ∧ next.tagStack = stackAfter codec state.tagStack event ∧
      out.flatMap structureOf = structureOf event := by
  have hflush : flushTextRun redactText (fun _ => false) false state =
      flushTextRun redactText (fun _ => false) false state' := hsame.flush
  have hnone : (flushTextRun redactText (fun _ => false) false state).flatMap structureOf = [] :=
    flushTextRun_structure state
  have hstack := hsame.tagStack
  cases event with
  | text raw | generalRef raw =>
    obtain ⟨raw', rfl, hraw⟩ := hagree
    obtain ⟨decoded, hdecoded⟩ := isSome_iff_exists.mp hdecodes
    obtain ⟨decoded', hdecoded'⟩ := isSome_iff_exists.mp hdecodes'
    refine ⟨state.push decoded, state'.push decoded', [], by simp [redactEvent, hdecoded],
      by simp [redactEvent, hdecoded'], hsame.push ?_, rfl, rfl⟩
    exact hraw.imp_right fun h => by simpa [h, hdecoded'] using hdecoded.symm
  | start name attributes | empty name attributes =>
    obtain ⟨attributes', rfl, hattrs⟩ := hagree
    obtain ⟨redacted, hredacted, hnames⟩ :=
      redactAttributes_ok (state.tagStack ++ [codec.localName name]) attributes hdecodes
    have hredacted' := redactAttributes_eq hattrs hdecodes hdecodes'
    refine ⟨_, _, _, by simp only [redactEvent, hredacted]; rfl,
      by simp only [redactEvent, hstack, ← hredacted', hredacted, ← hflush],
      SameSoFar.fresh _, rfl, ?_⟩
    simp [hnone, structureOf, hnames]
  | cdata content =>
    obtain ⟨content', rfl, hcontent⟩ := hagree
    refine ⟨_, _, _, rfl, by rw [redactEvent, hstack, ← hflush, ← redactBody_eq hcontent],
      SameSoFar.fresh _, rfl, ?_⟩
    simp [hnone, structureOf]
  | close name | comment raw | other raw =>
    obtain rfl : event' = _ := hagree
    refine ⟨_, _, _, rfl, by rw [redactEvent, hstack, ← hflush], SameSoFar.fresh _, rfl, ?_⟩
    simp [hnone, structureOf]

/-! ### Whole streams -/

variable (redactText) in
/-- **A run.**  From the same place, agreeing streams are written as the same events. -/
theorem redactEvents_agree {events events' : List XmlEvent}
    (hsame : SameSoFar state state') (hagree : AgreeEvents codec state.tagStack events events')
    (hdecodes : ∀ event ∈ events, Decodes codec event)
    (hdecodes' : ∀ event ∈ events', Decodes codec event)
    (hclosed : events.foldl (stackAfter codec) state.tagStack = []) :
    ∃ out, redactEvents codec redactText (fun _ => false) false state events = .ok out ∧
      redactEvents codec redactText (fun _ => false) false state' events' = .ok out ∧
      out.flatMap structureOf = events.flatMap structureOf := by
  -- along the first stream; both readers stay at the same place
  induction events generalizing events' state state' with
  | nil =>
    obtain rfl : events' = [] := hagree
    have hempty : state.tagStack = [] := hclosed
    refine ⟨flushTextRun redactText (fun _ => false) false state, ?_, ?_,
      flushTextRun_structure state⟩
    · simp [redactEvents, hempty]
    · simp [redactEvents, hsame.tagStack, hempty, hsame.flush]
  | cons event events ih =>
    obtain ⟨event', rest', rfl, hevent, hrest⟩ := hagree
    obtain ⟨next, next', out, hstep, hstep', hnext, hafter, hout⟩ :=
      redactEvent_agree redactText hsame hevent (hdecodes event (by simp)) (hdecodes' event' (by simp))
    rw [← hafter] at hrest
    obtain ⟨rest, hrun, hrun', hstructure⟩ := ih hnext hrest
      (fun e hmem => hdecodes e (mem_cons_of_mem _ hmem))
      (fun e hmem => hdecodes' e (mem_cons_of_mem _ hmem))
      (by rw [hafter]; exact hclosed)
    refine ⟨out ++ rest, by simp [redactEvents, hstep, hrun], by simp [redactEvents, hstep', hrun'],
      ?_⟩
    rw [flatMap_append, hout, hstructure, flatMap_cons]

end

/-- **Noninterference below secret names**, for any text redaction and any decoding.  Two JSON values
that differ only below secret keys give one result; two well-formed event streams that differ only
inside secret elements give one result, with the elements and attribute names of the input. -/
theorem structured_redaction_noninterfering (redactText : Text → Text) (codec : XmlCodec) :
    (∀ v w : Json, Agree none v w →
      redactJson (fun s => String.ofList (redactText s.toList)) v =
        redactJson (fun s => String.ofList (redactText s.toList)) w) ∧
    (∀ events events' : List XmlEvent, WellFormed codec events → WellFormed codec events' →
      AgreeEvents codec [] events events' →
      ∃ out, redactXml codec redactText events = .ok out ∧
        redactXml codec redactText events' = .ok out ∧
        out.flatMap structureOf = events.flatMap structureOf) := by
  refine ⟨fun v w hagree => redactJson_eq_of_agree hagree, ?_⟩
  intro events events' hwell hwell' hagree
  exact redactEvents_agree redactText (SameSoFar.fresh []) hagree hwell.1 hwell'.1 hwell.2

/-- A password as JSON and as an element, with two values each. -/
theorem structured_redaction_noninterfering_password :
    redactJson (fun s => String.ofList (redactText s.toList))
        (.obj [("password", .str "alpha"), ("role", .str "ro")]) =
      redactJson (fun s => String.ofList (redactText s.toList))
        (.obj [("password", .str "beta"), ("role", .str "ro")]) ∧
    ∃ out, redactXml ⟨some, some, some, id⟩ redactText
        [.start "psk".toList [], .text "alpha".toList, .close "psk".toList] = .ok out ∧
      redactXml ⟨some, some, some, id⟩ redactText
        [.start "psk".toList [], .text "beta".toList, .close "psk".toList] = .ok out ∧
      out.flatMap structureOf = [("psk".toList, [], 0), ("psk".toList, [], 2)] := by
  have hboth := structured_redaction_noninterfering redactText ⟨some, some, some, id⟩
  refine ⟨hboth.1 _ _ ?_, hboth.2 _ _ ?_ ?_ ?_⟩
  · refine ⟨_, rfl, _, _, rfl, .inr ⟨.inl (by decide), ?_⟩, _, _, rfl, .inl rfl, rfl⟩
    simp [SameShape, Json.asObject, Json.asArray]
  · exact ⟨by simp [Decodes], rfl⟩
  · exact ⟨by simp [Decodes], rfl⟩
  · refine ⟨_, _, rfl, ⟨_, rfl, rfl, .inr rfl⟩, _, _, rfl, ⟨_, rfl, .inl ?_⟩, _, _, rfl, rfl, rfl⟩
    exact ⟨_, mem_singleton.mpr rfl, by decide⟩

end Mecmcp.Redact
