import Mecmcp.Lib.Paths
import Mecmcp.Policy.Rules

/-!
# XmlPath — the XML walk, read blocks and command paths

`walk_elements`, `blocked_read_paths` and `canonical_command_path` as machines over the events that
quick-xml hands out.  An event carries what the code looks at: the local name after decoding, whether
the attributes are well formed, and what a reference resolves to.  The end of the list is `Eof`, and
an error of the reader is an event of its own.
-/

namespace Mecmcp.Policy

open Paths

def maxDepth : ℕ := 512

def maxElements : ℕ := 50000

/-- What `InvalidXml` is about. -/
inductive InvalidXml where
  | parser (message : Text)
  | unclosedElement
  | noRootElement
  | unmatchedClosingTag
  | docTypeNotAccepted
  | entityReferenceNotAccepted
  | elementName (name : Text)
  deriving DecidableEq

inductive XmlPathError where
  | invalidXml (cause : InvalidXml)
  | tooDeep
  | tooLarge
  | ambiguousCommand
  deriving DecidableEq

/-- `ElementPath`: the names from the root down. -/
abbrev ElementPath : Type := List Text

def pathString (path : ElementPath) : Text := join '/' path

/-! ### Events -/

/-- What the reader hands out. -/
inductive XmlEvent where
  | start (name : Text) (attrs : Except Text Unit)
  | empty (name : Text) (attrs : Except Text Unit)
  | «end»
  | docType
  /-- a reference: whether it is a character reference, and whether it is a predefined entity -/
  | generalRef (charRef : Except Text Bool) (predefined : Bool)
  /-- text, CDATA, comments, declarations and processing instructions -/
  | other
  /-- the reader itself fails -/
  | failed (message : Text)

def reservedNameChars : List Char := ['/', '*', '?', '[', ']', '\x7b', '\x7d', '\\']

def localName (name : Text) : Except XmlPathError Text :=
  if name.isEmpty || name.any (fun c => isWhitespace c || reservedNameChars.contains c) then
    .error (.invalidXml (.elementName name))
  else .ok name

def validateAttrs : Except Text Unit → Except XmlPathError Unit
  | .ok _ => .ok ()
  | .error message => .error (.invalidXml (.parser message))

def rejectNonPredefinedRef (charRef : Except Text Bool) (predefined : Bool) :
    Except XmlPathError Unit :=
  match charRef with
  | .error message => .error (.invalidXml (.parser message))
  | .ok true => .ok ()
  | .ok false =>
    if predefined then .ok () else .error (.invalidXml .entityReferenceNotAccepted)

/-! ### The walk -/

/-- The variables of `walk_elements`, with what the callback keeps. -/
structure Walk (S : Type) where
  stack : ElementPath
  elementCount : ℕ
  kept : S

section
variable {S : Type} (onElement : S → ElementPath → S)

/-- What `Start` and `Empty` have in common. -/
def Walk.push (walk : Walk S) (name : Text) (attrs : Except Text Unit) :
    Except XmlPathError (Walk S) := do
  if maxDepth ≤ walk.stack.length then throw .tooDeep
  validateAttrs attrs
  if maxElements < walk.elementCount + 1 then throw .tooLarge
  let name ← localName name
  let stack := walk.stack ++ [name]
  return ⟨stack, walk.elementCount + 1, onElement walk.kept stack⟩

/-- One turn of the loop. -/
def Walk.step (walk : Walk S) : XmlEvent → Except XmlPathError (Walk S)
  | .start name attrs => walk.push onElement name attrs
  | .empty name attrs => do
    let walk ← walk.push onElement name attrs
    return { walk with stack := walk.stack.dropLast }
  | .end =>
    if walk.stack.isEmpty then throw (.invalidXml .unmatchedClosingTag)
    else return { walk with stack := walk.stack.dropLast }
  | .docType => throw (.invalidXml .docTypeNotAccepted)
  | .generalRef charRef predefined => do
    rejectNonPredefinedRef charRef predefined
    return walk
  | .other => return walk
  | .failed message => throw (.invalidXml (.parser message))

/-- The arm of `Eof`. -/
def Walk.finish (walk : Walk S) : Except XmlPathError S :=
  if !walk.stack.isEmpty then throw (.invalidXml .unclosedElement)
  else if walk.elementCount = 0 then throw (.invalidXml .noRootElement)
  else return walk.kept

def walkElements (events : List XmlEvent) (init : S) : Except XmlPathError S := do
  let walk ← events.foldlM (Walk.step onElement) ⟨[], 0, init⟩
  walk.finish

end

def elementPaths (events : List XmlEvent) : Except XmlPathError (List ElementPath) :=
  walkElements (fun paths path => paths ++ [path]) events []

/-! ### Read blocks -/

/-- The variables of `blocked_read_paths`. -/
structure Blocking where
  blocked : Finset Text
  directlyDenied : Finset Text
  lastPath : Option ElementPath

/-- `candidate[..offset]`, with the offset in bytes.  Off a character boundary the slice panics;
the offsets used are ends of segments. -/
def sliceTo (candidate : Text) (offset : ℕ) : Text := takeWeight Char.utf8Size offset candidate

/-- The end of each segment in the joined path, in bytes. -/
def offsets (path : ElementPath) : List ℕ := offsetsFrom Char.utf8Size 1 0 0 path

/-- The insertion loop, over the offsets from the longest: it ends at the first prefix that is
already there. -/
def insertPrefixes (candidate : Text) : List ℕ → Finset Text → Finset Text
  | [], blocked => blocked
  | offset :: rest, blocked =>
    if sliceTo candidate offset ∈ blocked then blocked
    else insertPrefixes candidate rest (insert (sliceTo candidate offset) blocked)

section
variable {A : Type} [BEq A] (rules : List (CompiledRule A)) (denyAction : A)

/-- The most specific rule that matches the path denies. -/
def directlyMatches (path : ElementPath) : Bool :=
  (evaluate rules (pathString path)).any fun rule => rule.action == denyAction

/-- The callback of `blocked_read_paths`. -/
def Blocking.visit (s : Blocking) (path : ElementPath) : Blocking :=
  if s.lastPath = some path then s
  else
    let candidate := pathString path
    let offsets := offsets path
    let descendantOfDenied :=
      offsets.dropLast.any fun offset => decide (sliceTo candidate offset ∈ s.directlyDenied)
    let matched := directlyMatches rules denyAction path
    { lastPath := some path
      directlyDenied := if matched then insert candidate s.directlyDenied else s.directlyDenied
      blocked :=
        if matched || descendantOfDenied then insertPrefixes candidate offsets.reverse s.blocked
        else s.blocked }

def blockedReadPaths (events : List XmlEvent) : Except XmlPathError (Finset Text) := do
  let s ← walkElements (Blocking.visit rules denyAction) events ⟨∅, ∅, none⟩
  return s.blocked

end

def isReadBlocked (blocked : Finset Text) (requestedPath : ElementPath) : Bool :=
  decide (pathString requestedPath ∈ blocked)

/-! ### Command paths -/

structure Frame where
  name : Text
  childCount : ℕ
  deriving DecidableEq

/-- The variables of `canonical_command_path`. -/
structure Command where
  stack : List Frame
  rootSeen : Bool
  elementCount : ℕ
  leafPath : Option ElementPath

namespace Command

/-- `open`: the ceilings, and no second root or second child. -/
def openElement (c : Command) : Except XmlPathError Command := do
  if maxDepth ≤ c.stack.length then throw .tooDeep
  let c ← match c.stack.getLast? with
    | some parent =>
      if 1 < parent.childCount + 1 then throw .ambiguousCommand
      else pure { c with
        stack := c.stack.dropLast ++ [{ parent with childCount := parent.childCount + 1 }] }
    | none => if c.rootSeen then throw .ambiguousCommand else pure { c with rootSeen := true }
  if maxElements < c.elementCount + 1 then throw .tooLarge
  return { c with elementCount := c.elementCount + 1 }

/-- `record_if_leaf`, with the ancestors on the stack. -/
def recordIfLeaf (c : Command) (childCount : ℕ) (name : Text) : Except XmlPathError Command :=
  if childCount ≠ 0 then return c
  else if c.leafPath.isSome then throw .ambiguousCommand
  else return { c with leafPath := some (c.stack.map Frame.name ++ [name]) }

/-- One turn of the loop. -/
def step (c : Command) : XmlEvent → Except XmlPathError Command
  | .start name attrs => do
    validateAttrs attrs
    let c ← c.openElement
    let name ← localName name
    return { c with stack := c.stack ++ [⟨name, 0⟩] }
  | .empty name attrs => do
    validateAttrs attrs
    let c ← c.openElement
    let name ← localName name
    c.recordIfLeaf 0 name
  | .end =>
    match c.stack.getLast? with
    | none => throw (.invalidXml .unmatchedClosingTag)
    | some frame => { c with stack := c.stack.dropLast }.recordIfLeaf frame.childCount frame.name
  | .docType => throw (.invalidXml .docTypeNotAccepted)
  | .generalRef charRef predefined => do
    rejectNonPredefinedRef charRef predefined
    return c
  | .other => return c
  | .failed message => throw (.invalidXml (.parser message))

/-- The arm of `Eof`. -/
def finish (c : Command) : Except XmlPathError Text :=
  if !c.stack.isEmpty then throw (.invalidXml .unclosedElement)
  else if !c.rootSeen then throw (.invalidXml .noRootElement)
  else
    match c.leafPath with
    | some path => return pathString path
    | none => throw .ambiguousCommand

end Command

def canonicalCommandPath (events : List XmlEvent) : Except XmlPathError Text := do
  let c ← events.foldlM Command.step ⟨[], false, 0, none⟩
  c.finish

end Mecmcp.Policy
