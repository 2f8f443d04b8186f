import Mecmcp.Lib.Text

/-!
# DeviceLog — commit comments and the logs they come back in

`apply_commit_metadata` writes one line into the commit of a device: the operator's comment, the
provenance of the agent and the id of the request.  `parse_device_log` and its Junos sibling read
device logs and look for that id.  A log is the list of its lines.

The id is the text of a UUID; the lower-case form of a text is a parameter.
-/

namespace Mecmcp.Audit

/-! ### The line that is written -/

def isUuidChar (c : Char) : Bool :=
  ('0' ≤ c && c ≤ '9') || ('a' ≤ c && c ≤ 'f') || c == '-'

/-- The text of a UUID, as far as the logs depend on it. -/
structure RequestId where
  text : Text
  nonempty : text ≠ []
  uuidChars : ∀ c ∈ text, isUuidChar c = true

inductive Tier where
  | «public»
  | «private»
  deriving DecidableEq, Repr

def Tier.display : Tier → Text
  | .public => "public".toList
  | .private => "private".toList

/-- The fields of an agent identity that reach the provenance string. -/
structure AgentIdentity where
  modelId : Text
  provider : Text
  providerTier : Tier
  skillsUsed : List Text
  deriving DecidableEq, Repr

structure Attribution where
  agent : Option AgentIdentity
  onBehalfOf : Option Text
  requestId : RequestId

inductive AttachOutcome where
  | attached
  | missed (reason : Text)
  deriving DecidableEq, Repr

variable (toLowercase : Text → Text)

/-- `{provider}-{tier}, {model_id}, {skills}, {user}`. -/
def provenanceString (agent : AgentIdentity) (onBehalfOf : Option Text) : Text :=
  let providerTier := toLowercase (agent.provider ++ '-' :: agent.providerTier.display)
  let skills := if agent.skillsUsed.isEmpty then "none".toList
    else [' '].intercalate agent.skillsUsed
  match onBehalfOf with
  | some user => providerTier ++ ", ".toList ++ agent.modelId ++ ", ".toList ++ skills ++
      ", ".toList ++ user
  | none => providerTier ++ ", ".toList ++ agent.modelId ++ ", ".toList ++ skills

/-- What the line says before the id of the request. -/
def commitText (operatorComment : Option Text) (agent : AgentIdentity) (onBehalfOf : Option Text) :
    Text :=
  let provenance := provenanceString toLowercase agent onBehalfOf
  match operatorComment with
  | some comment =>
    if (trimText comment).isEmpty then provenance
    else trimText comment ++ " | ".toList ++ provenance
  | none => provenance

def requestMarker : Text := "request.id=".toList

/-- The line `apply_commit_metadata` attaches. -/
def commitLine (operatorComment : Option Text) (agent : AgentIdentity) (onBehalfOf : Option Text)
    (requestId : RequestId) : Text :=
  commitText toLowercase operatorComment agent onBehalfOf ++ ' ' :: (requestMarker ++ requestId.text)

/-- `apply_commit_metadata`.  The sink writes to `σ` and gives the reason of a failure, if any. -/
def applyCommitMetadata {σ : Type} (sink : Text → σ → Option Text × σ)
    (operatorComment : Option Text) (attribution : Attribution) (log : σ) : AttachOutcome × σ :=
  match attribution.agent with
  | none => (.attached, log)
  | some agent =>
    match sink (commitLine toLowercase operatorComment agent attribution.onBehalfOf
        attribution.requestId) log with
    | (none, log) => (.attached, log)
    | (some reason, log) => (.missed reason, log)

/-! ### The logs that are read -/

structure DeviceCommitRef where
  deviceId : Text
  commitSha : Text
  requestId : Text
  deriving DecidableEq, Repr

/-- `line.split(pattern).nth(1)`: the text between the first two occurrences. -/
def secondPiece (pattern line : Text) : Option Text :=
  match findSub pattern line with
  | none => none
  | some i =>
    let rest := line.drop (i + pattern.length)
    match findSub pattern rest with
    | none => some rest
    | some j => some (rest.take j)

def firstWord (text : Text) : Text :=
  (text.dropWhile isWhitespace).takeWhile fun c => !isWhitespace c

/-- The id behind the first marker: up to a comma or white space. -/
def requestIdIn (line : Text) : Text :=
  match secondPiece requestMarker line with
  | none => []
  | some part => trimText (firstWord (part.takeWhile (· ≠ ',')))

def deviceMarker : Text := "Device:".toList

/-- What `parse_device_log` keeps between lines. -/
structure GitState where
  commitSha : Option Text
  deviceId : Option Text
  commits : List DeviceCommitRef
  deriving DecidableEq, Repr

def commitMarker : Text := "commit ".toList

/-- The first two checks of a line. -/
def GitState.header (state : GitState) (line : Text) : GitState :=
  let state :=
    if commitMarker.isPrefixOf line then
      { state with commitSha := some (trimText (line.drop commitMarker.length)), deviceId := none }
    else state
  match secondPiece deviceMarker line with
  | some device => { state with deviceId := some (trimText device) }
  | none => state

def GitState.step (state : GitState) (line : Text) : GitState :=
  let state := state.header line
  if containsSub requestMarker line then
    match state.commitSha, state.deviceId with
    | some sha, some device =>
      if requestIdIn line = [] then state
      else { state with commits := state.commits ++ [⟨device, sha, requestIdIn line⟩] }
    | _, _ => state
  else state

def parseDeviceLog (lines : List Text) : List DeviceCommitRef :=
  (lines.foldl GitState.step ⟨none, none, []⟩).commits

def splitWhitespace (text : Text) : List Text :=
  (text.splitOnP isWhitespace).filter fun word => !word.isEmpty

def extractJunosTimestamp (line : Text) : Option Text :=
  match findSub "UTC".toList line with
  | none => none
  | some utcPos =>
    match (splitWhitespace (trimText (line.take utcPos))).reverse with
    | time :: date :: _ :: _ =>
      if date.contains '-' && time.contains ':' then some (date ++ 'T' :: time ++ ['Z']) else none
    | _ => none

/-- What `parse_junos_native_log` keeps between lines. -/
structure JunosState where
  timestamp : Option Text
  inCommentBlock : Bool
  commits : List DeviceCommitRef
  deriving DecidableEq, Repr

def JunosState.header (state : JunosState) (line : Text) : JunosState :=
  if line.head? = some ' ' ∨ line.head? = some '\t' then { state with inCommentBlock := true }
  else if (line.dropWhile isWhitespace).head?.any (fun c => '0' ≤ c && c ≤ '9') then
    match extractJunosTimestamp line with
    | some timestamp => { state with timestamp := some timestamp, inCommentBlock := false }
    | none => state
  else state

def JunosState.step (deviceId : Text) (state : JunosState) (line : Text) : JunosState :=
  let state := state.header line
  if state.inCommentBlock && containsSub requestMarker line then
    match state.timestamp with
    | some timestamp =>
      if requestIdIn line = [] then state
      else { state with commits := state.commits ++ [⟨deviceId, timestamp, requestIdIn line⟩] }
    | none => state
  else state

def parseJunosNativeLog (deviceId : Text) (lines : List Text) : List DeviceCommitRef :=
  (lines.foldl (JunosState.step deviceId) ⟨none, false, []⟩).commits

inductive LogFormat where
  | git
  | junosNative
  deriving DecidableEq, Repr

def parseDeviceLogWithFormat (format : LogFormat) (deviceId : Option Text) (lines : List Text) :
    List DeviceCommitRef :=
  match format with
  | .git => parseDeviceLog lines
  | .junosNative => parseJunosNativeLog (deviceId.getD "unknown".toList) lines

end Mecmcp.Audit
