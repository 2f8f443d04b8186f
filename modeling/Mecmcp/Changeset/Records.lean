import Mecmcp.Changeset.Crates

/-!
# Records — lifecycle states and persisted records

The data of `lifecycle.rs`, `records.rs` and `types.rs`: the two state machines' states with the
closed transition table of change sets, the operation and change-set records with everything they
persist, the operation limits, and the error types with their field and message.
-/

namespace Mecmcp.Changeset

/-! ### Lifecycle states -/

inductive LifecycleState where
  | staging | staged | validating | validated | committing
  | committed | discarded | failed | indeterminate
  deriving DecidableEq

namespace LifecycleState

def asStr : LifecycleState → String
  | staging => "staging"
  | staged => "staged"
  | validating => "validating"
  | validated => "validated"
  | committing => "committing"
  | committed => "committed"
  | discarded => "discarded"
  | failed => "failed"
  | indeterminate => "indeterminate"

def terminal : LifecycleState → Bool
  | committed | discarded => true
  | _ => false

end LifecycleState

inductive ChangeSetState where
  | planned | approved | applying | applied | expired | failed | cancelled
  deriving DecidableEq

namespace ChangeSetState

def asStr : ChangeSetState → String
  | planned => "planned"
  | approved => "approved"
  | applying => "applying"
  | applied => "applied"
  | expired => "expired"
  | failed => "failed"
  | cancelled => "cancelled"

/-- The `{:?}` form of the state. -/
def debug : ChangeSetState → String
  | planned => "Planned"
  | approved => "Approved"
  | applying => "Applying"
  | applied => "Applied"
  | expired => "Expired"
  | failed => "Failed"
  | cancelled => "Cancelled"

end ChangeSetState

def changeSetTransitionAllowed (source target : ChangeSetState) : Bool :=
  match source, target with
  | .planned, .planned | .approved, .approved | .applying, .applying | .applied, .applied
  | .expired, .expired | .failed, .failed | .cancelled, .cancelled => true
  | .planned, .approved | .planned, .expired | .planned, .cancelled => true
  | .approved, .expired | .approved, .cancelled => true
  | .applying, .applied | .applying, .failed => true
  | .expired, .cancelled | .failed, .cancelled => true
  | .applied, .failed => true
  | _, _ => false

/-- Whether an apply expects a vendor handle (a task id) to be recorded. -/
inductive ApplyHandle where
  | expected | none
  deriving DecidableEq

/-- States that occupy the one-pending-per-principal-and-device slot. -/
def isPending : ChangeSetState → Bool
  | .planned | .approved | .applying => true
  | _ => false

/-- States a passed deadline may retire. -/
def isExpirable : ChangeSetState → Bool
  | .planned | .approved => true
  | _ => false

/-! ### Records -/

inductive PersistedPrincipal where
  | token (name : String)
  | unauthenticated
  deriving DecidableEq

structure PersistedAgentIdentity where
  modelId : String
  provider : String
  providerTier : String
  skillsUsed : String
  deriving DecidableEq

structure PersistedAttribution where
  principal : PersistedPrincipal
  actorType : String
  onBehalfOf : Option String
  changeRef : Option String
  requestId : String
  agent : Option PersistedAgentIdentity
  deriving DecidableEq

structure OperationRecord where
  id : String
  owner : String
  device : String
  endpoint : String
  action : Value
  xpath : Option String
  actions : List Value
  changeSetId : Option String
  current : String
  state : LifecycleState
  jobId : Option String
  details : Option String
  configLockHeld : Bool
  policySignature : String
  attribution : Option PersistedAttribution
  rollbackDeadlineUnix : Option UInt64
  configAuthority : Option String

/-- How an approval came to be waived. -/
inductive WaiverKind where
  | labMode | operatorFile | operatorTool
  deriving DecidableEq

namespace WaiverKind

def asStr : WaiverKind → String
  | labMode => "lab_mode"
  | operatorFile => "operator_file"
  | operatorTool => "operator_tool"

/-- The `{:?}` form of the kind. -/
def debug : WaiverKind → String
  | labMode => "LabMode"
  | operatorFile => "OperatorFile"
  | operatorTool => "OperatorTool"

end WaiverKind

structure WaiverRecord where
  kind : WaiverKind
  reason : String
  expiresAtUnix : Option UInt64
  ticket : Option String
  deriving DecidableEq

/-- Approval evidence: a second principal, or a waiver. -/
structure ApprovalRecord where
  approver : Option String
  approvedAtUnix : UInt64
  digest : String
  digestVersion : UInt8
  waived : Option WaiverRecord
  deriving DecidableEq

/-- A rendered preview bound to a change set. -/
structure PreviewRecord where
  artifact : String
  digest : String
  jobId : Option String
  deriving DecidableEq

structure ChangeSetRecord where
  id : String
  owner : String
  device : String
  expectedCandidateFingerprint : String
  actions : List Value
  digest : String
  state : ChangeSetState
  approver : Option String
  approval : Option ApprovalRecord
  expiresAtUnix : UInt64
  operationId : Option String
  policySignature : String
  targets : List String
  preview : Option PreviewRecord
  taskId : Option String
  applyWithoutHandle : Bool

/-- The waiver an approval rests on, if any. -/
def ChangeSetRecord.waiver (record : ChangeSetRecord) : Option WaiverRecord :=
  record.approval.bind (·.waived)

def ChangeSetRecord.previewDigest (record : ChangeSetRecord) : Option String :=
  record.preview.map (·.digest)

/-- `normalise_task_handle`: an empty task id is no task id. -/
def normaliseTaskHandle (record : ChangeSetRecord) : ChangeSetRecord :=
  if record.taskId = some "" then { record with taskId := none } else record

/-- Capacity limits of a coordinator. -/
structure OperationLimits where
  maxOperations : ℕ
  maxChangeSets : ℕ
  maxActionsPerSet : ℕ
  maxChangeSetBytes : ℕ
  maxStateBytes : ℕ
  maxTargetsPerSet : ℕ
  maxPreviewBytes : ℕ

def OperationLimits.default : OperationLimits where
  maxOperations := 1024
  maxChangeSets := 1024
  maxActionsPerSet := 64
  maxChangeSetBytes := 256 * 1024
  maxStateBytes := 8 * 1024 * 1024
  maxTargetsPerSet := 64
  maxPreviewBytes := 64 * 1024

/-! ### Errors -/

/-- `DigestError`: the field checked and what it must look like. -/
structure DigestError where
  field : String
  message : String
  deriving DecidableEq

def DigestError.display (error : DigestError) : String := error.field ++ ": " ++ error.message

structure RecordError where
  field : String
  message : String
  deriving DecidableEq

structure PersistenceError where
  message : String
  deriving DecidableEq

/-- `CoordinatorError`: the field a caller can correct, and why. -/
structure CoordinatorError where
  field : String
  message : String
  deriving DecidableEq

def CoordinatorError.display (error : CoordinatorError) : String :=
  error.field ++ ": " ++ error.message

/-- `From<PersistenceError> for CoordinatorError`. -/
def CoordinatorError.ofPersistence (error : PersistenceError) : CoordinatorError :=
  ⟨"state", error.message⟩

inductive TargetError where
  | empty
  | emptyName
  | duplicate (name : String)
  | unsorted (name : String)
  | missingPrimary (device : String)
  | tooMany (count maximum : ℕ)
  deriving DecidableEq

def TargetError.display : TargetError → String
  | empty => "targets: a change set must name at least one target"
  | emptyName => "targets: a target name must not be empty"
  | duplicate name => "targets: '" ++ name ++ "' appears more than once"
  | unsorted name => "targets: must be sorted; '" ++ name ++ "' is out of order"
  | missingPrimary device =>
    "targets: must contain the change set's own device '" ++ device ++ "'"
  | tooMany count maximum =>
    "targets: " ++ toString count ++ " exceeds the maximum of " ++ toString maximum

inductive PreviewError where
  | malformed (detail : String)
  | mismatch
  | tooLarge (bytes maximum : ℕ)
  deriving DecidableEq

def PreviewError.display : PreviewError → String
  | malformed detail => "preview: " ++ detail
  | mismatch => "preview: digest does not match the artifact; the preview has been tampered with"
  | tooLarge bytes maximum =>
    "preview: " ++ toString bytes ++ " bytes exceeds the maximum of " ++ toString maximum

end Mecmcp.Changeset
