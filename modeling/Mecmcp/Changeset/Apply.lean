import Mecmcp.Changeset.Methods

/-!
# Apply — applying an approved change set

`apply_change_set` of `apply.rs`, cut at the points where its state of knowledge changes: the plan
is checked (`checkPlan`), checked again under the device guard (`checkPlanGuarded`), an operation is
reserved and the change set claimed (`reserve`), the device is locked and looked at
(`lockDevice`, `checkUnmoved`), and the actions are staged (`stageReserved`).
-/

namespace Mecmcp.Changeset

open Method

/-- The arguments of `apply_change_set`. -/
structure ApplyArgs where
  changeSetId : String
  device : String
  endpoint : String
  owner : String
  expectedDigest : String
  expectedFingerprint : String
  primaryActionDiscriminator : String
  vendorPrimaryTarget : Option String
  configAuthority : Option String

structure ApplyOutput (Staged : Type) where
  operationId : String
  beforeFingerprint : String
  afterFingerprint : String
  staged : Staged
  recordedState : ChangeSetState

/-- `canonicalize_endpoint` of `apply.rs`. -/
def canonicalizeEndpoint (C : Crates) (endpoint : String) : Except CoordinatorError String :=
  match C.urlParse endpoint with
  | .error error => .error ⟨"endpoint", "invalid endpoint URL: " ++ error⟩
  | .ok url =>
    match url.host with
    | none => .error ⟨"endpoint", "endpoint must contain a valid host"⟩
    | some host => .ok (url.canonical host)

variable {V : Vendor}

/-- Stop with an error if the token is cancelled. -/
def checkCancelled : Method V Unit := do
  let cancelled ← isCancelled
  check (refuseIf (cancelled = true) ⟨"device", "operation cancelled"⟩)

/-- `serde_json::from_value` on every stored action, from index `index` on. -/
def parseActions (V : Vendor) : (index : ℕ) → List Value → Except CoordinatorError (List V.Action)
  | _, [] => .ok []
  | index, value :: rest => do
    let action ← (V.fromValue value).mapError fun error =>
      ⟨"actions", "failed to deserialize action " ++ toString index ++ ": " ++ error⟩
    let actions ← parseActions V (index + 1) rest
    .ok (action :: actions)

/-- The record is no longer the one that was approved. -/
def ApplyArgs.checkExact (args : ApplyArgs) (changeSet : ChangeSetRecord) :
    Except CoordinatorError Unit :=
  refuseIf (changeSet.owner ≠ args.owner ∨ changeSet.state ≠ .approved ∨
      changeSet.digest ≠ args.expectedDigest ∨
      changeSet.expectedCandidateFingerprint ≠ args.expectedFingerprint)
    ⟨"change_set_id", "change set is no longer the exact unexpired approved plan"⟩

def checkWindow (changeSet : ChangeSetRecord) (now : UInt64) (message : String) :
    Method V Unit := do
  if changeSet.expiresAtUnix ≤ now then
    Method.updateChangeSet { changeSet with state := .expired }
    Prog.fail ⟨"change_set_id", message⟩
  else pure ()

/-- Everything `apply_change_set` checks before it takes the device guard. -/
def checkPlan (self : Config) (args : ApplyArgs) : Method V Unit := do
  let changeSet ← changeSet args.changeSetId args.device
  check (refuseIf (changeSet.owner ≠ args.owner)
    ⟨"change_set_id", "only the principal that created the change set may apply it"⟩)
  check (refuseIf (changeSet.state ≠ .approved)
    ⟨"change_set_id", "change set requires approval before apply"⟩)
  let nowForWaiver ← nowUnix
  check (waiverExpiryError changeSet nowForWaiver "before device guard")
  check (approvalGate self.labMode changeSet)
  let now ← nowUnix
  checkWindow changeSet now "approved change set expired"
  check (refuseIf (changeSet.digest ≠ args.expectedDigest ∨
      changeSet.expectedCandidateFingerprint ≠ args.expectedFingerprint)
    ⟨"expected_digest", "apply input does not match the exact approved plan"⟩)

def checkPlanGuarded (args : ApplyArgs) : Method V ChangeSetRecord := do
  let changeSet ← changeSet args.changeSetId args.device
  let nowAfterGuard ← nowUnix
  check (args.checkExact changeSet)
  check (waiverExpiryError changeSet nowAfterGuard "after acquiring device guard")
  checkWindow changeSet nowAfterGuard "change set expired while waiting for device guard"
  pure changeSet

def reservation (args : ApplyArgs) (endpoint operationId beforeFingerprint : String)
    (changeSet : ChangeSetRecord) (actionCount : ℕ) : OperationRecord where
  id := operationId
  owner := args.owner
  device := args.device
  endpoint
  action := ⟨.str args.primaryActionDiscriminator, rfl⟩
  xpath := args.vendorPrimaryTarget
  actions := changeSet.actions
  changeSetId := some args.changeSetId
  current := beforeFingerprint
  state := .staging
  jobId := none
  details := some ("staging change set " ++ args.changeSetId ++ " with " ++ toString actionCount
    ++ " actions")
  configLockHeld := false
  policySignature := changeSet.policySignature
  attribution := none
  rollbackDeadlineUnix := none
  configAuthority := args.configAuthority

/-- Reserve the device and claim the change set: the claimed record, linked to the operation. -/
def reserve (args : ApplyArgs) (endpoint operationId beforeFingerprint : String)
    (changeSet : ChangeSetRecord) (actionCount : ℕ) : Method V ChangeSetRecord := do
  insert (reservation args endpoint operationId beforeFingerprint changeSet actionCount)
  let claimed ← Prog.attempt (Method.claimChangeSetForApply changeSet.id changeSet.device .expected)
  match claimed with
  | .error error =>
    remove operationId
    Prog.fail error
  | .ok claimed =>
    let linked := { claimed with operationId := some operationId }
    let updated ← Prog.attempt (Method.updateChangeSet linked)
    match updated with
    | .error error =>
      remove operationId
      Prog.fail error
    | .ok () => pure linked

/-- Give up before anything was staged: drop the reservation, mark the change set `Failed`. -/
def abandonApply {α : Type} (operationId : String) (changeSet : ChangeSetRecord)
    (error : CoordinatorError) : Method V α := do
  remove operationId
  let _ ← Prog.attempt (Method.updateChangeSet { changeSet with state := .failed })
  Prog.fail error

def lockDevice (args : ApplyArgs) (operationId : String) (changeSet : ChangeSetRecord) :
    Method V Bool := do
  let preStageRecord ← record operationId args.owner args.device
  let updated ← Prog.attempt (update { preStageRecord with configLockHeld := true })
  match updated with
  | .error error => abandonApply operationId changeSet error
  | .ok () =>
    let required ← requiresConfigLock
    if required then
      let locked : Except String Unit ←
        device (.lock ("mecmcp change set " ++ args.changeSetId))
      match locked with
      | .error error =>
        abandonApply operationId changeSet
          ⟨"config_lock", "could not acquire the device configuration lock: " ++ error⟩
      | .ok () => pure true
    else pure false

/-- Unlock without looking at the answer, and give up. -/
def unlockAndAbandon {α : Type} (operationId : String) (changeSet : ChangeSetRecord)
    (locked : Bool) (error : CoordinatorError) : Method V α := do
  if locked then
    let _ ← device .unlock
    abandonApply operationId changeSet error
  else abandonApply operationId changeSet error

/-- The candidate must be the one the plan was made against. -/
def checkUnmoved (args : ApplyArgs) (operationId : String) (changeSet : ChangeSetRecord)
    (locked : Bool) : Method V Unit := do
  let preStage : Except String String ← device .fingerprint
  match preStage with
  | .error error =>
    unlockAndAbandon operationId changeSet locked
      ⟨"device", "pre-stage fingerprint failed: " ++ error⟩
  | .ok preStageFingerprint =>
    if preStageFingerprint ≠ args.expectedFingerprint then
      unlockAndAbandon operationId changeSet locked ⟨"expected_fingerprint",
        "device fingerprint changed between check and stage: expected " ++ args.expectedFingerprint
          ++ ", found " ++ preStageFingerprint⟩
    else pure ()

/-- The device refused to stage: the change set is `Failed` and the reservation dropped. -/
def stageFailed {α : Type} (operationId : String) (changeSet : ChangeSetRecord) (error : String) :
    Method V α := do
  let updated ← Prog.attempt (Method.updateChangeSet { changeSet with state := .failed })
  remove operationId
  Prog.ofExcept updated
  let taggedError ← renderTagged error "device.stage_error"
  Prog.fail ⟨"device", "staging failed: " ++ taggedError⟩

/-- The device staged, but its fingerprint cannot be read: the operation is `Indeterminate`. -/
def fingerprintLost {α : Type} (args : ApplyArgs) (operationId : String)
    (changeSet : ChangeSetRecord) (error : String) : Method V α := do
  let taggedError ← renderTagged error "device.fingerprint_error"
  let record ← record operationId args.owner args.device
  update { record with
    state := .indeterminate
    details := some ("fingerprint read failed after staging: " ++ taggedError
      ++ "; staged changes remain on device") }
  let _ ← Prog.attempt (Method.updateChangeSet { changeSet with state := .failed })
  Prog.fail ⟨"device", "fingerprint read failed after staging: " ++ taggedError
    ++ "; operation is indeterminate"⟩

/-- Stage the actions and record the outcome. -/
def stageReserved (args : ApplyArgs) (operationId beforeFingerprint : String)
    (changeSet : ChangeSetRecord) (actions : List V.Action) :
    Method V (ApplyOutput V.Staged) := do
  let stageResult : Except String V.Staged ← device (.stage actions)
  match stageResult with
  | .error error => stageFailed operationId changeSet error
  | .ok staged =>
    let after : Except String String ← device .fingerprint
    match after with
    | .error error => fingerprintLost args operationId changeSet error
    | .ok afterFingerprint =>
      let operationRecord ← record operationId args.owner args.device
      let stagedRecord := { operationRecord with
        current := afterFingerprint
        state := .staged
        details := some ("applied change set " ++ args.changeSetId ++ " with "
          ++ toString actions.length ++ " actions")
        configLockHeld := true }
      let updated ← Prog.attempt (update stagedRecord)
      match updated with
      | .ok () => pure ()
      | .error _ =>
        let _ ← Prog.attempt (update { stagedRecord with
          state := .indeterminate
          details := some "staging succeeded but Staged record persistence failed; handle returned" })
      let applied ← Prog.attempt (Method.updateChangeSet { changeSet with state := .applied })
      pure
        { operationId
          beforeFingerprint
          afterFingerprint
          staged
          recordedState := match applied with
            | .ok () => .applied
            | .error _ => .applying }

def applyChangeSet (C : Crates) (self : Config) (args : ApplyArgs) :
    Method V (ApplyOutput V.Staged) := do
  check (checkExpectedDigest args.expectedDigest)
  check ((validateFingerprint args.expectedFingerprint).mapError fun error =>
    ⟨"expected_fingerprint", error.display⟩)
  let endpoint ← Prog.ofExcept (canonicalizeEndpoint C args.endpoint)
  checkPlan self args
  deviceGuard args.device
  checkCancelled
  let changeSet ← checkPlanGuarded args
  let before : Except String String ← device .fingerprint
  let beforeFingerprint ← Prog.ofExcept (before.mapError fun error =>
    ⟨"device", "fingerprint failed: " ++ error⟩)
  check (refuseIf (beforeFingerprint ≠ args.expectedFingerprint) ⟨"expected_fingerprint",
    "device fingerprint changed: expected " ++ args.expectedFingerprint ++ ", found "
      ++ beforeFingerprint⟩)
  check (refuseIf (changeSet.policySignature = "") ⟨"change_set_id",
    "change set created before policy signatures were tracked; cannot apply"⟩)
  let actions ← Prog.ofExcept (parseActions V 0 changeSet.actions)
  let operationId ← newOperationId
  let claimed ← reserve args endpoint operationId beforeFingerprint changeSet actions.length
  let locked ← lockDevice args operationId claimed
  checkUnmoved args operationId claimed locked
  stageReserved args operationId beforeFingerprint claimed actions

end Mecmcp.Changeset
