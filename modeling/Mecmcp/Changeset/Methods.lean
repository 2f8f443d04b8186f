import Mecmcp.Changeset.Transaction

/-!
# Methods — planning, approving and reading change sets

The asynchronous methods of `changeset.rs`, as programs over `calls`.  The three ways of approving
share the steps between reading the record and granting (`openForApproval`), and the two waivers
share the grant (`grantWaiver`).
-/

namespace Mecmcp.Changeset

open Method

structure ChangeSetOutput where
  changeSetId : String
  owner : String
  device : String
  digest : String
  state : ChangeSetState
  approver : Option String
  expiresAtUnix : UInt64
  actionCount : ℕ
  approvalWaiver : Option String
  actions : Option (List Value)

/-- `From<ChangeSetRecord> for ChangeSetOutput`. -/
def ChangeSetRecord.output (record : ChangeSetRecord) : ChangeSetOutput where
  changeSetId := record.id
  owner := record.owner
  device := record.device
  digest := record.digest
  state := record.state
  approver := record.approver
  expiresAtUnix := record.expiresAtUnix
  actionCount := record.actions.length
  approvalWaiver := record.waiver.map (·.reason)
  actions := none

def saturatingAdd (a b : UInt64) : UInt64 :=
  if a.toNat + b.toNat < 2 ^ 64 then a + b else UInt64.ofNat (2 ^ 64 - 1)

variable {V : Vendor}

def validateChangeSetActions (actions : List V.Action) (limits : OperationLimits) :
    Except RecordError Unit :=
  if actions.isEmpty then .error ⟨"actions", "change set must contain at least 1 action"⟩
  else if actions.length > limits.maxActionsPerSet then
    .error ⟨"actions", "change set exceeds maximum of " ++ toString limits.maxActionsPerSet
      ++ " actions"⟩
  else match V.toVec actions with
    | .error error => .error ⟨"actions", "could not encode change set: " ++ error⟩
    | .ok encoded =>
      refuseIf (encoded.length > limits.maxChangeSetBytes)
        ⟨"actions", "serialized change set exceeds " ++ toString limits.maxChangeSetBytes
          ++ " bytes"⟩

/-- `serde_json::to_value` on every action, with the caller's error. -/
def actionValues (error : String → CoordinatorError) :
    List V.Action → Except CoordinatorError (List Value)
  | [] => .ok []
  | action :: rest => do
    let value ← (V.toValue action).mapError error
    let values ← actionValues error rest
    .ok (value :: values)

/-! ### Planning -/

/-- The record `create_change_set` inserts. -/
def plannedRecord (C : Crates) (self : Config) (now : UInt64) (id owner device : String)
    (expectedFingerprint policySignature : String) (actions : List Value) : ChangeSetRecord where
  id
  owner
  device
  expectedCandidateFingerprint := expectedFingerprint
  actions
  digest := changeSetDigest C owner device expectedFingerprint actions
  state := .planned
  approver := none
  approval := none
  expiresAtUnix := saturatingAdd now self.approvalTtl
  operationId := none
  policySignature
  targets := []
  preview := none
  taskId := none
  applyWithoutHandle := false

def createChangeSet (C : Crates) (self : Config) (device : String) (actions : List V.Action)
    (owner expectedFingerprint policySignature : String) : Method V ChangeSetOutput := do
  check ((validateFingerprint expectedFingerprint).mapError fun error =>
    ⟨"expected_candidate_fingerprint", error.display⟩)
  check ((validateChangeSetActions actions self.limits).mapError fun error =>
    ⟨error.field, error.message⟩)
  let now ← nowUnix
  let id ← newOperationId
  let values ← Prog.ofExcept (actionValues
    (fun error => ⟨"actions", "failed to serialize action: " ++ error⟩) actions)
  let record := plannedRecord C self now id owner device expectedFingerprint policySignature values
  Method.insertChangeSet record
  let _ ← report self (.proposal id id record.device record.owner record.digest)
  pure record.output

/-! ### Approving -/

/-- From the record as read to the moment of the grant: it must be `Planned`, its window open, and
its digest the one the caller saw. -/
def openForApproval (record : ChangeSetRecord) (expectedDigest : String) : Method V UInt64 := do
  check (refuseIf (record.state ≠ .planned)
    ⟨"change_set_id", "change set is not awaiting approval"⟩)
  let now ← nowUnix
  if record.expiresAtUnix ≤ now then
    Method.updateChangeSetFrom record.state { record with state := .expired }
    Prog.fail ⟨"change_set_id", "change-set approval window expired"⟩
  else
    check (refuseIf (record.digest ≠ expectedDigest)
      ⟨"expected_digest", "digest does not match the exact stored change set"⟩)
    pure now

/-- `validate_digest` on the digest the caller expects. -/
def checkExpectedDigest (expectedDigest : String) : Except CoordinatorError Unit :=
  (validateDigest expectedDigest "expected_digest").mapError fun error =>
    ⟨"expected_digest", error.display⟩

/-- The approval evidence: keyed if the deployment has a key. -/
def approvalDigest (C : Crates) (self : Config) (changeSetId : String) (record : ChangeSetRecord)
    (approver : String) (now : UInt64) : String × UInt8 :=
  match self.approvalDigestKey with
  | some key => (computeApprovalDigestV6 C key changeSetId record.digest record.previewDigest
      record.owner approver now, 6)
  | none => (computeApprovalDigestV5 C changeSetId record.digest record.previewDigest record.owner
      approver now, 5)

/-- The record `approve_change_set` writes. -/
def ChangeSetRecord.approvedBy (C : Crates) (self : Config) (changeSetId : String)
    (record : ChangeSetRecord) (approver : String) (now : UInt64) : ChangeSetRecord :=
  { record with
    state := .approved
    approver := some approver
    approval := some
      { approver := some approver
        approvedAtUnix := now
        digest := (approvalDigest C self changeSetId record approver now).1
        digestVersion := (approvalDigest C self changeSetId record approver now).2
        waived := none } }

def approveChangeSet (C : Crates) (self : Config) (changeSetId device approver : String)
    (expectedDigest : String) (approverActorType : ActorType) : Method V ChangeSetOutput := do
  check (checkExpectedDigest expectedDigest)
  let record ← changeSet changeSetId device
  check (refuseIf (record.owner = approver)
    ⟨"change_set_id", "the change-set owner cannot approve their own plan"⟩)
  check (refuseIf (approverActorType ≠ .human)
    ⟨"approver_actor_type", "the change-set approver must be a human principal"⟩)
  let now ← openForApproval record expectedDigest
  check ((validatePrincipalForDigest C "owner" record.owner).mapError fun message =>
    ⟨"owner", message⟩)
  check ((validatePrincipalForDigest C "approver" approver).mapError fun message =>
    ⟨"approver", message⟩)
  check ((record.validatePreview C usizeMax).mapError fun error =>
    ⟨"preview", "the preview is invalid: " ++ error.display⟩)
  let approved := record.approvedBy C self changeSetId approver now
  Method.updateChangeSetFrom record.state approved
  let _ ← report self (.approval changeSetId changeSetId approver "approved")
  pure approved.output

def ChangeSetRecord.waivedBy (C : Crates) (changeSetId : String) (record : ChangeSetRecord)
    (waiver : WaiverRecord) (now : UInt64) : ChangeSetRecord :=
  { record with
    state := .approved
    approver := none
    approval := some
      { approver := none
        approvedAtUnix := now
        digest := computeWaiverDigestV3 C changeSetId record.digest record.owner now waiver
        digestVersion := 4
        waived := some waiver } }

/-- The last part of both waivers: write the waived record and report it. -/
def grantWaiver (C : Crates) (self : Config) (changeSetId : String) (record : ChangeSetRecord)
    (waiver : WaiverRecord) (now : UInt64) : Method V ChangeSetOutput := do
  let waived := record.waivedBy C changeSetId waiver now
  Method.updateChangeSetFrom record.state waived
  let _ ← report self (.approvalWaived changeSetId changeSetId waiver.kind.asStr waiver.reason
    waiver.expiresAtUnix waiver.ticket)
  pure waived.output

/-- The waiver of `waive_approval`. -/
def labModeWaiver : WaiverRecord where
  kind := .labMode
  reason := "lab-mode"
  expiresAtUnix := none
  ticket := none

def waiveApproval (C : Crates) (self : Config) (changeSetId device owner : String)
    (expectedDigest : String) : Method V ChangeSetOutput := do
  check (refuseIf (self.labMode = false)
    ⟨"change_set_id", "approval waiver requires lab mode to be enabled"⟩)
  check (checkExpectedDigest expectedDigest)
  let record ← changeSet changeSetId device
  check (refuseIf (record.owner ≠ owner)
    ⟨"change_set_id", "only the change-set owner can waive approval in lab mode"⟩)
  let now ← openForApproval record expectedDigest
  grantWaiver C self changeSetId record labModeWaiver now

def waiveApprovalOperator (C : Crates) (self : Config) (changeSetId device owner : String)
    (expectedDigest : String) (waiver : WaiverRecord) : Method V ChangeSetOutput := do
  check (refuseIf (waiver.kind = .labMode)
    ⟨"kind", "use waive_approval for a lab-mode waiver; this path records an operator-granted exception under a control that is still on"⟩)
  check (checkExpectedDigest expectedDigest)
  let record ← changeSet changeSetId device
  check (refuseIf (record.owner ≠ owner)
    ⟨"change_set_id", "only the change-set owner can waive approval"⟩)
  let now ← openForApproval record expectedDigest
  check (refuseIf (waiver.expiresAtUnix.any (· ≤ now) = true)
    ⟨"expires_at_unix", "waiver expiry is already in the past; a waiver that is dead on arrival is a configuration error, not a waiver"⟩)
  grantWaiver C self changeSetId record waiver now

/-! ### Reading and cancelling -/

/-- A status read retires the record: its approval window has passed while `Planned`, or the waiver
it rests on has lapsed. -/
def ChangeSetRecord.retires (record : ChangeSetRecord) (now : UInt64) : Bool :=
  (decide (record.state = .planned) && decide (record.expiresAtUnix ≤ now)) ||
    (isExpirable record.state && waiverLapsed record now)

/-- `retire_if_deadline_passed`: the record as it is afterwards. -/
def retireIfDeadlinePassed (record : ChangeSetRecord) : Method V ChangeSetRecord := do
  let now ← nowUnix
  if record.retires now then
    let retired := { record with state := .expired }
    Method.updateChangeSetFrom record.state retired
    pure retired
  else pure record

def changeSetStatus (changeSetId device : String) : Method V ChangeSetOutput := do
  let record ← changeSet changeSetId device
  let record ← retireIfDeadlinePassed record
  pure record.output

def changeSetStatusWithActions (changeSetId device : String) : Method V ChangeSetOutput := do
  let record ← changeSet changeSetId device
  let record ← retireIfDeadlinePassed record
  pure { record.output with actions := some record.actions }

def cancelChangeSet (changeSetId device principal : String) : Method V ChangeSetOutput := do
  let record ← changeSet changeSetId device
  if record.state = .cancelled then
    pure record.output
  else
    check (refuseIf (record.owner ≠ principal ∧ record.approver ≠ some principal)
      ⟨"change_set_id", "only the change-set owner or approver may cancel it"⟩)
    check (refuseIf (record.state = .applying ∨ record.state = .applied)
      ⟨"change_set_id", "cannot cancel a change set in state \"" ++ record.state.asStr ++ "\""⟩)
    let cancelled := { record with state := .cancelled }
    Method.updateChangeSetFrom record.state cancelled
    pure cancelled.output

end Mecmcp.Changeset
