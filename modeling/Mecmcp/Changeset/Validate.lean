import Mecmcp.Changeset.Digest
import Mecmcp.Lib.Check

/-!
# Validate — what a state file must satisfy to be loaded

`validate_state_with_key` of `persistence.rs`: the checks a state read from disk passes before it
becomes the coordinator's store, under the file's version and the deployment's approval-digest
key.  Each loop body is a function of its own (`validateOperationEntry`, `validateChangeSetEntry`,
`validateApproval`); `validateStateWithKey_ok` says what a passed validation established.
-/

namespace Mecmcp.Changeset

structure ChangesetState where
  operations : Std.ExtTreeMap String OperationRecord
  changeSets : Std.ExtTreeMap String ChangeSetRecord

def ChangesetState.empty : ChangesetState := ⟨∅, ∅⟩

/-- `validate_operation_id`, with the caller's error. -/
def checkOperationId {ε : Type} (value : String) (error : ε) : Except ε Unit :=
  refuseIf (isLowerHex64 (utf8 value) = false) error

/-- `validate_operation_id` of `persistence.rs`. -/
def validatePersistedId (value : String) : Except PersistenceError Unit :=
  checkOperationId value ⟨"value must contain exactly 64 hexadecimal characters"⟩

/-- `validate_operation_id` of `coordinator.rs` and `recovery.rs`. -/
def validateOperationId (value : String) : Except CoordinatorError Unit :=
  checkOperationId value ⟨"operation_id", "value must contain exactly 64 hexadecimal characters"⟩

variable (C : Crates)

/-- The body of the loop over operations. -/
def validateOperationEntry (id : String) (record : OperationRecord) : Except PersistenceError Unit := do
  validatePersistedId id
  refuseIf (id ≠ record.id ∨ record.owner = "" ∨ record.device = "")
    ⟨"changeset state contains an inconsistent operation record"⟩
  (validateFingerprint record.current).mapError fun error =>
    ⟨"operation fingerprint invalid: " ++ error.display⟩
  refuseIf ((C.urlParse record.endpoint).isOk = false ∨ record.actions = [])
    ⟨"changeset state operation is missing endpoint/action metadata"⟩

def tamperedApproval : PersistenceError :=
  ⟨"changeset state approval digest mismatch: approval evidence has been tampered with"⟩

/-- The digest a two-person approval must carry.  From file version 4 the rule is the one the
record names; before, it is the legacy one whatever the record names. -/
def expectedApproverDigest (version : ℕ) (key : Option (List UInt8)) (id : String)
    (record : ChangeSetRecord) (approval : ApprovalRecord) (approver : String) :
    Except PersistenceError String :=
  if 4 ≤ version then
    if approval.digestVersion = 5 then
      .ok (computeApprovalDigestV5 C id record.digest record.previewDigest record.owner approver
        approval.approvedAtUnix)
    else if approval.digestVersion = 4 then
      .ok (computeApprovalDigestV4 C id record.digest record.owner approver approval.approvedAtUnix)
    else if approval.digestVersion = 6 then
      match key with
      | none => .error ⟨"changeset state approval carries a v6 (keyed) digest but no approval digest key was supplied; it cannot be verified"⟩
      | some key =>
        if verifyApprovalDigestV6 C key id record.digest record.previewDigest record.owner approver
            approval.approvedAtUnix approval.digest then
          .ok approval.digest
        else .error tamperedApproval
    else .error ⟨"changeset state approval carries unsupported digest version "
      ++ toString approval.digestVersion.toNat⟩
  else do
    (validatePrincipalForDigest C "owner" record.owner).mapError .mk
    (validatePrincipalForDigest C "approver" approver).mapError .mk
    .ok (computeApprovalDigestLegacy C id record.digest record.owner approver
      approval.approvedAtUnix)

def validateLegacyWaiver (version : ℕ) (waiver : WaiverRecord) : Except PersistenceError Unit := do
  refuseIf (waiver.kind ≠ .labMode) ⟨"changeset state v" ++ toString version
    ++ " waiver cannot carry kind " ++ waiver.kind.debug ++ " (v3-only metadata)"⟩
  refuseIf (waiver.expiresAtUnix.isSome = true) ⟨"changeset state v" ++ toString version
    ++ " waiver cannot carry expires_at_unix (v3-only metadata)"⟩
  refuseIf (waiver.ticket.isSome = true) ⟨"changeset state v" ++ toString version
    ++ " waiver cannot carry ticket (v3-only metadata)"⟩
  refuseIf (waiver.reason ≠ "lab-mode") ⟨"changeset state v" ++ toString version
    ++ " waiver has unexpected reason " ++ C.debugStr waiver.reason ++ " (expected \"lab-mode\")"⟩

def expectedWaiverDigest (version : ℕ) (id : String) (record : ChangeSetRecord)
    (approval : ApprovalRecord) (waiver : WaiverRecord) : Except PersistenceError String :=
  if 3 ≤ version then
    .ok (computeWaiverDigestV3 C id record.digest record.owner approval.approvedAtUnix waiver)
  else do
    validateLegacyWaiver C version waiver
    (validatePrincipalForDigest C "owner" record.owner).mapError .mk
    .ok (computeWaiverDigest C id record.digest record.owner approval.approvedAtUnix)

def expectedApprovalDigest (version : ℕ) (key : Option (List UInt8)) (id : String)
    (record : ChangeSetRecord) (approval : ApprovalRecord) : Except PersistenceError String :=
  match approval.approver, approval.waived with
  | some approver, _ => expectedApproverDigest C version key id record approval approver
  | none, some waiver => expectedWaiverDigest C version id record approval waiver
  | none, none => do
    (validatePrincipalForDigest C "owner" record.owner).mapError .mk
    .ok (computeWaiverDigest C id record.digest record.owner approval.approvedAtUnix)

/-- The checks on a change set's approval record. -/
def validateApproval (version : ℕ) (key : Option (List UInt8)) (id : String)
    (record : ChangeSetRecord) (approval : ApprovalRecord) : Except PersistenceError Unit := do
  (validateDigest approval.digest "approval_digest").mapError fun error =>
    ⟨"approval digest invalid: " ++ error.display⟩
  refuseIf (approval.approver.isSome = true ∧ approval.waived.isSome = true)
    ⟨"changeset state approval record has both approver and waived fields set (mutually exclusive)"⟩
  refuseIf (key.isSome = true ∧ approval.approver.isSome = true ∧ approval.digestVersion ≠ 6)
    ⟨"changeset state approval carries digest_version " ++ toString approval.digestVersion.toNat
      ++ " but this deployment requires keyed (v6) approvals: it is not signed under the keyed rule"⟩
  refuseIf (approval.approver = some record.owner)
    ⟨"changeset state approval record has the same principal as owner and approver"⟩
  let expected ← expectedApprovalDigest C version key id record approval
  refuseIf (expected ≠ approval.digest) tamperedApproval

def validateChangeSetEntry (version : ℕ) (key : Option (List UInt8)) (id : String)
    (record : ChangeSetRecord) : Except PersistenceError Unit := do
  validatePersistedId id
  refuseIf (id ≠ record.id ∨ record.owner = "" ∨ record.device = "")
    ⟨"changeset state contains an inconsistent change-set record"⟩
  (validateFingerprint record.expectedCandidateFingerprint).mapError fun error =>
    ⟨"change-set fingerprint invalid: " ++ error.display⟩
  (validateDigest record.digest "digest").mapError fun error =>
    ⟨"change-set digest invalid: " ++ error.display⟩
  refuseIf (record.actions = [] ∨ record.actions.length > 64)
    ⟨"changeset state change set has an invalid action count"⟩
  (record.validateTargetSet usizeMax).mapError fun error => ⟨"changeset state " ++ error.display⟩
  refuseIf (changeSetDigestWithTargets C record.owner record.device
      record.expectedCandidateFingerprint record.actions record.targets ≠ record.digest)
    ⟨"changeset state change-set digest mismatch"⟩
  (record.validatePreview C usizeMax).mapError fun error => ⟨"changeset state " ++ error.display⟩
  record.approval.elim (.ok ()) (validateApproval C version key id record)
  refuseIf (record.approver = some record.owner)
    ⟨"changeset state has the same principal as owner and approver"⟩

def validateStateWithKey (state : ChangesetState) (version : ℕ) (key : Option (List UInt8)) :
    Except PersistenceError Unit := do
  refuseIf (state.operations.size > 1024 ∨ state.changeSets.size > 1024)
    ⟨"changeset state contains too many records"⟩
  checkAll (fun entry => validateOperationEntry C entry.1 entry.2) state.operations.toList
  checkAll (fun entry => validateChangeSetEntry C version key entry.1 entry.2) state.changeSets.toList

/-! ### What a passed validation established -/

variable {C : Crates} {version : ℕ} {key : Option (List UInt8)} {state : ChangesetState}

theorem validateStateWithKey_ok :
    validateStateWithKey C state version key = .ok () ↔
      state.operations.size ≤ 1024 ∧ state.changeSets.size ≤ 1024 ∧
      (∀ id record, state.operations[id]? = some record →
        validateOperationEntry C id record = .ok ()) ∧
      (∀ id record, state.changeSets[id]? = some record →
        validateChangeSetEntry C version key id record = .ok ()) := by
  simp [validateStateWithKey, Std.ExtTreeMap.mem_toList_iff_getElem?_eq_some, and_assoc]

end Mecmcp.Changeset
