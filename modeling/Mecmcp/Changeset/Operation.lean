import Mecmcp.Changeset.Apply

/-!
# Operation — the lifecycle of a single operation

`stage_operation`, `diff_operation`, `validate_operation`, `commit_operation` and
`discard_operation` of `operation.rs`.  Each takes the device guard, reads the record again under
it, and writes the record before and after every device call that changes the device.
-/

namespace Mecmcp.Changeset

open Method

/-- `canonicalize_endpoint` of `operation.rs`: the endpoint must be an `https` URL. -/
def canonicalizeHttpsEndpoint (C : Crates) (endpoint : String) : Except CoordinatorError String :=
  if ¬ ((utf8 "https://").isPrefixOf (utf8 endpoint) ∨
      (utf8 "HTTPS://").isPrefixOf (utf8 endpoint)) then
    .error ⟨"endpoint", "endpoint must start with https://"⟩
  else match C.urlParse endpoint with
    | .error error => .error ⟨"endpoint", "invalid endpoint URL: " ++ error⟩
    | .ok url =>
      if url.scheme ≠ "https" then .error ⟨"endpoint", "endpoint must use https scheme"⟩
      else match url.host with
        | none => .error ⟨"endpoint", "endpoint must contain a valid host"⟩
        | some host => .ok (url.canonical host)

def transactionError (error : String) : CoordinatorError := ⟨"transaction", error⟩

variable {V : Vendor}

/-- Await a device method and stop with its error. -/
def deviceOk {α : Type} (rpc : Rpc V) (result : rpc.Answer → Except String α)
    (onError : String → CoordinatorError) : Method V α := do
  let answer ← device rpc
  Prog.ofExcept ((result answer).mapError onError)

def fingerprint : Method V String := deviceOk .fingerprint id transactionError

/-- `require_operation_fingerprint`, with the coordinator's error. -/
def checkFingerprint (record : OperationRecord) (expectedFingerprint actual : String) :
    Method V Unit :=
  check ((requireOperationFingerprint record expectedFingerprint actual).mapError fun error =>
    ⟨error.field, error.message⟩)

/-! ### Staging -/

/-- The arguments of `stage_operation`. -/
structure StageArgs (V : Vendor) where
  device : String
  owner : String
  expectedFingerprint : String
  endpoint : String
  actions : List V.Action
  primaryActionDiscriminator : String
  vendorPrimaryTarget : Option String
  policySignature : String
  configAuthority : Option String

structure StageOutput (Staged : Type) where
  operationId : String
  staged : Staged
  beforeFingerprint : String
  afterFingerprint : String

def StageArgs.record (args : StageArgs V) (operationId endpoint : String)
    (actions : List Value) : OperationRecord where
  id := operationId
  owner := args.owner
  device := args.device
  endpoint
  action := ⟨.str args.primaryActionDiscriminator, rfl⟩
  xpath := args.vendorPrimaryTarget
  actions
  changeSetId := none
  current := args.expectedFingerprint
  state := .staging
  jobId := none
  details := none
  configLockHeld := false
  policySignature := args.policySignature
  attribution := none
  rollbackDeadlineUnix := none
  configAuthority := args.configAuthority

/-- Take the configuration lock, recording the intent first; whether there is one to give back. -/
def lockForStage (record : OperationRecord) : Method V Bool := do
  let required ← requiresConfigLock
  if required then
    update { record with configLockHeld := true }
    deviceOk (.lock ("mecmcp operation " ++ record.id)) id fun error => ⟨"config_lock", error⟩
    pure true
  else pure false

/-- The candidate must be the one the caller saw; then the record says the device is touched. -/
def checkBeforeStage (args : StageArgs V) (record : OperationRecord) : Method V String := do
  let beforeFingerprint ← fingerprint
  check (refuseIf (args.expectedFingerprint ≠ beforeFingerprint)
    ⟨"expected_candidate_fingerprint", "candidate changed since the caller observed it"⟩)
  update { record with configLockHeld := true }
  pure beforeFingerprint

def stageOnDevice (args : StageArgs V) : Method V (V.Staged × String) := do
  let staged ← deviceOk (.stage args.actions) id transactionError
  let afterFingerprint ← fingerprint
  pure (staged, afterFingerprint)

/-- The device is as it was; give the lock back and drop the reservation, or, if the release is not
confirmed, keep the record as `Indeterminate`. -/
def abandonStage {α : Type} (record : OperationRecord) (locked : Bool)
    (error : CoordinatorError) : Method V α := do
  if locked then
    let unlocked : Except String UnlockOutcome ← device .unlock
    match unlocked with
    | .ok .released =>
      remove record.id
      Prog.fail error
    | _ =>
      let _ ← Prog.attempt (update { record with
        state := .indeterminate
        details := some ("staging failed and the device lock could not be confirmed released: "
          ++ error.display)
        configLockHeld := true })
      Prog.fail ⟨"config_lock", error.display ++ " (operation " ++ record.id
        ++ " may still hold the device lock)"⟩
  else
    remove record.id
    Prog.fail error

def stageTouched {α : Type} (record : OperationRecord) (error : CoordinatorError) :
    Method V α := do
  let _ ← Prog.attempt (update { record with
    state := .indeterminate
    details := some ("staging failed after the candidate was touched: " ++ error.display)
    configLockHeld := true })
  Prog.fail ⟨"transaction", error.display ++ " (operation " ++ record.id
    ++ " requires manual reconciliation)"⟩

def recordStaged (record : OperationRecord) (beforeFingerprint afterFingerprint : String)
    (staged : V.Staged) : Method V (StageOutput V.Staged) := do
  let stagedRecord := { record with
    current := afterFingerprint, state := .staged, configLockHeld := true }
  let updated ← Prog.attempt (update stagedRecord)
  match updated with
  | .ok () => pure ⟨record.id, staged, beforeFingerprint, afterFingerprint⟩
  | .error persistError =>
    let _ ← Prog.attempt (update { stagedRecord with
      state := .indeterminate
      details := some ("staging succeeded but final persistence failed: " ++ persistError.display) })
    Prog.fail ⟨"state", persistError.display ++ " (operation " ++ record.id
      ++ " requires manual reconciliation)"⟩

def stageOperation (C : Crates) (args : StageArgs V) : Method V (StageOutput V.Staged) := do
  check (refuseIf (args.actions.isEmpty = true) ⟨"actions", "actions must not be empty"⟩)
  let canonicalEndpoint ← Prog.ofExcept (canonicalizeHttpsEndpoint C args.endpoint)
  deviceGuard args.device
  checkCancelled
  let operationId ← newOperationId
  check ((validateFingerprint args.expectedFingerprint).mapError fun error =>
    ⟨"expected_candidate_fingerprint", error.display⟩)
  let values ← Prog.ofExcept (actionValues (fun error => ⟨"actions", error⟩) args.actions)
  let record := args.record operationId canonicalEndpoint values
  insert record
  let lockResult ← Prog.attempt (lockForStage record)
  match lockResult with
  | .error error => abandonStage record false error
  | .ok locked =>
    let before ← Prog.attempt (checkBeforeStage args record)
    match before with
    | .error error => abandonStage record locked error
    | .ok beforeFingerprint =>
      let stageResult ← Prog.attempt (stageOnDevice args)
      match stageResult with
      | .error error => stageTouched record error
      | .ok (staged, afterFingerprint) =>
        recordStaged record beforeFingerprint afterFingerprint staged

/-! ### Diff and validation -/

/-- The arguments shared by the methods on a staged operation. -/
structure OperationArgs where
  operationId : String
  device : String
  owner : String
  expectedFingerprint : String

def readGuarded (args : OperationArgs) (record : OperationRecord) : Method V OperationRecord := do
  deviceGuard record.device
  checkCancelled
  Method.record args.operationId args.owner args.device

def diffOperation (args : OperationArgs) (staged : V.Staged) : Method V V.Diff := do
  let record ← record args.operationId args.owner args.device
  let record ← readGuarded args record
  check (refuseIf (record.state ≠ .staged ∧ record.state ≠ .validated ∧ record.state ≠ .failed)
    ⟨"operation_id", "operation is no longer in a state where diff is meaningful"⟩)
  let actual ← fingerprint
  checkFingerprint record args.expectedFingerprint actual
  deviceOk (.diff staged) id transactionError

/-- The operation must be `Staged`. -/
def checkStaged (record : OperationRecord) : Except CoordinatorError Unit :=
  refuseIf (record.state ≠ .staged) ⟨"operation_id", "operation is not in staged state"⟩

def validateOperation (args : OperationArgs) (staged : V.Staged) : Method V V.Validation := do
  let record ← record args.operationId args.owner args.device
  check (checkStaged record)
  let record ← readGuarded args record
  check (checkStaged record)
  let actual ← fingerprint
  checkFingerprint record args.expectedFingerprint actual
  update { record with state := .validating }
  let validated : Except String V.Validation ← device (.validate staged)
  match validated with
  | .ok validation =>
    update { record with state := .validated, details := none }
    pure validation
  | .error error =>
    update { record with state := .failed, details := some error }
    Prog.fail (transactionError error)

/-! ### Committing -/

/-- The arguments of `commit_operation` beside those of every operation. -/
structure CommitArgs (V : Vendor) extends OperationArgs where
  currentPolicySignature : String
  staged : V.Staged
  attribution : Attribution
  options : CommitOptions

def OperationRecord.afterCommit (record : OperationRecord) : CommitOutcome → OperationRecord
  | .reconciled succeeded jobId details =>
    { record with
      state := if succeeded then .committed else .failed
      jobId
      details
      configLockHeld := if succeeded then false else record.configLockHeld }
  | .detached jobId => { record with jobId }
  | .indeterminate reason => { record with state := .indeterminate, details := some reason }
  | .awaitingConfirmation jobId rollbackDeadlineUnix details =>
    { record with
      jobId
      details
      rollbackDeadlineUnix := some rollbackDeadlineUnix
      configLockHeld := false }

def reportReceipt (self : Config) (args : CommitArgs V) (record : OperationRecord) :
    CommitOutcome → Method V Unit
  | .reconciled succeeded _ details => do
    let _ ← report self (.resultReceipt args.attribution.requestId
      (record.changeSetId.getD args.operationId) record.device args.attribution.principal.display
      succeeded (if succeeded then "" else details.getD ""))
  | _ => pure ()

def sendCommit (self : Config) (args : CommitArgs V) (record : OperationRecord) :
    Method V CommitOutcome := do
  let answer : Option (Except String CommitOutcome) ←
    deviceOrCancelled (.commit args.staged args.attribution args.options)
  match answer with
  | none =>
    update { record with
      state := .indeterminate, details := some "commit cancelled; outcome unknown" }
    pure (.indeterminate "commit cancelled; outcome unknown")
  | some (.error error) =>
    update { record with state := .failed, details := some error }
    Prog.fail (transactionError error)
  | some (.ok outcome) =>
    reportReceipt self args record outcome
    update (record.afterCommit outcome)
    pure outcome

/-- The evidence record of the intent must be persisted before the device is asked. -/
def reportIntent (self : Config) (args : CommitArgs V) (record : OperationRecord) :
    Method V Unit := do
  let reported ← report self (.applyIntent args.attribution.requestId
    (record.changeSetId.getD args.operationId) record.device args.attribution.principal.display)
  check (reported.mapError fun error => ⟨"device",
    "commit refused: the apply-intent evidence record could not be persisted (" ++ error
      ++ "); the operation is still staged"⟩)

def commitOperation (self : Config) (args : CommitArgs V) : Method V CommitOutcome := do
  let record ← record args.operationId args.owner args.device
  let record ← readGuarded args.toOperationArgs record
  check (refuseIf (record.state ≠ .validated)
    ⟨"operation_id", "operation must validate successfully before commit"⟩)
  check ((requireOperationPolicy record args.currentPolicySignature).mapError fun error =>
    ⟨error.field, error.message⟩)
  let actual ← fingerprint
  checkFingerprint record args.expectedFingerprint actual
  let cancelled ← isCancelled
  check (refuseIf (cancelled = true) ⟨"device",
    "operation cancelled before the commit was sent; the operation is still staged"⟩)
  reportIntent self args record
  let committing := { record with
    attribution := some (PersistedAttribution.from args.attribution), state := .committing }
  update committing
  sendCommit self args committing

/-! ### Discarding -/

/-- States a discard refuses. -/
def checkDiscardable (record : OperationRecord) : Except CoordinatorError Unit :=
  refuseIf (record.state = .validating ∨ record.state = .committing ∨ record.state = .committed ∨
      record.state = .discarded ∨ record.state = .indeterminate)
    ⟨"operation_id", "operation cannot be discarded in its current state"⟩

def revertCandidate (record : OperationRecord) : Method V OperationRecord := do
  let reverting := { record with
    state := .indeterminate, details := some "rollback in progress" }
  update reverting
  let reverted : Except String RollbackOutcome ← device (.rollback .candidateRevert)
  match reverted with
  | .error error =>
    update { reverting with details := some ("rollback outcome unknown: " ++ error) }
    Prog.fail (transactionError error)
  | .ok outcome =>
    if outcome.succeeded then
      let verifying := { reverting with
        details := some "candidate reverted; verifying lock release" }
      update verifying
      pure verifying
    else
      update { reverting with state := .failed, details := outcome.details }
      Prog.fail (transactionError (outcome.details.getD "rollback failed"))

/-- Give the configuration lock back: only a confirmed release makes the operation `Discarded`. -/
def releaseLock (record : OperationRecord) : Method V OperationRecord := do
  let unlocked : Except String UnlockOutcome ← device .unlock
  match unlocked with
  | .ok .released =>
    pure { record with
      configLockHeld := false, state := .discarded, details := some "candidate reverted" }
  | .ok .unsupported =>
    update { record with
      state := .indeterminate
      details := some "candidate reverted; the transaction offers no explicit unlock, so the configuration lock state is unchanged" }
    Prog.fail ⟨"transaction", "candidate reverted but the configuration lock state could not be verified; manual reconciliation required"⟩
  | .error error =>
    update { record with
      state := .indeterminate
      details := some ("candidate reverted but unlock failed: " ++ error)
      configLockHeld := true }
    Prog.fail ⟨"transaction",
      "candidate reverted but the configuration lock could not be released: " ++ error⟩

def discardOperation (args : OperationArgs) : Method V String := do
  let record ← record args.operationId args.owner args.device
  check (checkDiscardable record)
  let record ← readGuarded args record
  check (checkDiscardable record)
  let actual ← fingerprint
  checkFingerprint record args.expectedFingerprint actual
  let record ← revertCandidate record
  let record ← releaseLock record
  let after : Except String String ← device .fingerprint
  match after with
  | .ok afterFingerprint =>
    update { record with current := afterFingerprint }
    pure afterFingerprint
  | .error error =>
    update { record with
      state := .indeterminate
      details := some ("candidate reverted; fingerprint read failed: " ++ error) }
    Prog.fail (transactionError error)

end Mecmcp.Changeset
