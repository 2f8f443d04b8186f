import Mecmcp.Changeset.ChangeSetStore

/-!
# Load — starting on a state file, and resolving one offline

`load_with_recovery_and_key`: read and validate the file, settle what a previous process left in
flight (operations become `Indeterminate`, an apply without a handle becomes `Failed`), and write
the result back if anything changed.  `resolve_persisted_operation`: mark one non-terminal
operation of a file that no server holds.

`loadCoordinator_outcome` and `resolve_outcome` list what the two can do.
-/

namespace Mecmcp.Changeset

open Option

/-! ### Loading -/

inductive StagedRecovery where
  | discard | retain
  deriving DecidableEq

/-- How a coordinator is loaded: the arguments of `load_with_recovery_and_key`, and what
`with_evidence` and `with_approval_digest_key` set afterwards. -/
structure LoadArgs where
  limits : OperationLimits
  approvalTtl : UInt64
  labMode : Bool
  stagedRecovery : StagedRecovery
  approvalDigestKey : Option (List UInt8)
  evidence : Bool
  laterKey : Option (List UInt8)

/-- What the system answers during a load. -/
structure LoadEnv where
  /-- `try_acquire_owner`: taken, held by another process, or an error text -/
  ownerLock : Except String Bool
  /-- the error text of taking the state lock of an existing file -/
  stateLock : Option String
  readFault : Option String
  writeFault : Option WriteFault

def recoverOperation (stagedRecovery : StagedRecovery) (record : OperationRecord) :
    OperationRecord :=
  if stagedRecovery = .retain ∧ record.state = .staged ∧ record.jobId = none then record
  else match record.state with
    | .staging | .staged | .validating | .committing =>
      { record with
        state := .indeterminate
        details := some "server restarted during a non-terminal operation; manual reconciliation required" }
    | _ => record

def needsRecovery (stagedRecovery : StagedRecovery) (record : OperationRecord) : Bool :=
  !(decide (stagedRecovery = .retain) && decide (record.state = .staged) && record.jobId.isNone) &&
    match record.state with
    | .staging | .staged | .validating | .committing => true
    | _ => false

/-- Restart recovery of one change set, after empty task ids are dropped. -/
def failUnattended (record : ChangeSetRecord) : ChangeSetRecord :=
  if record.state = .applying ∧ record.taskId = none ∧ record.applyWithoutHandle = false then
    { record with state := .failed }
  else record

def recoverChangeSet (record : ChangeSetRecord) : ChangeSetRecord :=
  failUnattended (normaliseTaskHandle record)

def recoverState (stagedRecovery : StagedRecovery) (state : ChangesetState) : ChangesetState where
  operations := state.operations.map fun _ record => recoverOperation stagedRecovery record
  changeSets := state.changeSets.map fun _ record => recoverChangeSet record

def recovered (stagedRecovery : StagedRecovery) (state : ChangesetState) : Bool :=
  state.anyOperation (needsRecovery stagedRecovery) ||
    state.anyChangeSet fun record => decide (record.taskId = some "") ||
      (decide (record.state = .applying) && (normaliseTaskHandle record).taskId.isNone &&
        !record.applyWithoutHandle)

def LoadArgs.config (args : LoadArgs) (statePath : Option String) : Config where
  statePath
  limits := args.limits
  approvalTtl := args.approvalTtl
  labMode := args.labMode
  evidence := args.evidence
  approvalDigestKey := args.laterKey <|> args.approvalDigestKey

variable {C : Crates}

def readForLoad (path : String) (args : LoadArgs) (env : LoadEnv) (file : Option C.Text) :
    Except CoordinatorError ChangesetState := do
  refuseIf ((utf8 path).head? ≠ some 47) ⟨"path", "changeset state path must be absolute"⟩
  match env.ownerLock with
  | .error error => .error ⟨"state", error⟩
  | .ok false => .error ⟨"state", "another process already holds this state file (an existing server, or an offline resolution in progress); stop it before starting a second one against the same path"⟩
  | .ok true =>
    match file with
    | none => .ok .empty
    | some text =>
      match env.stateLock with
      | some error => .error ⟨"state", error⟩
      | none => (readStateWithKey C path args.limits.maxStateBytes args.approvalDigestKey
          env.readFault text).mapError .ofPersistence

/-- `load_with_recovery_and_key`. -/
def loadCoordinator (path : Option String) (args : LoadArgs) (env : LoadEnv)
    (file : Option C.Text) : FileEffect C (Config × ChangesetState) :=
  match path with
  | none => ⟨file, .ok (args.config none, .empty), []⟩
  | some path =>
    match readForLoad path args env file with
    | .error error => ⟨file, .error error, []⟩
    | .ok state =>
      let config := args.config (some path)
      let next := recoverState args.stagedRecovery state
      if recovered args.stagedRecovery state then
        let written := writeFile path args.limits.maxStateBytes env.writeFault next file
        ⟨written.disk, written.result.map fun _ => (config, next), written.events⟩
      else ⟨file, .ok (config, next), []⟩

/-! ### Offline resolution -/

/-- How an operator resolves an operation. -/
inductive RecoveryDisposition where
  | committed | discarded
  deriving DecidableEq

namespace RecoveryDisposition

def word : RecoveryDisposition → String
  | committed => "COMMITTED"
  | discarded => "DISCARDED"

def state : RecoveryDisposition → LifecycleState
  | committed => .committed
  | discarded => .discarded

end RecoveryDisposition

/-- The record an offline resolution writes. -/
def OperationRecord.resolvedAs (record : OperationRecord) (disposition : RecoveryDisposition) :
    OperationRecord :=
  { record with
    state := disposition.state
    configLockHeld := false
    details := some ("operator marked " ++ disposition.word ++ " from " ++ record.state.asStr
      ++ " after external device job/candidate/lock reconciliation") }

/-- The checks of `resolve_persisted_operation` up to the record it will change. -/
def findForResolution (path operationId : String) (disposition : RecoveryDisposition)
    (confirmation : String) (limits : OperationLimits) (env : LoadEnv) (file : Option C.Text) :
    Except CoordinatorError (ChangesetState × OperationRecord) := do
  refuseIf ((utf8 path).head? ≠ some 47) ⟨"path", "changeset state path must be absolute"⟩
  validateOperationId operationId
  refuseIf (confirmation ≠ "RESOLVED " ++ operationId ++ " AS " ++ disposition.word)
    ⟨"confirmation", "offline resolution requires exact 'RESOLVED <operation-id> AS COMMITTED|DISCARDED' confirmation"⟩
  match env.stateLock, env.ownerLock, file with
  | some error, _, _ => .error ⟨"state", error⟩
  | none, .error error, _ => .error ⟨"state", error⟩
  | none, .ok false, _ => .error ⟨"state", "a running server holds this state file; stop it before offline resolution"⟩
  | none, .ok true, none => .error ⟨"state", "could not read changeset state '" ++ path ++ "'"⟩
  | none, .ok true, some text =>
    -- without a key: an offline resolution reads the file as a keyless deployment does
    match readStateWithKey C path limits.maxStateBytes none env.readFault text with
    | .error error => .error (.ofPersistence error)
    | .ok state =>
      match state.operations[operationId]? with
      | none => .error ⟨"operation_id", "unknown persisted operation"⟩
      | some record =>
        if record.state.terminal then
          .error ⟨"operation_id", "operation is already " ++ record.state.asStr
            ++ "; a terminal operation cannot be resolved"⟩
        else .ok (state, record)

/-- What an offline resolution returns. -/
structure ResolvedOperationOutput where
  operationId : String
  device : String
  state : String
  jobId : Option String
  candidateFingerprint : String
  details : Option String

def OperationRecord.resolvedOutput (record : OperationRecord) : ResolvedOperationOutput where
  operationId := record.id
  device := record.device
  state := record.state.asStr
  jobId := record.jobId
  candidateFingerprint := record.current
  details := record.details

def resolvePersistedOperation (path operationId : String) (disposition : RecoveryDisposition)
    (confirmation : String) (limits : OperationLimits) (env : LoadEnv) (file : Option C.Text) :
    FileEffect C ResolvedOperationOutput :=
  match findForResolution path operationId disposition confirmation limits env file with
  | .error error => ⟨file, .error error, []⟩
  | .ok (state, record) =>
    let resolved := record.resolvedAs disposition
    let written := writeFile path limits.maxStateBytes env.writeFault
      (state.putOperation operationId resolved) file
    ⟨written.disk, written.result.map fun _ => resolved.resolvedOutput, written.events⟩

/-! ### What a load and a resolution can do -/

variable {C : Crates} {image : Option ChangesetState} {state : ChangesetState}

/-- What a read of the file returns when the last state written to it is `image`. -/
def readBack (C : Crates) : (image : Option ChangesetState) → ChangesetState
  | none => .empty
  | some written => written.normalised.mapFloat C.reparse

theorem validateStateWithKey_empty (version : ℕ) (key : Option (List UInt8)) :
    validateStateWithKey C .empty version key = .ok () := by
  rw [validateStateWithKey_ok]
  refine ⟨by simp [ChangesetState.empty], by simp [ChangesetState.empty], ?_, ?_⟩
  · intro id record h
    simp [ChangesetState.empty] at h
  · intro id record h
    simp [ChangesetState.empty] at h

theorem readForLoad_ok {path : String} {args : LoadArgs} {env : LoadEnv}
    (h : readForLoad path args env (image.map (payload C)) = .ok state) :
    state = readBack C image ∧
      ∃ version, validateStateWithKey C state version args.approvalDigestKey = .ok () := by
  simp only [readForLoad, bind_unit_ok] at h
  obtain ⟨-, h⟩ := h
  cases hlock : env.ownerLock with
  | error error => simp [hlock] at h
  | ok free =>
    cases free with
    | false => simp [hlock] at h
    | true =>
      simp only [hlock] at h
      cases image with
      | none =>
        obtain rfl := Except.ok.inj h
        exact ⟨rfl, 1, validateStateWithKey_empty 1 _⟩
      | some written =>
        cases hstate : env.stateLock with
        | some error => simp [hstate] at h
        | none =>
          simp only [map_some, hstate, mapError_ok] at h
          obtain ⟨hread, hvalid⟩ := read_written h
          exact ⟨hread, _, hvalid⟩

/-- What a load can do with a file whose last written state is `image`. -/
inductive LoadOutcome (C : Crates) (path : Option String) (args : LoadArgs)
    (image : Option ChangesetState) : FileEffect C (Config × ChangesetState) → Prop where
  | refused (error : CoordinatorError) :
      LoadOutcome C path args image ⟨image.map (payload C), .error error, []⟩
  /-- no state path: the store starts empty -/
  | inMemory (hpath : path = none) :
      LoadOutcome C path args image
        ⟨image.map (payload C), .ok (args.config path, .empty), []⟩
  | loaded (hpath : path ≠ none)
      (hvalid : ∃ version, validateStateWithKey C (readBack C image) version
        args.approvalDigestKey = .ok ()) :
      LoadOutcome C path args image ⟨image.map (payload C),
        .ok (args.config path, recoverState args.stagedRecovery (readBack C image)), []⟩
  /-- recovery changed the state and wrote it -/
  | recovered (hpath : path ≠ none)
      (hvalid : ∃ version, validateStateWithKey C (readBack C image) version
        args.approvalDigestKey = .ok ()) :
      LoadOutcome C path args image
        ⟨some (payload C (recoverState args.stagedRecovery (readBack C image))),
        .ok (args.config path, recoverState args.stagedRecovery (readBack C image)),
        [.wrote (recoverState args.stagedRecovery (readBack C image))]⟩
  /-- the write of the recovered state failed with the new file in place -/
  | landed (hpath : path ≠ none)
      (hvalid : ∃ version, validateStateWithKey C (readBack C image) version
        args.approvalDigestKey = .ok ()) (error : CoordinatorError) :
      LoadOutcome C path args image
        ⟨some (payload C (recoverState args.stagedRecovery (readBack C image))), .error error,
        [.wrote (recoverState args.stagedRecovery (readBack C image))]⟩

theorem loadCoordinator_outcome (path : Option String) (args : LoadArgs) (env : LoadEnv)
    (image : Option ChangesetState) :
    LoadOutcome C path args image
      (loadCoordinator path args env (image.map (payload C))) := by
  unfold loadCoordinator
  cases path with
  | none => exact .inMemory rfl
  | some path =>
    dsimp only
    cases hread : readForLoad path args env (image.map (payload C)) with
    | error error => exact .refused error
    | ok state =>
      obtain ⟨rfl, hvalid⟩ := readForLoad_ok hread
      dsimp only
      split
      · have h := writeFile_outcome path args.limits.maxStateBytes env.writeFault
          (recoverState args.stagedRecovery (readBack C image)) (image.map (payload C))
        generalize writeFile path args.limits.maxStateBytes env.writeFault
          (recoverState args.stagedRecovery (readBack C image)) (image.map (payload C))
          = written at h ⊢
        cases h with
        | written => exact .recovered (by nofun) hvalid
        | failed error => exact .refused error
        | landed error => exact .landed (by nofun) hvalid error
      · exact .loaded (by nofun) hvalid

variable {record : OperationRecord}

theorem findForResolution_ok {path operationId confirmation : String}
    {disposition : RecoveryDisposition} {limits : OperationLimits} {env : LoadEnv}
    {file : Option C.Text} {state : ChangesetState}
    (h : findForResolution path operationId disposition confirmation limits env file =
      .ok (state, record)) :
    ∃ text, file = some text ∧
      readStateWithKey C path limits.maxStateBytes none env.readFault text = .ok state ∧
      state.operations[operationId]? = some record ∧ record.state.terminal = false := by
  simp only [findForResolution, bind_unit_ok] at h
  obtain ⟨-, -, -, h⟩ := h
  split at h
  case h_5 =>
    split at h
    · cases h
    next hread =>
    split at h
    · cases h
    next hop =>
    split at h
    · cases h
    next hterminal =>
    cases h
    exact ⟨_, rfl, hread, hop, by simpa using hterminal⟩
  all_goals cases h

/-- What a resolution can do with a file whose last written state is `image`: nothing, or replace
one non-terminal operation of what a read returns. -/
theorem resolvePersistedOperation_outcome (path operationId : String)
    (disposition : RecoveryDisposition) (confirmation : String) (limits : OperationLimits)
    (env : LoadEnv) (image : Option ChangesetState) :
    (∃ error, resolvePersistedOperation path operationId disposition confirmation limits env
        (image.map (payload C)) = ⟨image.map (payload C), .error error, []⟩) ∨
    ∃ record result, (readBack C image).operations[operationId]? = some record ∧
      record.state.terminal = false ∧
      (∃ version, validateStateWithKey C (readBack C image) version none = .ok ()) ∧
      resolvePersistedOperation path operationId disposition confirmation limits env
          (image.map (payload C)) =
        ⟨some (payload C ((readBack C image).putOperation operationId
            (record.resolvedAs disposition))), result,
          [.wrote ((readBack C image).putOperation operationId (record.resolvedAs disposition))]⟩ := by
  unfold resolvePersistedOperation
  cases hfind : findForResolution path operationId disposition confirmation limits env
      (image.map (payload C)) with
  | error error => exact .inl ⟨error, rfl⟩
  | ok found =>
    obtain ⟨state, record⟩ := found
    obtain ⟨text, htext, hread, hop, hterminal⟩ := findForResolution_ok hfind
    obtain ⟨written, rfl, rfl⟩ := map_eq_some_iff.mp htext
    obtain ⟨hloaded, hvalid⟩ := read_written hread
    obtain rfl : state = readBack C (some written) := hloaded
    have h := writeFile_outcome path limits.maxStateBytes env.writeFault
      ((readBack C (some written)).putOperation operationId (record.resolvedAs disposition))
      (some (payload C written))
    dsimp only [map_some]
    generalize writeFile path limits.maxStateBytes env.writeFault
      ((readBack C (some written)).putOperation operationId (record.resolvedAs disposition))
      (some (payload C written)) = effect at h ⊢
    cases h with
    | failed error => exact .inl ⟨error, rfl⟩
    | written | landed => exact .inr ⟨record, _, hop, hterminal, ⟨_, hvalid⟩, rfl⟩

/-! ### Record by record -/

theorem readBack_changeSet {image : Option ChangesetState} {id : String}
    {record : ChangeSetRecord} (h : (readBack C image).changeSets[id]? = some record) :
    ∃ state original, image = some state ∧ state.changeSets[id]? = some original ∧
      record = (normaliseTaskHandle original).mapFloat C.reparse := by
  cases image with
  | none => simp [readBack, ChangesetState.empty] at h
  | some state =>
    rw [readBack, getElem?_mapFloat_changeSets, getElem?_normalised, Option.map_map] at h
    obtain ⟨original, ho, rfl⟩ := map_eq_some_iff.mp h
    exact ⟨state, original, rfl, ho, rfl⟩

theorem readBack_operation {image : Option ChangesetState} {id : String}
    (h : (readBack C image).operations[id]? = some record) :
    ∃ state original, image = some state ∧ state.operations[id]? = some original ∧
      record = original.mapFloat C.reparse := by
  cases image with
  | none => simp [readBack, ChangesetState.empty] at h
  | some state =>
    rw [readBack, getElem?_mapFloat_operations, normalised_operations] at h
    obtain ⟨original, ho, rfl⟩ := map_eq_some_iff.mp h
    exact ⟨state, original, rfl, ho, rfl⟩

@[simp] theorem getElem?_recoverState_changeSets (stagedRecovery : StagedRecovery)
    (state : ChangesetState) (id : String) :
    (recoverState stagedRecovery state).changeSets[id]? =
      state.changeSets[id]?.map recoverChangeSet := by
  simp [recoverState]

@[simp] theorem getElem?_recoverState_operations (stagedRecovery : StagedRecovery)
    (state : ChangesetState) (id : String) :
    (recoverState stagedRecovery state).operations[id]? =
      state.operations[id]?.map (recoverOperation stagedRecovery) := by
  simp [recoverState]

theorem normaliseTaskHandle_eq (record : ChangeSetRecord) : ∃ taskId,
    normaliseTaskHandle record = { record with taskId } := by
  unfold normaliseTaskHandle
  split
  · exact ⟨none, rfl⟩
  · exact ⟨record.taskId, rfl⟩

/-- Restart recovery changes a change set's task id, and its state from `Applying` to `Failed`,
only. -/
theorem recoverChangeSet_eq (record : ChangeSetRecord) : ∃ state taskId,
    recoverChangeSet record = { record with state, taskId } ∧
      (state = record.state ∨ record.state = .applying ∧ state = .failed) := by
  unfold recoverChangeSet failUnattended normaliseTaskHandle
  split_ifs with _ hfail hfail
  · exact ⟨.failed, none, rfl, .inr ⟨hfail.1, rfl⟩⟩
  · exact ⟨record.state, none, rfl, .inl rfl⟩
  · exact ⟨.failed, record.taskId, rfl, .inr ⟨hfail.1, rfl⟩⟩
  · exact ⟨record.state, record.taskId, rfl, .inl rfl⟩

theorem recoverChangeSet_id (record : ChangeSetRecord) :
    (recoverChangeSet record).id = record.id := by
  unfold recoverChangeSet failUnattended normaliseTaskHandle
  split_ifs <;> rfl

theorem recoverOperation_id (stagedRecovery : StagedRecovery) (record : OperationRecord) :
    (recoverOperation stagedRecovery record).id = record.id := by
  unfold recoverOperation
  split
  · rfl
  · split <;> rfl

/-! ### A small deployment -/

/-- Defaults, no key, no lab mode. -/
def LoadArgs.sample : LoadArgs where
  limits := .default
  approvalTtl := 900
  labMode := false
  stagedRecovery := .discard
  approvalDigestKey := none
  evidence := false
  laterKey := none

/-- Nothing fails, and no other process holds the file. -/
def LoadEnv.quiet : LoadEnv where
  ownerLock := .ok true
  stateLock := none
  readFault := none
  writeFault := none

end Mecmcp.Changeset
