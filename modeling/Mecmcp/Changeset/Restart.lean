import Mecmcp.Changeset.Load
import Mecmcp.Changeset.Version

/-!
# Restart — what a restart and an offline repair leave

A restart reads the state file, settles what depended on a handle that only existed in memory, and
writes the file back if that changed anything.  `restart_recovery_settles_iff` says what is left:
an operation that was `Validated` stays so, although its handle is lost as that of a `Staged` one is,
and nothing else survives.

An offline repair opens the file without the deployment's key.  `offline_repair_iff` says when it can
resolve every non-terminal operation of a file the server accepts, and leave a file the server
accepts.
-/

namespace Mecmcp.Changeset

open Option

variable {C : Crates} {path : String} {args : LoadArgs} {env : LoadEnv} {file : C.Text}
  {onDisk : OnDiskState} {read state : ChangesetState} {config : Config}

/-! ### One record -/

def OperationRecord.Settled (mode : StagedRecovery) (record : OperationRecord) : Prop :=
  record.state = .committed ∨ record.state = .discarded ∨ record.state = .failed ∨
    record.state = .indeterminate ∨
    mode = .retain ∧ record.state = .staged ∧ record.jobId = none

/-- What restart recovery is to leave of a change set: it is being applied only if somebody can be
asked about it. -/
def ChangeSetRecord.Attended (record : ChangeSetRecord) : Prop :=
  (record.state = .applying →
    (∃ task, record.taskId = some task ∧ task ≠ "") ∨ record.applyWithoutHandle = true) ∧
  record.taskId ≠ some ""

def restartDetails : String :=
  "server restarted during a non-terminal operation; manual reconciliation required"

theorem recoverOperation_settled_iff (mode : StagedRecovery) (record : OperationRecord) :
    (recoverOperation mode record).Settled mode ↔ record.state ≠ .validated := by
  unfold recoverOperation
  split_ifs with hretained
  · obtain ⟨hmode, hstate, hjob⟩ := hretained
    simp [OperationRecord.Settled, hmode, hstate, hjob]
  · cases hstate : record.state <;> simp [OperationRecord.Settled, hstate]

theorem recoverOperation_cases (mode : StagedRecovery) (record : OperationRecord) :
    recoverOperation mode record = record ∨
      recoverOperation mode record =
        { record with state := .indeterminate, details := some restartDetails } := by
  unfold recoverOperation
  split_ifs
  · exact .inl rfl
  · cases record.state <;> simp [restartDetails]

theorem recoverOperation_checkedAs (mode : StagedRecovery) (record : OperationRecord) :
    (recoverOperation mode record).CheckedAs record := by
  rcases recoverOperation_cases mode record with h | h
  · rw [h]
    exact .refl record
  · exact ⟨_, _, _, h⟩

theorem recoverOperation_of_not_needed {mode : StagedRecovery} {record : OperationRecord}
    (h : needsRecovery mode record = false) : recoverOperation mode record = record := by
  unfold recoverOperation
  split_ifs with hretained
  · rfl
  · have hnot : (decide (mode = .retain) && decide (record.state = .staged) &&
        record.jobId.isNone) = false := by
      simpa [isSome_iff_ne_none] using hretained
    rw [needsRecovery, hnot] at h
    revert h
    cases record.state <;> simp

theorem needsRecovery_recoverOperation (mode : StagedRecovery) (record : OperationRecord) :
    needsRecovery mode (recoverOperation mode record) = false := by
  unfold recoverOperation
  split_ifs with hretained
  · obtain ⟨hmode, hstate, hjob⟩ := hretained
    simp [needsRecovery, hmode, hstate, hjob]
  · cases hstate : record.state <;> simp [needsRecovery, hstate]

theorem normaliseTaskHandle_taskId (record : ChangeSetRecord) :
    (normaliseTaskHandle record).taskId ≠ some "" := by
  unfold normaliseTaskHandle
  split_ifs with h
  · simp
  · exact h

theorem recoverChangeSet_attended (record : ChangeSetRecord) :
    (recoverChangeSet record).Attended := by
  have htask := normaliseTaskHandle_taskId record
  unfold recoverChangeSet failUnattended
  generalize normaliseTaskHandle record = record at htask ⊢
  split_ifs with hfail
  · exact ⟨by simp, htask⟩
  · refine ⟨fun hstate => ?_, htask⟩
    cases hhandle : record.taskId with
    | none =>
      right
      by_contra hwithout
      exact hfail ⟨hstate, hhandle, by simpa using hwithout⟩
    | some task =>
      left
      exact ⟨task, rfl, fun hempty => htask (by rw [hhandle, hempty])⟩

theorem recoverChangeSet_checkedAs (record : ChangeSetRecord) :
    (recoverChangeSet record).CheckedAs record := by
  obtain ⟨state, taskId, h, -⟩ := recoverChangeSet_eq record
  exact ⟨state, taskId, h⟩

theorem recoverChangeSet_of_attended {record : ChangeSetRecord} (h : record.Attended) :
    recoverChangeSet record = record := by
  obtain ⟨hhandle, htask⟩ := h
  have hnormal : normaliseTaskHandle record = record := if_neg htask
  rw [recoverChangeSet, hnormal, failUnattended, if_neg]
  rintro ⟨hstate, hnone, hwithout⟩
  rcases hhandle hstate with ⟨task, hsome, -⟩ | hwith
  · rw [hnone] at hsome
    cases hsome
  · rw [hwithout] at hwith
    cases hwith

/-! ### The whole state -/

section
variable {state : ChangesetState} {mode : StagedRecovery}

theorem recoverState_rewrites (mode : StagedRecovery) (state : ChangesetState) :
    Rewrites (recoverState mode state) state where
  operationCount := by simp [recoverState]
  changeSetCount := by simp [recoverState]
  operations id record hr := by
    rw [getElem?_recoverState_operations, map_eq_some_iff] at hr
    obtain ⟨before, hbefore, rfl⟩ := hr
    exact ⟨before, hbefore, recoverOperation_checkedAs mode before⟩
  changeSets id record hr := by
    rw [getElem?_recoverState_changeSets, map_eq_some_iff] at hr
    obtain ⟨before, hbefore, rfl⟩ := hr
    exact ⟨before, hbefore, recoverChangeSet_checkedAs before⟩

theorem recoverState_noEmptyTasks (mode : StagedRecovery) (state : ChangesetState) :
    NoEmptyTasks (recoverState mode state) := by
  intro id record hr
  rw [getElem?_recoverState_changeSets, map_eq_some_iff] at hr
  obtain ⟨before, -, rfl⟩ := hr
  exact (recoverChangeSet_attended before).2

theorem recoverState_of_not_recovered (h : recovered mode state = false) :
    recoverState mode state = state := by
  rw [recovered, Bool.or_eq_false_iff] at h
  have hops : (state.operations.map fun _ record => recoverOperation mode record) =
      state.operations := map_eq_self fun id record hr =>
    recoverOperation_of_not_needed (anyOperation_false h.1 hr)
  have hsets : (state.changeSets.map fun _ record => recoverChangeSet record) =
      state.changeSets := by
    refine map_eq_self fun id record hr => recoverChangeSet_of_attended ?_
    have hflag := anyChangeSet_false h.2 hr
    simp only [Bool.or_eq_false_iff, decide_eq_false_iff_not] at hflag
    obtain ⟨htask, hunattended⟩ := hflag
    have hnormal : normaliseTaskHandle record = record := if_neg htask
    rw [hnormal] at hunattended
    refine ⟨fun hstate => ?_, htask⟩
    cases hhandle : record.taskId with
    | none => simpa [hstate, hhandle] using hunattended
    | some task => exact .inl ⟨task, rfl, fun hempty => htask (by rw [hhandle, hempty])⟩
  rw [recoverState, hops, hsets]

theorem recovered_recoverState (mode : StagedRecovery) (state : ChangesetState) :
    recovered mode (recoverState mode state) = false := by
  rw [recovered, Bool.or_eq_false_iff]
  constructor
  · by_contra hany
    rw [Bool.not_eq_false, ChangesetState.anyOperation_iff] at hany
    obtain ⟨id, record, hr, hneeds⟩ := hany
    rw [getElem?_recoverState_operations, map_eq_some_iff] at hr
    obtain ⟨before, -, rfl⟩ := hr
    rw [needsRecovery_recoverOperation] at hneeds
    cases hneeds
  · by_contra hany
    rw [Bool.not_eq_false, ChangesetState.anyChangeSet_iff] at hany
    obtain ⟨id, record, hr, hflag⟩ := hany
    have hattended : record.Attended := by
      rw [getElem?_recoverState_changeSets, map_eq_some_iff] at hr
      obtain ⟨before, -, rfl⟩ := hr
      exact recoverChangeSet_attended before
    have hnormal : normaliseTaskHandle record = record := if_neg hattended.2
    rw [hnormal] at hflag
    simp only [hattended.2, decide_false, Bool.false_or, Bool.and_eq_true, decide_eq_true_eq,
      isNone_iff_eq_none, Bool.not_eq_true'] at hflag
    obtain ⟨⟨hstate, hnone⟩, hwithout⟩ := hflag
    rcases hattended.1 hstate with ⟨task, hsome, -⟩ | hwith
    · rw [hnone] at hsome
      cases hsome
    · rw [hwithout] at hwith
      cases hwith

structure OnlyRecovered (before after : ChangesetState) : Prop where
  operations : ∀ id : String, after.operations[id]? = before.operations[id]? ∨
    ∃ record, before.operations[id]? = some record ∧ after.operations[id]? =
      some { record with state := .indeterminate, details := some restartDetails }
  changeSets : ∀ id : String, after.changeSets[id]? = before.changeSets[id]? ∨
    ∃ record state, before.changeSets[id]? = some record ∧
      (state = record.state ∨ record.state = .applying ∧ state = .failed) ∧
      after.changeSets[id]? = some { record with state, taskId := record.taskId.filter (· ≠ "") }

theorem recoverChangeSet_fields (record : ChangeSetRecord) :
    ∃ state, (state = record.state ∨ record.state = .applying ∧ state = .failed) ∧
      recoverChangeSet record = { record with state, taskId := record.taskId.filter (· ≠ "") } := by
  have hfilter : (normaliseTaskHandle record) =
      { record with taskId := record.taskId.filter (· ≠ "") } := by
    obtain ⟨_, _, _, _, _, _, _, _, _, _, _, _, _, _, taskId, _⟩ := record
    cases taskId with
    | none => rfl
    | some task =>
      by_cases hempty : task = ""
      · simp [normaliseTaskHandle, Option.filter, hempty]
      · simp [normaliseTaskHandle, Option.filter, hempty]
  rw [recoverChangeSet, failUnattended, hfilter]
  split_ifs with hfail
  · exact ⟨.failed, .inr ⟨hfail.1, rfl⟩, rfl⟩
  · exact ⟨record.state, .inl rfl, rfl⟩

theorem onlyRecovered_recoverState (mode : StagedRecovery) (state : ChangesetState) :
    OnlyRecovered state (recoverState mode state) where
  operations id := by
    rw [getElem?_recoverState_operations]
    cases hr : state.operations[id]? with
    | none => exact .inl rfl
    | some record =>
      rcases recoverOperation_cases mode record with h | h
      · exact .inl (congrArg some h)
      · exact .inr ⟨record, rfl, congrArg some h⟩
  changeSets id := by
    rw [getElem?_recoverState_changeSets]
    cases hr : state.changeSets[id]? with
    | none => exact .inl rfl
    | some record =>
      obtain ⟨next, hnext, h⟩ := recoverChangeSet_fields record
      exact .inr ⟨record, next, rfl, hnext, congrArg some h⟩

theorem recoverState_settled_iff (mode : StagedRecovery) (state : ChangesetState) :
    (∀ (id : String) record, (recoverState mode state).operations[id]? = some record →
        record.Settled mode) ↔
      ∀ (id : String) record, state.operations[id]? = some record → record.state ≠ .validated := by
  simp only [getElem?_recoverState_operations, map_eq_some_iff]
  constructor
  · intro hsettled id record hr
    exact (recoverOperation_settled_iff _ record).mp (hsettled id _ ⟨record, hr, rfl⟩)
  · rintro hno id record ⟨before, hbefore, rfl⟩
    exact (recoverOperation_settled_iff _ before).mpr (hno id before hbefore)

/-- The text of an interrupted operation is replaced, unless it says so already. -/
theorem recoverState_details_iff (mode : StagedRecovery) (state : ChangesetState) :
    (∀ (id : String) before after, state.operations[id]? = some before →
        (recoverState mode state).operations[id]? = some after → after.details = before.details) ↔
      ∀ (id : String) record, state.operations[id]? = some record →
        needsRecovery mode record = true → record.details = some restartDetails := by
  have hdetails (record : OperationRecord) : (recoverOperation mode record).details =
      if needsRecovery mode record then some restartDetails else record.details := by
    cases hneeds : needsRecovery mode record with
    | false => rw [recoverOperation_of_not_needed hneeds]; rfl
    | true =>
      rcases recoverOperation_cases mode record with h | h
      · have hdone := needsRecovery_recoverOperation mode record
        rw [h, hneeds] at hdone
        cases hdone
      · rw [h]; rfl
  simp only [getElem?_recoverState_operations]
  constructor
  · intro h id record hr hneeds
    have hkept := h id record _ hr (by rw [hr]; rfl)
    rw [hdetails, if_pos hneeds] at hkept
    exact hkept.symm
  · intro h id before after hbefore hafter
    rw [hbefore] at hafter
    cases hafter
    rw [hdetails]
    split
    · next hneeds => exact (h id before hbefore hneeds).symm
    · rfl

end

/-! ### Loading -/

theorem readForLoad_iff : readForLoad path args env (some file) = .ok read ↔
    (utf8 path).head? = some 47 ∧ env.ownerLock = .ok true ∧ env.stateLock = none ∧
      readStateWithKey C path args.limits.maxStateBytes args.approvalDigestKey env.readFault file =
        .ok read := by
  simp only [readForLoad, bind_unit_ok, refuseIf_ok, not_not]
  refine and_congr_right fun _ => ?_
  cases hlock : env.ownerLock with
  | error error => simp
  | ok free =>
    cases free with
    | false => simp
    | true =>
      cases hstate : env.stateLock with
      | some error => simp
      | none => simp only [mapError_ok, true_and]

theorem readFault_of_ok {fault : Option String} {maxStateBytes : ℕ} {key : Option (List UInt8)}
    (h : readStateWithKey C path maxStateBytes key fault file = .ok read) : fault = none := by
  cases fault with
  | none => rfl
  | some error => cases h

theorem loadCoordinator_ok
    (h : (loadCoordinator (some path) args env (some file)).result = .ok (config, state)) :
    ∃ read, readForLoad path args env (some file) = .ok read ∧
      config = args.config (some path) ∧ state = recoverState args.stagedRecovery read ∧
      (recovered args.stagedRecovery read = false ∧
          (loadCoordinator (some path) args env (some file)).disk = some file ∨
        recovered args.stagedRecovery read = true ∧
          C.len (payload C state) ≤ args.limits.maxStateBytes ∧
          (loadCoordinator (some path) args env (some file)).disk = some (payload C state)) := by
  cases hread : readForLoad path args env (some file) with
  | error error => simp [loadCoordinator, hread] at h
  | ok read =>
    refine ⟨read, rfl, ?_⟩
    simp only [loadCoordinator, hread] at h ⊢
    cases hrecovered : recovered args.stagedRecovery read with
    | false =>
      simp only [hrecovered, Bool.false_eq_true, if_false] at h ⊢
      cases h
      exact ⟨rfl, rfl, .inl ⟨trivial, trivial⟩⟩
    | true =>
      simp only [hrecovered, if_true, writeFile, writeState] at h ⊢
      split_ifs at h ⊢ with hlen
      · cases h
      · cases hfault : env.writeFault with
        | some fault => simp [hfault, Except.map, Except.mapError] at h
        | none =>
          simp only [hfault, Except.mapError, Except.map, Except.ok.injEq, Prod.mk.injEq] at h
          obtain ⟨rfl, rfl⟩ := h
          exact ⟨rfl, rfl, .inr ⟨trivial, by omega, rfl⟩⟩

theorem loadCoordinator_quiet_iff :
    loadCoordinator (some path) args env (some file) =
        ⟨some file, .ok (args.config (some path), state), []⟩ ↔
      readForLoad path args env (some file) = .ok state ∧
        recovered args.stagedRecovery state = false := by
  cases hread : readForLoad path args env (some file) with
  | error error => simp [loadCoordinator, hread]
  | ok read =>
    simp only [loadCoordinator, hread]
    cases hrecovered : recovered args.stagedRecovery read with
    | false =>
      rw [recoverState_of_not_recovered hrecovered]
      simp only [Bool.false_eq_true, if_false, FileEffect.mk.injEq, Except.ok.injEq,
        Prod.mk.injEq, true_and, and_true]
      constructor
      · rintro rfl
        exact ⟨rfl, hrecovered⟩
      · rintro ⟨rfl, -⟩
        rfl
    | true =>
      -- a load that writes says so
      simp only [if_true, FileEffect.mk.injEq, Except.ok.injEq]
      constructor
      · rintro ⟨-, hresult, hevents⟩
        have houtcome := writeFile_outcome path args.limits.maxStateBytes env.writeFault
          (recoverState args.stagedRecovery read) (some file)
        generalize writeFile path args.limits.maxStateBytes env.writeFault
          (recoverState args.stagedRecovery read) (some file) = written at houtcome hresult hevents
        cases houtcome with
        | written => simp at hevents
        | failed error => simp [Except.map] at hresult
        | landed error => simp at hevents
      · rintro ⟨rfl, hnot⟩
        rw [hrecovered] at hnot
        cases hnot

/-- **What a restart leaves.**  Every operation is settled exactly if none was `Validated`.  Every
change set that is being applied can be asked about.  Nothing changed but the state and the details
of interrupted operations and the state and empty task ids of change sets, and the details exactly if
no interrupted operation had other ones.  Loading what was left changes nothing exactly if the
document, where it was written, parses back and no two-person approval was re-signed that a
deployment with a key refuses. -/
theorem restart_recovery_settles_iff (hlimit : C.LimitsNesting)
    (h : (loadCoordinator (some path) args env (some file)).result = .ok (config, state))
    (hdisk : (C.fromSlice file).bind decodeOnDisk = some onDisk) :
    ∃ read, readStateWithKey C path args.limits.maxStateBytes args.approvalDigestKey none file =
        .ok read ∧
      ((∀ (id : String) record, state.operations[id]? = some record →
          record.Settled args.stagedRecovery) ↔
        ∀ (id : String) record, read.operations[id]? = some record → record.state ≠ .validated) ∧
      (∀ (id : String) record, state.changeSets[id]? = some record → record.Attended) ∧
      OnlyRecovered read state ∧
      ((∀ (id : String) before after, read.operations[id]? = some before →
          state.operations[id]? = some after → after.details = before.details) ↔
        ∀ (id : String) record, read.operations[id]? = some record →
          needsRecovery args.stagedRecovery record = true →
          record.details = some restartDetails) ∧
      (loadCoordinator (some path) args env
            (loadCoordinator (some path) args env (some file)).disk =
          ⟨(loadCoordinator (some path) args env (some file)).disk, .ok (config, state), []⟩ ↔
        (recovered args.stagedRecovery read = true →
          Reparses C state ∧ NoOldApprovals args.approvalDigestKey onDisk)) := by
  obtain ⟨read, hread, rfl, rfl, hwritten⟩ := loadCoordinator_ok h
  obtain ⟨habsolute, howner, hlock, hfile⟩ := readForLoad_iff.mp hread
  have hfault := readFault_of_ok hfile
  rw [hfault] at hfile
  obtain ⟨hvalid, hmigrated⟩ := readStateWithKey_ok hfile hdisk
  refine ⟨read, hfile, recoverState_settled_iff _ _, ?_, onlyRecovered_recoverState _ _,
    recoverState_details_iff _ _, ?_⟩
  · intro id record hr
    rw [getElem?_recoverState_changeSets, map_eq_some_iff] at hr
    obtain ⟨before, -, rfl⟩ := hr
    exact recoverChangeSet_attended before
  · rcases hwritten with ⟨hnot, hkept⟩ | ⟨hyes, hlen, hnew⟩
    · rw [hkept, loadCoordinator_quiet_iff, recoverState_of_not_recovered hnot]
      simp [hread, hnot]
    · have hnormal : (recoverState args.stagedRecovery read).normalised =
          recoverState args.stagedRecovery read :=
        normalised_of_noEmptyTasks (recoverState_noEmptyTasks _ _)
      have hback := @read_payload_iff C path args.limits.maxStateBytes args.approvalDigestKey hlimit
        (recoverState args.stagedRecovery read)
      rw [hnormal] at hback
      rw [hnew, loadCoordinator_quiet_iff, readForLoad_iff, hfault, hback]
      simp only [habsolute, howner, hlock, hlen, recovered_recoverState, hyes, true_and, and_true,
        forall_true_left]
      refine and_congr_right fun _ => ?_
      constructor
      · intro hvalid'
        refine noOldApprovals_of_rewritten (fun id before hbefore => ?_) hvalid'
        rw [← hmigrated] at hbefore
        exact ⟨recoverChangeSet before, by rw [getElem?_recoverState_changeSets, hbefore]; rfl,
          recoverChangeSet_checkedAs before⟩
      · intro hold
        exact validate_rewritten hvalid hold (hmigrated ▸ recoverState_rewrites _ _)

/-- A deployment with the given treatment of staged operations and key. -/
def loadArgs (stagedRecovery : StagedRecovery) (approvalDigestKey : Option (List UInt8)) :
    LoadArgs :=
  { LoadArgs.sample with stagedRecovery, approvalDigestKey }

theorem load_sample {mode : StagedRecovery} {key : Option (List UInt8)} {version : UInt32}
    {state : ChangesetState} (hversion : 1 ≤ version.toNat ∧ version.toNat ≤ 7)
    (hmigrate : migrate Crates.sample version.toNat state = state)
    (hfacts : Crates.sample.len (encodeOnDisk ⟨version, state⟩) ≤
        LoadArgs.sample.limits.maxStateBytes ∧ (encodeOnDisk ⟨version, state⟩).depth ≤ 127 ∧
      validateStateWithKey Crates.sample state version.toNat key = .ok () ∧
      recovered mode state = false) :
    (Crates.sample.fromSlice (encodeOnDisk ⟨version, state⟩)).bind decodeOnDisk =
        some ⟨version, state⟩ ∧
      readStateWithKey Crates.sample "/state.json" (loadArgs mode key).limits.maxStateBytes key none
        (encodeOnDisk ⟨version, state⟩) = .ok state ∧
      (loadCoordinator (some "/state.json") (loadArgs mode key) .quiet
          (some (encodeOnDisk ⟨version, state⟩)) : FileEffect Crates.sample _) =
        ⟨some (encodeOnDisk ⟨version, state⟩),
          .ok ((loadArgs mode key).config (some "/state.json"), state), []⟩ := by
  obtain ⟨hlen, hdepth, hvalid, hnot⟩ := hfacts
  obtain ⟨hdisk, hread⟩ := @read_sample "/state.json" (loadArgs mode key).limits.maxStateBytes key
    ⟨version, state⟩ hlen hdepth hversion hvalid
  rw [hmigrate] at hread
  exact ⟨hdisk, hread, loadCoordinator_quiet_iff.mpr
    ⟨readForLoad_iff.mpr ⟨by decide +kernel, rfl, rfl, hread⟩, hnot⟩⟩

theorem migrate_operationOnly (version : ℕ) (record : OperationRecord) :
    migrate Crates.sample version (operationOnly record) = operationOnly record :=
  migrate_eq (fun _ id cs hr => by simp [operationOnly] at hr)
    (fun _ id cs hr => by simp [operationOnly] at hr)

/-- A committed operation is settled after a restart. -/
theorem committed_settled_after_restart :
    (∀ (id : String) record,
        (operationOnly { managedOperation with state := .committed }).operations[id]? =
          some record → record.Settled .discard) ∧
      (loadCoordinator (some "/state.json") (loadArgs .discard none) .quiet
        (some (encodeOnDisk ⟨1, operationOnly { managedOperation with state := .committed }⟩)) :
          FileEffect Crates.sample _).result = .ok ((loadArgs .discard none).config
            (some "/state.json"), operationOnly { managedOperation with state := .committed }) := by
  obtain ⟨hdisk, hknown, hload⟩ := @load_sample .discard none 1
    (operationOnly { managedOperation with state := .committed }) (by decide)
    (migrate_operationOnly _ _) (by decide +kernel)
  have hresult := congrArg FileEffect.result hload
  obtain ⟨read, hread, hsettled, -⟩ :=
    restart_recovery_settles_iff sample_limitsNesting hresult hdisk
  cases hknown.symm.trans hread
  refine ⟨hsettled.mpr fun id record hr => ?_, hresult⟩
  rw [operationOnly, Std.ExtTreeMap.getElem?_insert, Std.ExtTreeMap.getElem?_empty] at hr
  split at hr <;> cases hr
  decide

/-- A validated operation is still validated after a restart, with its handle gone. -/
theorem validated_survives_restart :
    ∃ config state record,
      (loadCoordinator (some "/state.json") (loadArgs .discard none) .quiet
        (some (encodeOnDisk ⟨1, operationOnly { managedOperation with state := .validated }⟩)) :
          FileEffect Crates.sample _).result = .ok (config, state) ∧
      state.operations[managedOperation.id]? = some record ∧ record.state = .validated ∧
      ¬record.Settled .discard := by
  obtain ⟨-, -, hload⟩ := @load_sample .discard none 1
    (operationOnly { managedOperation with state := .validated }) (by decide)
    (migrate_operationOnly _ _) (by decide +kernel)
  refine ⟨_, _, { managedOperation with state := .validated },
    congrArg FileEffect.result hload, ?_, rfl, ?_⟩
  · simp [operationOnly]
  · simp [OperationRecord.Settled]

/-! ### Offline repair -/

variable {key : Option (List UInt8)} {version : ℕ}
variable {id : String} {record : OperationRecord} {disposition : RecoveryDisposition}

/-- No change set of the file carries a two-person approval. -/
def NoApprovers (onDisk : OnDiskState) : Prop :=
  ∀ (id : String) record, onDisk.state.changeSets[id]? = some record →
    record.approval.bind (·.approver) = none

theorem validateApproval_without_key {record : ChangeSetRecord}
    {approval : ApprovalRecord} (happrover : approval.approver = none) :
    validateApproval C version none id record approval = .ok () ↔
      validateApproval C version key id record approval = .ok () := by
  have hexpected : expectedApprovalDigest C version none id record approval =
      expectedApprovalDigest C version key id record approval := by
    cases hwaived : approval.waived <;> simp only [expectedApprovalDigest, happrover, hwaived]
  rw [validateApproval_ok, validateApproval_ok, hexpected]
  simp [happrover]

theorem validate_without_key (h : validateStateWithKey C onDisk.state version key = .ok ())
    (hno : key.isSome = true → NoApprovers onDisk) :
    validateStateWithKey C onDisk.state version none = .ok () := by
  cases key with
  | none => exact h
  | some key =>
    rw [validateStateWithKey_ok] at h ⊢
    obtain ⟨hops, hsets, hopEntries, hsetEntries⟩ := h
    refine ⟨hops, hsets, hopEntries, fun id record hr => ?_⟩
    have hentry := hsetEntries id record hr
    have hnone := hno rfl id record hr
    simp only [validateChangeSetEntry, bind_unit_ok, mapError_ok, refuseIf_ok] at hentry ⊢
    obtain ⟨hid, hnames, hfingerprint, hdigest, hactions, htargets, hplan, hpreview, happroval,
      hown⟩ := hentry
    refine ⟨hid, hnames, hfingerprint, hdigest, hactions, htargets, hplan, hpreview, ?_, hown⟩
    cases hrecord : record.approval with
    | none => rfl
    | some approval =>
      rw [hrecord] at happroval hnone
      exact (validateApproval_without_key hnone).mpr happroval

/-- A keyed file that also passes without the key has no two-person approval, unless it is older
than version 4. -/
theorem noApprovers_of_both (h : validateStateWithKey C onDisk.state version key = .ok ())
    (hnone : validateStateWithKey C onDisk.state version none = .ok ())
    (hversion : 4 ≤ version) (hkey : key.isSome = true) : NoApprovers onDisk := by
  intro id record hr
  by_contra hsome
  obtain ⟨approver, happrover⟩ := ne_none_iff_exists'.mp hsome
  obtain ⟨approval, happroval, hname⟩ := bind_eq_some_iff.mp happrover
  obtain ⟨-, hkeyed⟩ := entry_approval ((validateStateWithKey_ok.mp h).2.2.2 id record hr) happroval
  obtain ⟨-, hkeyless⟩ :=
    entry_approval ((validateStateWithKey_ok.mp hnone).2.2.2 id record hr) happroval
  have hsix : approval.digestVersion = 6 := by
    by_contra hne
    exact (validateApproval_ok.mp hkeyed).2.2.1 ⟨hkey, by rw [hname]; rfl, hne⟩
  have hexpected := (validateApproval_ok.mp hkeyless).2.2.2.2
  rw [expectedApprovalDigest, hname] at hexpected
  simp [expectedApproverDigest, hversion, hsix] at hexpected

/-- The state an offline resolution writes. -/
def resolvedState (read : ChangesetState) (id : String) (record : OperationRecord)
    (disposition : RecoveryDisposition) : ChangesetState :=
  read.putOperation id (record.resolvedAs disposition)

/-- The confirmation an operator has to give. -/
def confirmationFor (id : String) (disposition : RecoveryDisposition) : String :=
  "RESOLVED " ++ id ++ " AS " ++ disposition.word

/-- The repair succeeds, the server reads the written file as the same state with the operation
resolved, and starts on it. -/
def Repaired (C : Crates) (path : String) (args : LoadArgs) (file : C.Text) (read : ChangesetState)
    (id : String) (record : OperationRecord) (disposition : RecoveryDisposition) : Prop :=
  ∃ written output events,
    resolvePersistedOperation path id disposition (confirmationFor id disposition) args.limits
        .quiet (some file) = ⟨some written, .ok output, events⟩ ∧
      readStateWithKey C path args.limits.maxStateBytes args.approvalDigestKey none written =
        .ok (resolvedState read id record disposition).normalised ∧
      (loadCoordinator (some path) args .quiet (some written)).result.isOk = true

theorem resolvedState_rewrites
    (hr : read.operations[id]? = some record) (disposition : RecoveryDisposition) :
    Rewrites (resolvedState read id record disposition).normalised read where
  operationCount := by
    have hmem : id ∈ read.operations := Std.ExtTreeMap.isSome_getElem?_iff_mem.mp (by rw [hr]; rfl)
    simp [resolvedState, ChangesetState.putOperation, Std.ExtTreeMap.size_insert, hmem]
  changeSetCount := by simp [resolvedState, ChangesetState.putOperation, ChangesetState.normalised]
  operations k after hafter := by
    rw [normalised_operations, resolvedState, getElem?_putOperation] at hafter
    split_ifs at hafter with hk
    · subst hk
      cases hafter
      exact ⟨record, hr, _, _, _, rfl⟩
    · exact ⟨after, hafter, .refl after⟩
  changeSets k after hafter := by
    rw [getElem?_normalised, map_eq_some_iff] at hafter
    obtain ⟨before, hbefore, rfl⟩ := hafter
    obtain ⟨taskId, htask⟩ := normaliseTaskHandle_eq before
    exact ⟨before, hbefore, _, taskId, htask⟩

section
variable {limits : OperationLimits} (habsolute : (utf8 path).head? = some 47)
  (hid : isLowerHex64 (utf8 id) = true)
include habsolute hid

/-- With the right confirmation and nothing in its way a resolution reads the file without a key. -/
theorem findForResolution_unread {error : PersistenceError}
    (hread : readStateWithKey C path limits.maxStateBytes none none file = .error error) :
    findForResolution path id disposition (confirmationFor id disposition) limits .quiet
      (some file) = .error (.ofPersistence error) := by
  simp [findForResolution, refuseIf, habsolute, validateOperationId, checkOperationId, hid,
    confirmationFor, LoadEnv.quiet, hread, bind, Except.bind]

theorem findForResolution_read (hr : read.operations[id]? = some record)
    (hopen : record.state.terminal = false)
    (hread : readStateWithKey C path limits.maxStateBytes none none file = .ok read) :
    findForResolution path id disposition (confirmationFor id disposition) limits .quiet
      (some file) = .ok (read, record) := by
  simp [findForResolution, refuseIf, habsolute, validateOperationId, checkOperationId, hid,
    confirmationFor, LoadEnv.quiet, hread, hr, hopen]

end

theorem resolve_ok_iff {written : C.Text} {events : List Event}
    (habsolute : (utf8 path).head? = some 47) (hid : isLowerHex64 (utf8 id) = true)
    (hr : read.operations[id]? = some record) (hopen : record.state.terminal = false)
    (hread : readStateWithKey C path args.limits.maxStateBytes none none file = .ok read) :
    (∃ output, resolvePersistedOperation path id disposition (confirmationFor id disposition)
        args.limits .quiet (some file) = ⟨some written, .ok output, events⟩) ↔
      C.len (payload C (resolvedState read id record disposition)) ≤ args.limits.maxStateBytes ∧
        written = payload C (resolvedState read id record disposition) ∧
        events = [.wrote (resolvedState read id record disposition)] := by
  rw [resolvePersistedOperation, findForResolution_read habsolute hid hr hopen hread]
  simp only [LoadEnv.quiet, writeFile, writeState, resolvedState]
  by_cases hlen : C.len (payload C (read.putOperation id (record.resolvedAs disposition))) >
      args.limits.maxStateBytes
  · rw [if_pos hlen]
    constructor
    · rintro ⟨output, houtput⟩
      cases (FileEffect.mk.inj houtput).2.1
    · rintro ⟨hle, -⟩
      omega
  · have hle : C.len (payload C (read.putOperation id (record.resolvedAs disposition))) ≤
        args.limits.maxStateBytes := by omega
    simp only [if_neg hlen, hle, all_none, and_self, if_true, FileEffect.mk.injEq,
      Option.some.injEq, true_and]
    constructor
    · rintro ⟨output, hwritten, -, hevents⟩
      exact ⟨hwritten.symm, hevents.symm⟩
    · rintro ⟨rfl, rfl⟩
      exact ⟨_, rfl, rfl, rfl⟩

theorem resolve_unreadable {error : PersistenceError} (habsolute : (utf8 path).head? = some 47)
    (hid : isLowerHex64 (utf8 id) = true)
    (hread : readStateWithKey C path args.limits.maxStateBytes none none file = .error error) :
    (resolvePersistedOperation path id disposition (confirmationFor id disposition) args.limits
      .quiet (some file)).result = .error (.ofPersistence error) := by
  rw [resolvePersistedOperation, findForResolution_unread habsolute hid hread]

theorem keyless_of_resolve {confirmation : String} {output : ResolvedOperationOutput}
    (h : (resolvePersistedOperation path id disposition confirmation args.limits .quiet
      (some file)).result = .ok output) :
    ∃ read, readStateWithKey C path args.limits.maxStateBytes none none file = .ok read := by
  cases hfind : findForResolution path id disposition confirmation args.limits .quiet
      (some file) with
  | error error => simp [resolvePersistedOperation, hfind] at h
  | ok found =>
    obtain ⟨_, ⟨⟩, hread, -⟩ := findForResolution_ok hfind
    exact ⟨_, hread⟩

theorem readStateWithKey_of_valid {maxStateBytes : ℕ} {key' : Option (List UInt8)}
    (h : readStateWithKey C path maxStateBytes key none file = .ok read)
    (hdisk : (C.fromSlice file).bind decodeOnDisk = some onDisk)
    (hvalid : validateStateWithKey C onDisk.state onDisk.version.toNat key' = .ok ()) :
    readStateWithKey C path maxStateBytes key' none file =
      .ok (migrate C onDisk.version.toNat onDisk.state) := by
  simp only [readStateWithKey, hdisk] at h ⊢
  split at h
  · simp at h
  · next hlen =>
    split at h
    · simp at h
    · next hversion =>
      rw [if_neg hlen, if_neg hversion, bind_unit_ok]
      exact ⟨hvalid, rfl⟩

theorem loadCoordinator_isOk_iff (hread : readForLoad path args .quiet (some file) = .ok read) :
    (loadCoordinator (some path) args .quiet (some file)).result.isOk = true ↔
      (recovered args.stagedRecovery read = true →
        C.len (payload C (recoverState args.stagedRecovery read)) ≤ args.limits.maxStateBytes) := by
  simp only [loadCoordinator, hread]
  cases hrecovered : recovered args.stagedRecovery read with
  | false => simp [Except.isOk, Except.toBool]
  | true =>
    simp only [if_true, writeFile, writeState, LoadEnv.quiet, forall_true_left]
    split_ifs with hlen
    · simp only [Except.mapError, Except.map, Except.isOk, Except.toBool, Bool.false_eq_true,
        false_iff]
      omega
    · simp only [Except.mapError, Except.map, Except.isOk, Except.toBool, true_iff]
      omega

/-- **When offline repair can open what the server can.**  A non-terminal operation of a file the
server accepts is resolved, and the server accepts the result as the same state with that operation
resolved, exactly if a server with a key finds no two-person approval in the file, the new text is
within the limit, its document is nested no deeper than 127 and its floats survive printing and
parsing, and the text of a recovery that the next load has to write is within the limit. -/
theorem offline_repair_iff (hlimit : C.LimitsNesting) {id : String} {record : OperationRecord}
    (disposition : RecoveryDisposition)
    (h : (loadCoordinator (some path) args env (some file)).result = .ok (config, state))
    (hdisk : (C.fromSlice file).bind decodeOnDisk = some onDisk)
    (hr : onDisk.state.operations[id]? = some record) (hopen : record.state.terminal = false) :
    ∃ read, readStateWithKey C path args.limits.maxStateBytes args.approvalDigestKey none file =
        .ok read ∧
      (Repaired C path args file read id record disposition ↔
        (args.approvalDigestKey.isSome = true → NoApprovers onDisk) ∧
        C.len (payload C (resolvedState read id record disposition)) ≤
          args.limits.maxStateBytes ∧
        Reparses C (resolvedState read id record disposition).normalised ∧
        (recovered args.stagedRecovery (resolvedState read id record disposition).normalised =
            true →
          C.len (payload C (recoverState args.stagedRecovery
            (resolvedState read id record disposition).normalised)) ≤
              args.limits.maxStateBytes)) := by
  obtain ⟨read, hload, -, -, -⟩ := loadCoordinator_ok h
  obtain ⟨habsolute, -, -, hfile⟩ := readForLoad_iff.mp hload
  rw [readFault_of_ok hfile] at hfile
  obtain ⟨hvalid, hmigrated⟩ := readStateWithKey_ok hfile hdisk
  have hrRead : read.operations[id]? = some record := by rw [hmigrated, migrate_operations, hr]
  have hid : isLowerHex64 (utf8 id) = true := by
    have hentry := (validateStateWithKey_ok.mp hvalid).2.2.1 id record hr
    simp only [validateOperationEntry, bind_unit_ok, validatePersistedId, checkOperationId,
      refuseIf_ok] at hentry
    simpa using hentry.1
  have hrewrites := resolvedState_rewrites hrRead disposition
  refine ⟨read, hfile, ?_⟩
  constructor
  · rintro ⟨written, output, events, hresolve, hback, hagain⟩
    -- the repair read the file, so the file passes without the key
    obtain ⟨read', hkeyless⟩ := keyless_of_resolve (congrArg FileEffect.result hresolve)
    obtain ⟨hvalidKeyless, hread'⟩ := readStateWithKey_ok hkeyless hdisk
    rw [hread', ← hmigrated] at hkeyless
    obtain ⟨hlen, rfl, -⟩ :=
      (resolve_ok_iff habsolute hid hrRead hopen hkeyless).mp ⟨output, hresolve⟩
    obtain ⟨-, hslice, hvalid'⟩ := (read_payload_iff hlimit).mp hback
    refine ⟨fun hkey => ?_, hlen, hslice, ?_⟩
    · by_cases hversion : onDisk.version.toNat < 4
      · refine noOldApprovals_of_rewritten (fun k before hbefore => ?_) hvalid' hkey hversion
        rw [← hmigrated] at hbefore
        obtain ⟨taskId, htask⟩ := normaliseTaskHandle_eq before
        refine ⟨normaliseTaskHandle before, ?_, _, taskId, htask⟩
        have hsame : (resolvedState read id record disposition).changeSets = read.changeSets := rfl
        rw [getElem?_normalised, hsame, hbefore]
        rfl
      · exact noApprovers_of_both hvalid hvalidKeyless (by omega) hkey
    · refine (loadCoordinator_isOk_iff (readForLoad_iff.mpr ?_)).mp hagain
      exact ⟨habsolute, rfl, rfl, hback⟩
  · rintro ⟨hno, hlen, hslice, hrecovery⟩
    have hvalidKeyless := validate_without_key hvalid hno
    have hkeyless : readStateWithKey C path args.limits.maxStateBytes none none file = .ok read := by
      rw [hmigrated]
      exact readStateWithKey_of_valid hfile hdisk hvalidKeyless
    have hold : NoOldApprovals args.approvalDigestKey onDisk :=
      fun hkey _ id record hr => hno hkey id record hr
    have hvalid' := validate_rewritten hvalid hold (hmigrated ▸ hrewrites)
    rw [← hmigrated] at hvalid'
    have hback := (@read_payload_iff C path args.limits.maxStateBytes _ hlimit _).mpr
      ⟨hlen, hslice, hvalid'⟩
    obtain ⟨output, hresolve⟩ :=
      (resolve_ok_iff habsolute hid hrRead hopen hkeyless).mpr ⟨hlen, rfl, rfl⟩
    refine ⟨_, output, _, hresolve, hback, ?_⟩
    exact (loadCoordinator_isOk_iff (readForLoad_iff.mpr ⟨habsolute, rfl, rfl, hback⟩)).mpr hrecovery

/-- A staged operation of a deployment without a key is resolved. -/
theorem staged_operation_repaired :
    ∃ read, readStateWithKey Crates.sample "/state.json"
        (loadArgs .retain none).limits.maxStateBytes none none
        (encodeOnDisk ⟨1, operationOnly managedOperation⟩) = .ok read ∧
      Repaired Crates.sample "/state.json" (loadArgs .retain none)
        (encodeOnDisk ⟨1, operationOnly managedOperation⟩) read managedOperation.id
        managedOperation .committed := by
  obtain ⟨hdisk, hknown, hload⟩ := @load_sample .retain none 1 (operationOnly managedOperation)
    (by decide) (migrate_operationOnly _ _) (by decide +kernel)
  have hr : (operationOnly managedOperation).operations[managedOperation.id]? =
      some managedOperation := by simp [operationOnly]
  obtain ⟨read, hread, hrepaired⟩ :=
    offline_repair_iff sample_limitsNesting .committed (congrArg FileEffect.result hload) hdisk hr rfl
  cases hknown.symm.trans hread
  exact ⟨_, hread, hrepaired.mpr
    ⟨fun h => absurd h (by decide), by decide +kernel, sample_reparses (by decide +kernel), fun _ => by decide +kernel⟩⟩

/-- A file with a staged operation and a keyed approval. -/
def keyedState : ChangesetState :=
  ⟨(operationOnly managedOperation).operations, (stateOf keyedApproval).changeSets⟩

/-- A server with the key starts on the file, and the repair cannot open it. -/
theorem keyed_file_not_repairable :
    (loadCoordinator (some "/state.json") (loadArgs .retain (some exampleKey)) .quiet
        (some (encodeOnDisk ⟨7, keyedState⟩)) : FileEffect Crates.sample _).result =
      .ok ((loadArgs .retain (some exampleKey)).config (some "/state.json"), keyedState) ∧
    keyedState.operations[managedOperation.id]? = some managedOperation ∧
    (resolvePersistedOperation "/state.json" managedOperation.id .committed
        (confirmationFor managedOperation.id .committed)
        (loadArgs .retain (some exampleKey)).limits .quiet (some (encodeOnDisk ⟨7, keyedState⟩)) :
          FileEffect Crates.sample _).result =
      .error ⟨"state", "changeset state approval carries a v6 (keyed) digest but no approval digest key was supplied; it cannot be verified"⟩ := by
  have hversion : 1 ≤ (7 : UInt32).toNat ∧ (7 : UInt32).toNat ≤ 7 := by decide
  obtain ⟨hdisk, -, hload⟩ := @load_sample .retain (some exampleKey) 7 keyedState hversion rfl
    (by decide +kernel)
  refine ⟨congrArg FileEffect.result hload, by simp [keyedState, operationOnly], ?_⟩
  have hrefused : validateStateWithKey Crates.sample keyedState 7 none =
      .error ⟨"changeset state approval carries a v6 (keyed) digest but no approval digest key was supplied; it cannot be verified"⟩ := by
    decide +kernel
  have hchecks : (utf8 "/state.json").head? = some 47 ∧
      isLowerHex64 (utf8 managedOperation.id) = true := by decide +kernel
  refine resolve_unreadable hchecks.1 hchecks.2 ?_
  have hlen : ¬Crates.sample.len (encodeOnDisk ⟨7, keyedState⟩) >
      (loadArgs .retain (some exampleKey)).limits.maxStateBytes := by decide +kernel
  simp only [readStateWithKey, hdisk]
  rw [if_neg hlen, if_neg (not_not.mpr hversion)]
  exact congrArg (· >>= _) hrefused

end Mecmcp.Changeset
