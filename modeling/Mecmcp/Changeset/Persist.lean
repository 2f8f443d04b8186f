import Mecmcp.Changeset.Codec

/-!
# Persist — writing and reading the state file

`write_state` and `read_state_with_key` of `persistence.rs`.  A write normalises empty task ids,
picks the lowest file version that can carry what the state holds, checks the size, writes a
temporary file, renames it over the state file and then syncs the directory; so it may fail with
the old file in place, or, in the last step, with the new one in place (`WriteFault.landed`).
A read checks the version, validates under the key, and rewrites the digests of files older than
versions 3 and 4.

`read_written` says what a read of a written file can return.
-/

namespace Mecmcp.Changeset

/-! ### Writing -/

inductive WriteStep where
  | openLock | lock | create | secure | write | sync | replace | syncDirectory
  deriving DecidableEq

/-- A failure of the system during a write. -/
structure WriteFault where
  step : WriteStep
  error : String
  deriving DecidableEq

namespace WriteFault

/-- The message of the error returned. -/
def message (path : String) (fault : WriteFault) : String :=
  match fault.step with
  | .openLock => "opening changeset state lock file '" ++ path ++ ".lock': " ++ fault.error
  | .lock => "locking changeset state '" ++ path ++ ".lock': " ++ fault.error
  | .create => "could not create changeset state: " ++ fault.error
  | .secure => "could not secure changeset state: " ++ fault.error
  | .write => "could not write changeset state: " ++ fault.error
  | .sync => "could not sync changeset state: " ++ fault.error
  | .replace => "could not replace changeset state: " ++ fault.error
  | .syncDirectory => "could not sync state directory: " ++ fault.error

/-- The new file is in place although the write reports a failure. -/
def landed (fault : WriteFault) : Bool := fault.step == .syncDirectory

end WriteFault

namespace ChangesetState

/-- The state with empty task ids removed. -/
def normalised (state : ChangesetState) : ChangesetState :=
  { state with changeSets := state.changeSets.map fun _ record => normaliseTaskHandle record }

def anyChangeSet (state : ChangesetState) (p : ChangeSetRecord → Bool) : Bool :=
  state.changeSets.toList.any fun entry => p entry.2

def anyOperation (state : ChangesetState) (p : OperationRecord → Bool) : Bool :=
  state.operations.toList.any fun entry => p entry.2

def diskVersion (state : ChangesetState) : UInt32 :=
  let operationsNeedV2 := state.anyOperation fun op =>
    op.attribution.isSome || op.rollbackDeadlineUnix.isSome
  let changeSetsNeedV2 := state.anyChangeSet fun cs =>
    cs.policySignature != "" || !cs.targets.isEmpty || cs.preview.isSome || cs.taskId.isSome
  let handlelessAppliesNeedV5 := state.anyChangeSet (·.applyWithoutHandle)
  let endpointsNeedV2 := state.anyOperation fun op =>
    !(utf8 "https://").isPrefixOf (utf8 op.endpoint)
  let waiversNeedV3 := state.anyChangeSet (·.waiver.isSome)
  let approvalsNeedV4 := state.anyChangeSet fun cs => (cs.approval.bind (·.approver)).isSome
  let previewBoundApprovalsNeedV6 := state.anyChangeSet fun cs =>
    cs.approval.any fun approval => 5 ≤ approval.digestVersion
  let keyedApprovalsNeedV7 := state.anyChangeSet fun cs =>
    cs.approval.any fun approval => 6 ≤ approval.digestVersion
  if keyedApprovalsNeedV7 then 7
  else if previewBoundApprovalsNeedV6 then 6
  else if handlelessAppliesNeedV5 then 5
  else if approvalsNeedV4 then 4
  else if waiversNeedV3 then 3
  else if operationsNeedV2 || changeSetsNeedV2 || endpointsNeedV2 then 2
  else 1

end ChangesetState

variable (C : Crates)

def payload (state : ChangesetState) : C.Text :=
  C.toVecPretty (encodeOnDisk ⟨state.normalised.diskVersion, state.normalised⟩)

/-- `write_state`: the file afterwards, and the result. -/
def writeState (path : String) (state : ChangesetState) (maxStateBytes : ℕ)
    (fault : Option WriteFault) (file : Option C.Text) :
    Option C.Text × Except PersistenceError Unit :=
  if C.len (payload C state) > maxStateBytes then
    (file, .error ⟨"serialized changeset state exceeds " ++ toString maxStateBytes ++ " bytes"⟩)
  else match fault with
    | none => (some (payload C state), .ok ())
    | some fault =>
      (if fault.landed then some (payload C state) else file, .error ⟨fault.message path⟩)

/-! ### Reading -/

/-- Files before version 3 get their waiver digests rewritten under the version 3 rule. -/
def migrateWaiver (record : ChangeSetRecord) : ChangeSetRecord :=
  match record.approval with
  | some approval =>
    match approval.waived with
    | some waiver =>
      { record with approval := some { approval with
          digest := computeWaiverDigestV3 C record.id record.digest record.owner
            approval.approvedAtUnix waiver } }
    | none => record
  | none => record

/-- Files before version 4 get their approval digests rewritten under the version 4 rule. -/
def migrateApproval (record : ChangeSetRecord) : ChangeSetRecord :=
  match record.approval with
  | some approval =>
    match approval.approver with
    | some approver =>
      { record with approval := some { approval with
          digest := computeApprovalDigestV4 C record.id record.digest record.owner approver
            approval.approvedAtUnix
          digestVersion := 4 } }
    | none => record
  | none => record

/-- The migrations of a file of the given version. -/
def migrate (version : ℕ) (state : ChangesetState) : ChangesetState :=
  let state := if version < 3 then
    { state with changeSets := state.changeSets.map fun _ record => migrateWaiver C record } else state
  if version < 4 then
    { state with changeSets := state.changeSets.map fun _ record => migrateApproval C record }
  else state

/-- `read_state_with_key` on the content of the file; `fault` is what the hardened read of the
file refuses apart from its size. -/
def readStateWithKey (path : String) (maxStateBytes : ℕ) (key : Option (List UInt8))
    (fault : Option String) (file : C.Text) : Except PersistenceError ChangesetState :=
  match fault with
  | some error => .error ⟨"could not read changeset state '" ++ path ++ "': " ++ error⟩
  | none =>
    if C.len file > maxStateBytes then
      .error ⟨"could not read changeset state '" ++ path ++ "': file " ++ path ++ " is "
        ++ toString (C.len file) ++ " bytes, limit is " ++ toString maxStateBytes⟩
    else match (C.fromSlice file).bind decodeOnDisk with
      | none => .error ⟨"invalid changeset state JSON: " ++ C.jsonError file⟩
      | some onDisk =>
        if ¬ (1 ≤ onDisk.version.toNat ∧ onDisk.version.toNat ≤ 7) then
          .error ⟨"unsupported changeset state version " ++ toString onDisk.version.toNat⟩
        else do
          validateStateWithKey C onDisk.state onDisk.version.toNat key
          .ok (migrate C onDisk.version.toNat onDisk.state)

/-! ### Reading what was written -/

variable {C : Crates} {state : ChangesetState}
variable {id : String} {record : ChangeSetRecord}

theorem ChangesetState.anyOperation_iff {p : OperationRecord → Bool} :
    state.anyOperation p = true ↔
      ∃ (id : String) (record : OperationRecord),
        state.operations[id]? = some record ∧ p record = true := by
  simp [anyOperation, Std.ExtTreeMap.mem_toList_iff_getElem?_eq_some]

theorem ChangesetState.anyChangeSet_iff {p : ChangeSetRecord → Bool} :
    state.anyChangeSet p = true ↔
      ∃ (id : String) (record : ChangeSetRecord),
        state.changeSets[id]? = some record ∧ p record = true := by
  simp [anyChangeSet, Std.ExtTreeMap.mem_toList_iff_getElem?_eq_some]

theorem anyOperation_false {p : OperationRecord → Bool} (h : state.anyOperation p = false)
    {record : OperationRecord} (hr : state.operations[id]? = some record) : p record = false := by
  rw [← Bool.not_eq_true, ChangesetState.anyOperation_iff] at h
  exact Bool.eq_false_iff.mpr fun hp => h ⟨id, record, hr, hp⟩

theorem anyChangeSet_false {p : ChangeSetRecord → Bool} (h : state.anyChangeSet p = false)
    (hr : state.changeSets[id]? = some record) : p record = false := by
  rw [← Bool.not_eq_true, ChangesetState.anyChangeSet_iff] at h
  exact Bool.eq_false_iff.mpr fun hp => h ⟨id, record, hr, hp⟩

/-- The lowest version each branch of the cascade gives. -/
theorem cascade_floors (v7 v6 v5 v4 v3 : Bool) {version rest : UInt32}
    (h : version = if v7 then 7 else if v6 then 6 else if v5 then 5 else if v4 then 4
      else if v3 then 3 else rest) :
    (v3 = true → 3 ≤ version.toNat) ∧ (v4 = true → 4 ≤ version.toNat) ∧
      (v5 = true → 5 ≤ version.toNat) ∧ (v6 = true → 6 ≤ version.toNat) ∧
      (v7 = true → 7 ≤ version.toNat) := by
  subst h
  cases v7 <;> cases v6 <;> cases v5 <;> cases v4 <;> cases v3 <;> simp

theorem three_le_diskVersion (hr : state.changeSets[id]? = some record)
    (h : record.waiver.isSome = true) : 3 ≤ state.diskVersion.toNat :=
  (cascade_floors _ _ _ _ _ rfl).1 (ChangesetState.anyChangeSet_iff.mpr ⟨id, record, hr, h⟩)

theorem four_le_diskVersion (hr : state.changeSets[id]? = some record)
    (h : (record.approval.bind (·.approver)).isSome = true) : 4 ≤ state.diskVersion.toNat :=
  (cascade_floors _ _ _ _ _ rfl).2.1 (ChangesetState.anyChangeSet_iff.mpr ⟨id, record, hr, h⟩)

theorem waiver_none_of_diskVersion (h : state.diskVersion.toNat < 3)
    (hr : state.changeSets[id]? = some record) : record.waiver = none :=
  Option.not_isSome_iff_eq_none.mp fun hsome => by
    have := three_le_diskVersion hr hsome
    omega

theorem approver_none_of_diskVersion (h : state.diskVersion.toNat < 4)
    (hr : state.changeSets[id]? = some record) : record.approval.bind (·.approver) = none :=
  Option.not_isSome_iff_eq_none.mp fun hsome => by
    have := four_le_diskVersion hr hsome
    omega

@[simp] theorem normalised_operations (state : ChangesetState) :
    state.normalised.operations = state.operations := rfl

@[simp] theorem getElem?_normalised (state : ChangesetState) (id : String) :
    state.normalised.changeSets[id]? = state.changeSets[id]?.map normaliseTaskHandle := by
  simp [ChangesetState.normalised]

@[simp] theorem getElem?_mapFloat_changeSets (f : UInt64 → UInt64) (state : ChangesetState)
    (id : String) :
    (state.mapFloat f).changeSets[id]? = state.changeSets[id]?.map (·.mapFloat f) := by
  simp [ChangesetState.mapFloat]

@[simp] theorem getElem?_mapFloat_operations (f : UInt64 → UInt64) (state : ChangesetState)
    (id : String) :
    (state.mapFloat f).operations[id]? = state.operations[id]?.map (·.mapFloat f) := by
  simp [ChangesetState.mapFloat]

theorem migrateWaiver_eq (h : record.waiver = none) :
    migrateWaiver C record = record := by
  unfold migrateWaiver
  cases ha : record.approval with
  | none => rfl
  | some approval =>
    have hw : approval.waived = none := by simpa [ChangeSetRecord.waiver, ha] using h
    simp [hw]

theorem migrateApproval_eq
    (h : record.approval.bind (·.approver) = none) : migrateApproval C record = record := by
  unfold migrateApproval
  cases ha : record.approval with
  | none => rfl
  | some approval =>
    have hw : approval.approver = none := by simpa [ha] using h
    simp [hw]

theorem map_eq_self {α : Type} {m : Std.ExtTreeMap String α} {f : α → α}
    (h : ∀ (id : String) a, m[id]? = some a → f a = a) : (m.map fun _ a => f a) = m := by
  refine Std.ExtTreeMap.ext_getElem? fun id => ?_
  cases hid : m[id]? with
  | none => simp [hid]
  | some a => simp [hid, h id a hid]

theorem migrate_eq {version : ℕ}
    (hw : version < 3 → ∀ (id : String) record, state.changeSets[id]? = some record →
      record.waiver = none)
    (ha : version < 4 → ∀ (id : String) record, state.changeSets[id]? = some record →
      record.approval.bind (·.approver) = none) :
    migrate C version state = state := by
  have h3 : (if version < 3 then
      { state with changeSets := state.changeSets.map fun _ record => migrateWaiver C record }
      else state) = state := by
    split
    · next h => rw [map_eq_self fun id r hr => migrateWaiver_eq (hw h id r hr)]
    · rfl
  unfold migrate
  dsimp only
  rw [h3]
  split
  · next h => rw [map_eq_self fun id r hr => migrateApproval_eq (ha h id r hr)]
  · rfl

theorem migrate_written (f : UInt64 → UInt64) (state : ChangesetState) :
    migrate C state.diskVersion.toNat (state.mapFloat f) = state.mapFloat f := by
  refine migrate_eq (fun h id record hr => ?_) (fun h id record hr => ?_)
  · rw [getElem?_mapFloat_changeSets, Option.map_eq_some_iff] at hr
    obtain ⟨original, ho, rfl⟩ := hr
    show original.waiver = none
    exact waiver_none_of_diskVersion h ho
  · rw [getElem?_mapFloat_changeSets, Option.map_eq_some_iff] at hr
    obtain ⟨original, ho, rfl⟩ := hr
    show original.approval.bind (·.approver) = none
    exact approver_none_of_diskVersion h ho

theorem diskVersion_range (state : ChangesetState) :
    1 ≤ state.diskVersion.toNat ∧ state.diskVersion.toNat ≤ 7 := by
  unfold ChangesetState.diskVersion
  dsimp only
  split_ifs <;> decide

/-- **What a read of a written file can return**: the normalised state, floats apart, and only if
it passes validation under the file's version. -/
theorem read_written {path : String} {maxStateBytes : ℕ} {key : Option (List UInt8)}
    {fault : Option String} {loaded : ChangesetState}
    (h : readStateWithKey C path maxStateBytes key fault (payload C state) = .ok loaded) :
    loaded = state.normalised.mapFloat C.reparse ∧
      validateStateWithKey C loaded state.normalised.diskVersion.toNat key = .ok () := by
  cases fault with
  | some error => cases h
  | none =>
    simp only [readStateWithKey] at h
    split at h
    · cases h
    cases hslice : C.fromSlice (payload C state) with
    | none => simp [hslice] at h
    | some document =>
      have hdoc := C.fromSlice_eq _ _ hslice
      rw [mapFloat_encodeOnDisk] at hdoc
      simp only [hslice, hdoc, Option.bind_some, decodeOnDisk_encodeOnDisk] at h
      rw [if_neg (not_not.mpr (diskVersion_range _)), bind_unit_ok, migrate_written] at h
      obtain ⟨hvalid, hloaded⟩ := h
      obtain rfl := Except.ok.inj hloaded
      exact ⟨rfl, hvalid⟩

end Mecmcp.Changeset
