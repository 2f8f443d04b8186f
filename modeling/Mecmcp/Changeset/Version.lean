import Mecmcp.Changeset.Migration

/-!
# Version — which fields the stamped file version covers

`write_state` stamps the lowest version it takes the state to need, so that an older binary, whose
records deny unknown members, refuses the file by its version and not by a member it does not know.
A record goes beyond version 1 if its document has a member that version did not have, or an endpoint
it did not accept (`ChangesetState.BeyondV1`).

The scan of `write_state` misses two of them: the configuration authority of an operation, and the
digest version of an approval when it is below 4.  `stamped_version_covers_iff` says that a state is
stamped above version 1 whenever it goes beyond it exactly if another record or field makes up for
these two.
-/

namespace Mecmcp.Changeset

/-! ### What version 1 does not have -/

/-- Members of an operation that version 1 does not have. -/
def operationFieldsSinceV1 : List String :=
  ["attribution", "rollback_deadline_unix", "config_authority"]

def changeSetFieldsSinceV1 : List String :=
  ["policy_signature", "targets", "preview", "task_id", "apply_without_handle"]

def approvalFieldsSinceV1 : List String := ["digest_version", "waived"]

def HasMember (names : List String) (document : Json) : Prop :=
  ∃ name ∈ names, (document.getKey name).isSome = true

/-- The operation is written with something the reader of version 1 refuses. -/
def OperationRecord.BeyondV1 (record : OperationRecord) : Prop :=
  HasMember operationFieldsSinceV1 (encodeOperation record) ∨
    (utf8 "https://").isPrefixOf (utf8 record.endpoint) = false

/-- The change set is written with something the reader of version 1 refuses. -/
def ChangeSetRecord.BeyondV1 (record : ChangeSetRecord) : Prop :=
  HasMember changeSetFieldsSinceV1 (encodeChangeSet record) ∨
    ∃ approval, record.approval = some approval ∧
      HasMember approvalFieldsSinceV1 (encodeApproval approval)

namespace ChangesetState

/-- Some record of the state is written with something the reader of version 1 refuses. -/
def BeyondV1 (state : ChangesetState) : Prop :=
  (∃ (id : String) (record : OperationRecord),
      state.operations[id]? = some record ∧ record.BeyondV1) ∨
    ∃ (id : String) (record : ChangeSetRecord),
      state.changeSets[id]? = some record ∧ record.BeyondV1

/-- The version `write_state` stamps. -/
def stampedVersion (state : ChangesetState) : ℕ := state.normalised.diskVersion.toNat

end ChangesetState

/-! ### What the scan sees -/

def OperationRecord.Scanned (record : OperationRecord) : Prop :=
  record.attribution.isSome = true ∨ record.rollbackDeadlineUnix.isSome = true ∨
    (utf8 "https://").isPrefixOf (utf8 record.endpoint) = false

def ChangeSetRecord.Scanned (record : ChangeSetRecord) : Prop :=
  record.policySignature ≠ "" ∨ record.targets ≠ [] ∨ record.preview.isSome = true ∨
    record.taskId.isSome = true ∨ record.applyWithoutHandle = true ∨
    record.waiver.isSome = true ∨ (record.approval.bind (·.approver)).isSome = true ∨
    ∃ approval, record.approval = some approval ∧ 5 ≤ approval.digestVersion

/-- What goes beyond version 1 in an operation and is not looked for. -/
def OperationRecord.Unscanned (record : OperationRecord) : Prop :=
  record.configAuthority.isSome = true

/-- What goes beyond version 1 in a change set and is not looked for. -/
def ChangeSetRecord.Unscanned (record : ChangeSetRecord) : Prop :=
  ∃ approval, record.approval = some approval ∧ approval.digestVersion < 4

namespace ChangesetState

def Scanned (state : ChangesetState) : Prop :=
  (∃ (id : String) (record : OperationRecord),
      state.operations[id]? = some record ∧ record.Scanned) ∨
    ∃ (id : String) (record : ChangeSetRecord),
      state.changeSets[id]? = some record ∧ record.Scanned

def Unscanned (state : ChangesetState) : Prop :=
  (∃ (id : String) (record : OperationRecord),
      state.operations[id]? = some record ∧ record.Unscanned) ∨
    ∃ (id : String) (record : ChangeSetRecord),
      state.changeSets[id]? = some record ∧ record.Unscanned

variable {state : ChangesetState}

/-- When the cascade gives more than version 1. -/
theorem cascade_iff (v7 v6 v5 v4 v3 operations sets endpoints : Bool) :
    1 < (if v7 then (7 : UInt32) else if v6 then 6 else if v5 then 5 else if v4 then 4
        else if v3 then 3 else if operations || sets || endpoints then 2 else 1).toNat ↔
      (operations = true ∨ endpoints = true) ∨
        v7 = true ∨ v6 = true ∨ v5 = true ∨ v4 = true ∨ v3 = true ∨ sets = true := by
  cases v7 <;> cases v6 <;> cases v5 <;> cases v4 <;> cases v3 <;> cases operations <;>
    cases sets <;> cases endpoints <;> decide

theorem one_lt_diskVersion_iff : 1 < state.diskVersion.toNat ↔ state.Scanned := by
  have hop (record : OperationRecord) : record.Scanned ↔
      (record.attribution.isSome || record.rollbackDeadlineUnix.isSome) = true ∨
        (!(utf8 "https://").isPrefixOf (utf8 record.endpoint)) = true := by
    simp [OperationRecord.Scanned, or_assoc]
  have hset (record : ChangeSetRecord) : record.Scanned ↔
      (record.approval.any fun approval => 6 ≤ approval.digestVersion) = true ∨
      (record.approval.any fun approval => 5 ≤ approval.digestVersion) = true ∨
      record.applyWithoutHandle = true ∨ (record.approval.bind (·.approver)).isSome = true ∨
      record.waiver.isSome = true ∨ (record.policySignature != "" || !record.targets.isEmpty ||
        record.preview.isSome || record.taskId.isSome) = true := by
    have hsix : ∀ version : UInt8, 6 ≤ version → 5 ≤ version := fun _ => UInt8.le_trans (by decide)
    simp only [ChangeSetRecord.Scanned, Option.any_eq_true, decide_eq_true_eq, Bool.or_eq_true,
      bne_iff_ne, Bool.not_eq_true', List.isEmpty_eq_false_iff]
    grind
  rw [diskVersion, cascade_iff, Scanned]
  simp only [anyOperation_iff, anyChangeSet_iff, hop, hset, and_or_left, exists_or]

end ChangesetState

/-! ### Record by record -/

theorem hasMember_encode {names : List String} {slots : List (String × Option Json)}
    (h : (slots.map Prod.fst).Nodup) : HasMember names (Struct.encode slots) ↔
      (names.any fun name => ((slots.lookup name).join).isSome) = true := by
  simp only [HasMember, Struct.getKey_encode h, List.any_eq_true]

theorem OperationRecord.hasMember_iff (record : OperationRecord) :
    HasMember operationFieldsSinceV1 (encodeOperation record) ↔
      record.attribution.isSome = true ∨ record.rollbackDeadlineUnix.isSome = true ∨
        record.configAuthority.isSome = true := by
  rw [encodeOperation, hasMember_encode (by simp)]
  show ((record.attribution.map encodeAttribution).isSome ||
    ((record.rollbackDeadlineUnix.map Json.ofUInt64).isSome ||
      ((record.configAuthority.map Json.str).isSome || false))) = true ↔ _
  simp

theorem ApprovalRecord.hasMember_iff (approval : ApprovalRecord) :
    HasMember approvalFieldsSinceV1 (encodeApproval approval) ↔
      approval.digestVersion ≠ 4 ∨ approval.waived.isSome = true := by
  rw [encodeApproval, hasMember_encode (by simp)]
  show ((if approval.digestVersion = 4 then none
      else some (Json.ofUInt8 approval.digestVersion)).isSome ||
    ((approval.waived.map encodeWaiver).isSome || false)) = true ↔ _
  simp

theorem ChangeSetRecord.hasMember_iff (record : ChangeSetRecord) :
    HasMember changeSetFieldsSinceV1 (encodeChangeSet record) ↔
      record.policySignature ≠ "" ∨ record.targets ≠ [] ∨ record.preview.isSome = true ∨
        record.taskId.isSome = true ∨ record.applyWithoutHandle = true := by
  rw [encodeChangeSet, hasMember_encode (by simp)]
  show ((if record.policySignature = "" then none else some (Json.str record.policySignature)).isSome ||
    ((if record.targets = [] then none else some (Json.ofList Json.str record.targets)).isSome ||
      ((record.preview.map encodePreview).isSome || ((record.taskId.map Json.str).isSome ||
        ((if record.applyWithoutHandle then some (Json.bool true) else none).isSome || false))))) =
      true ↔ _
  simp

theorem OperationRecord.beyondV1_iff (record : OperationRecord) :
    record.BeyondV1 ↔ record.Unscanned ∨ record.Scanned := by
  rw [BeyondV1, hasMember_iff, Unscanned, Scanned]
  tauto

theorem ChangeSetRecord.unscanned_or_scanned {record : ChangeSetRecord} (h : record.BeyondV1) :
    record.Unscanned ∨ record.Scanned := by
  rcases h with h | ⟨approval, happroval, h⟩
  · rw [hasMember_iff] at h
    right
    unfold Scanned
    tauto
  · rw [ApprovalRecord.hasMember_iff] at h
    rcases h with hversion | hwaived
    · -- the scan sees digest versions from 5, the default is 4
      by_cases hlt : approval.digestVersion < 4
      · exact .inl ⟨approval, happroval, hlt⟩
      · have hfive : (5 : UInt8) ≤ approval.digestVersion := by
          rw [UInt8.lt_iff_toNat_lt] at hlt
          rw [UInt8.le_iff_toNat_le]
          have hne : approval.digestVersion.toNat ≠ 4 := fun heq =>
            hversion (UInt8.toNat_inj.mp heq)
          change ¬approval.digestVersion.toNat < 4 at hlt
          change 5 ≤ approval.digestVersion.toNat
          omega
        right
        iterate 7 apply Or.inr
        exact ⟨approval, happroval, hfive⟩
    · right
      iterate 5 apply Or.inr
      exact .inl (by simpa [ChangeSetRecord.waiver, happroval] using hwaived)

theorem ChangeSetRecord.beyondV1_of_unscanned {record : ChangeSetRecord} (h : record.Unscanned) :
    record.BeyondV1 := by
  obtain ⟨approval, happroval, hlt⟩ := h
  refine .inr ⟨approval, happroval, approval.hasMember_iff.mpr (.inl ?_)⟩
  rintro heq
  rw [heq] at hlt
  exact absurd hlt (by decide)

/-! ### The floors of the cascade -/

namespace ChangesetState

variable {state : ChangesetState}

/-- The versions that the newer kinds of evidence and flags need at least. -/
structure Floors (state : ChangesetState) (version : ℕ) : Prop where
  waiver : ∀ (id : String) record, state.changeSets[id]? = some record →
    record.waiver.isSome = true → 3 ≤ version
  approver : ∀ (id : String) record, state.changeSets[id]? = some record →
    (record.approval.bind (·.approver)).isSome = true → 4 ≤ version
  withoutHandle : ∀ (id : String) record, state.changeSets[id]? = some record →
    record.applyWithoutHandle = true → 5 ≤ version
  previewBound : ∀ (id : String) record approval, state.changeSets[id]? = some record →
    record.approval = some approval → 5 ≤ approval.digestVersion → 6 ≤ version
  keyed : ∀ (id : String) record approval, state.changeSets[id]? = some record →
    record.approval = some approval → 6 ≤ approval.digestVersion → 7 ≤ version

theorem floors_diskVersion (state : ChangesetState) : state.Floors state.diskVersion.toNat where
  waiver _ _ hr h := three_le_diskVersion hr h
  approver _ _ hr h := four_le_diskVersion hr h
  withoutHandle id record hr h :=
    (cascade_floors _ _ _ _ _ rfl).2.2.1 (anyChangeSet_iff.mpr ⟨id, record, hr, h⟩)
  previewBound id record approval hr happroval h :=
    (cascade_floors _ _ _ _ _ rfl).2.2.2.1
      (anyChangeSet_iff.mpr ⟨id, record, hr, by simp [happroval, h]⟩)
  keyed id record approval hr happroval h :=
    (cascade_floors _ _ _ _ _ rfl).2.2.2.2
      (anyChangeSet_iff.mpr ⟨id, record, hr, by simp [happroval, h]⟩)

theorem unscanned_or_scanned (h : state.BeyondV1) : state.Unscanned ∨ state.Scanned := by
  rcases h with ⟨id, record, hr, h⟩ | ⟨id, record, hr, h⟩
  · rcases record.beyondV1_iff.mp h with h | h
    · exact .inl (.inl ⟨id, record, hr, h⟩)
    · exact .inr (.inl ⟨id, record, hr, h⟩)
  · rcases ChangeSetRecord.unscanned_or_scanned h with h | h
    · exact .inl (.inr ⟨id, record, hr, h⟩)
    · exact .inr (.inr ⟨id, record, hr, h⟩)

theorem beyondV1_of_unscanned (h : state.Unscanned) : state.BeyondV1 := by
  rcases h with ⟨id, record, hr, h⟩ | ⟨id, record, hr, h⟩
  · exact .inl ⟨id, record, hr, record.beyondV1_iff.mpr (.inl h)⟩
  · exact .inr ⟨id, record, hr, ChangeSetRecord.beyondV1_of_unscanned h⟩

end ChangesetState

/-- **When the stamped version covers what is written.**  What `write_state` writes is stamped above
version 1 whenever it goes beyond that version exactly if a state with a configuration authority, or
with an approval of a digest version below 4, also holds something the scan looks for.  The newer
kinds of evidence and flags always get the version they need. -/
theorem stamped_version_covers_iff (C : Crates) (state : ChangesetState) :
    (∃ version, version.toNat = state.stampedVersion ∧
      payload C state = C.toVecPretty (encodeOnDisk ⟨version, state.normalised⟩)) ∧
    ((state.normalised.BeyondV1 → 1 < state.stampedVersion) ↔
      (state.normalised.Unscanned → state.normalised.Scanned)) ∧
    state.normalised.Floors state.stampedVersion := by
  refine ⟨⟨_, rfl, rfl⟩, ?_, state.normalised.floors_diskVersion⟩
  rw [ChangesetState.stampedVersion, ChangesetState.one_lt_diskVersion_iff]
  constructor
  · intro h hunscanned
    exact h (ChangesetState.beyondV1_of_unscanned hunscanned)
  · intro h hbeyond
    rcases ChangesetState.unscanned_or_scanned hbeyond with hunscanned | hscanned
    · exact h hunscanned
    · exact hscanned

def managedOperation : OperationRecord where
  id := String.ofList (List.replicate 64 'a')
  owner := "alice"
  device := "edge1"
  endpoint := "https://edge1"
  action := ⟨.str "set", Json.uniqueKeys_str _⟩
  xpath := none
  actions := [⟨.str "set", Json.uniqueKeys_str _⟩]
  changeSetId := none
  current := "sha256:" ++ String.ofList (List.replicate 64 '0')
  state := .staged
  jobId := none
  details := none
  configLockHeld := true
  policySignature := "policy"
  attribution := none
  rollbackDeadlineUnix := none
  configAuthority := some "mist"

/-- A store that holds one operation. -/
def operationOnly (record : OperationRecord) : ChangesetState :=
  ⟨(∅ : Std.ExtTreeMap String OperationRecord).insert record.id record, ∅⟩

/-- The configuration authority is written into a file of version 1. -/
theorem config_authority_stamped_v1 :
    (operationOnly managedOperation).normalised.BeyondV1 ∧
      (operationOnly managedOperation).stampedVersion = 1 := by
  constructor
  · refine .inl ⟨managedOperation.id, managedOperation, ?_,
      managedOperation.beyondV1_iff.mpr (.inl rfl)⟩
    simp [operationOnly]
  · decide +kernel

end Mecmcp.Changeset
