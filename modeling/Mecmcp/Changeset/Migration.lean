import Mecmcp.Changeset.Methods

/-!
# Migration — reading an old file, writing it and reading it again

`read_state_with_key` re-signs what it read from a file of an older version, and the next write
picks a version from what the state holds.  `migration_stable_iff` says when the file so written
reads back as the same state: its text is not too long and parses to what was printed, no change set
has an empty task id, and a deployment that holds a key did not take a two-person approval from a
file older than version 4, which the migration labels version 4 and the key then refuses.

The re-signed digest covers what the old one covered, and besides only the fixed waiver of lab mode
(`resigned_digest_covers`).
-/

namespace Mecmcp.Changeset

open Option

variable {C : Crates} {id : String} {record : ChangeSetRecord}

section

variable {key : Option (List UInt8)} {version version' : ℕ} {approval : ApprovalRecord}

/-! ### One record -/

variable (C version) in
def migrateRecord (record : ChangeSetRecord) : ChangeSetRecord :=
  let record := if version < 3 then migrateWaiver C record else record
  if version < 4 then migrateApproval C record else record

theorem getElem?_migrate (state : ChangesetState) (id : String) :
    (migrate C version state).changeSets[id]? =
      state.changeSets[id]?.map (migrateRecord C version) := by
  unfold migrate migrateRecord
  rcases hentry : state.changeSets[id]? with _ | record
  · split <;> split <;> simp [hentry]
  · split <;> split <;> simp [hentry]

theorem migrate_operations (state : ChangesetState) :
    (migrate C version state).operations = state.operations := by
  unfold migrate
  split <;> split <;> rfl

theorem migrate_size (state : ChangesetState) :
    (migrate C version state).changeSets.size = state.changeSets.size := by
  unfold migrate
  split <;> split <;> simp

variable (C version) in
def migratedApproval (record : ChangeSetRecord) (approval : ApprovalRecord) : ApprovalRecord :=
  match approval.approver, approval.waived with
  | some approver, _ =>
    if version < 4 then
      { approval with
        digest := computeApprovalDigestV4 C record.id record.digest record.owner approver
          approval.approvedAtUnix
        digestVersion := 4 }
    else approval
  | none, some waiver =>
    if version < 3 then
      { approval with
        digest := computeWaiverDigestV3 C record.id record.digest record.owner
          approval.approvedAtUnix waiver }
    else approval
  | none, none => approval

theorem migrateRecord_eq (record : ChangeSetRecord) :
    migrateRecord C version record =
      { record with approval := record.approval.map (migratedApproval C version record) } := by
  rcases record with ⟨_, _, _, _, _, _, _, _, approval, _, _, _, _, _, _, _⟩
  rcases approval with _ | ⟨_ | approver, at', digest, digestVersion, _ | waiver⟩
  · simp [migrateRecord, migrateWaiver, migrateApproval]
  · simp [migrateRecord, migrateWaiver, migrateApproval, migratedApproval]
  · by_cases h3 : version < 3 <;> by_cases h4 : version < 4 <;>
      simp [migrateRecord, migrateWaiver, migrateApproval, migratedApproval, h3, h4]
  · by_cases h3 : version < 3 <;> by_cases h4 : version < 4 <;>
      simp [migrateRecord, migrateWaiver, migrateApproval, migratedApproval, h3, h4]
  · -- with both set, the approver decides; a file below version 3 is below version 4
    by_cases h4 : version < 4
    · by_cases h3 : version < 3 <;>
        simp [migrateRecord, migrateWaiver, migrateApproval, migratedApproval, h3, h4]
    · have h3 : ¬version < 3 := by omega
      simp [migrateRecord, migratedApproval, h3, h4]

theorem validateChangeSetEntry_approval {approval' : Option ApprovalRecord}
    (h : validateChangeSetEntry C version key id record = .ok ())
    (h' : approval'.elim (.ok ())
      (validateApproval C version' key id { record with approval := approval' }) = .ok ()) :
    validateChangeSetEntry C version' key id { record with approval := approval' } = .ok () := by
  simp only [validateChangeSetEntry, bind_unit_ok, mapError_ok, refuseIf_ok] at h ⊢
  obtain ⟨hid, hnames, hfingerprint, hdigest, hactions, htargets, hplan, hpreview, -, hown⟩ := h
  exact ⟨hid, hnames, hfingerprint, hdigest, hactions, htargets, hplan, hpreview, h', hown⟩

theorem entry_approval (h : validateChangeSetEntry C version key id record = .ok ())
    (happroval : record.approval = some approval) :
    id = record.id ∧ validateApproval C version key id record approval = .ok () := by
  simp only [validateChangeSetEntry, bind_unit_ok, mapError_ok, refuseIf_ok] at h
  obtain ⟨-, hnames, -, -, -, -, -, -, hvalid, -⟩ := h
  rw [happroval] at hvalid
  exact ⟨by_contra fun hne => hnames (Or.inl hne), hvalid⟩

theorem validateApproval_ok :
    validateApproval C version key id record approval = .ok () ↔
      validateDigest approval.digest "approval_digest" = .ok () ∧
      ¬(approval.approver.isSome = true ∧ approval.waived.isSome = true) ∧
      ¬(key.isSome = true ∧ approval.approver.isSome = true ∧ approval.digestVersion ≠ 6) ∧
      approval.approver ≠ some record.owner ∧
      expectedApprovalDigest C version key id record approval = .ok approval.digest := by
  have hlast : ((expectedApprovalDigest C version key id record approval) >>= fun expected =>
      refuseIf (expected ≠ approval.digest) tamperedApproval) = .ok () ↔
      expectedApprovalDigest C version key id record approval = .ok approval.digest := by
    rw [bind_ok]
    simp only [refuseIf_ok, not_not]
    exact ⟨fun ⟨_, hexpected, hdigest⟩ => hdigest ▸ hexpected, fun h => ⟨_, h, rfl⟩⟩
  simp only [validateApproval, bind_unit_ok, mapError_ok, refuseIf_ok, hlast]

variable {waiver : WaiverRecord}

theorem validateLegacyWaiver_ok (h : validateLegacyWaiver C version waiver = .ok ()) :
    waiver = labModeWaiver := by
  simp only [validateLegacyWaiver, bind_unit_ok, refuseIf_ok, not_not, Bool.not_eq_true,
    isSome_eq_false_iff, isNone_iff_eq_none] at h
  obtain ⟨hkind, hexpires, hticket, hreason⟩ := h
  rcases waiver with ⟨kind, reason, expires, ticket⟩
  simp only at hkind hexpires hticket hreason
  rw [hkind, hexpires, hticket, hreason, labModeWaiver]

theorem legacy_approver {approver : String} (hversion : version < 4)
    (happrover : approval.approver = some approver)
    (h : validateApproval C version key id record approval = .ok ()) :
    approval.digest = computeApprovalDigestLegacy C id record.digest record.owner approver
      approval.approvedAtUnix := by
  have hexpected := (validateApproval_ok.mp h).2.2.2.2
  rw [expectedApprovalDigest, happrover] at hexpected
  simp only [expectedApproverDigest, if_neg (show ¬4 ≤ version by omega), bind_unit_ok,
    mapError_ok] at hexpected
  exact (Except.ok.inj hexpected.2.2).symm

theorem legacy_waiver (hversion : version < 3)
    (happrover : approval.approver = none) (hwaived : approval.waived = some waiver)
    (h : validateApproval C version key id record approval = .ok ()) :
    waiver = labModeWaiver ∧ approval.digest =
      computeWaiverDigest C id record.digest record.owner approval.approvedAtUnix := by
  have hexpected := (validateApproval_ok.mp h).2.2.2.2
  rw [expectedApprovalDigest, happrover, hwaived] at hexpected
  simp only [expectedWaiverDigest, if_neg (show ¬3 ≤ version by omega), bind_unit_ok,
    mapError_ok] at hexpected
  exact ⟨validateLegacyWaiver_ok hexpected.1, (Except.ok.inj hexpected.2.2).symm⟩

theorem validateApproval_migrated (hid : id = record.id)
    (h : validateApproval C version key id record approval = .ok ())
    (hfour : approval.approver.isSome = true → 4 ≤ version')
    (hthree : approval.waived.isSome = true → 3 ≤ version')
    (hkey : key.isSome = true → version < 4 → approval.approver = none) :
    validateApproval C version' key id record (migratedApproval C version record approval) =
      .ok () := by
  obtain ⟨hdigest, hboth, hkeyed, hown, hexpected⟩ := validateApproval_ok.mp h
  rw [validateApproval_ok]
  rcases happrover : approval.approver with _ | approver
  · rcases hwaived : approval.waived with _ | waiver
    · -- neither: the legacy rule, whatever the version
      have hsame : migratedApproval C version record approval = approval := by
        rw [migratedApproval, happrover, hwaived]
      rw [hsame]
      refine ⟨hdigest, hboth, hkeyed, hown, ?_⟩
      rw [expectedApprovalDigest, happrover, hwaived] at hexpected ⊢
      exact hexpected
    · have h3 := hthree (by rw [hwaived]; rfl)
      by_cases hold : version < 3
      · have hnew : migratedApproval C version record approval =
            { approval with
              digest := computeWaiverDigestV3 C record.id record.digest record.owner
                approval.approvedAtUnix waiver } := by
          rw [migratedApproval, happrover, hwaived]
          exact if_pos hold
        rw [hnew]
        refine ⟨validateDigest_ofBytes (C.sha256_length _) _, hboth, hkeyed, hown, ?_⟩
        simp only [expectedApprovalDigest, happrover, hwaived, expectedWaiverDigest, if_pos h3, hid]
      · have hsame : migratedApproval C version record approval = approval := by
          rw [migratedApproval, happrover, hwaived]
          exact if_neg hold
        rw [hsame]
        refine ⟨hdigest, hboth, hkeyed, hown, ?_⟩
        simp only [expectedApprovalDigest, happrover, hwaived, expectedWaiverDigest, if_pos h3,
          if_pos (show 3 ≤ version by omega)] at hexpected ⊢
        exact hexpected
  · have h4 := hfour (by rw [happrover]; rfl)
    by_cases hold : version < 4
    · -- re-signed as version 4, which only a deployment without a key reads
      have hnokey : key = none := by
        by_contra hsome
        have := hkey (isSome_iff_ne_none.mpr hsome) hold
        rw [happrover] at this
        simp at this
      have hnew : migratedApproval C version record approval =
          { approval with
            digest := computeApprovalDigestV4 C record.id record.digest record.owner approver
              approval.approvedAtUnix
            digestVersion := 4 } := by
        rw [migratedApproval, happrover]
        exact if_pos hold
      rw [hnew]
      refine ⟨validateDigest_ofBytes (C.sha256_length _) _, hboth, by simp [hnokey], hown, ?_⟩
      simp only [expectedApprovalDigest, happrover, expectedApproverDigest, if_pos h4, hid]
      rfl
    · have hsame : migratedApproval C version record approval = approval := by
        rw [migratedApproval, happrover]
        exact if_neg hold
      rw [hsame]
      refine ⟨hdigest, hboth, hkeyed, hown, ?_⟩
      simp only [expectedApprovalDigest, happrover, expectedApproverDigest, if_pos h4,
        if_pos (show 4 ≤ version by omega)] at hexpected ⊢
      exact hexpected

end

/-! ### The whole state -/

variable {path : String} {maxStateBytes : ℕ} {key : Option (List UInt8)} {file : C.Text}
  {onDisk : OnDiskState} {loaded : ChangesetState}
variable {state next : ChangesetState} {version : ℕ}

theorem readStateWithKey_ok
    (h : readStateWithKey C path maxStateBytes key none file = .ok loaded)
    (hdisk : (C.fromSlice file).bind decodeOnDisk = some onDisk) :
    validateStateWithKey C onDisk.state onDisk.version.toNat key = .ok () ∧
      loaded = migrate C onDisk.version.toNat onDisk.state := by
  simp only [readStateWithKey, hdisk] at h
  split at h
  · simp at h
  split at h
  · simp at h
  rw [bind_unit_ok] at h
  exact ⟨h.1, (Except.ok.inj h.2).symm⟩

/-- No two-person approval was read from a file older than version 4 under a key. -/
def NoOldApprovals (key : Option (List UInt8)) (onDisk : OnDiskState) : Prop :=
  key.isSome = true → onDisk.version.toNat < 4 →
    ∀ (id : String) record, onDisk.state.changeSets[id]? = some record →
      record.approval.bind (·.approver) = none

theorem migratedApproval_approver (C : Crates) (version : ℕ) (record : ChangeSetRecord)
    (approval : ApprovalRecord) :
    (migratedApproval C version record approval).approver = approval.approver ∧
      (migratedApproval C version record approval).waived = approval.waived := by
  unfold migratedApproval
  split
  · split <;> exact ⟨rfl, rfl⟩
  · split <;> exact ⟨rfl, rfl⟩
  · exact ⟨rfl, rfl⟩

/-- What validation reads of an operation is the same in both. -/
def OperationRecord.CheckedAs (record original : OperationRecord) : Prop :=
  ∃ state details configLockHeld, record = { original with state, details, configLockHeld }

/-- What validation reads of a change set is the same in both. -/
def ChangeSetRecord.CheckedAs (record original : ChangeSetRecord) : Prop :=
  ∃ state taskId, record = { original with state, taskId }

theorem OperationRecord.CheckedAs.refl (record : OperationRecord) : record.CheckedAs record :=
  ⟨_, _, _, rfl⟩

theorem ChangeSetRecord.CheckedAs.refl (record : ChangeSetRecord) : record.CheckedAs record :=
  ⟨_, _, rfl⟩

/-- A state that differs from an accepted one in what validation does not read. -/
structure Rewrites (next : ChangesetState) (original : ChangesetState) : Prop where
  operationCount : next.operations.size = original.operations.size
  changeSetCount : next.changeSets.size = original.changeSets.size
  operations : ∀ (id : String) record, next.operations[id]? = some record →
    ∃ before, original.operations[id]? = some before ∧ record.CheckedAs before
  changeSets : ∀ (id : String) record, next.changeSets[id]? = some record →
    ∃ before, original.changeSets[id]? = some before ∧ record.CheckedAs before

theorem Rewrites.refl (state : ChangesetState) : Rewrites state state where
  operationCount := rfl
  changeSetCount := rfl
  operations _ record hr := ⟨record, hr, .refl record⟩
  changeSets _ record hr := ⟨record, hr, .refl record⟩

theorem validate_rewritten
    (h : validateStateWithKey C onDisk.state onDisk.version.toNat key = .ok ())
    (hkey : NoOldApprovals key onDisk)
    (hnext : Rewrites next (migrate C onDisk.version.toNat onDisk.state)) :
    validateStateWithKey C next next.diskVersion.toNat key = .ok () := by
  rw [validateStateWithKey_ok] at h ⊢
  obtain ⟨hops, hsets, hopEntries, hsetEntries⟩ := h
  refine ⟨?_, ?_, fun id record hr => ?_, fun id record hr => ?_⟩
  · rw [hnext.operationCount, migrate_operations]
    exact hops
  · rw [hnext.changeSetCount, migrate_size]
    exact hsets
  · obtain ⟨before, hbefore, state, details, lock, rfl⟩ := hnext.operations id record hr
    rw [migrate_operations] at hbefore
    exact hopEntries id before hbefore
  · obtain ⟨before, hbefore, state, taskId, hrecord⟩ := hnext.changeSets id record hr
    rw [getElem?_migrate, map_eq_some_iff] at hbefore
    obtain ⟨original, ho, rfl⟩ := hbefore
    have hvalid := hsetEntries id original ho
    rw [migrateRecord_eq] at hrecord
    have hchecked : validateChangeSetEntry C next.diskVersion.toNat key id
        { original with approval :=
          original.approval.map (migratedApproval C onDisk.version.toNat original) } = .ok () := by
      refine validateChangeSetEntry_approval hvalid ?_
      rcases happroval : original.approval with _ | approval
      · rfl
      obtain ⟨hid, hold⟩ := entry_approval hvalid happroval
      obtain ⟨hsame, hsameWaiver⟩ :=
        migratedApproval_approver C onDisk.version.toNat original approval
      rw [happroval] at hrecord
      refine validateApproval_migrated hid hold ?_ ?_ ?_
      · intro hsome
        refine four_le_diskVersion hr ?_
        simpa [hrecord, hsame] using hsome
      · intro hsome
        refine three_le_diskVersion hr ?_
        simpa [ChangeSetRecord.waiver, hrecord, hsameWaiver] using hsome
      · intro hk hversion
        simpa [happroval] using hkey hk hversion id original ho
    rw [hrecord]
    exact hchecked

def NoEmptyTasks (state : ChangesetState) : Prop :=
  ∀ (id : String) record, state.changeSets[id]? = some record → record.taskId ≠ some ""

theorem normalised_of_noEmptyTasks (h : NoEmptyTasks loaded) : loaded.normalised = loaded := by
  have hmap : (loaded.changeSets.map fun _ record => normaliseTaskHandle record) =
      loaded.changeSets := map_eq_self fun id record hr => if_neg (h id record hr)
  rw [ChangesetState.normalised, hmap]

theorem noEmptyTasks_of_fixed {f : UInt64 → UInt64} (h : loaded = loaded.normalised.mapFloat f) :
    NoEmptyTasks loaded := by
  intro id record hr htask
  have hfixed := hr
  rw [h, getElem?_mapFloat_changeSets, getElem?_normalised, hr] at hfixed
  have heq := congrArg ChangeSetRecord.taskId (Option.some.inj hfixed)
  have hnone : (normaliseTaskHandle record).taskId = none := by rw [normaliseTaskHandle, if_pos htask]
  have hkeep : ((normaliseTaskHandle record).mapFloat f).taskId =
      (normaliseTaskHandle record).taskId := rfl
  rw [hkeep, hnone, htask] at heq
  simp at heq

variable (C path maxStateBytes key loaded) in
/-- Writing the state succeeds, and the file so written reads back as the same state. -/
def ReadsBack (file : C.Text) : Prop :=
  ∃ written, writeState C path loaded maxStateBytes none (some file) = (some written, .ok ()) ∧
    readStateWithKey C path maxStateBytes key none written = .ok loaded

theorem readsBack_iff_read :
    ReadsBack C path maxStateBytes key loaded file ↔
      C.len (payload C loaded) ≤ maxStateBytes ∧
        readStateWithKey C path maxStateBytes key none (payload C loaded) = .ok loaded := by
  unfold ReadsBack writeState
  by_cases hlen : C.len (payload C loaded) > maxStateBytes
  · rw [if_pos hlen]
    constructor
    · rintro ⟨written, hwrite, -⟩
      simp at hwrite
    · rintro ⟨hle, -⟩
      omega
  · rw [if_neg hlen]
    constructor
    · rintro ⟨written, hwrite, hread⟩
      have heq : payload C loaded = written := Option.some.inj (Prod.mk.inj hwrite).1
      exact ⟨by omega, heq ▸ hread⟩
    · rintro ⟨-, hread⟩
      exact ⟨_, rfl, hread⟩

theorem noOldApprovals_of_rewritten
    (hkept : ∀ (id : String) before,
      (migrate C onDisk.version.toNat onDisk.state).changeSets[id]? = some before →
        ∃ record : ChangeSetRecord, next.changeSets[id]? = some record ∧ record.CheckedAs before)
    (h : validateStateWithKey C next version key = .ok ()) : NoOldApprovals key onDisk := by
  intro hk hversion id record hr
  by_contra hsome
  obtain ⟨approver, happrover⟩ := ne_none_iff_exists'.mp hsome
  obtain ⟨approval, happroval, hname⟩ := bind_eq_some_iff.mp happrover
  have hmigrated : (migrate C onDisk.version.toNat onDisk.state).changeSets[id]? =
      some (migrateRecord C onDisk.version.toNat record) := by
    rw [getElem?_migrate, hr]
    rfl
  obtain ⟨after, hafter, state, taskId, rfl⟩ := hkept id _ hmigrated
  have hentry := (validateStateWithKey_ok.mp h).2.2.2 id _ hafter
  rw [migrateRecord_eq] at hentry
  have hnew : (record.approval.map (migratedApproval C onDisk.version.toNat record)) =
      some (migratedApproval C onDisk.version.toNat record approval) := by rw [happroval]; rfl
  obtain ⟨-, hvalid⟩ := entry_approval hentry hnew
  have hguard := (validateApproval_ok.mp hvalid).2.2.1
  refine hguard ⟨hk, ?_, ?_⟩
  · rw [(migratedApproval_approver C _ record approval).1, hname]
    rfl
  · rw [migratedApproval, hname]
    simp only [if_pos hversion]
    decide

theorem noOldApprovals_of_valid (hloaded : loaded = migrate C onDisk.version.toNat onDisk.state)
    (h : validateStateWithKey C loaded version key = .ok ()) :
    NoOldApprovals key onDisk :=
  noOldApprovals_of_rewritten (fun _ before hbefore => ⟨before, hloaded ▸ hbefore, .refl before⟩) h

/-- The parser refuses what is nested deeper than 127, as `serde_json` does. -/
def Crates.LimitsNesting (C : Crates) : Prop :=
  ∀ j, C.fromSlice (C.toVecPretty j) ≠ none → j.depth ≤ 127

theorem sample_limitsNesting : Crates.sample.LimitsNesting := by
  intro j h
  by_contra hdeep
  exact h (if_neg hdeep)

/-- The document of the state is nested no deeper than the parser goes, and printing and parsing
changes no float of it. -/
def Reparses (C : Crates) (state : ChangesetState) : Prop :=
  (encodeOnDisk ⟨state.diskVersion, state⟩).depth ≤ 127 ∧ state.mapFloat C.reparse = state

theorem mapFloat_of_document {f : UInt64 → UInt64} {d : OnDiskState}
    (h : encodeOnDisk d = (encodeOnDisk d).mapFloat f) : d.state.mapFloat f = d.state := by
  have hback := congrArg decodeOnDisk h
  rw [mapFloat_encodeOnDisk, decodeOnDisk_encodeOnDisk, decodeOnDisk_encodeOnDisk] at hback
  exact (congrArg OnDiskState.state (Option.some.inj hback)).symm

theorem sample_reparses {state : ChangesetState}
    (hdepth : (encodeOnDisk ⟨state.diskVersion, state⟩).depth ≤ 127) :
    Reparses Crates.sample state :=
  ⟨hdepth, mapFloat_of_document (d := ⟨state.diskVersion, state⟩) (Json.mapFloat_id _).symm⟩

theorem fromSlice_payload_iff (hlimit : C.LimitsNesting) {next : ChangesetState} :
    C.fromSlice (payload C next) =
        some (encodeOnDisk ⟨next.normalised.diskVersion, next.normalised⟩) ↔
      Reparses C next.normalised := by
  constructor
  · intro hslice
    refine ⟨hlimit _ fun hnone => ?_, ?_⟩
    · rw [payload, hnone] at hslice
      cases hslice
    · exact mapFloat_of_document (C.fromSlice_eq _ _ hslice)
  · rintro ⟨hdepth, hfloats⟩
    exact C.fromSlice_ok _ hdepth (by rw [mapFloat_encodeOnDisk, hfloats])

/-- **When a written state is read back**: its text is within the limit and parses to what was
printed, and it passes under the version it was written with. -/
theorem read_payload_iff (hlimit : C.LimitsNesting) {next : ChangesetState} :
    readStateWithKey C path maxStateBytes key none (payload C next) = .ok next.normalised ↔
      C.len (payload C next) ≤ maxStateBytes ∧ Reparses C next.normalised ∧
      validateStateWithKey C next.normalised next.normalised.diskVersion.toNat key = .ok () := by
  rw [← fromSlice_payload_iff hlimit]
  constructor
  · intro hread
    obtain ⟨hfixed, hvalid⟩ := read_written hread
    simp only [readStateWithKey] at hread
    split at hread
    · simp at hread
    · next hlen =>
      refine ⟨by omega, ?_, hvalid⟩
      rcases hslice : C.fromSlice (payload C next) with _ | document
      · simp [hslice] at hread
      · have hdoc := C.fromSlice_eq _ _ hslice
        rw [mapFloat_encodeOnDisk, ← hfixed] at hdoc
        rw [hdoc]
  · rintro ⟨hlen, hslice, hvalid⟩
    have hmigrate : migrate C next.normalised.diskVersion.toNat next.normalised =
        next.normalised :=
      migrate_eq (fun hlt id record hr => waiver_none_of_diskVersion hlt hr)
        (fun hlt id record hr => approver_none_of_diskVersion hlt hr)
    simp only [readStateWithKey, hslice, bind_some, decodeOnDisk_encodeOnDisk]
    rw [if_neg (by omega), if_neg (not_not.mpr (diskVersion_range _)), bind_unit_ok, hmigrate]
    exact ⟨hvalid, rfl⟩

/-- What re-signing covers, for one record: below version 4 an approver's digest was the legacy one
and becomes the version 4 digest of the same values; below version 3 a waiver was the one of lab
mode, its digest the legacy one, and the new digest covers the same values and that waiver.
Nothing else is re-signed. -/
def ResignedFaithfully (C : Crates) (version : ℕ) (id : String) (record migrated : ChangeSetRecord) :
    Prop :=
  ∀ approval, record.approval = some approval →
    ∃ approval', migrated.approval = some approval' ∧
      match approval.approver, approval.waived with
      | some approver, _ =>
        (version < 4 → approval.digest = computeApprovalDigestLegacy C id record.digest record.owner
            approver approval.approvedAtUnix ∧
          approval'.digest = computeApprovalDigestV4 C id record.digest record.owner approver
            approval.approvedAtUnix) ∧
        (4 ≤ version → approval' = approval)
      | none, some waiver =>
        (version < 3 → waiver = labModeWaiver ∧
          approval.digest = computeWaiverDigest C id record.digest record.owner
            approval.approvedAtUnix ∧
          approval'.digest = computeWaiverDigestV3 C id record.digest record.owner
            approval.approvedAtUnix labModeWaiver) ∧
        (3 ≤ version → approval' = approval)
      | none, none => approval' = approval

theorem resigned_digest_covers (h : validateChangeSetEntry C version key id record = .ok ()) :
    ResignedFaithfully C version id record (migrateRecord C version record) := by
  intro approval happroval
  obtain ⟨hid, hvalid⟩ := entry_approval h happroval
  refine ⟨migratedApproval C version record approval, by rw [migrateRecord_eq, happroval]; rfl, ?_⟩
  rcases happrover : approval.approver with _ | approver
  · rcases hwaived : approval.waived with _ | waiver
    · simp only [migratedApproval, happrover, hwaived]
    · refine ⟨fun hversion => ?_, fun hversion => ?_⟩
      · obtain ⟨rfl, hdigest⟩ := legacy_waiver hversion happrover hwaived hvalid
        refine ⟨rfl, hdigest, ?_⟩
        simp only [migratedApproval, happrover, hwaived, if_pos hversion, hid]
      · simp only [migratedApproval, happrover, hwaived, if_neg (show ¬version < 3 by omega)]
  · refine ⟨fun hversion => ⟨legacy_approver hversion happrover hvalid, ?_⟩, fun hversion => ?_⟩
    · simp only [migratedApproval, happrover, if_pos hversion, hid]
    · simp only [migratedApproval, happrover, if_neg (show ¬version < 4 by omega)]

/-- **When migration on load is stable.**  The state a file was read as is written and read back
unchanged exactly when its text is within the limit, its document is nested no deeper than 127 and
its floats survive printing and parsing, no change set has an empty task id, and no two-person
approval came from a file older than version 4 while the deployment holds a key.  In any case what
was re-signed covers no value the old digest did not cover, but the fixed waiver of lab mode. -/
theorem migration_stable_iff (hlimit : C.LimitsNesting)
    (h : readStateWithKey C path maxStateBytes key none file = .ok loaded)
    (hdisk : (C.fromSlice file).bind decodeOnDisk = some onDisk) :
    (ReadsBack C path maxStateBytes key loaded file ↔
      C.len (payload C loaded) ≤ maxStateBytes ∧ Reparses C loaded ∧
      NoEmptyTasks loaded ∧ NoOldApprovals key onDisk) ∧
    ∀ (id : String) record, onDisk.state.changeSets[id]? = some record →
      ∃ migrated, loaded.changeSets[id]? = some migrated ∧
        ResignedFaithfully C onDisk.version.toNat id record migrated := by
  obtain ⟨hvalid, hloaded⟩ := readStateWithKey_ok h hdisk
  constructor
  · rw [readsBack_iff_read]
    constructor
    · rintro ⟨hlen, hread⟩
      have htasks := noEmptyTasks_of_fixed (read_written hread).1
      have hnormal := normalised_of_noEmptyTasks htasks
      have hback := (@read_payload_iff C path maxStateBytes key hlimit loaded).mp
      rw [hnormal] at hback
      obtain ⟨-, hslice, hvalid'⟩ := hback hread
      exact ⟨hlen, hslice, htasks, noOldApprovals_of_valid hloaded hvalid'⟩
    · rintro ⟨hlen, hslice, htasks, hold⟩
      have hnormal := normalised_of_noEmptyTasks htasks
      have hvalid' := validate_rewritten hvalid hold (Rewrites.refl _)
      rw [← hloaded] at hvalid'
      have hread := (@read_payload_iff C path maxStateBytes key hlimit loaded).mpr
      rw [hnormal] at hread
      exact ⟨hlen, hread ⟨hlen, hslice, hvalid'⟩⟩
  · intro id record hr
    refine ⟨migrateRecord C onDisk.version.toNat record, ?_, ?_⟩
    · rw [hloaded, getElem?_migrate, hr]
      rfl
    · exact resigned_digest_covers ((validateStateWithKey_ok.mp hvalid).2.2.2 id record hr)

theorem read_sample {path : String} {maxStateBytes : ℕ} {key : Option (List UInt8)}
    {onDisk : OnDiskState} (hlen : Crates.sample.len (encodeOnDisk onDisk) ≤ maxStateBytes)
    (hdepth : (encodeOnDisk onDisk).depth ≤ 127)
    (hversion : 1 ≤ onDisk.version.toNat ∧ onDisk.version.toNat ≤ 7)
    (hvalid : validateStateWithKey Crates.sample onDisk.state onDisk.version.toNat key = .ok ()) :
    (Crates.sample.fromSlice (encodeOnDisk onDisk)).bind decodeOnDisk = some onDisk ∧
      readStateWithKey Crates.sample path maxStateBytes key none (encodeOnDisk onDisk) =
        .ok (migrate Crates.sample onDisk.version.toNat onDisk.state) := by
  have hdisk : (Crates.sample.fromSlice (encodeOnDisk onDisk)).bind decodeOnDisk = some onDisk := by
    have hslice : Crates.sample.fromSlice (encodeOnDisk onDisk) = some (encodeOnDisk onDisk) :=
      if_pos hdepth
    rw [hslice, bind_some, decodeOnDisk_encodeOnDisk]
  refine ⟨hdisk, ?_⟩
  simp only [readStateWithKey, hdisk]
  rw [if_neg (not_lt.mpr hlen), if_neg (not_not.mpr hversion), bind_unit_ok]
  exact ⟨hvalid, rfl⟩

/-- A keyed approval in a version 7 file. -/
theorem keyed_file_stable :
    ReadsBack Crates.sample "state.json" 65536 (some exampleKey)
      (migrate Crates.sample 7 (stateOf keyedApproval))
      (encodeOnDisk ⟨7, stateOf keyedApproval⟩) := by
  have hfacts : Crates.sample.len (encodeOnDisk ⟨7, stateOf keyedApproval⟩) ≤ 65536 ∧
      (encodeOnDisk ⟨7, stateOf keyedApproval⟩).depth ≤ 127 ∧
      validateStateWithKey Crates.sample (stateOf keyedApproval) 7 (some exampleKey) = .ok () ∧
      (stateOf keyedApproval).diskVersion = 7 := by
    decide +kernel
  obtain ⟨hdisk, hread⟩ := @read_sample "state.json" 65536 (some exampleKey) ⟨7, stateOf keyedApproval⟩
    hfacts.1 hfacts.2.1 (by decide) hfacts.2.2.1
  refine (migration_stable_iff sample_limitsNesting hread hdisk).1.mpr
    ⟨by decide +kernel, sample_reparses ?_, fun id record hr => ?_, fun _ hversion => ?_⟩
  · show (encodeOnDisk ⟨(stateOf keyedApproval).diskVersion, stateOf keyedApproval⟩).depth ≤ 127
    rw [hfacts.2.2.2]
    exact hfacts.2.1
  · have hrecord : (stateOf keyedApproval).changeSets[id]? = some record := hr
    rw [stateOf, Std.ExtTreeMap.getElem?_insert, Std.ExtTreeMap.getElem?_empty] at hrecord
    split at hrecord <;> cases hrecord
    decide
  · exact absurd hversion (by decide)

/-- A version 3 file with an approval under the legacy hash that names version 6: a deployment with a
key reads it, and does not read the file it writes in its place. -/
theorem old_approval_unreadable_after_write :
    ∃ loaded, readStateWithKey Crates.sample "state.json" 65536 (some exampleKey) none
        (encodeOnDisk ⟨3, stateOf legacyForgery⟩) = .ok loaded ∧
      ¬ReadsBack Crates.sample "state.json" 65536 (some exampleKey) loaded
        (encodeOnDisk ⟨3, stateOf legacyForgery⟩) := by
  have hfacts : Crates.sample.len (encodeOnDisk ⟨3, stateOf legacyForgery⟩) ≤ 65536 ∧
      (encodeOnDisk ⟨3, stateOf legacyForgery⟩).depth ≤ 127 ∧
      validateStateWithKey Crates.sample (stateOf legacyForgery) 3 (some exampleKey) = .ok () := by
    decide +kernel
  obtain ⟨-, hread⟩ := @read_sample "state.json" 65536 (some exampleKey) ⟨3, stateOf legacyForgery⟩
    hfacts.1 hfacts.2.1 (by decide) hfacts.2.2
  refine ⟨_, hread, fun hback => ?_⟩
  have hvalid := (read_written (readsBack_iff_read.mp hback).2).2
  have hold : NoOldApprovals (some exampleKey) ⟨3, stateOf legacyForgery⟩ :=
    noOldApprovals_of_valid rfl hvalid
  have hrecord : (stateOf legacyForgery).changeSets[legacyForgery.id]? = some legacyForgery := by
    simp [stateOf]
  have hversion : (3 : UInt32).toNat < 4 := by decide
  have hsome : legacyForgery.approval.bind (·.approver) = some "oscar" := rfl
  have hnone := hold rfl hversion legacyForgery.id legacyForgery hrecord
  rw [hsome] at hnone
  simp at hnone

end Mecmcp.Changeset
