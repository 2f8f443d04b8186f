import Mecmcp.Changeset.Validate

/-!
# KeyedApproval — approvals under a deployment key

The approval gate of `apply_change_set` (`approvalGate`, `waiverLapsed`) and how it composes with
the validation of a state file: which two-person approvals a deployment that holds an
approval-digest key accepts from a file.

`accepted_keyed_iff` is exact.  The downgrade guard looks at the version the *record* names, the
rule applied is chosen by the version of the *file*, and a record without an approval record is
never compared with the key at all; so the keyed evidence is there precisely when the record has
an approval record and the file is at version 4 or later.
-/

namespace Mecmcp.Changeset

/-! ### The gate of `apply_change_set` -/

/-- `waiver_lapsed`: the waiver the approval rests on has an expiry that has come. -/
def waiverLapsed (changeSet : ChangeSetRecord) (now : UInt64) : Bool :=
  match changeSet.waiver.bind (·.expiresAtUnix) with
  | some expiresAt => expiresAt ≤ now
  | none => false

def waiverExpiryError (changeSet : ChangeSetRecord) (now : UInt64) (gate : String) :
    Except CoordinatorError Unit :=
  refuseIf (waiverLapsed changeSet now = true) ⟨"change_set_id",
    "waiver expired: this change set was approved by a time-boxed waiver that has lapsed (" ++ gate
      ++ "), so it requires a fresh approval or a new waiver"⟩

def ownApproval : CoordinatorError :=
  ⟨"change_set_id", "change set was approved by its own owner; refusing to apply"⟩

/-- The approval gate of `apply_change_set`. -/
def approvalGate (labMode : Bool) (changeSet : ChangeSetRecord) : Except CoordinatorError Unit :=
  match changeSet.approval with
  | some approval => do
    refuseIf (approval.approver.isNone = true ∧ approval.waived.isNone = true) ⟨"change_set_id",
      "approval record must contain either an approver or a waiver"⟩
    refuseIf (approval.approver = some changeSet.owner) ownApproval
    refuseIf (approval.waived.isSome = true ∧ labMode = false) ⟨"change_set_id",
      "change set was approved by a lab-mode waiver, but lab mode is not enabled on this deployment"⟩
  | none => do
    -- a record from before approval records: the approver is the top-level field
    refuseIf (changeSet.approver.isNone = true) ⟨"change_set_id",
      "approved change set missing approval record"⟩
    refuseIf (changeSet.approver = some changeSet.owner) ownApproval

/-- `apply_change_set` accepts the record as approved by a second principal: its state is
`Approved`, it passes the gate, and its approval names a principal other than the owner, or it has
no approval record and names one at the top level. -/
structure AcceptedAsTwoPerson (labMode : Bool) (record : ChangeSetRecord) : Prop where
  approved : record.state = .approved
  gate : approvalGate labMode record = .ok ()
  twoPerson : (∃ approval approver, record.approval = some approval ∧
      approval.approver = some approver ∧ approver ≠ record.owner) ∨
    (record.approval = none ∧ record.approver.isSome = true)

/-! ### Keyed evidence -/

variable (C : Crates)

/-- The approval is signed under the key over the record's own fields. -/
def KeyedEvidence (key : List UInt8) (record : ChangeSetRecord) : Prop :=
  ∃ approval approver, record.approval = some approval ∧ approval.approver = some approver ∧
    approval.digestVersion = 6 ∧
    approval.digest = computeApprovalDigestV6 C key record.id record.digest record.previewDigest
      record.owner approver approval.approvedAtUnix

/-- The record has an approval record, and the file is at version 4 or later (or the legacy hash
of the approval happens to be its keyed one). -/
def KeyedRuleApplies (version : ℕ) (key : List UInt8) (record : ChangeSetRecord) : Prop :=
  ∃ approval, record.approval = some approval ∧
    (4 ≤ version ∨ ∀ approver, approval.approver = some approver →
      computeApprovalDigestLegacy C record.id record.digest record.owner approver
          approval.approvedAtUnix =
        computeApprovalDigestV6 C key record.id record.digest record.previewDigest record.owner
          approver approval.approvedAtUnix)

variable {C : Crates} {version : ℕ} {key : List UInt8} {id : String} {record : ChangeSetRecord}
  {approval : ApprovalRecord} {approver : String} {expected : String}

/-- Under a key, from file version 4 the only digest a two-person approval can pass with is the
keyed one. -/
theorem expectedApproverDigest_keyed (h4 : 4 ≤ version) (h6 : approval.digestVersion = 6)
    (h : expectedApproverDigest C version (some key) id record approval approver = .ok expected) :
    expected = approval.digest ∧
      approval.digest = computeApprovalDigestV6 C key id record.digest record.previewDigest
        record.owner approver approval.approvedAtUnix := by
  have h65 : ¬ (6 : UInt8) = 5 := by decide
  have h64 : ¬ (6 : UInt8) = 4 := by decide
  simp only [expectedApproverDigest, if_pos h4, h6, if_neg h65, if_neg h64, if_true] at h
  split at h
  · rename_i hverify
    exact ⟨(Except.ok.inj h).symm, (verifyApprovalDigestV6_iff.mp hverify).symm⟩
  · cases h

theorem expectedApproverDigest_legacy (h4 : ¬ 4 ≤ version) {k : Option (List UInt8)}
    (h : expectedApproverDigest C version k id record approval approver = .ok expected) :
    expected = computeApprovalDigestLegacy C id record.digest record.owner approver
      approval.approvedAtUnix := by
  simp only [expectedApproverDigest, if_neg h4, bind_unit_ok, mapError_ok, Except.ok.injEq] at h
  exact h.2.2.symm

theorem validateApproval_keyed (happrover : approval.approver = some approver)
    (h : validateApproval C version (some key) id record approval = .ok ()) :
    approval.digestVersion = 6 ∧
      expectedApproverDigest C version (some key) id record approval approver
        = .ok approval.digest := by
  simp only [validateApproval, expectedApprovalDigest, happrover, bind_unit_ok, mapError_ok,
    refuseIf_ok, Option.isSome_some, true_and, ne_eq, not_not] at h
  obtain ⟨-, -, h6, -, hlast⟩ := h
  obtain ⟨expected, hexp, heq⟩ := bind_ok.mp hlast
  have heq : expected = approval.digest := by simpa using heq
  exact ⟨h6, heq ▸ hexp⟩

/-- **Which two-person approvals a keyed deployment accepts from a file.**  Among the records that
validation under the key and the apply gate both accept, the keyed evidence is there exactly when
the keyed rule was the one applied. -/
theorem accepted_keyed_iff {state : ChangesetState} {labMode : Bool}
    (hvalid : validateStateWithKey C state version (some key) = .ok ())
    (hrecord : state.changeSets[id]? = some record)
    (haccepted : AcceptedAsTwoPerson labMode record) :
    KeyedEvidence C key record ↔ KeyedRuleApplies C version key record := by
  have hcs := (validateStateWithKey_ok.mp hvalid).2.2.2 id record hrecord
  simp only [validateChangeSetEntry, bind_unit_ok, mapError_ok, refuseIf_ok] at hcs
  obtain ⟨-, hid, -, -, -, -, -, -, happroval, -⟩ := hcs
  have hid : id = record.id := by simpa using (not_or.mp hid).1
  constructor
  · rintro ⟨approval, approver, ha, hap, h6, hdigest⟩
    refine ⟨approval, ha, ?_⟩
    rw [ha] at happroval
    obtain ⟨-, hexp⟩ := validateApproval_keyed hap happroval
    by_cases h4 : 4 ≤ version
    · exact .inl h4
    · -- a legacy file: both digests equal the one the record carries
      have hlegacy := expectedApproverDigest_legacy h4 hexp
      rw [hid] at hlegacy
      refine .inr fun approver' hap' => ?_
      obtain rfl : approver = approver' := Option.some.inj (hap.symm.trans hap')
      rw [← hlegacy, hdigest]
  · rintro ⟨approval, ha, hrule⟩
    obtain ⟨approval', approver, ha', hap, -⟩ | ⟨hnone, -⟩ := haccepted.twoPerson
    swap
    · rw [ha] at hnone
      cases hnone
    obtain rfl : approval = approval' := Option.some.inj (ha.symm.trans ha')
    rw [ha] at happroval
    obtain ⟨h6, hexp⟩ := validateApproval_keyed hap happroval
    refine ⟨approval, approver, ha, hap, h6, ?_⟩
    by_cases h4 : 4 ≤ version
    · rw [← hid]
      exact (expectedApproverDigest_keyed h4 h6 hexp).2
    · have hlegacy := expectedApproverDigest_legacy h4 hexp
      rw [hid] at hlegacy
      rw [hlegacy, hrule.resolve_left h4 approver hap]

/-! ### Two files a keyed deployment accepts -/

def exampleKey : List UInt8 := List.replicate 32 171

/-- A change set of `mallory` that `oscar` is said to have approved, with the evidence left open. -/
def forgedChangeSet (digestVersion : UInt8) (approvalDigest : String → String → String) :
    ChangeSetRecord where
  id := String.ofList (List.replicate 64 'a')
  owner := "mallory"
  device := "edge1"
  expectedCandidateFingerprint := "sha256:" ++ String.ofList (List.replicate 64 '0')
  actions := [⟨.str "set", rfl⟩]
  digest := changeSetDigest Crates.sample "mallory" "edge1"
    ("sha256:" ++ String.ofList (List.replicate 64 '0')) [⟨.str "set", rfl⟩]
  state := .approved
  approver := some "oscar"
  approval := some
    { approver := some "oscar"
      approvedAtUnix := 1700000000
      digest := approvalDigest (String.ofList (List.replicate 64 'a'))
        (changeSetDigest Crates.sample "mallory" "edge1"
          ("sha256:" ++ String.ofList (List.replicate 64 '0')) [⟨.str "set", rfl⟩])
      digestVersion
      waived := none }
  expiresAtUnix := 1700000900
  operationId := none
  policySignature := "policy"
  targets := []
  preview := none
  taskId := none
  applyWithoutHandle := false

/-- The forged approval carries the legacy hash, which needs no key, and names version 6. -/
def legacyForgery : ChangeSetRecord :=
  forgedChangeSet 6 fun id plan =>
    computeApprovalDigestLegacy Crates.sample id plan "mallory" "oscar" 1700000000

def stateOf (record : ChangeSetRecord) : ChangesetState :=
  ⟨∅, (∅ : Std.ExtTreeMap String ChangeSetRecord).insert record.id record⟩

/-- In a version 3 file the legacy hash passes although the record names version 6: the keyed
deployment loads and would apply an approval signed without its key. -/
theorem legacyForgery_accepted :
    validateStateWithKey Crates.sample (stateOf legacyForgery) 3 (some exampleKey) = .ok () ∧
      AcceptedAsTwoPerson false legacyForgery ∧
      ¬ KeyedEvidence Crates.sample exampleKey legacyForgery := by
  refine ⟨by decide +kernel, ⟨rfl, by decide +kernel, .inl ⟨_, "oscar", rfl, rfl, by decide⟩⟩, ?_⟩
  rintro ⟨approval, approver, ha, hap, -, hdigest⟩
  cases ha
  cases hap
  exact absurd hdigest (by decide +kernel)

/-- At version 7 the keyed hash is what the deployment accepts. -/
def keyedApproval : ChangeSetRecord :=
  forgedChangeSet 6 fun id plan =>
    computeApprovalDigestV6 Crates.sample exampleKey id plan none "mallory" "oscar" 1700000000

theorem keyedApproval_accepted :
    validateStateWithKey Crates.sample (stateOf keyedApproval) 7 (some exampleKey) = .ok () ∧
      (KeyedEvidence Crates.sample exampleKey keyedApproval ↔
        KeyedRuleApplies Crates.sample 7 exampleKey keyedApproval) := by
  have hvalid : validateStateWithKey Crates.sample (stateOf keyedApproval) 7 (some exampleKey)
      = .ok () := by decide +kernel
  have hrecord : (stateOf keyedApproval).changeSets[keyedApproval.id]? = some keyedApproval := by
    simp [stateOf]
  have haccepted : AcceptedAsTwoPerson false keyedApproval :=
    ⟨rfl, by decide +kernel, .inl ⟨_, "oscar", rfl, rfl, by decide⟩⟩
  exact ⟨hvalid, accepted_keyed_iff hvalid hrecord haccepted⟩

end Mecmcp.Changeset
