import Mecmcp.Changeset.Records

/-!
# Digest — plan, preview and approval digests

`digest.rs`, with the record checks of `records.rs` that rest on it.  A digest is the text
`sha256:` followed by 64 lower-case hexadecimal characters; what is hashed is either the compact
JSON of a tuple (plans, waivers from version 3, approvals from version 4) or, for the legacy
forms, the fields joined by `|`.  Version 6 approvals are an HMAC under the deployment's key.

`validateDigest_ofBytes` is the one fact about the format: every digest computed here passes its
own check.
-/

namespace Mecmcp.Changeset

open List

variable {bytes : List UInt8}

/-! ### The format -/

/-- `str::strip_prefix`, on the bytes of both. -/
def stripPrefix (start text : List UInt8) : Option (List UInt8) :=
  if start.isPrefixOf text then some (text.drop start.length) else none

/-- A digit or one of `a` to `f`. -/
def isLowerHex (byte : UInt8) : Bool :=
  (48 ≤ byte.toNat && byte.toNat ≤ 57) || (97 ≤ byte.toNat && byte.toNat ≤ 102)

def isLowerHex64 (bytes : List UInt8) : Bool := bytes.length == 64 && bytes.all isLowerHex

/-- The check both `validate_digest` and `validate_fingerprint` make. -/
def validateSha256 (value field message : String) : Except DigestError Unit :=
  match stripPrefix (utf8 "sha256:") (utf8 value) with
  | none => .error ⟨field, message⟩
  | some digest => if isLowerHex64 digest then .ok () else .error ⟨field, message⟩

def validateDigest (value field : String) : Except DigestError Unit :=
  validateSha256 value field "value must use sha256:<64 lowercase hex> format"

def validateFingerprint (value : String) : Except DigestError Unit :=
  validateSha256 value "expected_candidate_fingerprint"
    "value must use the sha256:<64 lowercase hex> format"

/-- Two lower-case hexadecimal characters for each byte. -/
def bytesHex (bytes : List UInt8) : String :=
  String.ofList (bytes.flatMap fun b => [Nat.digitChar (b.toNat / 16), Nat.digitChar (b.toNat % 16)])

theorem digitChar_injOn : ∀ m < 16, ∀ n < 16, Nat.digitChar m = Nat.digitChar n → m = n := by
  decide

theorem bytesHex_injective : Function.Injective bytesHex := by
  intro xs ys h
  replace h := String.ofList_injective h
  induction xs generalizing ys with
  | nil =>
    cases ys with
    | nil => rfl
    | cons y ys => cases h
  | cons x xs ih =>
    cases ys with
    | nil => cases h
    | cons y ys =>
      simp only [flatMap_cons, cons_append, nil_append, List.cons.injEq] at h
      obtain ⟨hhigh, hlow, hrest⟩ := h
      have hx := x.toNat_lt
      have hy := y.toNat_lt
      have hhigh := digitChar_injOn _ (by omega) _ (by omega) hhigh
      have hlow := digitChar_injOn _ (by omega) _ (by omega) hlow
      rw [ih hrest, UInt8.toNat_inj.mp (by omega : x.toNat = y.toNat)]

variable (C : Crates)

def digestHex (bytes : List UInt8) : String := bytesHex (C.sha256 bytes)

/-! ### Plan and preview digests -/

def changeSetDigest (owner device fingerprint : String) (actions : List Value) : String :=
  "sha256:" ++ digestHex C (C.toVec (.arr [.str owner, .str device, .str fingerprint,
    .arr (actions.map (·.tree))]))

/-- With targets the tuple has a fifth member; without, it is the four-member one. -/
def changeSetDigestWithTargets (owner device fingerprint : String) (actions : List Value)
    (targets : List String) : String :=
  if targets.isEmpty then changeSetDigest C owner device fingerprint actions
  else "sha256:" ++ digestHex C (C.toVec (.arr [.str owner, .str device, .str fingerprint,
    .arr (actions.map (·.tree)), .arr (targets.map .str)]))

def previewDigest (artifact : String) : String := "sha256:" ++ digestHex C (utf8 artifact)

/-! ### Approval and waiver digests -/

def computeApprovalDigestLegacy (changeSetId planDigest owner approver : String)
    (approvedAtUnix : UInt64) : String :=
  "sha256:" ++ digestHex C (utf8 (changeSetId ++ "|" ++ planDigest ++ "|" ++ owner ++ "|" ++ approver
    ++ "|" ++ toString approvedAtUnix.toNat))

def computeWaiverDigest (changeSetId planDigest owner : String) (waivedAtUnix : UInt64) : String :=
  "sha256:" ++ digestHex C (utf8 (changeSetId ++ "|" ++ planDigest ++ "|" ++ owner ++ "|"
    ++ toString waivedAtUnix.toNat ++ "|" ++ "lab-mode-waived"))

def optStr : Option String → Json
  | some s => .str s
  | none => .null

def optUInt64 : Option UInt64 → Json
  | some n => .ofUInt64 n
  | none => .null

def computeWaiverDigestV3 (changeSetId planDigest owner : String) (waivedAtUnix : UInt64)
    (waiver : WaiverRecord) : String :=
  "sha256:" ++ digestHex C (C.toVec (.arr [.str "mecmcp-waiver-v3", .str changeSetId,
    .str planDigest, .str owner, .ofUInt64 waivedAtUnix, .str waiver.kind.asStr,
    .str waiver.reason, optUInt64 waiver.expiresAtUnix, optStr waiver.ticket]))

def computeApprovalDigestV4 (changeSetId planDigest owner approver : String)
    (approvedAtUnix : UInt64) : String :=
  "sha256:" ++ digestHex C (C.toVec (.arr [.str "mecmcp-approval-v4", .str changeSetId,
    .str planDigest, .str owner, .str approver, .ofUInt64 approvedAtUnix]))

/-- The tuple versions 5 and 6 bind, under their own domain marker. -/
def approvalTuple (marker changeSetId planDigest : String) (previewDigest : Option String)
    (owner approver : String) (approvedAtUnix : UInt64) : Json :=
  .arr [.str marker, .str changeSetId, .str planDigest, optStr previewDigest, .str owner,
    .str approver, .ofUInt64 approvedAtUnix]

def computeApprovalDigestV5 (changeSetId planDigest : String) (previewDigest : Option String)
    (owner approver : String) (approvedAtUnix : UInt64) : String :=
  "sha256:" ++ digestHex C (C.toVec (approvalTuple "mecmcp-approval-v5" changeSetId planDigest
    previewDigest owner approver approvedAtUnix))

/-- The keyed form: an HMAC instead of a plain hash. -/
def computeApprovalDigestV6 (key : List UInt8) (changeSetId planDigest : String)
    (previewDigest : Option String) (owner approver : String) (approvedAtUnix : UInt64) : String :=
  "sha256:" ++ bytesHex (C.hmacSha256 key (C.toVec (approvalTuple "mecmcp-approval-v6" changeSetId
    planDigest previewDigest owner approver approvedAtUnix)))

def verifyApprovalDigestV6 (key : List UInt8) (changeSetId planDigest : String)
    (previewDigest : Option String) (owner approver : String) (approvedAtUnix : UInt64)
    (candidate : String) : Bool :=
  utf8 (computeApprovalDigestV6 C key changeSetId planDigest previewDigest owner approver
    approvedAtUnix) == utf8 candidate

/-- Legacy digests join their fields with `|`, so a principal must not contain one. -/
def validatePrincipalForDigest (fieldName value : String) : Except String Unit :=
  if 124 ∈ utf8 value then
    .error (fieldName ++ " cannot contain '|' (the digest separator): value " ++ C.debugStr value
      ++ " would make field boundaries ambiguous")
  else .ok ()

/-! ### Record checks -/

/-- `usize::MAX`. -/
def usizeMax : ℕ := 2 ^ 64 - 1

/-- The scan of `validate_targets`, after the name `previous`. -/
def validateTargetNames : (previous : Option String) → List String → Except TargetError Unit
  | _, [] => .ok ()
  | previous, name :: rest =>
    if name = "" then .error .emptyName
    else match previous with
      | some before =>
        if name = before then .error (.duplicate name)
        else if name < before then .error (.unsorted name)
        else validateTargetNames (some name) rest
      | none => validateTargetNames (some name) rest

def validateTargets (targets : List String) (maximum : ℕ) : Except TargetError Unit :=
  if targets.isEmpty then .error .empty
  else if targets.length > maximum then .error (.tooMany targets.length maximum)
  else validateTargetNames none targets

def ChangeSetRecord.validateTargetSet (record : ChangeSetRecord) (maximum : ℕ) :
    Except TargetError Unit :=
  if record.targets.isEmpty then .ok ()
  else do
    validateTargets record.targets maximum
    if record.device ∈ record.targets then .ok () else .error (.missingPrimary record.device)

def ChangeSetRecord.validatePreview (record : ChangeSetRecord) (maxPreviewBytes : ℕ) :
    Except PreviewError Unit :=
  match record.preview with
  | none => .ok ()
  | some preview =>
    if (utf8 preview.artifact).length > maxPreviewBytes then
      .error (.tooLarge (utf8 preview.artifact).length maxPreviewBytes)
    else match validateDigest preview.digest "preview_digest" with
      | .error error => .error (.malformed error.display)
      | .ok () =>
        if Changeset.previewDigest C preview.artifact ≠ preview.digest then .error .mismatch else .ok ()

def requireOperationPolicy (record : OperationRecord) (currentPolicySignature : String) :
    Except RecordError Unit :=
  if record.policySignature = currentPolicySignature then .ok ()
  else .error ⟨"operation_id",
    "policy changed after this operation staged; discard or recover manually"⟩

def requireOperationFingerprint (record : OperationRecord)
    (expectedCandidateFingerprint actualCandidateFingerprint : String) : Except RecordError Unit :=
  match validateFingerprint expectedCandidateFingerprint with
  | .error error => .error ⟨"expected_candidate_fingerprint", error.display⟩
  | .ok () =>
    if expectedCandidateFingerprint ≠ actualCandidateFingerprint then
      .error ⟨"expected_candidate_fingerprint", "candidate changed since the caller observed it"⟩
    else if record.current ≠ actualCandidateFingerprint then
      .error ⟨"operation_id", "candidate changed after this operation staged"⟩
    else .ok ()

/-! ### Every computed digest passes its own check -/

theorem utf8EncodeChar_digitChar : ∀ n < 16, ∃ byte,
    String.utf8EncodeChar (Nat.digitChar n) = [byte] ∧ isLowerHex byte = true := by decide

theorem isLowerHex64_bytesHex (h : bytes.length = 32) :
    isLowerHex64 (utf8 (bytesHex bytes)) = true := by
  suffices hgen : (utf8 (bytesHex bytes)).length = 2 * bytes.length ∧
      (utf8 (bytesHex bytes)).all isLowerHex = true by
    simp [isLowerHex64, hgen.1, hgen.2, h]
  clear h
  rw [bytesHex, utf8_ofList]
  induction bytes with
  | nil => exact ⟨rfl, rfl⟩
  | cons b bs ih =>
    have hb : b.toNat < 256 := b.toNat_lt
    obtain ⟨hi, hhi, hhex⟩ := utf8EncodeChar_digitChar (b.toNat / 16) (by omega)
    obtain ⟨lo, hlo, hlex⟩ := utf8EncodeChar_digitChar (b.toNat % 16) (by omega)
    constructor
    · have := ih.1
      simp only [flatMap_cons, flatMap_append, flatMap_nil, hhi, hlo,
        append_nil, length_append, length_cons, length_nil] at this ⊢
      omega
    · simpa [flatMap_cons, flatMap_append, hhi, hlo, hhex, hlex] using ih.2

theorem stripPrefix_append (start rest : List UInt8) :
    stripPrefix start (start ++ rest) = some rest := by
  simp [stripPrefix]

theorem validateSha256_ofBytes (h : bytes.length = 32) (field message : String) :
    validateSha256 ("sha256:" ++ bytesHex bytes) field message = .ok () := by
  rw [validateSha256, utf8_append, stripPrefix_append]
  simp [isLowerHex64_bytesHex h]

/-- **A digest built from 32 bytes is well formed.** -/
theorem validateDigest_ofBytes (h : bytes.length = 32) (field : String) :
    validateDigest ("sha256:" ++ bytesHex bytes) field = .ok () :=
  validateSha256_ofBytes h field _

theorem verifyApprovalDigestV6_iff {C : Crates} {key : List UInt8} {changeSetId planDigest : String}
    {previewDigest : Option String} {owner approver : String} {approvedAtUnix : UInt64}
    {candidate : String} :
    verifyApprovalDigestV6 C key changeSetId planDigest previewDigest owner approver approvedAtUnix
        candidate = true ↔
      computeApprovalDigestV6 C key changeSetId planDigest previewDigest owner approver
        approvedAtUnix = candidate := by
  rw [verifyApprovalDigestV6, beq_iff_eq, utf8_injective.eq_iff]

end Mecmcp.Changeset
