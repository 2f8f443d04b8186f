import Mecmcp.Audit.Canonical
import Mecmcp.Changeset.Digest
import Mecmcp.Lib.Chain

/-!
# Evidence — evidence records and chain segments

`evidence.rs`: records with the hash of the record before them, appended to a segment that owns the
envelope fields.  A record's hash is the digest of its canonical JSON.  `append_step` says what an
append leaves behind: one more record that names the head and is named by the next.
-/

namespace Mecmcp.Audit

open List

open Changeset (bytesHex)

/-! ### Records -/

structure RecordFields where
  requestId : String
  changesetId : String
  deviceId : String
  principal : String
  diffHash : String
  timestamp : String
  runId : String
  serverId : String
  segmentSeq : UInt64
  prevHash : String

inductive EvidenceRecord where
  | proposal (fields : RecordFields) (metadata : Option Value)
  | approval (fields : RecordFields) (approver decision : String) (metadata : Option Value)
  | applyIntent (fields : RecordFields) (metadata : Option Value)
  | resultReceipt (fields : RecordFields) (outcome : String) (error : Option String)
      (metadata : Option Value)

namespace EvidenceRecord

def fields : EvidenceRecord → RecordFields
  | .proposal fields _ | .approval fields _ _ _ | .applyIntent fields _
  | .resultReceipt fields _ _ _ => fields

def withFields (fields : RecordFields) : EvidenceRecord → EvidenceRecord
  | .proposal _ metadata => .proposal fields metadata
  | .approval _ approver decision metadata => .approval fields approver decision metadata
  | .applyIntent _ metadata => .applyIntent fields metadata
  | .resultReceipt _ outcome error metadata => .resultReceipt fields outcome error metadata

def metadata : EvidenceRecord → Option Value
  | .proposal _ metadata | .approval _ _ _ metadata | .applyIntent _ metadata
  | .resultReceipt _ _ _ metadata => metadata

def withMetadata (metadata : Option Value) : EvidenceRecord → EvidenceRecord
  | .proposal fields _ => .proposal fields metadata
  | .approval fields approver decision _ => .approval fields approver decision metadata
  | .applyIntent fields _ => .applyIntent fields metadata
  | .resultReceipt fields outcome error _ => .resultReceipt fields outcome error metadata

def kind : EvidenceRecord → String
  | .proposal .. => "evidence:proposal"
  | .approval .. => "evidence:approval"
  | .applyIntent .. => "evidence:apply_intent"
  | .resultReceipt .. => "evidence:result_receipt"

def approver : EvidenceRecord → Option String
  | .approval _ approver _ _ => some approver
  | _ => none

def decision : EvidenceRecord → Option String
  | .approval _ _ decision _ => some decision
  | _ => none

def outcome : EvidenceRecord → Option String
  | .resultReceipt _ outcome _ _ => some outcome
  | _ => none

def error : EvidenceRecord → Option String
  | .resultReceipt _ _ error _ => error
  | _ => none

/-- The members of a record in the order they are written; those a kind does not have, and those
that are skipped, have no value. -/
def slots (record : EvidenceRecord) : List (String × Option Json) :=
  [("kind", some (.str record.kind)),
    ("request_id", some (.str record.fields.requestId)),
    ("changeset_id", some (.str record.fields.changesetId)),
    ("device_id", some (.str record.fields.deviceId)),
    ("principal", some (.str record.fields.principal)),
    ("diff_hash", some (.str record.fields.diffHash)),
    ("timestamp", some (.str record.fields.timestamp)),
    ("run_id", some (.str record.fields.runId)),
    ("server_id", some (.str record.fields.serverId)),
    ("segment_seq", some (.ofUInt64 record.fields.segmentSeq)),
    ("prev_hash", some (.str record.fields.prevHash)),
    ("approver", record.approver.map .str),
    ("decision", record.decision.map .str),
    ("outcome", record.outcome.map .str),
    ("error", record.error.map .str),
    ("metadata", record.metadata.map Value.tree)]

def names : List String :=
  ["kind", "request_id", "changeset_id", "device_id", "principal", "diff_hash", "timestamp",
    "run_id", "server_id", "segment_seq", "prev_hash", "approver", "decision", "outcome", "error",
    "metadata"]

theorem names_nodup : names.Nodup := by decide

theorem slots_nodup (record : EvidenceRecord) : (record.slots.map Prod.fst).Nodup := names_nodup

theorem forall_slots_iff (record : EvidenceRecord) {p : Json → Prop} (hstr : ∀ s, p (.str s))
    (hint : ∀ n, p (.ofUInt64 n)) :
    (∀ slot ∈ record.slots, ∀ j ∈ slot.2, p j) ↔ ∀ m ∈ record.metadata, p m.tree := by
  have hopt (o : Option String) : ∀ j ∈ o.map Json.str, p j := by
    intro j hj
    obtain ⟨s, -, rfl⟩ := Option.mem_map.mp hj
    exact hstr s
  constructor
  · intro h m hm
    exact h ("metadata", record.metadata.map Value.tree) (by simp [slots]) m.tree
      (Option.mem_map_of_mem _ hm)
  · intro h
    have hmetadata : ∀ j ∈ record.metadata.map Value.tree, p j := by
      intro j hj
      obtain ⟨m, hm, rfl⟩ := Option.mem_map.mp hj
      exact h m hm
    simp only [slots, forall_mem_cons, Option.mem_some_iff, forall_eq', hstr, hint, true_and]
    exact ⟨hopt _, hopt _, hopt _, hopt _, hmetadata, fun _ hmem => absurd hmem not_mem_nil⟩

/-- `serde_json::to_value` on a record. -/
def encode (record : EvidenceRecord) : Json := Struct.encode record.slots

end EvidenceRecord

/-! ### Documents -/

theorem EvidenceRecord.uniqueKeys_encode (record : EvidenceRecord) :
    record.encode.uniqueKeys = true := by
  refine Struct.uniqueKeys_encode record.slots_nodup ?_
  exact (record.forall_slots_iff (fun _ => rfl) fun _ => rfl).mpr fun m _ => m.unique

def EvidenceRecord.toValue (record : EvidenceRecord) : Value :=
  ⟨record.encode, record.uniqueKeys_encode⟩

/-- `Map::insert` on the object a value is. -/
def insertMember (key : String) (member : Value) (value : Value) : Value where
  tree := match value.tree with
    | .obj fields => .obj (upsert key member.tree fields)
    | tree => tree
  unique := by
    obtain ⟨tree, hunique⟩ := value
    cases tree with
    | obj fields =>
      simp only [Json.uniqueKeys, Bool.and_eq_true, decide_eq_true_eq] at hunique ⊢
      refine ⟨nodup_keys_upsert hunique.1, Json.uniqueKeysFields_iff.mpr fun f hf => ?_⟩
      rcases snd_mem_upsert hf with heq | hf
      · rw [heq]
        exact member.unique
      · exact Json.uniqueKeysFields_iff.mp hunique.2 f hf
    | _ => exact hunique

/-! ### Hashes -/

variable (P : Printer) (sha256 : List UInt8 → List UInt8)

def digestOf (value : Value) : Except CanonicalError String :=
  (canonicalJson P value).map fun text => "sha256:" ++ bytesHex (sha256 text)

/-- `EvidenceError`, as far as appending reports it. -/
inductive EvidenceError where
  | canonical (error : CanonicalError)
  | envelopeMismatch (field recordValue segmentValue : String)
  deriving DecidableEq

/-- `compute_record_hash`: the record with `prev_hash` inserted. -/
def computeRecordHash (record : EvidenceRecord) (prevHash : String) : Except EvidenceError String :=
  (digestOf P sha256 (insertMember "prev_hash"
    ⟨.str prevHash, Json.uniqueKeys_str prevHash⟩ record.toValue)).mapError
    .canonical

/-! ### Segments -/

structure ChainSegment where
  runId : String
  serverId : String
  segmentSeq : UInt64
  prevHash : String
  records : List EvidenceRecord
  lastHash : Option String

structure ClosedSegment where
  runId : String
  serverId : String
  segmentSeq : UInt64
  prevHash : String
  records : List EvidenceRecord
  headHash : String
  signature : Option String

def ChainSegment.new (runId serverId : String) (segmentSeq : UInt64) (prevHash : String) :
    ChainSegment := ⟨runId, serverId, segmentSeq, prevHash, [], none⟩

/-- The hash the next record has to name. -/
def ChainSegment.head (seg : ChainSegment) : String := seg.lastHash.getD seg.prevHash

/-- The closure of `append`: empty envelope fields are filled in, others have to match. -/
def validateAndInject (seg : ChainSegment) (prev : String) (fields : RecordFields) :
    Except EvidenceError RecordFields :=
  if fields.runId ≠ "" ∧ fields.runId ≠ seg.runId then
    .error (.envelopeMismatch "run_id" fields.runId seg.runId)
  else if fields.serverId ≠ "" ∧ fields.serverId ≠ seg.serverId then
    .error (.envelopeMismatch "server_id" fields.serverId seg.serverId)
  else if fields.segmentSeq ≠ 0 ∧ fields.segmentSeq ≠ seg.segmentSeq then
    .error (.envelopeMismatch "segment_seq" (toString fields.segmentSeq) (toString seg.segmentSeq))
  else if fields.prevHash ≠ "" then .error (.envelopeMismatch "prev_hash" fields.prevHash prev)
  else .ok { fields with
    runId := seg.runId, serverId := seg.serverId, segmentSeq := seg.segmentSeq, prevHash := prev }

/-- `append`: the hash of the record, and the segment with it. -/
def append (seg : ChainSegment) (record : EvidenceRecord) :
    Except EvidenceError (String × ChainSegment) := do
  let prev := seg.lastHash.getD seg.prevHash
  let fields ← validateAndInject seg prev record.fields
  let record := record.withFields fields
  let hash ← computeRecordHash P sha256 record prev
  return (hash, { seg with records := seg.records ++ [record], lastHash := some hash })

/-- Records appended one after the other, with the hashes returned. -/
def appendAll (seg : ChainSegment) :
    List EvidenceRecord → Except EvidenceError (List String × ChainSegment)
  | [] => .ok ([], seg)
  | record :: records => do
    let (hash, seg) ← append P sha256 seg record
    let (hashes, seg) ← appendAll seg records
    return (hash :: hashes, seg)

def close (seg : ChainSegment) : ClosedSegment where
  runId := seg.runId
  serverId := seg.serverId
  segmentSeq := seg.segmentSeq
  prevHash := seg.prevHash
  records := seg.records
  headHash := seg.lastHash.getD seg.prevHash
  signature := none

/-! ### What appending leaves behind -/

/-- The record names `head`, and its hash is `next`. -/
def RecordStep (head : String) (record : EvidenceRecord) (next : String) : Prop :=
  record.fields.prevHash = head ∧ digestOf P sha256 record.toValue = .ok next

variable {P sha256}
variable {seg seg' : ChainSegment} {record : EvidenceRecord} {hash : String}
  {records : List EvidenceRecord} {hashes : List String}

theorem upsert_of_lookup {α : Type} {key : String} {value : α} {fields : List (String × α)}
    (h : fields.lookup key = some value) : upsert key value fields = fields := by
  induction fields with
  | nil => cases h
  | cons f fields ih =>
    obtain ⟨k, v⟩ := f
    rw [lookup_cons] at h
    rw [upsert]
    by_cases hk : key = k
    · subst hk
      rw [beq_self_eq_true] at h
      rw [if_pos rfl, Option.some.inj h]
    · have hne : (key == k) = false := by simpa using hk
      rw [hne] at h
      rw [if_neg (Ne.symm hk), ih h]

theorem computeRecordHash_eq (record : EvidenceRecord) :
    computeRecordHash P sha256 record record.fields.prevHash =
      (digestOf P sha256 record.toValue).mapError .canonical := by
  have hlookup : (record.slots.filterMap fun s => s.2.map (s.1, ·)).lookup "prev_hash" =
      some (.str record.fields.prevHash) := by
    rw [Struct.lookup_filterMap record.slots_nodup]
    rfl
  have hsame : insertMember "prev_hash" ⟨.str record.fields.prevHash, rfl⟩ record.toValue =
      record.toValue := by
    simp only [insertMember, EvidenceRecord.toValue, EvidenceRecord.encode, Struct.encode,
      upsert_of_lookup hlookup]
  rw [computeRecordHash, hsame]

@[simp] theorem EvidenceRecord.fields_withFields (fields : RecordFields) (record : EvidenceRecord) :
    (record.withFields fields).fields = fields := by
  cases record <;> rfl

def ChainSegment.envelope (seg : ChainSegment) (fields : RecordFields) : RecordFields :=
  { fields with
    runId := seg.runId, serverId := seg.serverId, segmentSeq := seg.segmentSeq,
    prevHash := seg.head }

def ChainSegment.stored (seg : ChainSegment) (record : EvidenceRecord) : EvidenceRecord :=
  record.withFields (seg.envelope record.fields)

theorem validateAndInject_ok {fields fields' : RecordFields}
    (h : validateAndInject seg seg.head fields = .ok fields') : fields' = seg.envelope fields := by
  rw [validateAndInject] at h
  split_ifs at h
  exact (Except.ok.inj h).symm

theorem validateAndInject_cleared (seg : ChainSegment) {fields : RecordFields}
    (hrun : fields.runId = "") (hserver : fields.serverId = "") (hseq : fields.segmentSeq = 0)
    (hprev : fields.prevHash = "") :
    validateAndInject seg seg.head fields = .ok (seg.envelope fields) := by
  rw [validateAndInject, if_neg (fun h => h.1 hrun), if_neg (fun h => h.1 hserver),
    if_neg (fun h => h.1 hseq), if_neg (fun h => h hprev)]
  rfl

def ChainSegment.push (seg : ChainSegment) (record : EvidenceRecord) (hash : String) : ChainSegment :=
  { seg with records := seg.records ++ [record], lastHash := some hash }

theorem append_eq (seg : ChainSegment) (record : EvidenceRecord) :
    append P sha256 seg record =
      (validateAndInject seg seg.head record.fields).bind fun fields =>
        (computeRecordHash P sha256 (record.withFields fields) seg.head).map fun hash =>
          (hash, seg.push (record.withFields fields) hash) := by
  simp only [append, ChainSegment.head, bind, Except.bind]
  cases validateAndInject seg (seg.lastHash.getD seg.prevHash) record.fields with
  | error => rfl
  | ok fields =>
    dsimp only
    cases computeRecordHash P sha256 (record.withFields fields)
      (seg.lastHash.getD seg.prevHash) <;> rfl

theorem computeRecordHash_stored (seg : ChainSegment) (record : EvidenceRecord) :
    computeRecordHash P sha256 (seg.stored record) seg.head =
      (digestOf P sha256 (seg.stored record).toValue).mapError .canonical := by
  have hprev : (seg.stored record).fields.prevHash = seg.head := by
    rw [ChainSegment.stored, EvidenceRecord.fields_withFields]
    rfl
  have hhash := @computeRecordHash_eq P sha256 (seg.stored record)
  rwa [hprev] at hhash

theorem append_ok_iff :
    append P sha256 seg record = .ok (hash, seg') ↔
      validateAndInject seg seg.head record.fields = .ok (seg.envelope record.fields) ∧
        digestOf P sha256 (seg.stored record).toValue = .ok hash ∧
        seg' = seg.push (seg.stored record) hash := by
  rw [append_eq]
  cases hfields : validateAndInject seg seg.head record.fields with
  | error e => exact iff_of_false nofun nofun
  | ok fields =>
    have hinjected := validateAndInject_ok hfields
    subst hinjected
    have hhash := @computeRecordHash_stored P sha256 seg record
    rw [ChainSegment.stored] at hhash ⊢
    simp only [Except.bind]
    rw [hhash]
    cases hdigest : digestOf P sha256
        (record.withFields (seg.envelope record.fields)).toValue with
    | error e => exact iff_of_false nofun nofun
    | ok digest =>
      simp only [Except.mapError, Except.map, Except.ok.injEq, Prod.mk.injEq, true_and]
      constructor
      · rintro ⟨rfl, rfl⟩
        exact ⟨rfl, rfl⟩
      · rintro ⟨rfl, rfl⟩
        exact ⟨rfl, rfl⟩

theorem append_step (h : append P sha256 seg record = .ok (hash, seg')) :
    RecordStep P sha256 seg.head (seg.stored record) hash ∧
      seg' = seg.push (seg.stored record) hash := by
  obtain ⟨-, hdigest, hseg⟩ := append_ok_iff.mp h
  refine ⟨⟨?_, hdigest⟩, hseg⟩
  rw [ChainSegment.stored, EvidenceRecord.fields_withFields]
  rfl

theorem EvidenceRecord.metadata_withFields (fields : RecordFields) (record : EvidenceRecord) :
    (record.withFields fields).metadata = record.metadata := by
  cases record <;> rfl

theorem EvidenceRecord.nesting_encode_le
    (h : ∀ m ∈ record.metadata, m.tree.nesting < maxCanonicalDepth) :
    record.encode.nesting ≤ maxCanonicalDepth := by
  have hslots := (record.forall_slots_iff (p := fun j => j.nesting < maxCanonicalDepth)
    (fun _ => Nat.succ_pos 127) fun _ => Nat.succ_pos 127).mpr h
  rw [← Nat.zero_add record.encode.nesting, EvidenceRecord.encode, Struct.encode,
    Json.add_nesting_obj_le]
  refine ⟨Nat.zero_le _, fun field hfield => ?_⟩
  rw [Nat.zero_add, Nat.add_comm]
  exact Struct.forall_members.mpr hslots field hfield

theorem exists_append (P : Printer) (sha256 : List UInt8 → List UInt8) (seg : ChainSegment)
    {record : EvidenceRecord} (hrun : record.fields.runId = "") (hserver : record.fields.serverId = "")
    (hseq : record.fields.segmentSeq = 0) (hprev : record.fields.prevHash = "")
    (hnesting : ∀ m ∈ record.metadata, m.tree.nesting < maxCanonicalDepth) :
    ∃ hash, append P sha256 seg record = .ok (hash, seg.push (seg.stored record) hash) := by
  have hdigest : ∃ hash, digestOf P sha256 (seg.stored record).toValue = .ok hash := by
    have hlimit : (seg.stored record).toValue.tree.nesting ≤ maxCanonicalDepth :=
      EvidenceRecord.nesting_encode_le (by rwa [ChainSegment.stored,
        EvidenceRecord.metadata_withFields])
    rw [digestOf, canonicalJson_eq, if_pos hlimit]
    exact ⟨_, rfl⟩
  obtain ⟨hash, hhash⟩ := hdigest
  exact ⟨hash, append_ok_iff.mpr
    ⟨validateAndInject_cleared seg hrun hserver hseq hprev, hhash, rfl⟩⟩

theorem appendAll_nil (seg : ChainSegment) : appendAll P sha256 seg [] = .ok ([], seg) := rfl

theorem appendAll_cons {mid : ChainSegment} (h : append P sha256 seg record = .ok (hash, mid))
    (hrest : appendAll P sha256 mid records = .ok (hashes, seg')) :
    appendAll P sha256 seg (record :: records) = .ok (hash :: hashes, seg') := by
  rw [appendAll, h]
  simp only [bind, Except.bind, hrest]
  rfl

theorem appendAll_cons_ok
    (h : appendAll P sha256 seg (record :: records) = .ok (hashes, seg')) :
    ∃ hash hashes', hashes = hash :: hashes' ∧
      RecordStep P sha256 seg.head (seg.stored record) hash ∧
      appendAll P sha256 (seg.push (seg.stored record) hash) records = .ok (hashes', seg') := by
  rw [appendAll] at h
  cases hone : append P sha256 seg record with
  | error => rw [hone] at h; cases h
  | ok result =>
    obtain ⟨hash, mid⟩ := result
    obtain ⟨hstep, rfl⟩ := append_step hone
    rw [hone] at h
    simp only [bind, Except.bind] at h
    cases hrest : appendAll P sha256 (seg.push (seg.stored record) hash) records with
    | error => rw [hrest] at h; cases h
    | ok result =>
      obtain ⟨hashes', last⟩ := result
      rw [hrest] at h
      cases h
      exact ⟨hash, hashes', rfl, hstep, hrest⟩

theorem appendAll_chain (h : appendAll P sha256 seg records = .ok (hashes, seg')) :
    ∃ stored : List EvidenceRecord, Chain (RecordStep P sha256) seg.head stored seg'.head ∧
      seg' = { seg with records := seg.records ++ stored, lastHash := seg'.lastHash } := by
  induction records generalizing seg hashes with
  | nil =>
    cases h
    exact ⟨[], .nil, by rw [append_nil]⟩
  | cons record records ih =>
    obtain ⟨hash, hashes', rfl, hstep, hrest⟩ := appendAll_cons_ok h
    obtain ⟨later, hchain, hlast⟩ := ih hrest
    refine ⟨seg.stored record :: later, .cons hstep hchain, ?_⟩
    rw [hlast]
    simp [ChainSegment.push]

end Mecmcp.Audit
