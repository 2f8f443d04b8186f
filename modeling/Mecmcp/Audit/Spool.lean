import Mecmcp.Audit.ChainHead

/-!
# Spool — evidence through the outbox

A closed segment is written to the outbox as one JSON line, read back, replayed by the verifier
(`verify_segment_records`) and turned into rows (`record_to_ssdf_row`).  An optional member that is
null is written as `null` and read back as absent, and the line is nested three levels deeper than a
record's metadata; `spooled_evidence_verifies_iff` says that nothing else stands in the way.
-/

namespace Mecmcp.Audit

open List Option

open Changeset (utf8 utf8_append utf8_injective decimal decimal_injective decimal_digits
  samplePrinter)

variable {x y : List UInt8}

/-! ### The outbox line -/

/-- `serde_json` on a line: printing, and parsing up to the document. -/
structure LineText where
  Text : Type
  toText : Json → Text
  fromStr : Text → Option Json
  /-- What a float is after printing and best-effort parsing. -/
  reparse : UInt64 → UInt64
  /-- The parser accepts what was printed, to a nesting of 127. -/
  fromStr_ok : ∀ j, j.depth ≤ 127 → j.mapFloat reparse = j → fromStr (toText j) = some j
  /-- The parser refuses what is nested deeper. -/
  fromStr_deep : ∀ j, 127 < j.depth → fromStr (toText j) = none

/-- No float occurs: changing P changes nothing. -/
def FloatFree (j : Json) : Prop := ∀ f, j.mapFloat f = j

def ClosedSegment.slots (segment : ClosedSegment) : List (String × Option Json) :=
  [("run_id", some (.str segment.runId)),
    ("server_id", some (.str segment.serverId)),
    ("segment_seq", some (.ofUInt64 segment.segmentSeq)),
    ("prev_hash", some (.str segment.prevHash)),
    ("records", some (.ofList EvidenceRecord.encode segment.records)),
    ("head_hash", some (.str segment.headHash)),
    ("signature", segment.signature.map .str)]

/-- `ClosedSegment`, serialized. -/
def encodeSegment (segment : ClosedSegment) : Json := Struct.encode segment.slots

def commonNames : List String :=
  ["request_id", "changeset_id", "device_id", "principal", "diff_hash", "timestamp", "run_id",
    "server_id", "segment_seq", "prev_hash"]

def decodeFields (get : String → Option Json) : Option RecordFields := do
  return {
    requestId := ← Struct.req get "request_id" Json.asStr
    changesetId := ← Struct.req get "changeset_id" Json.asStr
    deviceId := ← Struct.req get "device_id" Json.asStr
    principal := ← Struct.req get "principal" Json.asStr
    diffHash := ← Struct.req get "diff_hash" Json.asStr
    timestamp := ← Struct.req get "timestamp" Json.asStr
    runId := ← Struct.req get "run_id" Json.asStr
    serverId := ← Struct.req get "server_id" Json.asStr
    segmentSeq := ← Struct.req get "segment_seq" Json.asUInt64
    prevHash := ← Struct.req get "prev_hash" Json.asStr }

/-- `Option<serde_json::Value>`: a member that is null is absent. -/
def decodeMetadata (get : String → Option Json) : Option (Option Value) :=
  Struct.opt get "metadata" fun j => some (Value.ofJson j)

/-- The variant of a tag, read from the same object. -/
def decodeVariant (kind : String) (j : Json) : Option EvidenceRecord :=
  if kind = "evidence:proposal" then do
    let get ← Struct.fields (commonNames ++ ["metadata"]) false j
    return .proposal (← decodeFields get) (← decodeMetadata get)
  else if kind = "evidence:approval" then do
    let get ← Struct.fields (commonNames ++ ["approver", "decision", "metadata"]) false j
    return .approval (← decodeFields get) (← Struct.req get "approver" Json.asStr)
      (← Struct.req get "decision" Json.asStr) (← decodeMetadata get)
  else if kind = "evidence:apply_intent" then do
    let get ← Struct.fields (commonNames ++ ["metadata"]) false j
    return .applyIntent (← decodeFields get) (← decodeMetadata get)
  else if kind = "evidence:result_receipt" then do
    let get ← Struct.fields (commonNames ++ ["outcome", "error", "metadata"]) false j
    return .resultReceipt (← decodeFields get) (← Struct.req get "outcome" Json.asStr)
      (← Struct.opt get "error" Json.asStr) (← decodeMetadata get)
  else none

/-- `EvidenceRecord`, deserialized: the tag, then the variant. -/
def decodeRecord (j : Json) : Option EvidenceRecord := do
  let get ← Struct.fields ["kind"] false j
  let kind ← Struct.req get "kind" Json.asStr
  decodeVariant kind j

/-- `ClosedSegment`, deserialized. -/
def decodeSegment (j : Json) : Option ClosedSegment := do
  let get ← Struct.fields ["run_id", "server_id", "segment_seq", "prev_hash", "records", "head_hash",
    "signature"] false j
  return {
    runId := ← Struct.req get "run_id" Json.asStr
    serverId := ← Struct.req get "server_id" Json.asStr
    segmentSeq := ← Struct.req get "segment_seq" Json.asUInt64
    prevHash := ← Struct.req get "prev_hash" Json.asStr
    records := ← Struct.req get "records" (Json.asList decodeRecord)
    headHash := ← Struct.req get "head_hash" Json.asStr
    signature := ← Struct.opt get "signature" Json.asStr }

/-! ### The verifier -/

structure RecordHashMismatch where
  serverId : String
  segmentSeq : UInt64
  recordIndex : ℕ
  expected : String
  actual : String

/-- The record with empty envelope fields. -/
def EvidenceRecord.cleared (record : EvidenceRecord) : EvidenceRecord :=
  record.withFields { record.fields with runId := "", serverId := "", segmentSeq := 0, prevHash := "" }

variable (P : Printer) (sha256 : List UInt8 → List UInt8)

/-- The loop of `verify_segment_records`: the records are appended again. -/
def replay (segment : ClosedSegment) (seg : ChainSegment) (index : ℕ) :
    List EvidenceRecord → Except RecordHashMismatch ChainSegment
  | [] => .ok seg
  | record :: records =>
    match append P sha256 seg record.cleared with
    | .ok (_, seg) => replay segment seg (index + 1) records
    | .error _ =>
      .error ⟨segment.serverId, segment.segmentSeq, index, "unknown", "envelope_mismatch"⟩

def verifySegmentRecords (segment : ClosedSegment) : Except RecordHashMismatch Unit := do
  let seg ← replay P sha256 segment
    (.new segment.runId segment.serverId segment.segmentSeq segment.prevHash) 0 segment.records
  if (close seg).headHash ≠ segment.headHash then
    throw ⟨segment.serverId, segment.segmentSeq, 0, segment.headHash, (close seg).headHash⟩

/-! ### Rows -/

structure SsdfRow where
  ts : String
  principal : String
  tier : String
  tool : String
  args : List UInt8
  dataClasses : List String
  decision : String
  rowCount : ℕ
  error : String
  prevHash : String
  rowHash : String

/-- `SsdfSink::compute_record_hash`: the record as it is, with the hash it names. -/
def rowHashOf (record : EvidenceRecord) : Except String String :=
  (digestOf P sha256 record.toValue).mapError fun _ =>
    "hash computation failed: value nests deeper than the 128 level canonicalisation limit"

/-- `record_to_ssdf_row`; the approver is in the arguments of an approval only.  The crate does not
ask `serde_json` for `preserve_order`, so the arguments are in the order of their keys. -/
def recordToSsdfRow (record : EvidenceRecord) : Except String SsdfRow := do
  let fields := record.fields
  let args := Struct.encode
    [("request_id", some (.str fields.requestId)),
      ("changeset_id", some (.str fields.changesetId)),
      ("device_id", some (.str fields.deviceId)),
      ("diff_hash", some (.str fields.diffHash)),
      ("run_id", some (.str fields.runId)),
      ("server_id", some (.str fields.serverId)),
      ("segment_seq", some (.ofUInt64 fields.segmentSeq)),
      ("prev_hash", some (.str fields.prevHash)),
      ("approver", record.approver.map .str),
      ("metadata", some ((record.metadata.map Value.tree).getD .null))]
  let rowHash ← rowHashOf P sha256 record
  return {
    ts := fields.timestamp
    principal := fields.principal
    tier := "evidence"
    tool := record.kind
    args := P.render args.sorted
    dataClasses := ["device:" ++ fields.deviceId]
    decision := record.decision.getD ""
    rowCount := 1
    error := record.error.getD ""
    prevHash := fields.prevHash
    rowHash }

/-! ### Round trip of a record -/

/-- What is left of the metadata after a round trip. -/
def readMetadata : Option Value → Option Value
  | some ⟨.null, _⟩ => none
  | metadata => metadata

theorem optional_tree (metadata : Option Value) :
    Struct.optional (fun j => some (Value.ofJson j)) (metadata.map Value.tree) =
      some (readMetadata metadata) := by
  cases metadata with
  | none => rfl
  | some value =>
    have hread := Value.ofJson_tree value
    obtain ⟨tree, hunique⟩ := value
    cases tree with
    | null => rfl
    | _ =>
      simp only [map_some, Struct.optional, readMetadata]
      rw [hread]

variable {slots : List (String × Option Json)}

theorem fields_encode_of_nodup {names : List String}
    (hnodup : (slots.map Prod.fst).Nodup) :
    Struct.fields names false (Struct.encode slots) = some fun n => (slots.lookup n).join := by
  have hsub := Struct.map_fst_filterMap_sublist slots
  rw [Struct.encode, Struct.fields,
    if_pos ⟨(hnodup.sublist hsub).filter _, fun h => absurd h Bool.false_ne_true⟩]
  exact congrArg some (funext fun n => Struct.lookup_filterMap hnodup n)

/-- The record as it is read back. -/
def EvidenceRecord.reread (record : EvidenceRecord) : EvidenceRecord :=
  record.withMetadata (readMetadata record.metadata)

theorem decodeRecord_encode (record : EvidenceRecord) :
    decodeRecord record.encode = some record.reread := by
  have hget {names : List String} : Struct.fields names false record.encode =
      some fun n => (record.slots.lookup n).join := fields_encode_of_nodup record.slots_nodup
  have hfields : decodeFields (fun n => (record.slots.lookup n).join) = some record.fields := rfl
  have hmetadata : decodeMetadata (fun n => (record.slots.lookup n).join) =
      some (readMetadata record.metadata) := optional_tree record.metadata
  have hkind : decodeRecord record.encode = decodeVariant record.kind record.encode := by
    rw [decodeRecord, hget]
    rfl
  rw [hkind, decodeVariant]
  cases record with
  | proposal fields metadata =>
    rw [EvidenceRecord.kind, if_pos rfl, hget]
    simp only [bind_eq_bind, bind_some, hfields, hmetadata]
    rfl
  | approval fields approver decision metadata =>
    rw [EvidenceRecord.kind, if_neg (by decide), if_pos rfl, hget]
    simp only [bind_eq_bind, bind_some, hfields, hmetadata]
    rfl
  | applyIntent fields metadata =>
    rw [EvidenceRecord.kind, if_neg (by decide), if_neg (by decide), if_pos rfl, hget]
    simp only [bind_eq_bind, bind_some, hfields, hmetadata]
    rfl
  | resultReceipt fields outcome error metadata =>
    have herror : Struct.opt (fun n =>
        ((EvidenceRecord.resultReceipt fields outcome error metadata).slots.lookup n).join) "error"
        Json.asStr = some error := Struct.optional_map_str error
    rw [EvidenceRecord.kind, if_neg (by decide), if_neg (by decide), if_neg (by decide), if_pos rfl,
      hget]
    simp only [bind_eq_bind, bind_some, hfields, hmetadata, herror]
    rfl

theorem decodeSegment_encode (segment : ClosedSegment) : decodeSegment (encodeSegment segment) =
    some { segment with records := segment.records.map EvidenceRecord.reread } := by
  have hnodup : (segment.slots.map Prod.fst).Nodup :=
    show ["run_id", "server_id", "segment_seq", "prev_hash", "records", "head_hash",
      "signature"].Nodup by decide
  have hrecords : Struct.req (fun n => (segment.slots.lookup n).join) "records"
      (Json.asList decodeRecord) = some (segment.records.map EvidenceRecord.reread) :=
    Json.asList_map fun record _ => decodeRecord_encode record
  have hsignature : Struct.opt (fun n => (segment.slots.lookup n).join) "signature" Json.asStr =
      some segment.signature := Struct.optional_map_str segment.signature
  rw [decodeSegment, encodeSegment, fields_encode_of_nodup hnodup]
  simp only [bind_eq_bind, bind_some, hrecords, hsignature]
  rfl

/-! ### What is stored -/

/-- Records of a segment with their hashes, each naming the one before it. -/
inductive Stored (runId serverId : String) (segmentSeq : UInt64) :
    String → List EvidenceRecord → List String → Prop
  | nil {start : String} : Stored runId serverId segmentSeq start [] []
  | cons {start hash : String} {record : EvidenceRecord} {records : List EvidenceRecord}
      {hashes : List String} (hrun : record.fields.runId = runId)
      (hserver : record.fields.serverId = serverId) (hseq : record.fields.segmentSeq = segmentSeq)
      (hstep : RecordStep P sha256 start record hash)
      (hrest : Stored runId serverId segmentSeq hash records hashes) :
      Stored runId serverId segmentSeq start (record :: records) (hash :: hashes)

variable {P sha256} {runId serverId start : String} {segmentSeq : UInt64}
  {records : List EvidenceRecord} {hashes : List String}
variable {seg : ChainSegment} {record : EvidenceRecord} {segment : ClosedSegment}

theorem appendAll_stored {seg' : ChainSegment}
    (h : appendAll P sha256 seg records = .ok (hashes, seg')) :
    ∃ stored, Stored P sha256 seg.runId seg.serverId seg.segmentSeq seg.head stored hashes ∧
      stored.map EvidenceRecord.metadata = records.map EvidenceRecord.metadata ∧
      seg' = { seg with records := seg.records ++ stored, lastHash := seg'.lastHash } ∧
      seg'.head = (seg.head :: hashes).getLast (List.cons_ne_nil _ _) := by
  induction records generalizing seg hashes with
  | nil =>
    cases h
    exact ⟨[], .nil, rfl, by rw [append_nil], rfl⟩
  | cons record records ih =>
    obtain ⟨hash, hashes', rfl, hstep, hrest⟩ := appendAll_cons_ok h
    obtain ⟨later, hstored, hmetadata, hlast, hhead⟩ := ih hrest
    have hfields : (seg.stored record).fields = seg.envelope record.fields :=
      EvidenceRecord.fields_withFields _ _
    refine ⟨seg.stored record :: later, .cons ?_ ?_ ?_ hstep hstored, ?_, ?_, ?_⟩
    · rw [hfields]
      rfl
    · rw [hfields]
      rfl
    · rw [hfields]
      rfl
    · rw [map_cons, map_cons, hmetadata, ChainSegment.stored,
        EvidenceRecord.metadata_withFields]
    · rw [hlast]
      simp [ChainSegment.push]
    · rw [hhead]
      rfl

/-! ### The replay -/

theorem EvidenceRecord.withFields_withFields (fields fields' : RecordFields)
    (record : EvidenceRecord) :
    (record.withFields fields).withFields fields' = record.withFields fields' := by
  cases record <;> rfl

theorem EvidenceRecord.withFields_fields (record : EvidenceRecord) :
    record.withFields record.fields = record := by
  cases record <;> rfl

theorem ChainSegment.stored_cleared
    (hrun : record.fields.runId = seg.runId) (hserver : record.fields.serverId = seg.serverId)
    (hseq : record.fields.segmentSeq = seg.segmentSeq) (hprev : record.fields.prevHash = seg.head) :
    seg.stored record.cleared = record := by
  have hfields : seg.envelope record.cleared.fields = record.fields := by
    rw [EvidenceRecord.cleared, EvidenceRecord.fields_withFields, ChainSegment.envelope, ← hrun,
      ← hserver, ← hseq, ← hprev]
  rw [ChainSegment.stored, hfields, EvidenceRecord.cleared, EvidenceRecord.withFields_withFields,
    EvidenceRecord.withFields_fields]

theorem replay_stored (segment : ClosedSegment) {seg : ChainSegment}
    (h : Stored P sha256 seg.runId seg.serverId seg.segmentSeq seg.head records hashes)
    (index : ℕ) : ∃ seg', replay P sha256 segment seg index records = .ok seg' ∧
      seg'.head = (seg.head :: hashes).getLast (List.cons_ne_nil _ _) := by
  induction records generalizing seg hashes index with
  | nil =>
    cases h
    exact ⟨seg, rfl, rfl⟩
  | cons record records ih =>
    cases h with
    | @cons _ hash _ _ hashes hrun hserver hseq hstep hrest =>
      have hstored := ChainSegment.stored_cleared hrun hserver hseq hstep.1
      have happend : append P sha256 seg record.cleared = .ok (hash, seg.push record hash) := by
        refine append_ok_iff.mpr ⟨?_, ?_, ?_⟩
        · refine validateAndInject_cleared seg ?_ ?_ ?_ ?_
          all_goals
            rw [EvidenceRecord.cleared, EvidenceRecord.fields_withFields]
        · rw [hstored]
          exact hstep.2
        · rw [hstored]
      obtain ⟨seg', hreplay, hhead⟩ := @ih hashes (seg.push record hash) hrest (index + 1)
      refine ⟨seg', ?_, ?_⟩
      · rw [replay, happend]
        exact hreplay
      · rw [hhead]
        rfl

theorem verifySegmentRecords_stored
    (h : Stored P sha256 segment.runId segment.serverId segment.segmentSeq segment.prevHash
      segment.records hashes)
    (hhead : segment.headHash = (segment.prevHash :: hashes).getLast (List.cons_ne_nil _ _)) :
    verifySegmentRecords P sha256 segment = .ok () := by
  obtain ⟨seg', hreplay, hlast⟩ := @replay_stored P sha256 segment.records hashes segment
    (.new segment.runId segment.serverId segment.segmentSeq segment.prevHash) h 0
  have hsame : (close seg').headHash = segment.headHash := by
    rw [hhead]
    exact hlast
  rw [verifySegmentRecords, hreplay]
  simp only [bind, Except.bind, hsame, ne_eq, not_true_eq_false, if_false]
  rfl

/-! ### The rows -/

/-- Rows that form a chain from `start` with the given hashes. -/
def RowChain (start : String) (hashes : List String) (rows : List SsdfRow) : Prop :=
  rows.map SsdfRow.rowHash = hashes ∧
    rows.map SsdfRow.prevHash = (start :: rows.map SsdfRow.rowHash).dropLast

theorem recordToSsdfRow_ok {row : SsdfRow} (h : recordToSsdfRow P sha256 record = .ok row) :
    digestOf P sha256 record.toValue = .ok row.rowHash ∧
      row.prevHash = record.fields.prevHash := by
  simp only [recordToSsdfRow, rowHashOf] at h
  cases hdigest : digestOf P sha256 record.toValue with
  | error => rw [hdigest] at h; cases h
  | ok digest =>
    rw [hdigest] at h
    cases h
    exact ⟨rfl, rfl⟩

theorem rows_stored (h : Stored P sha256 runId serverId segmentSeq start records hashes) :
    ∃ rows, records.mapM (recordToSsdfRow P sha256) = .ok rows ∧ RowChain start hashes rows := by
  induction records generalizing start hashes with
  | nil =>
    cases h
    exact ⟨[], rfl, rfl, rfl⟩
  | cons record records ih =>
    cases h with
    | @cons _ hash _ _ hashes _ _ _ hstep hrest =>
      obtain ⟨rows, hrows, hhashes, hprevs⟩ := ih hrest
      have hrow : ∃ row, recordToSsdfRow P sha256 record = .ok row := by
        simp only [recordToSsdfRow, rowHashOf, hstep.2]
        exact ⟨_, rfl⟩
      obtain ⟨row, hrow⟩ := hrow
      obtain ⟨hdigest, hprev⟩ := recordToSsdfRow_ok hrow
      have hrowHash : row.rowHash = hash := Except.ok.inj (hdigest.symm.trans hstep.2)
      refine ⟨row :: rows, ?_, ?_, ?_⟩
      · rw [mapM_cons, hrow, hrows]
        rfl
      · rw [map_cons, hrowHash, hhashes]
      · rw [map_cons, map_cons, hprev, hstep.1, hprevs, hrowHash,
          dropLast_cons_of_ne_nil (cons_ne_nil _ _)]

theorem metadata_ne_null_of_rows (hsha : Function.Injective sha256)
    (h : Stored P sha256 runId serverId segmentSeq start records hashes) {rows : List SsdfRow}
    (hrows : (records.map EvidenceRecord.reread).mapM (recordToSsdfRow P sha256) = .ok rows)
    (hhashes : rows.map SsdfRow.rowHash = hashes) :
    ∀ record ∈ records, record.metadata ≠ some ⟨.null, rfl⟩ := by
  induction records generalizing start hashes rows with
  | nil => simp
  | cons record records ih =>
    cases h with
    | @cons _ hash _ _ hashes _ _ _ hstep hrest =>
      rw [map_cons, mapM_cons] at hrows
      cases hrow : recordToSsdfRow P sha256 record.reread with
      | error => rw [hrow] at hrows; cases hrows
      | ok row =>
        rw [hrow] at hrows
        cases hlater : (records.map EvidenceRecord.reread).mapM (recordToSsdfRow P sha256) with
        | error => simp only [hlater] at hrows; cases hrows
        | ok later =>
          simp only [hlater] at hrows
          cases hrows
          obtain ⟨hhash, hhashes⟩ := List.cons.inj hhashes
          refine forall_mem_cons.mpr ⟨fun hnull => ?_, ih hrest hlater hhashes⟩
          -- the digest tells null metadata from none
          have hdigest := (recordToSsdfRow_ok hrow).1
          rw [hhash] at hdigest
          have hsame := EvidenceRecord.same_of_sorted (digestOf_sorted hsha hstep.2 hdigest)
          have hreread : record.reread.metadata = none := by
            rw [EvidenceRecord.reread, hnull]
            cases record <;> rfl
          have hrel := hsame.2
          rw [hnull, hreread] at hrel
          cases hrel

/-! ### Spooled evidence -/

/-- What is read back from the outbox is accepted by the verifier, and its rows form the chain of
the hashes that `append` returned. -/
def Spooled (T : LineText) (P : Printer) (sha256 : List UInt8 → List UInt8)
    (segment : ClosedSegment) (hashes : List String) : Prop :=
  ∃ parsed, (T.fromStr (T.toText (encodeSegment segment))).bind decodeSegment = some parsed ∧
    verifySegmentRecords P sha256 parsed = .ok () ∧
    ∃ rows, parsed.records.mapM (recordToSsdfRow P sha256) = .ok rows ∧
      RowChain segment.prevHash hashes rows ∧
      (segment.prevHash :: rows.map SsdfRow.rowHash).getLast? = some segment.headHash

theorem EvidenceRecord.depth_encode_le (record : EvidenceRecord) (n : ℕ) :
    record.encode.depth ≤ n + 1 ↔ ∀ m ∈ record.metadata, m.tree.depth ≤ n := by
  rw [EvidenceRecord.encode, Struct.depth_encode_le]
  exact record.forall_slots_iff (fun _ => Nat.zero_le n) fun _ => Nat.zero_le n

theorem ClosedSegment.forall_slots_iff (segment : ClosedSegment) {p : Json → Prop}
    (hstr : ∀ s, p (.str s)) (hint : ∀ n, p (.ofUInt64 n)) :
    (∀ slot ∈ segment.slots, ∀ j ∈ slot.2, p j) ↔
      p (.ofList EvidenceRecord.encode segment.records) := by
  have hsignature : ∀ j ∈ segment.signature.map Json.str, p j := by
    intro j hj
    obtain ⟨s, -, rfl⟩ := Option.mem_map.mp hj
    exact hstr s
  constructor
  · intro h
    exact h ("records", some (.ofList EvidenceRecord.encode segment.records))
      (by simp [ClosedSegment.slots]) _ rfl
  · intro h
    simp only [ClosedSegment.slots, forall_mem_cons, mem_some_iff, forall_eq', hstr,
      hint, h, true_and]
    exact ⟨hsignature, fun _ hmem => absurd hmem not_mem_nil⟩

theorem depth_encodeSegment_le (segment : ClosedSegment) (n : ℕ) :
    (encodeSegment segment).depth ≤ n + 3 ↔
      ∀ record ∈ segment.records, ∀ m ∈ record.metadata, m.tree.depth ≤ n := by
  rw [encodeSegment, Struct.depth_encode_le,
    segment.forall_slots_iff (fun _ => Nat.zero_le _) fun _ => Nat.zero_le _, Json.ofList,
    Json.depth_arr_le]
  simp only [List.forall_mem_map, EvidenceRecord.depth_encode_le]

theorem floatFree_encode (h : ∀ m ∈ record.metadata, FloatFree m.tree)
    (f : UInt64 → UInt64) : record.encode.mapFloat f = record.encode := by
  refine Struct.mapFloat_encode_eq_self ?_
  exact (record.forall_slots_iff (fun _ => rfl) fun _ => rfl).mpr fun m hm => h m hm f

theorem floatFree_encodeSegment
    (h : ∀ record ∈ segment.records, ∀ m ∈ record.metadata, FloatFree m.tree) (f : UInt64 → UInt64) :
    (encodeSegment segment).mapFloat f = encodeSegment segment := by
  refine Struct.mapFloat_encode_eq_self ?_
  refine (segment.forall_slots_iff (fun _ => rfl) fun _ => rfl).mpr ?_
  rw [Json.ofList, Json.mapFloat_arr, List.map_map]
  congr 1
  exact map_congr_left fun record hrecord => floatFree_encode (h record hrecord) f

theorem reread_eq_self (h : record.metadata ≠ some ⟨.null, rfl⟩) :
    record.reread = record := by
  have hmetadata : readMetadata record.metadata = record.metadata := by
    cases hm : record.metadata with
    | none => rfl
    | some value =>
      obtain ⟨tree, hunique⟩ := value
      cases tree with
      | null => exact absurd hm h
      | _ => rfl
  rw [EvidenceRecord.reread, hmetadata]
  cases record <;> rfl

section
variable {T : LineText} {prevHash : String}

theorem close_stored
    (happend : appendAll P sha256 (.new runId serverId segmentSeq prevHash) records =
      .ok (hashes, seg)) :
    Stored P sha256 (close seg).runId (close seg).serverId (close seg).segmentSeq
        (close seg).prevHash (close seg).records hashes ∧
      (close seg).records.map EvidenceRecord.metadata = records.map EvidenceRecord.metadata ∧
      (close seg).headHash =
        ((close seg).prevHash :: hashes).getLast (List.cons_ne_nil _ _) := by
  obtain ⟨stored, hstored, hmetadata, hseg, hhead⟩ := appendAll_stored happend
  have hrecords : (close seg).records = stored := by
    rw [hseg]
    rfl
  have hprev : (close seg).prevHash = prevHash := by
    rw [hseg]
    rfl
  have hhash : (close seg).headHash = (prevHash :: hashes).getLast (cons_ne_nil _ _) := hhead
  refine ⟨?_, by rw [hrecords, hmetadata], by rw [hhash]; simp only [hprev]⟩
  rw [hrecords, hprev, hseg]
  exact hstored

theorem forall_metadata_iff {stored : List EvidenceRecord} {p : Option Value → Prop}
    (h : stored.map EvidenceRecord.metadata = records.map EvidenceRecord.metadata) :
    (∀ record ∈ stored, p record.metadata) ↔ ∀ record ∈ records, p record.metadata := by
  have hforall (l : List EvidenceRecord) : (∀ record ∈ l, p record.metadata) ↔
      ∀ metadata ∈ l.map EvidenceRecord.metadata, p metadata := by
    rw [List.forall_mem_map]
  rw [hforall, h, ← hforall]

theorem of_spooled (hsha : Function.Injective sha256) {segment : ClosedSegment}
    (hstored : Stored P sha256 segment.runId segment.serverId segment.segmentSeq
      segment.prevHash segment.records hashes)
    (hfloats : ∀ record ∈ segment.records, ∀ m ∈ record.metadata, FloatFree m.tree)
    (h : Spooled T P sha256 segment hashes) :
    (∀ record ∈ segment.records, record.metadata ≠ some ⟨.null, rfl⟩) ∧
      ∀ record ∈ segment.records, ∀ m ∈ record.metadata, m.tree.depth ≤ 124 := by
  obtain ⟨parsed, hparsed, -, rows, hrows, ⟨hhashes, -⟩, -⟩ := h
  have hdepth : (encodeSegment segment).depth ≤ 127 := by
    by_contra hdeep
    rw [T.fromStr_deep _ (Nat.not_le.mp hdeep)] at hparsed
    cases hparsed
  rw [T.fromStr_ok _ hdepth (floatFree_encodeSegment hfloats _), bind_some,
    decodeSegment_encode] at hparsed
  cases hparsed
  exact ⟨metadata_ne_null_of_rows hsha hstored hrows hhashes,
    (depth_encodeSegment_le segment 124).mp hdepth⟩

theorem spooled_of {segment : ClosedSegment}
    (hstored : Stored P sha256 segment.runId segment.serverId segment.segmentSeq
      segment.prevHash segment.records hashes)
    (hhead : segment.headHash = (segment.prevHash :: hashes).getLast (List.cons_ne_nil _ _))
    (hfloats : ∀ record ∈ segment.records, ∀ m ∈ record.metadata, FloatFree m.tree)
    (hnull : ∀ record ∈ segment.records, record.metadata ≠ some ⟨.null, rfl⟩)
    (hdepth : ∀ record ∈ segment.records, ∀ m ∈ record.metadata, m.tree.depth ≤ 124) :
    Spooled T P sha256 segment hashes := by
  have hrecords : segment.records.map EvidenceRecord.reread = segment.records :=
    (map_congr_left fun record hrecord => reread_eq_self (hnull record hrecord)).trans
      (List.map_id _)
  have hparsed : (T.fromStr (T.toText (encodeSegment segment))).bind decodeSegment =
      some segment := by
    rw [T.fromStr_ok _ ((depth_encodeSegment_le segment 124).mpr hdepth)
      (floatFree_encodeSegment hfloats _), bind_some, decodeSegment_encode, hrecords]
  obtain ⟨rows, hrows, hchain⟩ := rows_stored hstored
  refine ⟨segment, hparsed, verifySegmentRecords_stored hstored hhead, rows, hrows, hchain, ?_⟩
  rw [hchain.1, hhead, getLast?_eq_some_getLast]

end

/-- No record has null metadata, and no metadata is nested deeper than the parser takes inside a
line. -/
def Spoolable (records : List EvidenceRecord) : Prop :=
  (∀ record ∈ records, record.metadata ≠ some ⟨.null, rfl⟩) ∧
    ∀ record ∈ records, ∀ m ∈ record.metadata, m.tree.depth ≤ 124

/-- **Spooled evidence verifies** if no record has null metadata and no metadata is nested deeper
than the parser takes inside a line; where no two texts have the same SHA-256, only then. -/
theorem spooled_evidence_verifies_iff (T : LineText) {prevHash : String} {seg : ChainSegment}
    (happend : appendAll P sha256 (.new runId serverId segmentSeq prevHash) records =
      .ok (hashes, seg))
    (hfloats : ∀ record ∈ records, ∀ m ∈ record.metadata, FloatFree m.tree) :
    (Spoolable records → Spooled T P sha256 (close seg) hashes) ∧
      (Function.Injective sha256 → Spooled T P sha256 (close seg) hashes → Spoolable records) := by
  obtain ⟨hstored, hmetadata, hhead⟩ := close_stored happend
  have hfloats' := (forall_metadata_iff
    (p := fun metadata => ∀ m ∈ metadata, FloatFree m.tree) hmetadata).mpr hfloats
  unfold Spoolable
  rw [← forall_metadata_iff (p := fun metadata => metadata ≠ some ⟨.null, rfl⟩) hmetadata,
    ← forall_metadata_iff (p := fun metadata => ∀ m ∈ metadata, m.tree.depth ≤ 124) hmetadata]
  constructor
  · rintro ⟨hnull, hdepth⟩
    exact spooled_of hstored hhead hfloats' hnull hdepth
  · intro hsha
    exact of_spooled hsha hstored hfloats'

/-- A line that holds the document itself. -/
def LineText.sample : LineText where
  Text := Json
  toText j := j
  fromStr j := if j.depth ≤ 127 then some j else none
  reparse := id
  fromStr_ok _ hdepth _ := if_pos hdepth
  fromStr_deep _ hdeep := if_neg (Nat.not_le.mpr hdeep)

/-- A proposal without metadata and an approval with some come through. -/
theorem approved_proposal_spooled : ∃ hashes seg,
    appendAll samplePrinter id (.new "run-1" "srv-a" 0 "") [sampleProposal, sampleApproval] =
        .ok (hashes, seg) ∧ hashes.length = 2 ∧
      Spooled LineText.sample samplePrinter id (close seg) hashes := by
  obtain ⟨first, hfirst⟩ := @exists_append samplePrinter id (.new "run-1" "srv-a" 0 "")
    sampleProposal rfl rfl rfl rfl nofun
  obtain ⟨second, hsecond⟩ := @exists_append samplePrinter id _ sampleApproval rfl rfl rfl rfl
    sampleApproval_nesting
  have happend := appendAll_cons hfirst (appendAll_cons hsecond (appendAll_nil _))
  refine ⟨_, _, happend, rfl, (spooled_evidence_verifies_iff LineText.sample happend ?_).1 ⟨?_, ?_⟩⟩
  all_goals simp only [forall_mem_cons]
  · exact ⟨nofun, by rintro m ⟨⟩ f; rfl, nofun⟩
  · exact ⟨nofun, nofun, nofun⟩
  · exact ⟨nofun, by rintro m ⟨⟩; decide, nofun⟩

/-- A proposal whose metadata is `null` is appended, but does not come through. -/
theorem null_metadata_not_spooled : ∃ hash seg,
    appendAll samplePrinter id (.new "run-1" "srv-a" 0 "")
        [sampleProposal.withMetadata (some ⟨.null, rfl⟩)] = .ok ([hash], seg) ∧
      ¬ Spooled LineText.sample samplePrinter id (close seg) [hash] := by
  obtain ⟨hash, hfirst⟩ := @exists_append samplePrinter id (.new "run-1" "srv-a" 0 "")
    (sampleProposal.withMetadata (some ⟨.null, rfl⟩)) rfl rfl rfl rfl (by rintro m ⟨⟩; decide)
  have happend := appendAll_cons hfirst (appendAll_nil _)
  refine ⟨hash, _, happend, fun hspooled => ?_⟩
  obtain ⟨hstored, -, -⟩ := close_stored happend
  obtain ⟨hnull, -⟩ := of_spooled Function.injective_id hstored (fun record hrecord m hm => by
    obtain rfl := mem_singleton.mp hrecord
    cases hm
    exact fun _ => rfl) hspooled
  exact hnull _ mem_cons_self rfl

/-! ### The deduplication token -/

def dedupToken (serverId runId : String) (segmentSeq : UInt64) : String :=
  s!"{serverId.utf8ByteSize}:{serverId}:{runId.utf8ByteSize}:{runId}:{segmentSeq.toNat}"

theorem length_utf8 (text : String) : (utf8 text).length = text.utf8ByteSize := rfl

theorem decimal_colon_inj {m n : ℕ}
    (h : decimal m ++ 58 :: x = decimal n ++ 58 :: y) : m = n ∧ x = y := by
  have hcolon : ∀ k, 58 ∉ decimal k := by
    intro k hmem
    have hrange := decimal_digits hmem
    exact absurd hrange.2 (by decide)
  have hsplit : ∀ k (z : List UInt8), (decimal k ++ 58 :: z).takeWhile (· != 58) = decimal k := by
    intro k z
    have hall : ∀ byte ∈ decimal k, (byte != 58) = true := by
      intro byte hbyte
      have hne : byte ≠ 58 := fun heq => hcolon k (heq ▸ hbyte)
      simpa using hne
    rw [takeWhile_append_of_pos hall, takeWhile_cons_of_neg (by decide), append_nil]
  have hnumber : decimal m = decimal n := by
    rw [← hsplit m x, h, hsplit n y]
  obtain rfl := decimal_injective hnumber
  exact ⟨rfl, (List.cons.inj (append_cancel_left h)).2⟩

theorem framed_inj {s t : String} (h : decimal s.utf8ByteSize ++ 58 :: (utf8 s ++ x) =
      decimal t.utf8ByteSize ++ 58 :: (utf8 t ++ y)) : s = t ∧ x = y := by
  obtain ⟨hsize, hrest⟩ := decimal_colon_inj h
  have hlength : (utf8 s).length = (utf8 t).length := by
    rw [length_utf8, length_utf8, hsize]
  obtain ⟨htext, hxy⟩ := append_inj hrest hlength
  exact ⟨utf8_injective htext, hxy⟩

theorem utf8_dedupToken (serverId runId : String) (segmentSeq : UInt64) :
    utf8 (dedupToken serverId runId segmentSeq) =
      decimal serverId.utf8ByteSize ++ 58 :: (utf8 serverId ++ 58 ::
        (decimal runId.utf8ByteSize ++ 58 :: (utf8 runId ++ 58 ::
          decimal segmentSeq.toNat))) := by
  have hcolon : utf8 ":" = [58] := by decide
  simp only [dedupToken, utf8_append, hcolon, append_assoc, nil_append,
    cons_append, toString, decimal]

/-- **Deduplication tokens are unambiguous.** -/
theorem dedup_token_injective (s s' r r' : String) (n n' : UInt64)
    (h : dedupToken s r n = dedupToken s' r' n') : s = s' ∧ r = r' ∧ n = n' := by
  have hbytes := congrArg utf8 h
  rw [utf8_dedupToken, utf8_dedupToken] at hbytes
  obtain ⟨rfl, hrun⟩ := framed_inj hbytes
  obtain ⟨rfl, hseq⟩ := framed_inj (List.cons.inj hrun).2
  have hnumber := decimal_injective (List.cons.inj hseq).2
  exact ⟨rfl, rfl, UInt64.toNat_inj.mp hnumber⟩

/-- Two identifiers that a plain join would confuse. -/
theorem dedup_token_separates_colons :
    dedupToken "a:b" "c" 1 ≠ dedupToken "a" "b:c" 1 ∧
      ("a" = "a" ∧ "b" = "b" ∧ (1 : UInt64) = 1) :=
  ⟨fun h => absurd (dedup_token_injective _ _ _ _ _ _ h).1 (by decide),
    dedup_token_injective "a" "a" "b" "b" 1 1 rfl⟩

end Mecmcp.Audit
