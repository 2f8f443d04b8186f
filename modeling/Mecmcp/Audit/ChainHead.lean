import Mecmcp.Audit.Evidence
import Mecmcp.Changeset.Preimage

/-!
# ChainHead — the head of a chain

The hash of a record covers every member of it, the hash of the record before it included, so that
the last head of a history of segments tells all of its records: `chain_head_binds_history`.  SHA-256
is taken as injective here.
-/

namespace Mecmcp.Audit

open List

open Changeset (bytesHex bytesHex_injective samplePrinter)

variable {r r' : EvidenceRecord}

/-! ### Records -/

/-- Equal in every field, the metadata up to the order of members. -/
def EvidenceRecord.Same (r r' : EvidenceRecord) : Prop :=
  r.withMetadata none = r'.withMetadata none ∧
    Option.Rel (fun v v' => v.tree.Same v'.tree) r.metadata r'.metadata

theorem EvidenceRecord.lookup_encode (record : EvidenceRecord) (name : String) :
    (record.slots.filterMap fun s => s.2.map (s.1, ·)).lookup name =
      (record.slots.lookup name).join :=
  Struct.lookup_filterMap record.slots_nodup name

theorem EvidenceRecord.slot_eq (h : r.encode.sorted = r'.encode.sorted)
    (name : String) : (r.slots.lookup name).join.map Json.sorted =
      (r'.slots.lookup name).join.map Json.sorted := by
  rw [EvidenceRecord.encode, EvidenceRecord.encode, Struct.encode, Struct.encode, Json.sorted,
    Json.sorted, Json.obj.injEq] at h
  have hnodup (record : EvidenceRecord) : ((Json.sortedFields
      (record.slots.filterMap fun s => s.2.map (s.1, ·))).map Prod.fst).Nodup := by
    rw [Json.keys_sortedFields]
    exact record.slots_nodup.sublist (Struct.map_fst_filterMap_sublist _)
  have hlookup := (Assoc.sorted_eq_iff (hnodup r) (hnodup r')).mp h name
  rwa [Json.lookup_sortedFields, Json.lookup_sortedFields, r.lookup_encode, r'.lookup_encode]
    at hlookup

theorem sorted_str_inj {o o' : Option String}
    (h : (o.map Json.str).map Json.sorted = (o'.map Json.str).map Json.sorted) : o = o' := by
  cases o <;> cases o' <;> simp_all [Json.sorted]

/-- **The canonical document of a record tells the record**, up to the order of members. -/
theorem EvidenceRecord.same_of_sorted (h : r.encode.sorted = r'.encode.sorted) : r.Same r' := by
  have hslot := EvidenceRecord.slot_eq h
  have hstr {s s' : String} (heq : (some (Json.str s)).map Json.sorted =
      (some (Json.str s')).map Json.sorted) : s = s' := by
    simpa [Json.sorted] using heq
  have hkind : r.kind = r'.kind := hstr (hslot "kind")
  have hrequest : r.fields.requestId = r'.fields.requestId := hstr (hslot "request_id")
  have hchangeset : r.fields.changesetId = r'.fields.changesetId := hstr (hslot "changeset_id")
  have hdevice : r.fields.deviceId = r'.fields.deviceId := hstr (hslot "device_id")
  have hprincipal : r.fields.principal = r'.fields.principal := hstr (hslot "principal")
  have hdiff : r.fields.diffHash = r'.fields.diffHash := hstr (hslot "diff_hash")
  have htimestamp : r.fields.timestamp = r'.fields.timestamp := hstr (hslot "timestamp")
  have hrun : r.fields.runId = r'.fields.runId := hstr (hslot "run_id")
  have hserver : r.fields.serverId = r'.fields.serverId := hstr (hslot "server_id")
  have hseq : r.fields.segmentSeq = r'.fields.segmentSeq := by
    have heq : (some (Json.ofUInt64 r.fields.segmentSeq)).map Json.sorted =
        (some (Json.ofUInt64 r'.fields.segmentSeq)).map Json.sorted := hslot "segment_seq"
    simpa [Json.ofUInt64, Json.sorted] using heq
  have hprev : r.fields.prevHash = r'.fields.prevHash := hstr (hslot "prev_hash")
  have hfields : r.fields = r'.fields := by
    cases hr : r.fields
    cases hr' : r'.fields
    simp_all
  have hmetadata : Option.Rel (fun v v' => v.tree.Same v'.tree) r.metadata r'.metadata := by
    have heq : (r.metadata.map Value.tree).map Json.sorted =
        (r'.metadata.map Value.tree).map Json.sorted := hslot "metadata"
    cases hr : r.metadata with
    | none =>
      cases hr' : r'.metadata with
      | none => exact .none
      | some v' => rw [hr, hr'] at heq; cases heq
    | some v =>
      cases hr' : r'.metadata with
      | none => rw [hr, hr'] at heq; cases heq
      | some v' =>
        rw [hr, hr'] at heq
        exact .some ((Json.same_iff _ _ v.unique v'.unique).mpr (Option.some.inj heq))
  have happrover : r.approver = r'.approver := sorted_str_inj (hslot "approver")
  have hdecision : r.decision = r'.decision := sorted_str_inj (hslot "decision")
  have houtcome : r.outcome = r'.outcome := sorted_str_inj (hslot "outcome")
  have herror : r.error = r'.error := sorted_str_inj (hslot "error")
  refine ⟨?_, hmetadata⟩
  cases r <;> cases r' <;>
    simp_all [EvidenceRecord.kind, EvidenceRecord.fields, EvidenceRecord.approver,
      EvidenceRecord.decision, EvidenceRecord.outcome, EvidenceRecord.error,
      EvidenceRecord.withMetadata]

/-! ### Histories -/

variable (P : Printer) (sha256 : List UInt8 → List UInt8)

/-- Segments closed one after the other, each new one starting from the last head hash. -/
inductive History : String → List ClosedSegment → String → Prop
  | nil (start : String) : History start [] start
  | cons {runId serverId start head : String} {segmentSeq : UInt64} {records : List EvidenceRecord}
      {hashes : List String} {seg : ChainSegment} {rest : List ClosedSegment}
      (happend : appendAll P sha256 (.new runId serverId segmentSeq start) records =
        .ok (hashes, seg))
      (hrest : History (close seg).headHash rest head) : History start (close seg :: rest) head

variable {P sha256}

theorem History.chain {start head : String} {segments : List ClosedSegment}
    (h : History P sha256 start segments head) :
    Chain (RecordStep P sha256) start (segments.flatMap ClosedSegment.records) head := by
  induction h with
  | nil => exact .nil
  | @cons runId serverId start head segmentSeq records hashes seg rest happend _ ih =>
    obtain ⟨stored, hchain, hseg⟩ := appendAll_chain happend
    have hrecords : (close seg).records = stored := by
      rw [hseg]
      rfl
    rw [flatMap_cons, hrecords]
    exact hchain.append ih

theorem digestOf_sorted (hsha : Function.Injective sha256) {v v' : Value} {digest : String}
    (h : digestOf P sha256 v = .ok digest) (h' : digestOf P sha256 v' = .ok digest) :
    v.tree.sorted = v'.tree.sorted := by
  rw [digestOf, canonicalJson_eq] at h h'
  split_ifs at h with hnesting
  · split_ifs at h' with hnesting'
    · have htext := (Except.ok.inj h).trans (Except.ok.inj h').symm
      have hhex : bytesHex _ = bytesHex _ := String.append_right_inj _ |>.mp htext
      exact Printer.render_injective (hsha (bytesHex_injective hhex))
    · cases h'
  · cases h

theorem digestOf_ne_empty {v : Value} : digestOf P sha256 v ≠ .ok "" := by
  intro h
  rw [digestOf] at h
  cases htext : canonicalJson P v with
  | error => rw [htext] at h; cases h
  | ok text =>
    rw [htext] at h
    have hlength := congrArg String.length (Except.ok.inj h)
    rw [String.length_append] at hlength
    exact absurd hlength (by simp)

/-- **The chain head binds the whole history.**  Two histories from the empty hash, cut into segments
in any way, with the same last head hash have the same records. -/
theorem chain_head_binds_history (hsha : Function.Injective sha256)
    {segments segments' : List ClosedSegment} {head : String}
    (h : History P sha256 "" segments head) (h' : History P sha256 "" segments' head) :
    List.Forall₂ EvidenceRecord.Same (segments.flatMap ClosedSegment.records)
      (segments'.flatMap ClosedSegment.records) := by
  refine Chain.forall₂_of_head ?_ ?_ h.chain h'.chain
  · rintro p p' r r' q ⟨rfl, hhash⟩ ⟨rfl, hhash'⟩
    have hsorted : r.encode.sorted = r'.encode.sorted := digestOf_sorted hsha hhash hhash'
    have hsame := EvidenceRecord.same_of_sorted hsorted
    have hfields (r : EvidenceRecord) : (r.withMetadata none).fields = r.fields := by
      cases r <;> rfl
    refine ⟨?_, hsame⟩
    rw [← hfields r, hsame.1, hfields r']
  · rintro p r ⟨-, hhash⟩
    exact digestOf_ne_empty hhash

/-- A proposal as it comes in, without envelope fields. -/
def sampleProposal : EvidenceRecord :=
  .proposal ⟨"req-1", "cs-1", "edge-1", "alice", "sha256:0", "2026-01-01T00:00:00Z", "", "", 0, ""⟩
    none

/-- An approval of it, with metadata. -/
def sampleApproval : EvidenceRecord :=
  .approval ⟨"req-2", "cs-1", "edge-1", "bob", "sha256:0", "2026-01-01T00:01:00Z", "", "", 0, ""⟩
    "bob" "approved" (some ⟨.obj [("ticket", .str "CHG-1")], by decide⟩)

theorem sampleApproval_nesting :
    ∀ m ∈ sampleApproval.metadata, m.tree.nesting < maxCanonicalDepth := by
  rintro m ⟨⟩
  decide

/-- Two records in two segments, with and without an empty segment between them. -/
theorem two_cuts_of_history_bound : ∃ segments segments' head,
    History samplePrinter id "" segments head ∧ History samplePrinter id "" segments' head ∧
      segments.length = 2 ∧ segments'.length = 3 ∧
      (segments.flatMap ClosedSegment.records).length = 2 ∧
      List.Forall₂ EvidenceRecord.Same (segments.flatMap ClosedSegment.records)
        (segments'.flatMap ClosedSegment.records) := by
  obtain ⟨first, hfirst⟩ := @exists_append samplePrinter id (.new "run-1" "srv-a" 0 "")
    sampleProposal rfl rfl rfl rfl nofun
  obtain ⟨second, hsecond⟩ := @exists_append samplePrinter id (.new "run-1" "srv-a" 1 first)
    sampleApproval rfl rfl rfl rfl sampleApproval_nesting
  have hlater : History samplePrinter id first _ _ :=
    .cons (appendAll_cons hsecond (appendAll_nil _)) (.nil _)
  have hempty : History samplePrinter id first _ _ :=
    .cons (appendAll_nil (.new "run-1" "srv-a" 1 first)) hlater
  have hhistory := History.cons (appendAll_cons hfirst (appendAll_nil _)) hlater
  have hhistory' := History.cons (appendAll_cons hfirst (appendAll_nil _)) hempty
  exact ⟨_, _, _, hhistory, hhistory', rfl, rfl, rfl,
    chain_head_binds_history Function.injective_id hhistory hhistory'⟩

end Mecmcp.Audit
