import Mecmcp.Changeset.Validate

/-!
# Codec — records as JSON documents

The derived serde codecs of the persisted types: which members are written, which are left out,
which have a default, and that unknown members are refused where the type denies them.  Reading
back what was written gives the record again (`decodeState_encodeState`), and the floats of
vendor actions are the only place a document can change on its way through a file
(`mapFloat_encodeState`).
-/

namespace Mecmcp.Changeset

open List

open Struct

/-! ### Enumerations -/

def LifecycleState.ofStr : String → Option LifecycleState
  | "staging" => some .staging
  | "staged" => some .staged
  | "validating" => some .validating
  | "validated" => some .validated
  | "committing" => some .committing
  | "committed" => some .committed
  | "discarded" => some .discarded
  | "failed" => some .failed
  | "indeterminate" => some .indeterminate
  | _ => none

def ChangeSetState.ofStr : String → Option ChangeSetState
  | "planned" => some .planned
  | "approved" => some .approved
  | "applying" => some .applying
  | "applied" => some .applied
  | "expired" => some .expired
  | "failed" => some .failed
  | "cancelled" => some .cancelled
  | _ => none

def WaiverKind.ofStr : String → Option WaiverKind
  | "lab_mode" => some .labMode
  | "operator_file" => some .operatorFile
  | "operator_tool" => some .operatorTool
  | _ => none

@[simp] theorem LifecycleState.ofStr_asStr (s : LifecycleState) : ofStr s.asStr = some s := by
  cases s <;> rfl

@[simp] theorem ChangeSetState.ofStr_asStr (s : ChangeSetState) : ofStr s.asStr = some s := by
  cases s <;> rfl

@[simp] theorem WaiverKind.ofStr_asStr (k : WaiverKind) : ofStr k.asStr = some k := by
  cases k <;> rfl

/-! ### Attribution -/

/-- `PersistedPrincipal` is adjacently tagged: `type` and `value`. -/
def encodePrincipal : PersistedPrincipal → Json
  | .token name => encode [("type", some (.str "token")), ("value", some (.str name))]
  | .unauthenticated => encode [("type", some (.str "unauthenticated")), ("value", none)]

def decodePrincipal (j : Json) : Option PersistedPrincipal := do
  let get ← fields ["type", "value"] false j
  let tag ← req get "type" Json.asStr
  if tag = "token" then (req get "value" Json.asStr).map .token
  else if tag = "unauthenticated" then some .unauthenticated
  else none

def encodeAgent (agent : PersistedAgentIdentity) : Json :=
  encode [("model_id", some (.str agent.modelId)), ("provider", some (.str agent.provider)),
    ("provider_tier", some (.str agent.providerTier)), ("skills_used", some (.str agent.skillsUsed))]

def decodeAgent (j : Json) : Option PersistedAgentIdentity := do
  let get ← fields ["model_id", "provider", "provider_tier", "skills_used"] false j
  let modelId ← req get "model_id" Json.asStr
  let provider ← req get "provider" Json.asStr
  let providerTier ← req get "provider_tier" Json.asStr
  let skillsUsed ← req get "skills_used" Json.asStr
  return { modelId, provider, providerTier, skillsUsed }

def encodeAttribution (a : PersistedAttribution) : Json :=
  encode [("principal", some (encodePrincipal a.principal)), ("actor_type", some (.str a.actorType)),
    ("on_behalf_of", a.onBehalfOf.map .str), ("change_ref", a.changeRef.map .str),
    ("request_id", some (.str a.requestId)), ("agent", a.agent.map encodeAgent)]

def decodeAttribution (j : Json) : Option PersistedAttribution := do
  let get ← fields ["principal", "actor_type", "on_behalf_of", "change_ref", "request_id", "agent"]
    false j
  let principal ← req get "principal" decodePrincipal
  let actorType ← req get "actor_type" Json.asStr
  let onBehalfOf ← opt get "on_behalf_of" Json.asStr
  let changeRef ← opt get "change_ref" Json.asStr
  let requestId ← req get "request_id" Json.asStr
  let agent ← opt get "agent" decodeAgent
  return { principal, actorType, onBehalfOf, changeRef, requestId, agent }

/-! ### Operation records -/

def encodeOperation (r : OperationRecord) : Json :=
  encode [("id", some (.str r.id)), ("owner", some (.str r.owner)),
    ("device", some (.str r.device)), ("endpoint", some (.str r.endpoint)),
    ("action", some r.action.tree), ("xpath", r.xpath.map .str),
    ("actions", some (.ofList Value.tree r.actions)),
    ("change_set_id", some (optStr r.changeSetId)), ("current", some (.str r.current)),
    ("state", some (.str r.state.asStr)), ("job_id", some (optStr r.jobId)),
    ("details", some (optStr r.details)), ("config_lock_held", some (.bool r.configLockHeld)),
    ("policy_signature", some (.str r.policySignature)),
    ("attribution", r.attribution.map encodeAttribution),
    ("rollback_deadline_unix", r.rollbackDeadlineUnix.map .ofUInt64),
    ("config_authority", r.configAuthority.map .str)]

def decodeOperation (j : Json) : Option OperationRecord := do
  let get ← fields ["id", "owner", "device", "endpoint", "action", "xpath", "actions",
    "change_set_id", "current", "state", "job_id", "details", "config_lock_held",
    "policy_signature", "attribution", "rollback_deadline_unix", "config_authority"] true j
  let id ← req get "id" Json.asStr
  let owner ← req get "owner" Json.asStr
  let device ← req get "device" Json.asStr
  let endpoint ← req get "endpoint" Json.asStr
  let action ← req get "action" (some <| Value.ofJson ·)
  let xpath ← opt get "xpath" Json.asStr
  let actions ← dflt get "actions" [] (Json.asList (some <| Value.ofJson ·))
  let changeSetId ← opt get "change_set_id" Json.asStr
  let current ← req get "current" Json.asStr
  let state ← req get "state" (Json.asStr · >>= LifecycleState.ofStr)
  let jobId ← opt get "job_id" Json.asStr
  let details ← opt get "details" Json.asStr
  let configLockHeld ← req get "config_lock_held" Json.asBool
  let policySignature ← req get "policy_signature" Json.asStr
  let attribution ← opt get "attribution" decodeAttribution
  let rollbackDeadlineUnix ← opt get "rollback_deadline_unix" Json.asUInt64
  let configAuthority ← opt get "config_authority" Json.asStr
  return { id, owner, device, endpoint, action, xpath, actions, changeSetId, current, state, jobId,
           details, configLockHeld, policySignature, attribution, rollbackDeadlineUnix,
           configAuthority }

/-! ### Change-set records -/

def encodeWaiver (w : WaiverRecord) : Json :=
  encode [("kind", some (.str w.kind.asStr)), ("reason", some (.str w.reason)),
    ("expires_at_unix", w.expiresAtUnix.map .ofUInt64), ("ticket", w.ticket.map .str)]

def decodeWaiver (j : Json) : Option WaiverRecord := do
  let get ← fields ["kind", "reason", "expires_at_unix", "ticket"] true j
  let kind ← dflt get "kind" .labMode (Json.asStr · >>= WaiverKind.ofStr)
  let reason ← req get "reason" Json.asStr
  let expiresAtUnix ← opt get "expires_at_unix" Json.asUInt64
  let ticket ← opt get "ticket" Json.asStr
  return { kind, reason, expiresAtUnix, ticket }

/-- The digest version is written unless it is 4, the default. -/
def encodeApproval (a : ApprovalRecord) : Json :=
  encode [("approver", a.approver.map .str), ("approved_at_unix", some (.ofUInt64 a.approvedAtUnix)),
    ("digest", some (.str a.digest)),
    ("digest_version", if a.digestVersion = 4 then none else some (.ofUInt8 a.digestVersion)),
    ("waived", a.waived.map encodeWaiver)]

def decodeApproval (j : Json) : Option ApprovalRecord := do
  let get ← fields ["approver", "approved_at_unix", "digest", "digest_version", "waived"] true j
  let approver ← opt get "approver" Json.asStr
  let approvedAtUnix ← req get "approved_at_unix" Json.asUInt64
  let digest ← req get "digest" Json.asStr
  let digestVersion ← dflt get "digest_version" 4 Json.asUInt8
  let waived ← opt get "waived" decodeWaiver
  return { approver, approvedAtUnix, digest, digestVersion, waived }

def encodePreview (p : PreviewRecord) : Json :=
  encode [("artifact", some (.str p.artifact)), ("digest", some (.str p.digest)),
    ("job_id", p.jobId.map .str)]

def decodePreview (j : Json) : Option PreviewRecord := do
  let get ← fields ["artifact", "digest", "job_id"] true j
  let artifact ← req get "artifact" Json.asStr
  let digest ← req get "digest" Json.asStr
  let jobId ← opt get "job_id" Json.asStr
  return { artifact, digest, jobId }

def encodeChangeSet (r : ChangeSetRecord) : Json :=
  encode [("id", some (.str r.id)), ("owner", some (.str r.owner)),
    ("device", some (.str r.device)),
    ("expected_candidate_fingerprint", some (.str r.expectedCandidateFingerprint)),
    ("actions", some (.ofList Value.tree r.actions)), ("digest", some (.str r.digest)),
    ("state", some (.str r.state.asStr)), ("approver", r.approver.map .str),
    ("approval", r.approval.map encodeApproval),
    ("expires_at_unix", some (.ofUInt64 r.expiresAtUnix)),
    ("operation_id", some (optStr r.operationId)),
    ("policy_signature", if r.policySignature = "" then none else some (.str r.policySignature)),
    ("targets", if r.targets = [] then none else some (.ofList .str r.targets)),
    ("preview", r.preview.map encodePreview), ("task_id", r.taskId.map .str),
    ("apply_without_handle", if r.applyWithoutHandle then some (.bool true) else none)]

def decodeChangeSet (j : Json) : Option ChangeSetRecord := do
  let get ← fields ["id", "owner", "device", "expected_candidate_fingerprint", "actions", "digest",
    "state", "approver", "approval", "expires_at_unix", "operation_id", "policy_signature",
    "targets", "preview", "task_id", "apply_without_handle"] true j
  let id ← req get "id" Json.asStr
  let owner ← req get "owner" Json.asStr
  let device ← req get "device" Json.asStr
  let expectedCandidateFingerprint ← req get "expected_candidate_fingerprint" Json.asStr
  let actions ← req get "actions" (Json.asList (some <| Value.ofJson ·))
  let digest ← req get "digest" Json.asStr
  let state ← req get "state" (Json.asStr · >>= ChangeSetState.ofStr)
  let approver ← opt get "approver" Json.asStr
  let approval ← opt get "approval" decodeApproval
  let expiresAtUnix ← req get "expires_at_unix" Json.asUInt64
  let operationId ← opt get "operation_id" Json.asStr
  let policySignature ← dflt get "policy_signature" "" Json.asStr
  let targets ← dflt get "targets" [] (Json.asList Json.asStr)
  let preview ← opt get "preview" decodePreview
  let taskId ← opt get "task_id" Json.asStr
  let applyWithoutHandle ← dflt get "apply_without_handle" false Json.asBool
  return { id, owner, device, expectedCandidateFingerprint, actions, digest, state, approver,
           approval, expiresAtUnix, operationId, policySignature, targets, preview, taskId,
           applyWithoutHandle }

/-! ### Round trips -/

@[simp] theorem optional_optStr (o : Option String) :
    optional Json.asStr (some (optStr o)) = some o := by
  cases o <;> rfl

theorem asList_value (vs : List Value) :
    Json.asList (some <| Value.ofJson ·) (.ofList Value.tree vs) = some vs :=
  Json.asList_ofList (fun v => by simp) vs

@[simp] theorem decodePrincipal_encodePrincipal (p : PersistedPrincipal) :
    decodePrincipal (encodePrincipal p) = some p := by
  cases p with
  | token | unauthenticated =>
    rw [decodePrincipal, encodePrincipal, fields_encode (by rfl) (by decide)]
    simp [req, List.lookup]

@[simp] theorem decodeAgent_encodeAgent (a : PersistedAgentIdentity) :
    decodeAgent (encodeAgent a) = some a := by
  rw [decodeAgent, encodeAgent, fields_encode (by rfl) (by decide)]
  simp [req, List.lookup]

@[simp] theorem decodeAttribution_encodeAttribution (a : PersistedAttribution) :
    decodeAttribution (encodeAttribution a) = some a := by
  rw [decodeAttribution, encodeAttribution, fields_encode (by rfl) (by decide)]
  simp [req, opt, List.lookup, optional_map decodeAgent_encodeAgent (fun _ => encode_ne_null _)]

theorem decodeOperation_encodeOperation (r : OperationRecord) :
    decodeOperation (encodeOperation r) = some r := by
  rw [decodeOperation, encodeOperation, fields_encode (by rfl) (by decide), Option.bind_eq_bind,
    Option.bind_some]
  -- every member looked up is the one written
  simp only [req, opt, dflt, List.lookup, String.reduceBEq, Option.join_some]
  simp [defaulted, asList_value,
    optional_map decodeAttribution_encodeAttribution (fun _ => encode_ne_null _)]

@[simp] theorem decodeWaiver_encodeWaiver (w : WaiverRecord) :
    decodeWaiver (encodeWaiver w) = some w := by
  rw [decodeWaiver, encodeWaiver, fields_encode (by rfl) (by decide)]
  simp [req, opt, dflt, defaulted, List.lookup]

@[simp] theorem decodeApproval_encodeApproval (a : ApprovalRecord) :
    decodeApproval (encodeApproval a) = some a := by
  rw [decodeApproval, encodeApproval, fields_encode (by rfl) (by decide)]
  simp [req, opt, dflt, List.lookup, defaulted_ite (Json.asUInt8_ofUInt8 _),
    optional_map decodeWaiver_encodeWaiver (fun _ => encode_ne_null _)]

@[simp] theorem decodePreview_encodePreview (p : PreviewRecord) :
    decodePreview (encodePreview p) = some p := by
  rw [decodePreview, encodePreview, fields_encode (by rfl) (by decide)]
  simp [req, opt, List.lookup]

theorem decodeChangeSet_encodeChangeSet (r : ChangeSetRecord) :
    decodeChangeSet (encodeChangeSet r) = some r := by
  have hhandle : defaulted false Json.asBool
      (if r.applyWithoutHandle then some (.bool true) else none) = some r.applyWithoutHandle := by
    cases r.applyWithoutHandle <;> rfl
  rw [decodeChangeSet, encodeChangeSet, fields_encode (by rfl) (by decide), Option.bind_eq_bind,
    Option.bind_some]
  simp only [req, opt, dflt, List.lookup, String.reduceBEq, Option.join_some]
  simp [asList_value, hhandle, defaulted_ite (Json.asStr_str _),
    defaulted_ite (Json.asList_ofList Json.asStr_str _),
    optional_map decodeApproval_encodeApproval (fun _ => encode_ne_null _),
    optional_map decodePreview_encodePreview (fun _ => encode_ne_null _)]

/-! ### The state file -/

/-- A map as an object, in key order. -/
def encodeMap {α : Type} (enc : α → Json) (m : Std.ExtTreeMap String α) : Json :=
  .obj (m.toList.map fun entry => (entry.1, enc entry.2))

/-- An object as a map; of several members of one name the last counts. -/
def decodeMap {α : Type} (dec : Json → Option α) : Json → Option (Std.ExtTreeMap String α)
  | .obj fs => (fs.mapM fun f => (dec f.2).map (f.1, ·)).map fun entries =>
    (Std.ExtTreeMap.ofList entries : Std.ExtTreeMap String α)
  | _ => none

def encodeState (s : ChangesetState) : Json :=
  encode [("operations", some (encodeMap encodeOperation s.operations)),
    ("change_sets", some (encodeMap encodeChangeSet s.changeSets))]

def decodeState (j : Json) : Option ChangesetState := do
  let get ← fields ["operations", "change_sets"] true j
  let operations ← dflt get "operations" ∅ (decodeMap decodeOperation)
  let changeSets ← dflt get "change_sets" ∅ (decodeMap decodeChangeSet)
  return { operations, changeSets }

/-- `OnDiskChangesetState`. -/
structure OnDiskState where
  version : UInt32
  state : ChangesetState

def encodeOnDisk (d : OnDiskState) : Json :=
  encode [("version", some (.ofUInt32 d.version)), ("state", some (encodeState d.state))]

def decodeOnDisk (j : Json) : Option OnDiskState := do
  let get ← fields ["version", "state"] true j
  let version ← req get "version" Json.asUInt32
  let state ← req get "state" decodeState
  return { version, state }

variable {α : Type}

theorem ofList_toList (m : Std.ExtTreeMap String α) :
    (Std.ExtTreeMap.ofList m.toList : Std.ExtTreeMap String α) = m := by
  refine Std.ExtTreeMap.ext_getElem? fun k => ?_
  cases h : m[k]? with
  | some v =>
    have hmem := Std.ExtTreeMap.mem_toList_iff_getElem?_eq_some.mpr h
    exact Std.ExtTreeMap.getElem?_ofList_of_mem (by simp) Std.ExtTreeMap.distinct_keys_toList hmem
  | none =>
    refine Std.ExtTreeMap.getElem?_ofList_of_contains_eq_false ?_
    by_contra hc
    simp only [Bool.not_eq_false, contains_iff_mem, mem_map] at hc
    obtain ⟨⟨k', v⟩, hmem, rfl⟩ := hc
    rw [Std.ExtTreeMap.mem_toList_iff_getElem?_eq_some, h] at hmem
    cases hmem

variable {enc : α → Json}

theorem decodeMap_encodeMap {dec : Json → Option α}
    (h : ∀ a, dec (enc a) = some a) (m : Std.ExtTreeMap String α) :
    decodeMap dec (encodeMap enc m) = some m := by
  have hmap : ∀ l : List (String × α),
      (l.map fun e => (e.1, enc e.2)).mapM (fun f => (dec f.2).map (f.1, ·)) = some l := by
    intro l
    induction l with
    | nil => rfl
    | cons e l ih => simp [mapM_cons, ih, h]
  rw [encodeMap, decodeMap, hmap]
  simp [ofList_toList]

theorem decodeState_encodeState (s : ChangesetState) : decodeState (encodeState s) = some s := by
  have hops := decodeMap_encodeMap decodeOperation_encodeOperation s.operations
  have hcs := decodeMap_encodeMap decodeChangeSet_encodeChangeSet s.changeSets
  rw [decodeState, encodeState, fields_encode (by rfl) (by decide)]
  simp [dflt, defaulted, List.lookup, hops, hcs]

/-- **Round trip of the state file's document.** -/
theorem decodeOnDisk_encodeOnDisk (d : OnDiskState) : decodeOnDisk (encodeOnDisk d) = some d := by
  rw [decodeOnDisk, encodeOnDisk, fields_encode (by rfl) (by decide)]
  simp [req, List.lookup, decodeState_encodeState]

/-! ### Floats on their way through a file -/

def OperationRecord.mapFloat (f : UInt64 → UInt64) (r : OperationRecord) : OperationRecord :=
  { r with action := r.action.mapFloat f, actions := r.actions.map (·.mapFloat f) }

def ChangeSetRecord.mapFloat (f : UInt64 → UInt64) (r : ChangeSetRecord) : ChangeSetRecord :=
  { r with actions := r.actions.map (·.mapFloat f) }

def ChangesetState.mapFloat (f : UInt64 → UInt64) (s : ChangesetState) : ChangesetState where
  operations := s.operations.map fun _ r => r.mapFloat f
  changeSets := s.changeSets.map fun _ r => r.mapFloat f

variable (f : UInt64 → UInt64)

@[simp] theorem mapFloat_ofUInt64 (n : UInt64) : (Json.ofUInt64 n).mapFloat f = .ofUInt64 n := rfl
@[simp] theorem mapFloat_ofUInt8 (n : UInt8) : (Json.ofUInt8 n).mapFloat f = .ofUInt8 n := rfl
@[simp] theorem mapFloat_ofUInt32 (n : UInt32) : (Json.ofUInt32 n).mapFloat f = .ofUInt32 n := rfl

@[simp] theorem mapFloat_optStr (o : Option String) : (optStr o).mapFloat f = optStr o := by
  cases o <;> rfl

@[simp] theorem mapFloat_values (vs : List Value) :
    (Json.ofList Value.tree vs).mapFloat f = .ofList Value.tree (vs.map (·.mapFloat f)) := by
  simp [Json.ofList, Value.mapFloat]

@[simp] theorem mapFloat_encodePrincipal (p : PersistedPrincipal) :
    (encodePrincipal p).mapFloat f = encodePrincipal p := by
  cases p <;> simp [encodePrincipal]

@[simp] theorem mapFloat_encodeAgent (a : PersistedAgentIdentity) :
    (encodeAgent a).mapFloat f = encodeAgent a := by
  simp [encodeAgent]

@[simp] theorem mapFloat_encodeAttribution (a : PersistedAttribution) :
    (encodeAttribution a).mapFloat f = encodeAttribution a := by
  simp [encodeAttribution, Function.comp_def]

@[simp] theorem mapFloat_encodeWaiver (w : WaiverRecord) :
    (encodeWaiver w).mapFloat f = encodeWaiver w := by
  simp [encodeWaiver, Function.comp_def]

@[simp] theorem mapFloat_encodeApproval (a : ApprovalRecord) :
    (encodeApproval a).mapFloat f = encodeApproval a := by
  simp [encodeApproval, apply_ite (Option.map (Json.mapFloat f)), Function.comp_def]

@[simp] theorem mapFloat_encodePreview (p : PreviewRecord) :
    (encodePreview p).mapFloat f = encodePreview p := by
  simp [encodePreview, Function.comp_def]

theorem mapFloat_encodeOperation (r : OperationRecord) :
    (encodeOperation r).mapFloat f = encodeOperation (r.mapFloat f) := by
  simp [encodeOperation, Function.comp_def, OperationRecord.mapFloat, Value.mapFloat]

theorem mapFloat_encodeChangeSet (r : ChangeSetRecord) :
    (encodeChangeSet r).mapFloat f = encodeChangeSet (r.mapFloat f) := by
  have htargets : (Json.ofList .str r.targets).mapFloat f = .ofList .str r.targets := by
    simp [Json.ofList, Function.comp_def]
  simp [encodeChangeSet, apply_ite (Option.map (Json.mapFloat f)), Function.comp_def, htargets,
    ChangeSetRecord.mapFloat]
  rfl

theorem mapFloat_encodeMap {g : α → α}
    (h : ∀ a, (enc a).mapFloat f = enc (g a)) (m : Std.ExtTreeMap String α) :
    (encodeMap enc m).mapFloat f = encodeMap enc (m.map fun _ a => g a) := by
  simp [encodeMap, h, Std.ExtTreeMap.toList_map, Function.comp_def]

/-- **Only floats change**: the document with its floats replaced is the document of the store
with the floats of its actions replaced. -/
theorem mapFloat_encodeOnDisk (d : OnDiskState) :
    (encodeOnDisk d).mapFloat f = encodeOnDisk { d with state := d.state.mapFloat f } := by
  simp [encodeOnDisk, encodeState, ChangesetState.mapFloat,
    mapFloat_encodeMap f (mapFloat_encodeOperation f),
    mapFloat_encodeMap f (mapFloat_encodeChangeSet f)]

end Mecmcp.Changeset
