import Mecmcp.Changeset.Conduct

/-!
# ConductMethods — the methods on change sets keep their conduct

The programs of `changeset.rs` walked through, call by call.
-/

namespace Mecmcp.Changeset

open List

variable {V : Vendor} {C : Crates} {self : Config} {request : Request V}
variable {device owner expectedDigest changeSetId : String} {record : ChangeSetRecord}
  {h : History V} {waiver : WaiverRecord}

/-- The methods on change sets are held to nothing when they end. -/
abbrev Ended {α : Type} : Except CoordinatorError α → History V → Prop := fun _ _ => True

theorem createChangeSet_keeps {actions : List V.Action}
    {expectedFingerprint policySignature : String} :
    (createChangeSet C self device actions owner expectedFingerprint policySignature).Keeps
      (conduct C self (.createChangeSet device actions owner expectedFingerprint policySignature))
      [] Ended := by
  refine keeps_check (fun hfingerprint => ?_) fun _ => trivial
  refine keeps_check (fun hactions => ?_) fun _ => trivial
  refine keeps_ask trivial ?_ fun _ _ _ => trivial
  rintro _ now - rfl
  refine keeps_ask trivial ?_ fun _ _ _ => trivial
  rintro _ id - rfl
  refine keeps_ofExcept (fun values hvalues => ?_) fun _ => trivial
  refine keeps_ask (.inr ⟨device, actions, owner, expectedFingerprint, policySignature, now, id,
    values, _, rfl, ?_, ?_, ?_, ?_, ?_, hvalues, rfl⟩) ?_ fun _ _ _ => trivial
  · simp [History.Now]
  · simp [History.Drawn]
  · simp [Answered.insertsChangeSet]
  · simpa using hfingerprint
  · simpa using hactions
  · rintro _ _ - rfl
    exact keeps_report (fun _ => trivial) trivial

/-! ### Approving -/

theorem openForApproval_keeps (hread : h.Read record) :
    (openForApproval record expectedDigest).Keeps (conduct C self request) h fun result h' =>
      ∀ now, result = .ok now → record.state = .planned ∧ now < record.expiresAtUnix ∧
        h' = ⟨.nowUnix, .ok now⟩ :: h := by
  refine keeps_check (fun hplanned => ?_) (by nofun)
  refine keeps_ask trivial ?_ (by nofun)
  rintro _ now - rfl
  rw [Prog.keeps_ite]
  refine ⟨fun _ => ?_, fun hopen => ?_⟩
  · obtain ⟨id, device, hmem⟩ := hread
    have hwrite : Justified C self request (⟨.nowUnix, .ok now⟩ :: h)
        (.updateChangeSetFrom record.state { record with state := .expired }) :=
      .inr ⟨record, ⟨id, device, mem_cons_of_mem _ hmem⟩, rfl, .retired .expired (.inl rfl)⟩
    refine keeps_ask hwrite ?_ (by nofun)
    rintro _ _ - rfl
    nofun
  · refine keeps_check (fun _ => ?_) (by nofun)
    rintro _ heq
    obtain rfl := Except.ok.inj heq
    exact ⟨by simpa using hplanned, UInt64.not_le.mp hopen, rfl⟩

theorem approveChangeSet_keeps {approver : String} {approverActorType : ActorType} :
    (approveChangeSet (V := V) C self changeSetId device approver expectedDigest
      approverActorType).Keeps
      (conduct C self (.approveChangeSet changeSetId device approver expectedDigest
        approverActorType)) [] Ended := by
  refine keeps_check (fun _ => ?_) fun _ => trivial
  refine keeps_ask trivial ?_ fun _ _ _ => trivial
  rintro _ record hrecord rfl
  obtain ⟨rfl, -⟩ := hrecord record rfl
  refine keeps_check (fun hother => ?_) fun _ => trivial
  refine keeps_check (fun hhuman => ?_) fun _ => trivial
  obtain rfl : approverActorType = .human := by simpa using hhuman
  refine keeps_then (openForApproval_keeps ⟨record.id, device, mem_cons_self ..⟩) ?_
    fun _ _ _ => trivial
  intro now h' hopen
  obtain ⟨hplanned, hexpires, rfl⟩ := hopen now rfl
  refine keeps_check (fun howner => ?_) fun _ => trivial
  refine keeps_check (fun happrover => ?_) fun _ => trivial
  refine keeps_check (fun hpreview => ?_) fun _ => trivial
  refine keeps_ask (.inr ⟨record, ⟨record.id, device, by simp⟩, rfl, .approved device approver
    expectedDigest now rfl hplanned (mem_cons_self ..) hexpires (by simpa using hother)
    (by simpa using howner) (by simpa using happrover) (by simpa using hpreview)⟩) ?_
    fun _ _ _ => trivial
  rintro _ _ - rfl
  exact keeps_report (fun _ => trivial) trivial

theorem grantWaiver_keeps {now : UInt64} (hread : h.Read record) (hnow : h.Now now)
    (hplanned : record.state = .planned)
    (hopen : now < record.expiresAtUnix) (hexpiry : waiver.expiresAtUnix.any (· ≤ now) = false) :
    (grantWaiver C self record.id record waiver now).Keeps (conduct C self request) h Ended := by
  refine keeps_ask (.inr ⟨record, hread, rfl, .waived waiver now hplanned hnow hopen hexpiry⟩) ?_
    fun _ _ _ => trivial
  rintro _ _ - rfl
  exact keeps_report (fun _ => trivial) trivial

theorem waiveApproval_keeps :
    (waiveApproval (V := V) C self changeSetId device owner expectedDigest).Keeps
      (conduct C self request) [] Ended := by
  refine keeps_check (fun _ => ?_) fun _ => trivial
  refine keeps_check (fun _ => ?_) fun _ => trivial
  refine keeps_ask trivial ?_ fun _ _ _ => trivial
  rintro _ record hrecord rfl
  obtain ⟨rfl, -⟩ := hrecord record rfl
  refine keeps_check (fun _ => ?_) fun _ => trivial
  refine keeps_then (openForApproval_keeps ⟨record.id, device, mem_cons_self ..⟩) ?_
    fun _ _ _ => trivial
  intro now h' hopen
  obtain ⟨hplanned, hexpires, rfl⟩ := hopen now rfl
  exact grantWaiver_keeps ⟨record.id, device, by simp⟩ (mem_cons_self ..) hplanned hexpires rfl

theorem waiveApprovalOperator_keeps :
    (waiveApprovalOperator (V := V) C self changeSetId device owner expectedDigest waiver).Keeps
      (conduct C self request) [] Ended := by
  refine keeps_check (fun _ => ?_) fun _ => trivial
  refine keeps_check (fun _ => ?_) fun _ => trivial
  refine keeps_ask trivial ?_ fun _ _ _ => trivial
  rintro _ record hrecord rfl
  obtain ⟨rfl, -⟩ := hrecord record rfl
  refine keeps_check (fun _ => ?_) fun _ => trivial
  refine keeps_then (openForApproval_keeps ⟨record.id, device, mem_cons_self ..⟩) ?_
    fun _ _ _ => trivial
  intro now h' hopen
  obtain ⟨hplanned, hexpires, rfl⟩ := hopen now rfl
  refine keeps_check (fun hexpiry => ?_) fun _ => trivial
  exact grantWaiver_keeps ⟨record.id, device, by simp⟩ (mem_cons_self ..) hplanned hexpires
    (Bool.eq_false_iff.mpr (refuseIf_ok.mp hexpiry))

/-! ### Reading and cancelling -/

theorem retireIfDeadlinePassed_keeps (hread : h.Read record) :
    (retireIfDeadlinePassed record).Keeps (conduct C self request) h Ended := by
  obtain ⟨id, device, hmem⟩ := hread
  refine keeps_ask trivial ?_ fun _ _ _ => trivial
  rintro _ now - rfl
  rw [Prog.keeps_ite]
  refine ⟨fun _ => ?_, fun _ => trivial⟩
  refine keeps_ask (.inr ⟨record, ⟨id, device, mem_cons_of_mem _ hmem⟩, rfl,
    .retired .expired (.inl rfl)⟩) ?_ fun _ _ _ => trivial
  rintro _ _ - rfl
  trivial

theorem changeSetStatus_keeps :
    (changeSetStatus (V := V) changeSetId device).Keeps (conduct C self request) [] Ended := by
  refine keeps_ask trivial ?_ fun _ _ _ => trivial
  rintro _ record - rfl
  exact keeps_then (retireIfDeadlinePassed_keeps ⟨changeSetId, device, mem_cons_self ..⟩)
    (fun _ _ _ => trivial) fun _ _ _ => trivial

theorem changeSetStatusWithActions_keeps :
    (changeSetStatusWithActions (V := V) changeSetId device).Keeps (conduct C self request) []
      Ended := by
  refine keeps_ask trivial ?_ fun _ _ _ => trivial
  rintro _ record - rfl
  exact keeps_then (retireIfDeadlinePassed_keeps ⟨changeSetId, device, mem_cons_self ..⟩)
    (fun _ _ _ => trivial) fun _ _ _ => trivial

theorem cancelChangeSet_keeps {principal : String} :
    (cancelChangeSet (V := V) changeSetId device principal).Keeps (conduct C self request) []
      Ended := by
  refine keeps_ask trivial ?_ fun _ _ _ => trivial
  rintro _ record - rfl
  rw [Prog.keeps_ite]
  refine ⟨fun _ => trivial, fun _ => ?_⟩
  refine keeps_check (fun _ => ?_) fun _ => trivial
  refine keeps_check (fun _ => ?_) fun _ => trivial
  refine keeps_ask (.inr ⟨record, ⟨changeSetId, device, mem_cons_self ..⟩, rfl,
    .retired .cancelled (.inr rfl)⟩) ?_ fun _ _ _ => trivial
  rintro _ _ - rfl
  trivial

end Mecmcp.Changeset
