import Mecmcp.Changeset.Provenance

/-!
# OperatorWaiver — applying under an operator's waiver

`waive_approval_operator` records an exception under a control that is on; it does not ask for lab
mode.  `apply_change_set` looks at the waiver again when it is used, and there lab mode decides.
-/

namespace Mecmcp.Changeset

open List

variable {C : Crates} {V : Vendor} {path : Option String} {w : World C V}
  {ok : World C V → Action V → Prop} {changeSetId : String} {record : ChangeSetRecord}
  {waiver : WaiverRecord}

/-- A call of `waive_approval_operator` moved the change set to `Approved`, and it still has the
approval it got there. -/
def WaivedByOperator (trace : List (Entry V)) (record : ChangeSetRecord) : Prop :=
  record.state = .approved ∧ ∃ granted : ChangeSetRecord, granted.state = .approved ∧
    granted.id = record.id ∧ granted.approval = record.approval ∧
    ∃ t changeSetId device owner expectedDigest waiver clock,
      ⟨some (t, .waiveApprovalOperator changeSetId device owner expectedDigest waiver), clock,
        .store (.granted granted)⟩ ∈ trace

/-- The approval is a waiver, and names nobody. -/
def ChangeSetRecord.WaivedOnly (record : ChangeSetRecord) : Prop :=
  ∃ approval, record.approval = some approval ∧ approval.approver = none ∧
    approval.waived.isSome = true

/-! ### The gate -/

theorem approvalGate_waivedOnly {record : ChangeSetRecord} (h : record.WaivedOnly)
    (labMode : Bool) : approvalGate labMode record = .ok () ↔ labMode = true := by
  obtain ⟨approval, happroval, happrover, hwaived⟩ := h
  obtain ⟨waiver, hwaiver⟩ := Option.isSome_iff_exists.mp hwaived
  unfold approvalGate
  rw [happroval]
  simp [bind_unit_ok, refuseIf_ok, happrover, hwaiver]

/-- The arguments pass the checks `apply_change_set` makes before it reads the change set. -/
def ApplyArgs.Accepted (C : Crates) (args : ApplyArgs) : Prop :=
  checkExpectedDigest args.expectedDigest = .ok () ∧
    validateFingerprint args.expectedFingerprint = .ok () ∧
    ∃ endpoint, canonicalizeEndpoint C args.endpoint = .ok endpoint

variable {self : Config} {args : ApplyArgs}

theorem applyChangeSet_unaccepted (h : ¬ args.Accepted C) :
    ∃ error, (Request.applyChangeSet args : Request V).program C self = .fail error := by
  show ∃ error, (applyChangeSet C self args : Method V _).discard = .fail error
  unfold applyChangeSet
  rcases hdigest : checkExpectedDigest args.expectedDigest with error | _
  · exact ⟨error, rfl⟩
  rcases hfingerprint : validateFingerprint args.expectedFingerprint with error | _
  · exact ⟨_, rfl⟩
  rcases hendpoint : canonicalizeEndpoint C args.endpoint with error | endpoint
  · exact ⟨error, rfl⟩
  · exact absurd ⟨hdigest, hfingerprint, endpoint, hendpoint⟩ h

/-- The checks before the device guard, up to the approval gate: the change set and the clock are
read, and the gate decides whether the call goes on to read the clock again. -/
theorem checkPlan_to_gate {record : ChangeSetRecord}
    {now : UInt64} (howner : record.owner = args.owner) (happroved : record.state = .approved)
    (hlapsed : waiverLapsed record now = false) :
    ∃ next, (checkPlan self args : Method V Unit) =
        .call (.changeSet args.changeSetId args.device) next ∧
      ∃ next', next (.ok record) = .call .nowUnix next' ∧
      (∀ error, approvalGate self.labMode record = .error error →
        next' (.ok now) = .fail error) ∧
      (approvalGate self.labMode record = .ok () → ∃ next'', next' (.ok now) =
        .call .nowUnix next'') := by
  have hown : ∀ error : CoordinatorError, refuseIf (record.owner ≠ args.owner) error = .ok () :=
    fun error => refuseIf_ok.mpr (not_not.mpr howner)
  have hstate : ∀ error : CoordinatorError, refuseIf (record.state ≠ .approved) error = .ok () :=
    fun error => refuseIf_ok.mpr (not_not.mpr happroved)
  have hexpiry : waiverExpiryError record now "before device guard" = .ok () :=
    refuseIf_ok.mpr (by simp [hlapsed])
  refine ⟨_, rfl, ?_⟩
  change ∃ next', (Method.check (refuseIf (record.owner ≠ args.owner) _) >>= fun _ =>
    Method.check (refuseIf (record.state ≠ .approved) _) >>= fun _ => _) = _ ∧ _
  rw [hown, hstate]
  refine ⟨_, rfl, fun error hgate => ?_, fun hgate => ?_⟩
  · change (Method.check (waiverExpiryError record now _) >>= fun _ =>
      Method.check (approvalGate self.labMode record) >>= fun _ => _) = _
    rw [hexpiry, hgate]
    rfl
  · change ∃ next'', (Method.check (waiverExpiryError record now _) >>= fun _ =>
      Method.check (approvalGate self.labMode record) >>= fun _ => _) = _
    rw [hexpiry, hgate]
    exact ⟨_, rfl⟩

theorem applyChangeSet_to_gate {record : ChangeSetRecord}
    {now : UInt64} (hargs : args.Accepted C) (howner : record.owner = args.owner)
    (happroved : record.state = .approved) (hlapsed : waiverLapsed record now = false) :
    ∃ next, (Request.applyChangeSet args : Request V).program C self =
        .call (.changeSet args.changeSetId args.device) next ∧
      ∃ next', next (.ok record) = .call .nowUnix next' ∧
      (∀ error, approvalGate self.labMode record = .error error →
        next' (.ok now) = .fail error) ∧
      (approvalGate self.labMode record = .ok () → ∃ next'', next' (.ok now) =
        .call .nowUnix next'') := by
  obtain ⟨hdigest, hfingerprint, endpoint, hendpoint⟩ := hargs
  obtain ⟨next, hplan, next', hread, hrefused, hpassed⟩ :=
    @checkPlan_to_gate V self args record now howner happroved hlapsed
  show ∃ next, (applyChangeSet C self args : Method V _).discard = .call _ next ∧ _
  unfold applyChangeSet
  rw [hdigest, hfingerprint, hendpoint, hplan]
  refine ⟨_, rfl, ?_⟩
  change ∃ next', ((next (.ok record)).bind _).bind _ = _ ∧ _
  rw [hread]
  refine ⟨_, rfl, fun error hgate => ?_, fun hgate => ?_⟩
  · change ((next' (.ok now)).bind _).bind _ = _
    rw [hrefused error hgate]
    rfl
  · obtain ⟨next'', hnext⟩ := hpassed hgate
    change ∃ next'', ((next' (.ok now)).bind _).bind _ = _
    rw [hnext]
    exact ⟨_, rfl⟩

/-! ### Runs -/

theorem waivedOnly_normalise {now : UInt64} :
    (normaliseRecord (record.waivedBy C changeSetId waiver now)).WaivedOnly := by
  obtain ⟨taskId, applyWithoutHandle, heq⟩ :=
    normaliseRecord_eq (record.waivedBy C changeSetId waiver now)
  rw [heq]
  exact ⟨_, rfl, rfl, rfl⟩

theorem waivedOnly_granted {V : Vendor} {config : Config} {old : ChangesetState}
    {c : Call V} {events : List Event} {h : History V} {device owner expectedDigest : String}
    (hcase : EventCase C config old c events (.granted record)) (hjustified : Justified C config
      (.waiveApprovalOperator changeSetId device owner expectedDigest waiver) h c)
    (happroved : record.state = .approved) : record.WaivedOnly := by
  cases hcase with
  | granted next current hcall hcurrent hchecked =>
    rw [normaliseRecord_state] at happroved
    rcases hcall with rfl | rfl
    · rcases hjustified with hraw | ⟨⟨args, happly⟩, -⟩
      · cases hraw
      · cases happly
    · rcases hjustified with hraw | ⟨before, -, -, hwrite⟩
      · cases hraw
      · cases hwrite with
        | retired state hstate =>
          rcases hstate with rfl | rfl <;> cases happroved
        | approved _ _ _ _ hrequest => cases hrequest
        | waived => exact waivedOnly_normalise

namespace World

theorem reached_waivedOnly (hr : Reached path ok w) {record : ChangeSetRecord}
    (h : WaivedByOperator w.trace record) : record.WaivedOnly := by
  obtain ⟨-, granted, happroved, -, happroval, t, changeSetId, device, owner, expectedDigest, waiver,
    clock, hentry⟩ := h
  suffices hgranted : granted.WaivedOnly by
    obtain ⟨approval, hsome, hnames⟩ := hgranted
    exact ⟨approval, happroval ▸ hsome, hnames⟩
  refine reached_calls (P := fun w => ∀ entry ∈ w.trace, ∀ t waiver record,
    entry.source = some (t, .waiveApprovalOperator changeSetId device owner expectedDigest waiver) →
    entry.what = .store (.granted record) → record.state = .approved → record.WaivedOnly)
    ?_ ?_ ?_ hr _ hentry t waiver granted rfl rfl happroved
  · exact fun entry hmem => absurd hmem not_mem_nil
  · intro w self t choice request c next answer mid events hc hall _ _ entry hmem t' waiver record
      hsource hwhat happroved
    rcases mem_cons.mp hmem with rfl | hmem
    · cases hwhat
    rcases mem_append.mp hmem with hnew | hold
    · obtain ⟨event, hevent, rfl⟩ := mem_map.mp hnew
      cases hsource
      obtain rfl := Happening.store.inj hwhat
      exact waivedOnly_granted (executed_event hc.executed hevent) hc.justified happroved
    · exact hall entry hold t' waiver record hsource hwhat happroved
  · intro w a w' _ hall _ hs hno entry hmem t waiver record hsource hwhat
    obtain ⟨new, htrace, hnew⟩ := hs.outside hno
    rw [htrace] at hmem
    rcases mem_append.mp hmem with hnew' | hold
    · have hout := hnew entry hnew'
      unfold Entry.Outside at hout
      rw [hwhat] at hout
      exact hout.elim
    · exact hall entry hold t waiver record hsource hwhat

theorem step_answered {mid : World C V} {self : Config} {t : ℕ} {request : Request V} {c : Call V}
    {next : c.Answer → Method V Unit} {choice : Choice V} {answer : c.Answer} {events : List Event}
    (hself : w.self = some self) (hthread : w.threads t = some ⟨request, .call c next⟩)
    (hexec : w.exec self t c choice = some (mid, answer, events)) :
    w.step path (.advance t choice) = some (w.answered mid t request c next answer events) := by
  show w.self.bind _ = _
  rw [hself]
  show (w.threads t).bind _ = _
  rw [hthread]
  show (w.exec self t c choice).map _ = _
  rw [hexec]
  rfl

theorem run_read_then_clock {self : Config} {t : ℕ} {request : Request V} {id device : String}
    {now : UInt64} {record : ChangeSetRecord}
    {next : (Call.changeSet id device : Call V).Answer → Method V Unit}
    {next' : (Call.nowUnix : Call V).Answer → Method V Unit} (hself : w.self = some self)
    (hthread : w.threads t = some ⟨request, .call (.changeSet id device) next⟩)
    (hread : readChangeSet w.store id device = .ok record)
    (hnext : next (.ok record) = .call .nowUnix next') :
    ∃ w', runActions (step path) w [.advance t .go, .tick (some now), .advance t .go] = some w' ∧
      w'.threads t = some ⟨request, next' (.ok now)⟩ := by
  have hexec : w.exec self t (.changeSet id device) .go = some (w, .ok record, []) :=
    congrArg (fun answer => some (w, answer, [])) hread
  have hfirst := @step_answered _ _ path w w self t request _ next .go _ _ hself hthread hexec
  rw [runActions, hfirst, Option.bind_some]
  show ∃ w', runActions (step path)
    { w.answered w t request (.changeSet id device) next (.ok record) [] with clock := some now }
      [.advance t .go] = some w' ∧ _
  have hthread' : (w.answered w t request (.changeSet id device) next (.ok record) []).threads t =
      some ⟨request, .call .nowUnix next'⟩ := by
    rw [← hnext]
    exact Pool.set_self _ _ _
  have hsecond := @step_answered _ _ path
    { w.answered w t request (.changeSet id device) next (.ok record) [] with clock := some now }
    _ self t request .nowUnix next' .go (.ok now) [] hself hthread' rfl
  rw [runActions, hsecond, Option.bind_some]
  exact ⟨_, rfl, Pool.set_self _ _ _⟩

end World

/-- **An operator's waiver is good for an apply exactly in lab mode.**  Take a change set that
`waive_approval_operator` moved to `Approved`, and a call of `apply_change_set` by its owner, with
whatever digest and fingerprint.  When the call has read the change set and the clock, before the
waiver expires, it has not been refused exactly if the coordinator runs in lab mode (or its
arguments were never accepted, so that it did not get so far). -/
theorem operator_waiver_applies_iff {self : Config} {t : ℕ} {args : ApplyArgs}
    {record : ChangeSetRecord} {now : UInt64} (hr : World.Reached path ok w)
    (hself : w.self = some self) (hwaived : WaivedByOperator w.trace record)
    (hread : readChangeSet w.store args.changeSetId args.device = .ok record)
    (howner : args.owner = record.owner) (hlapsed : waiverLapsed record now = false)
    (hthread : w.threads t =
      some ⟨.applyChangeSet args, (Request.applyChangeSet args).program C self⟩) :
    (∀ w', runActions (World.step path) w [.advance t .go, .tick (some now), .advance t .go] =
        some w' → ∀ error, w'.threads t ≠ some ⟨.applyChangeSet args, .fail error⟩) ↔
      self.labMode = true ∨ ¬ args.Accepted C := by
  have hgate := approvalGate_waivedOnly (World.reached_waivedOnly hr hwaived) self.labMode
  by_cases hargs : args.Accepted C
  · obtain ⟨next, hprogram, next', hnext, hrefused, hpassed⟩ :=
      @applyChangeSet_to_gate C V self args record now hargs howner.symm hwaived.1 hlapsed
    rw [hprogram] at hthread
    obtain ⟨w', hrun, hafter⟩ :=
      @World.run_read_then_clock C V path w self t _ _ _ now record _ _ hself hthread hread hnext
    rw [hrun]
    constructor
    · intro hgoes
      refine .inl (hgate.mp ?_)
      rcases hverdict : approvalGate self.labMode record with error | _
      · rw [hrefused error hverdict] at hafter
        exact absurd hafter (hgoes w' rfl error)
      · rfl
    · rintro (hlab | hno) w'' heq error hfail
      · cases heq
        obtain ⟨next'', hcontinues⟩ := hpassed (hgate.mpr hlab)
        rw [hafter, hcontinues] at hfail
        cases hfail
      · exact hno hargs
  · refine ⟨fun _ => .inr hargs, fun _ w' hrun => ?_⟩
    -- the call failed before its first question, so it has no step to make
    obtain ⟨error, hprogram⟩ := @applyChangeSet_unaccepted C V self args hargs
    rw [hprogram] at hthread
    have hstuck : World.step path w (.advance t .go) = none := by
      simp [World.step, hself, hthread, World.advance]
    simp [runActions, hstuck] at hrun

/-- An exception of the operator for the plan of `alice`, good until 500. -/
def sampleWaiver : WaiverRecord where
  kind := .operatorTool
  reason := "maintenance"
  expiresAtUnix := some 500
  ticket := some "CHG-1"

/-- A coordinator starts, a plan is inserted, and its owner waives the approval. -/
def waivePlan (labMode : Bool) : List (Action Vendor.sample) :=
  startAndPlan { LoadArgs.sample with labMode } ++
    [.spawn (.waiveApprovalOperator (samplePlan 'a').id "edge1" "alice" (samplePlan 'a').digest
        sampleWaiver),
      .advance 1 .go, .advance 1 .go, .advance 1 (.write none), .finish 1]

/-- `alice` applies the plan. -/
def applySample : ApplyArgs where
  changeSetId := (samplePlan 'a').id
  device := "edge1"
  endpoint := "https://a"
  owner := "alice"
  expectedDigest := (samplePlan 'a').digest
  expectedFingerprint := (samplePlan 'a').expectedCandidateFingerprint
  primaryActionDiscriminator := "set"
  vendorPrimaryTarget := none
  configAuthority := none

theorem applySample_accepted : applySample.Accepted Crates.sample := by
  have hchecked : checkExpectedDigest applySample.expectedDigest = .ok () ∧
      validateFingerprint applySample.expectedFingerprint = .ok () := by decide +kernel
  exact ⟨hchecked.1, hchecked.2, _, rfl⟩

/-- The record a call of `waive_approval_operator` moved to `Approved`, if the entry says so. -/
def waiverGrant (entry : Entry Vendor.sample) : Option ChangeSetRecord :=
  match entry with
  | ⟨some (_, .waiveApprovalOperator _ _ _ _ _), _, .store (.granted granted)⟩ => some granted
  | _ => none

/-- The plan stands waived, as `applySample` expects it, and neither deadline has come at 200. -/
def waivedReady (labMode : Bool) (w : World Crates.sample Vendor.sample) : Bool :=
  w.self.any (·.labMode == labMode) &&
    (readChangeSet w.store applySample.changeSetId applySample.device).toOption.any fun record =>
      record.state == .approved && record.owner == applySample.owner &&
        record.digest == applySample.expectedDigest &&
        record.expectedCandidateFingerprint == applySample.expectedFingerprint &&
        record.policySignature != "" && decide (200 < record.expiresAtUnix) &&
        !waiverLapsed record 200 &&
        (w.trace.findSome? waiverGrant).any fun granted => granted.state == .approved &&
          granted.id == record.id && granted.approval == record.approval

theorem waivePlan_ready (labMode : Bool) :
    ((sampleRun none (waivePlan labMode)).any (waivedReady labMode)) = true := by
  have hboth : ∀ labMode ∈ [true, false],
      ((sampleRun none (waivePlan labMode)).any (waivedReady labMode)) = true := by decide +kernel
  exact hboth labMode (by cases labMode <;> decide)

theorem waiverGrant_spec {entry : Entry Vendor.sample} {granted : ChangeSetRecord}
    (h : waiverGrant entry = some granted) :
    ∃ t changeSetId device owner expectedDigest waiver clock, entry =
      ⟨some (t, .waiveApprovalOperator changeSetId device owner expectedDigest waiver), clock,
        .store (.granted granted)⟩ := by
  unfold waiverGrant at h
  split at h
  · cases h
    exact ⟨_, _, _, _, _, _, _, rfl⟩
  · cases h

/-- A call of `apply_change_set` by `alice` starts on her waived plan, everything in order. -/
structure WaivedApply (labMode : Bool) (w : World Crates.sample Vendor.sample) (config : Config)
    (t : ℕ) (record : ChangeSetRecord) : Prop where
  reached : World.Reached none (fun _ _ => True) w
  self_eq : w.self = some config
  labMode_eq : config.labMode = labMode
  waived : WaivedByOperator w.trace record
  read : readChangeSet w.store applySample.changeSetId applySample.device = .ok record
  owner : applySample.owner = record.owner
  digest : applySample.expectedDigest = record.digest
  fingerprint : applySample.expectedFingerprint = record.expectedCandidateFingerprint
  policy : record.policySignature ≠ ""
  inWindow : 200 < record.expiresAtUnix
  inForce : waiverLapsed record 200 = false
  thread : w.threads t = some ⟨.applyChangeSet applySample,
    (Request.applyChangeSet applySample).program Crates.sample config⟩

theorem waivedApply_starts (labMode : Bool) :
    ∃ w config t record, WaivedApply labMode w config t record := by
  obtain ⟨w, hreached, hready⟩ := sampleRun_reached (waivePlan_ready labMode)
  simp only [waivedReady, Bool.and_eq_true, Option.any_eq_true, beq_iff_eq, decide_eq_true_eq,
    Bool.not_eq_true', bne_iff_ne, ne_eq] at hready
  obtain ⟨⟨config, hself, hlab⟩, record, hread, ⟨⟨⟨⟨⟨⟨happroved, howner⟩, hdigest⟩, hfingerprint⟩,
    hpolicy⟩, hwindow⟩, hforce⟩, granted, hgranted, ⟨hstate, hid⟩, happroval⟩ := hready
  obtain ⟨entry, hentry, hgrant⟩ := exists_of_findSome?_eq_some hgranted
  obtain ⟨t, changeSetId, device, owner, expectedDigest, waiver, clock, rfl⟩ :=
    waiverGrant_spec hgrant
  have hok : readChangeSet w.store applySample.changeSetId applySample.device = .ok record := by
    generalize readChangeSet w.store _ _ = result at hread
    cases result with
    | error error => cases hread
    | ok value => exact congrArg Except.ok (Option.some.inj hread)
  have hstep : World.step none w (.spawn (.applyChangeSet applySample)) = some
      { w with
        threads := w.threads.set w.nextThread (some ⟨.applyChangeSet applySample,
          (Request.applyChangeSet applySample).program Crates.sample config⟩)
        nextThread := w.nextThread + 1 } := by
    show w.self.map _ = _
    rw [hself]
    rfl
  exact ⟨_, config, w.nextThread, record,
    { reached := .next hreached trivial hstep
      self_eq := hself
      labMode_eq := hlab
      waived := ⟨happroved, granted, hstate, hid, happroval, t, changeSetId, device, owner,
        expectedDigest, waiver, clock, hentry⟩
      read := hok
      owner := howner.symm
      digest := hdigest.symm
      fingerprint := hfingerprint.symm
      policy := hpolicy
      inWindow := hwindow
      inForce := hforce
      thread := Pool.set_self _ _ _ }⟩

/-- In lab mode the call gets past the gate. -/
theorem waived_apply_in_lab : ∃ w config t record, WaivedApply true w config t record ∧
    ∀ w', runActions (World.step none) w [.advance t .go, .tick (some 200), .advance t .go] =
      some w' → ∀ error, w'.threads t ≠ some ⟨.applyChangeSet applySample, .fail error⟩ := by
  obtain ⟨w, config, t, record, h⟩ := waivedApply_starts true
  exact ⟨w, config, t, record, h, (operator_waiver_applies_iff h.reached h.self_eq h.waived h.read
    h.owner h.inForce h.thread).mpr (.inl h.labMode_eq)⟩

/-- Without lab mode the call is refused, before both deadlines and with everything in order. -/
theorem waived_apply_refused : ∃ w config t record, WaivedApply false w config t record ∧
    ∃ w' error, runActions (World.step none) w [.advance t .go, .tick (some 200), .advance t .go] =
      some w' ∧ w'.threads t = some ⟨.applyChangeSet applySample, .fail error⟩ := by
  obtain ⟨w, config, t, record, h⟩ := waivedApply_starts false
  obtain ⟨next, hprogram, next', hnext, hrefused, -⟩ := @applyChangeSet_to_gate Crates.sample
    Vendor.sample config applySample record 200 applySample_accepted h.owner.symm h.waived.1 h.inForce
  have hthread := h.thread
  rw [hprogram] at hthread
  obtain ⟨w', hrun, hafter⟩ := @World.run_read_then_clock _ _ none w config t _ _ _ 200 record _ _
    h.self_eq hthread h.read hnext
  have hgate := approvalGate_waivedOnly (World.reached_waivedOnly h.reached h.waived) config.labMode
  rcases hverdict : approvalGate config.labMode record with error | _
  · rw [hrefused error hverdict] at hafter
    exact ⟨w, config, t, record, h, w', error, hrun, hafter⟩
  · have hlab := hgate.mp hverdict
    rw [h.labMode_eq] at hlab
    cases hlab

end Mecmcp.Changeset
