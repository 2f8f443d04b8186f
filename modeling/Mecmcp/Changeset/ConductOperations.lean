import Mecmcp.Changeset.Conduct

/-!
# ConductOperations — the methods on operations keep their conduct

The programs of `operation.rs` walked through, call by call: every write moves the operation known
under the device guard along one edge of its lifecycle, and a commit or a rollback is sent only with
the record that announces it in the store.
-/

namespace Mecmcp.Changeset

open List

variable {V : Vendor} {C : Crates} {self : Config} {request : Request V} {h : History V}
variable {before record : OperationRecord} {state : LifecycleState} {jobId details : Option String}
  {configLockHeld : Bool} {attribution : Option PersistedAttribution}
  {rollbackDeadlineUnix : Option UInt64} {args : OperationArgs} {staged : V.Staged}
  {outcome : CommitOutcome}

theorem operationWrite_current {current : String}
    (hcurrent : current = before.current ∨ h.Received .fingerprint (.ok current))
    (hedge : lifecycleEdge before.state state = true)
    (hplain : state ≠ .validated ∧ state ≠ .committing ∧ state ≠ .committed ∧ state ≠ .discarded)
    (hnamed : request.operationId = some before.id ∨ before.state = .staging ∧ h.Drawn before.id) :
    OperationWrite request h before { before with
        current, state, jobId, details, configLockHeld, attribution, rollbackDeadlineUnix } where
  id := rfl
  owner := rfl
  device := rfl
  endpoint := rfl
  actions := rfl
  current := hcurrent
  edge := hedge
  named := hnamed.imp id fun hstaging => ⟨hstaging.1, hplain.1, hstaging.2⟩
  validated hstate := absurd hstate hplain.1
  committing hstate := absurd hstate hplain.2.1
  committed hstate := absurd hstate hplain.2.2.1
  discarded hstate := absurd hstate hplain.2.2.2

theorem operationWrite_plain (hedge : lifecycleEdge before.state state = true)
    (hplain : state ≠ .validated ∧ state ≠ .committing ∧ state ≠ .committed ∧ state ≠ .discarded)
    (hnamed : request.operationId = some before.id ∨ before.state = .staging ∧ h.Drawn before.id) :
    OperationWrite request h before
      { before with state, jobId, details, configLockHeld, attribution, rollbackDeadlineUnix } :=
  operationWrite_current (.inl rfl) hedge hplain hnamed

theorem operationWrite_committing (hstate : state = .committing)
    (hedge : before.state = .validated ∨
      before.state = .committing ∧ ∃ answered ∈ h, answered.sendsOutcome = true)
    (hnamed : request.operationId = some before.id) :
    OperationWrite request h before
      { before with state, jobId, details, configLockHeld, attribution, rollbackDeadlineUnix } where
  id := rfl
  owner := rfl
  device := rfl
  endpoint := rfl
  actions := rfl
  current := .inl rfl
  edge := by
    subst hstate
    obtain hbefore | ⟨hbefore, -⟩ := hedge <;> rw [hbefore] <;> rfl
  named := .inl hnamed
  validated h := by cases hstate.symm.trans h
  committing _ := hedge.imp_right And.right
  committed h := by cases hstate.symm.trans h
  discarded h := by cases hstate.symm.trans h

/-! ### The operation held under the guard -/

structure Holding (record : OperationRecord) (h : History V) : Prop where
  known : h.known = some record
  guarded : h.Guarded record.device

theorem Holding.push {answered : Answered V} (hh : Holding record h)
    (hquiet : ∀ known, answered.knows known = known) : Holding record (answered :: h) :=
  ⟨(hquiet _).trans hh.known, mem_cons_of_mem _ hh.guarded⟩

theorem Holding.device {rpc : Rpc V} {answer : rpc.Answer} (hh : Holding record h) :
    Holding record (⟨.receive rpc, answer⟩ :: ⟨.send rpc, ()⟩ :: h) :=
  (hh.push fun _ => rfl).push fun _ => rfl

theorem keeps_update {after : OperationRecord} {α : Type} {f : Unit → Method V α}
    {Q : Except CoordinatorError α → History V → Prop} (hh : Holding before h)
    (hwrite : OperationWrite request h before after)
    (hok : Holding after (⟨.update after, .ok ()⟩ :: h) →
      (f ()).Keeps (conduct C self request) (⟨.update after, .ok ()⟩ :: h) Q)
    (herror : ∀ error, Q (.error error) (⟨.update after, .error error⟩ :: h)) :
    (Method.update after >>= f).Keeps (conduct C self request) h Q := by
  refine keeps_ask ⟨before, hh.known, hh.guarded, hwrite⟩ ?_ ?_
  · rintro _ _ - rfl
    exact hok ⟨rfl, mem_cons_of_mem _ (hwrite.device ▸ hh.guarded)⟩
  · rintro _ error rfl
    exact herror error

theorem readGuarded_keeps {first : OperationRecord}
    (hdevice : first.device = args.device) (hunsent : ∀ answered ∈ h, answered.sendsOutcome = false) :
    (readGuarded args first).Keeps (conduct C self request) h fun result h' =>
      ∀ record, result = .ok record → record.id = args.operationId ∧ Holding record h' ∧
        ∀ answered ∈ h', answered.sendsOutcome = false := by
  refine keeps_ask trivial ?_ fun _ _ _ _ heq => by cases heq
  rintro _ _ - rfl
  refine keeps_checkCancelled (fun cancelled => ?_) fun _ _ _ heq => by cases heq
  refine keeps_call trivial ?_
  rintro _ hrecord record rfl
  obtain ⟨hid, -, hrecordDevice, -⟩ := hrecord record rfl
  rw [hdevice.trans hrecordDevice.symm]
  refine ⟨hid, ⟨rfl, by simp [History.Guarded]⟩, ?_⟩
  simpa [Answered.sendsOutcome] using hunsent

/-! ### Diff and validation -/

theorem diffOperation_keeps :
    (diffOperation args staged).Keeps (conduct C self request) [] fun _ _ => True := by
  refine keeps_ask trivial ?_ fun _ _ _ => trivial
  rintro _ first hfirst rfl
  obtain ⟨-, -, hdevice, -⟩ := hfirst first rfl
  refine keeps_then (readGuarded_keeps hdevice (by simp [Answered.sendsOutcome])) ?_
    fun _ _ _ => trivial
  intro record h _
  refine keeps_check (fun _ => ?_) fun _ => trivial
  refine keeps_deviceOk trivial (fun _ _ _ => ?_) fun _ _ _ => trivial
  refine keeps_check (fun _ => ?_) fun _ => trivial
  exact keeps_device trivial fun _ => Prog.keeps_ofExcept.mpr trivial

theorem validateOperation_keeps :
    (validateOperation args staged).Keeps (conduct C self (.validateOperation args staged)) []
      fun _ _ => True := by
  refine keeps_ask trivial ?_ fun _ _ _ => trivial
  rintro _ first hfirst rfl
  obtain ⟨-, -, hdevice, -⟩ := hfirst first rfl
  refine keeps_check (fun _ => ?_) fun _ => trivial
  refine keeps_then (readGuarded_keeps hdevice (by simp [Answered.sendsOutcome])) ?_
    fun _ _ _ => trivial
  intro record h hread
  obtain ⟨hid, hh, -⟩ := hread record rfl
  have hnamed : (Request.validateOperation args staged).operationId = some record.id := by rw [hid]; rfl
  refine keeps_check (fun hstaged => ?_) fun _ => trivial
  have hstaged : record.state = .staged := by simpa [checkStaged] using hstaged
  refine keeps_deviceOk trivial (fun _ _ _ => ?_) fun _ _ _ => trivial
  refine keeps_check (fun _ => ?_) fun _ => trivial
  refine keeps_update hh.device (operationWrite_plain (by rw [hstaged]; rfl) (by decide)
    (.inl hnamed)) (fun hh => ?_) fun _ => trivial
  refine keeps_device trivial fun validated => ?_
  cases validated with
  | error error =>
    exact keeps_update hh.device (operationWrite_plain rfl (by decide) (.inl hnamed))
      (fun _ => trivial) fun _ => trivial
  | ok validation =>
    refine keeps_update hh.device ?_ (fun _ => trivial) fun _ => trivial
    exact {
      id := rfl, owner := rfl, device := rfl, endpoint := rfl, actions := rfl
      current := .inl rfl
      edge := rfl
      named := .inl hnamed
      validated := fun _ => ⟨args, staged, validation, rfl, mem_cons_self ..⟩
      committing := fun h => by cases h
      committed := fun h => by cases h
      discarded := fun h => by cases h }

/-! ### Committing -/

theorem reportReceipt_keeps {args : CommitArgs V} :
    (reportReceipt self args record outcome).Keeps (conduct C self request) h fun result h' =>
      result = .ok () ∧ (h' = h ∨ ∃ evidence answer, h' = ⟨.evidence evidence, answer⟩ :: h) := by
  cases outcome with
  | reconciled succeeded jobId details =>
    exact keeps_report (fun answer => ⟨rfl, .inr ⟨_, answer, rfl⟩⟩) ⟨rfl, .inl rfl⟩
  | detached | indeterminate | awaitingConfirmation => exact ⟨rfl, .inl rfl⟩

theorem operationWrite_afterCommit {args : CommitArgs V} (hstate : record.state = .committing)
    (hnamed : args.operationId = record.id)
    (hreceived : (⟨.receiveOrCancelled (.commit args.staged args.attribution args.options),
      some (.ok outcome)⟩ : Answered V) ∈ h)
    (hsent : ∃ answered ∈ h, answered.sendsOutcome = true) :
    OperationWrite (.commitOperation args) h record (record.afterCommit outcome) := by
  have hnamed : (Request.commitOperation args).operationId = some record.id :=
    congrArg some hnamed
  have hedge : ∀ state, state = .failed ∨ state = .indeterminate →
      lifecycleEdge record.state state = true := by
    rw [hstate]
    rintro _ (rfl | rfl) <;> rfl
  cases outcome with
  | reconciled succeeded jobId details =>
    cases succeeded with
    | false => exact operationWrite_plain (hedge _ (.inl rfl)) (by decide) (.inl hnamed)
    | true =>
      exact {
        id := rfl, owner := rfl, device := rfl, endpoint := rfl, actions := rfl
        current := .inl rfl
        edge := by rw [hstate]; rfl
        named := .inl hnamed
        validated := by nofun
        committing := by nofun
        committed := fun _ => ⟨rfl, args, jobId, details, rfl, hreceived⟩
        discarded := by nofun }
  | detached jobId => exact operationWrite_committing hstate (.inr ⟨hstate, hsent⟩) hnamed
  | indeterminate reason =>
    exact operationWrite_plain (hedge _ (.inr rfl)) (by decide) (.inl hnamed)
  | awaitingConfirmation jobId rollbackDeadlineUnix details =>
    exact operationWrite_committing hstate (.inr ⟨hstate, hsent⟩) hnamed

theorem sendCommit_keeps {args : CommitArgs V} (hh : Holding record h)
    (hstate : record.state = .committing) (hnamed : args.operationId = record.id)
    (hwritten : h.written = some record) (hunsent : ∀ answered ∈ h, answered.sendsOutcome = false) :
    (sendCommit self args record).Keeps (conduct C self (.commitOperation args)) h
      fun _ _ => True := by
  have hrequest : (Request.commitOperation args).operationId = some record.id :=
    congrArg some hnamed
  have hlost : ∀ (state : LifecycleState) (details : String) (h' : History V),
      state = .indeterminate ∨ state = .failed →
      OperationWrite (.commitOperation args) h' record
        { record with state, details := some details } := by
    rintro _ details h' (rfl | rfl)
    · exact operationWrite_plain (by rw [hstate]; rfl) (by decide) (.inl hrequest)
    · exact operationWrite_plain (by rw [hstate]; rfl) (by decide) (.inl hrequest)
  refine keeps_deviceOrCancelled ?_ ?_ fun answer => ?_
  · refine ⟨record, hwritten, mem_cons_of_mem _ hh.guarded, hrequest, hstate, ?_⟩
    simpa [Answered.sendsOutcome] using hunsent
  · exact keeps_update (hh.push fun _ => rfl) (hlost _ _ _ (.inl rfl)) (fun _ => trivial)
      fun _ => trivial
  have hh : Holding record
      (⟨.receiveOrCancelled (.commit args.staged args.attribution args.options), answer⟩ ::
        ⟨.send (.commit args.staged args.attribution args.options), ()⟩ ::
        ⟨.cancelledFirst, false⟩ :: h) :=
    ((hh.push fun _ => rfl).push fun _ => rfl).push fun _ => rfl
  cases answer with
  | none =>
    exact keeps_update hh (hlost _ _ _ (.inl rfl)) (fun _ => trivial) fun _ => trivial
  | some answer =>
    cases answer with
    | error error =>
      exact keeps_update hh (hlost _ _ _ (.inr rfl)) (fun _ => trivial) fun _ => trivial
    | ok outcome =>
      refine keeps_then reportReceipt_keeps ?_ fun _ _ _ => trivial
      rintro _ h' ⟨-, rfl | ⟨evidence, reported, rfl⟩⟩
      · refine keeps_update hh (operationWrite_afterCommit hstate hnamed (mem_cons_self ..) ?_)
          (fun _ => trivial) fun _ => trivial
        exact ⟨_, mem_cons_of_mem _ (mem_cons_self ..), rfl⟩
      · refine keeps_update (hh.push fun _ => rfl)
          (operationWrite_afterCommit hstate hnamed (by simp) ?_) (fun _ => trivial)
          fun _ => trivial
        exact ⟨_, mem_cons_of_mem _ (mem_cons_of_mem _ (mem_cons_self ..)), rfl⟩

theorem reportIntent_keeps {args : CommitArgs V} :
    (reportIntent self args record).Keeps (conduct C self request) h fun _ h' =>
      h' = h ∨ ∃ evidence answer, h' = ⟨.evidence evidence, answer⟩ :: h :=
  keeps_report (fun answer => Prog.keeps_ofExcept.mpr (.inr ⟨_, answer, rfl⟩))
    (Prog.keeps_ofExcept.mpr (.inl rfl))

theorem announceCommit_keeps {args : CommitArgs V}
    (hid : record.id = args.operationId) (hvalidated : record.state = .validated)
    (hh : Holding record h) (hunsent : ∀ answered ∈ h, answered.sendsOutcome = false) :
    (do
      reportIntent self args record
      Method.update { record with
        attribution := some (PersistedAttribution.from args.attribution), state := .committing }
      sendCommit self args { record with
        attribution := some (PersistedAttribution.from args.attribution), state := .committing }).Keeps
      (conduct C self (.commitOperation args)) h fun _ _ => True := by
  refine keeps_then reportIntent_keeps ?_ fun _ _ _ => trivial
  intro _ h' hreported
  have hheld : Holding record h' ∧ ∀ answered ∈ h', answered.sendsOutcome = false := by
    obtain rfl | ⟨evidence, answer, rfl⟩ := hreported
    · exact ⟨hh, hunsent⟩
    · exact ⟨hh.push fun _ => rfl, by simpa [Answered.sendsOutcome] using hunsent⟩
  refine keeps_update hheld.1 (operationWrite_committing rfl (.inl hvalidated)
    (congrArg some hid.symm)) (fun hh => ?_) fun _ => trivial
  refine sendCommit_keeps hh rfl hid.symm rfl ?_
  simpa [Answered.sendsOutcome] using hheld.2

theorem commitOperation_keeps {args : CommitArgs V} :
    (commitOperation self args).Keeps (conduct C self (.commitOperation args)) []
      fun _ _ => True := by
  refine keeps_ask trivial ?_ fun _ _ _ => trivial
  rintro _ first hfirst rfl
  obtain ⟨-, -, hdevice, -⟩ := hfirst first rfl
  refine keeps_then (readGuarded_keeps hdevice (by simp [Answered.sendsOutcome])) ?_
    fun _ _ _ => trivial
  intro record h hread
  obtain ⟨hid, hh, hunsent⟩ := hread record rfl
  refine keeps_check (fun hvalidated => ?_) fun _ => trivial
  refine keeps_check (fun _ => ?_) fun _ => trivial
  refine keeps_deviceOk trivial (fun _ _ _ => ?_) fun _ _ _ => trivial
  refine keeps_check (fun _ => ?_) fun _ => trivial
  refine keeps_askPlain trivial fun cancelled => ?_
  refine keeps_check (fun _ => ?_) fun _ => trivial
  exact announceCommit_keeps hid (by simpa using hvalidated) (hh.device.push fun _ => rfl)
    (by simpa [Answered.sendsOutcome] using hunsent)

/-! ### Discarding -/

theorem operationWrite_reverting (hid : before.id = args.operationId)
    (hedge : lifecycleEdge before.state .indeterminate = true) :
    OperationWrite (.discardOperation args) h before
    { before with state := .indeterminate, details, configLockHeld } :=
  operationWrite_plain hedge (by decide) (.inl (congrArg some hid.symm))

theorem revertCandidate_keeps (hid : record.id = args.operationId)
    (hedge : lifecycleEdge record.state .indeterminate = true) (hh : Holding record h) :
    (revertCandidate record).Keeps (conduct C self (.discardOperation args)) h fun result h' =>
      ∀ reverted, result = .ok reverted → reverted.id = args.operationId ∧
        reverted.state = .indeterminate ∧ Holding reverted h' ∧
        ∃ details, h'.Received (.rollback .candidateRevert) (.ok ⟨true, details⟩) := by
  refine keeps_update hh (operationWrite_reverting hid hedge) (fun hh => ?_)
    fun _ _ heq => by cases heq
  refine keeps_device ⟨_, rfl, hh.guarded, congrArg some hid.symm, rfl⟩ fun reverted => ?_
  cases reverted with
  | error error =>
    exact keeps_update hh.device (operationWrite_reverting hid rfl) (fun _ _ heq => by cases heq)
      fun _ _ heq => by cases heq
  | ok outcome =>
    obtain ⟨succeeded, details⟩ := outcome
    cases succeeded with
    | false =>
      exact keeps_update hh.device
        (operationWrite_plain rfl (by decide) (.inl (congrArg some hid.symm)))
        (fun _ _ heq => by cases heq) fun _ _ heq => by cases heq
    | true =>
      refine keeps_update hh.device (operationWrite_reverting hid rfl) (fun hh => ?_)
        fun _ _ heq => by cases heq
      rintro _ heq
      obtain rfl := Except.ok.inj heq
      exact ⟨hid, rfl, hh, details, by simp [History.Received]⟩

theorem releaseLock_keeps
    (hid : record.id = args.operationId) (hstate : record.state = .indeterminate)
    (hh : Holding record h) :
    (releaseLock record).Keeps (conduct C self (.discardOperation args)) h fun result h' =>
      ∀ discarded, result = .ok discarded →
        discarded = { record with
          configLockHeld := false, state := .discarded, details := some "candidate reverted" } ∧
        h' = ⟨.receive .unlock, .ok .released⟩ :: ⟨.send .unlock, ()⟩ :: h := by
  have hedge : lifecycleEdge record.state .indeterminate = true := by rw [hstate]; rfl
  refine keeps_device trivial fun unlocked => ?_
  cases unlocked with
  | error error =>
    exact keeps_update hh.device (operationWrite_reverting hid hedge)
      (fun _ _ heq => by cases heq) fun _ _ heq => by cases heq
  | ok outcome =>
    cases outcome with
    | released =>
      rintro _ heq
      exact ⟨(Except.ok.inj heq).symm, rfl⟩
    | unsupported =>
      exact keeps_update hh.device (operationWrite_reverting hid hedge)
        (fun _ _ heq => by cases heq) fun _ _ heq => by cases heq

theorem discardable_edge (h : checkDiscardable record = .ok ()) :
    lifecycleEdge record.state .indeterminate = true := by
  have hstate := refuseIf_ok.mp h
  revert hstate
  cases record.state <;> decide

theorem discardOperation_keeps :
    (discardOperation (V := V) args).Keeps (conduct C self (.discardOperation args)) []
      fun _ _ => True := by
  refine keeps_ask trivial ?_ fun _ _ _ => trivial
  rintro _ first hfirst rfl
  obtain ⟨-, -, hdevice, -⟩ := hfirst first rfl
  refine keeps_check (fun _ => ?_) fun _ => trivial
  refine keeps_then (readGuarded_keeps hdevice (by simp [Answered.sendsOutcome])) ?_
    fun _ _ _ => trivial
  intro record h hread
  obtain ⟨hid, hh, -⟩ := hread record rfl
  refine keeps_check (fun hdiscardable => ?_) fun _ => trivial
  refine keeps_deviceOk trivial (fun _ _ _ => ?_) fun _ _ _ => trivial
  refine keeps_check (fun _ => ?_) fun _ => trivial
  refine keeps_then (revertCandidate_keeps hid (discardable_edge hdiscardable) hh.device) ?_
    fun _ _ _ => trivial
  intro reverted h' hreverted
  obtain ⟨hid, hstate, hh, details, hrollback⟩ := hreverted reverted rfl
  refine keeps_then (releaseLock_keeps hid hstate hh) ?_ fun _ _ _ => trivial
  intro discarded h'' hdiscarded
  obtain ⟨rfl, rfl⟩ := hdiscarded discarded rfl
  refine keeps_device trivial fun after => ?_
  cases after with
  | error error =>
    exact keeps_update hh.device.device (operationWrite_reverting hid (by rw [hstate]; rfl))
      (fun _ => trivial) fun _ => trivial
  | ok afterFingerprint =>
    refine keeps_update hh.device.device ?_ (fun _ => trivial) fun _ => trivial
    exact {
      id := rfl, owner := rfl, device := rfl, endpoint := rfl, actions := rfl
      current := .inr (mem_cons_self ..)
      edge := by rw [hstate]; rfl
      named := .inl (congrArg some hid.symm)
      validated := by nofun
      committing := by nofun
      committed := by nofun
      discarded := fun _ => ⟨rfl, args, details, rfl,
        mem_cons_of_mem _ (mem_cons_of_mem _ (mem_cons_of_mem _
          (mem_cons_of_mem _ hrollback))), by simp [History.Received]⟩ }

end Mecmcp.Changeset
