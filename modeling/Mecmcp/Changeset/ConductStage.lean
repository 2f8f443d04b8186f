import Mecmcp.Changeset.ConductOperations

/-!
# ConductStage — staging keeps its conduct, and accounts for the lock

`stage_operation` walked through.  From the insert on, the method holds a reservation of the device
(`Reserved`): the record it inserted, with the lock flag set whenever the device has granted its
configuration lock.  Every exit releases the lock, or leaves a record that says it is held.
-/

namespace Mecmcp.Changeset

open List

variable {V : Vendor} {C : Crates} {self : Config} {request : Request V} {h : History V}
variable {answered : Answered V} {record : OperationRecord} {rpc : Rpc V} {args : StageArgs V}
  {α : Type} {error : CoordinatorError}

/-! ### The lock in a history -/

theorem lockOpen_cons :
    History.LockOpen (answered :: h) ↔
      answered.locks = true ∨ ¬ answered.releases = true ∧ h.LockOpen := Iff.rfl

theorem lockKept_of_closed {device : String} (hclosed : ¬ h.LockOpen) : LockKept device h :=
  fun hopen => absurd hopen hclosed

/-- The call took no lock and released none. -/
def Answered.NoLock (answered : Answered V) : Prop :=
  answered.locks = false ∧ answered.releases = false

theorem lockOpen_push (hno : answered.NoLock) :
    History.LockOpen (answered :: h) ↔ h.LockOpen := by
  simp [lockOpen_cons, hno.1, hno.2]

theorem notOpen_of_noLock (hall : ∀ answered ∈ h, answered.NoLock) : ¬ h.LockOpen := by
  induction h with
  | nil => exact id
  | cons answered h ih =>
    obtain ⟨hno, hrest⟩ := forall_mem_cons.mp hall
    exact fun hopen => ih hrest ((lockOpen_push hno).mp hopen)

/-! ### A reservation -/

/-- The method holds the operation it inserted, with the lock flag set if the device's lock may be
held. -/
structure Reserved (record : OperationRecord) (h : History V) : Prop where
  staging : record.state = .staging
  drawn : h.Drawn record.id
  held : ∃ configLockHeld, Holding { record with configLockHeld } h ∧
    (h.LockOpen → configLockHeld = true)

theorem Reserved.push (hr : Reserved record h)
    (hquiet : ∀ known, answered.knows known = known) (hno : answered.NoLock) :
    Reserved record (answered :: h) := by
  obtain ⟨configLockHeld, hh, hlock⟩ := hr.held
  exact ⟨hr.staging, mem_cons_of_mem _ hr.drawn, configLockHeld, hh.push hquiet,
    fun hopen => hlock ((lockOpen_push hno).mp hopen)⟩

theorem Reserved.write {state : LifecycleState} {current : String}
    {details : Option String} (hr : Reserved record h)
    (hcurrent : current = record.current ∨ h.Received .fingerprint (.ok current))
    (hstate : state = .staging ∨ state = .staged ∨ state = .indeterminate) :
    Justified C self request h
    (.update { record with current, state, details, configLockHeld := true }) := by
  obtain ⟨configLockHeld, hh, -⟩ := hr.held
  have hedge : lifecycleEdge record.state state = true ∧
      (state ≠ .validated ∧ state ≠ .committing ∧ state ≠ .committed ∧ state ≠ .discarded) := by
    rw [hr.staging]
    obtain rfl | rfl | rfl := hstate <;> decide
  exact ⟨_, hh.known, hh.guarded,
    operationWrite_current hcurrent hedge.1 hedge.2 (.inr ⟨hr.staging, hr.drawn⟩)⟩

theorem Reserved.guarded (hr : Reserved record h) :
    h.Guarded record.device := by
  obtain ⟨configLockHeld, hh, -⟩ := hr.held
  exact hh.guarded

theorem Reserved.locked (hr : Reserved record h) :
    Reserved record (⟨.update { record with configLockHeld := true }, .ok ()⟩ :: h) :=
  ⟨hr.staging, mem_cons_of_mem _ hr.drawn, true,
    ⟨rfl, mem_cons_of_mem _ hr.guarded⟩, fun _ => rfl⟩

theorem lockKept_of_known {device : String} (hh : Holding record h)
    (hdevice : record.device = device) (hlock : record.configLockHeld = true)
    (hopen : record.state.terminal = false) : LockKept device h :=
  fun _ => .inr ⟨record, hh.known, hh.guarded, hdevice, hlock, hopen⟩

theorem lockKept_of_failed {device : String} (hmem : answered ∈ h)
    (hfailed : answered.updateFailed = true) : LockKept device h :=
  fun _ => .inl ⟨answered, hmem, hfailed⟩

theorem keeps_attemptWrite {record : OperationRecord} {state : LifecycleState} {current : String}
    {details : Option String} {α : Type} {f : Except CoordinatorError Unit → Method V α}
    {Q : Except CoordinatorError α → History V → Prop} (hr : Reserved record h)
    (hcurrent : current = record.current ∨ h.Received .fingerprint (.ok current))
    (hstate : state = .staging ∨ state = .staged ∨ state = .indeterminate)
    (hok : Holding { record with current, state, details, configLockHeld := true }
        (⟨.update { record with current, state, details, configLockHeld := true }, .ok ()⟩ :: h) →
      (f (.ok ())).Keeps (conduct C self request)
        (⟨.update { record with current, state, details, configLockHeld := true }, .ok ()⟩ :: h) Q)
    (herror : ∀ error, (f (.error error)).Keeps (conduct C self request)
      (⟨.update { record with current, state, details, configLockHeld := true }, .error error⟩ :: h)
      Q) :
    (Prog.attempt (Method.update
      { record with current, state, details, configLockHeld := true }) >>= f).Keeps
      (conduct C self request) h Q := by
  refine keeps_attempt (keeps_call (hr.write hcurrent hstate) fun answer _ => ?_)
  cases answer with
  | ok => exact hok ⟨rfl, mem_cons_of_mem _ hr.guarded⟩
  | error error => exact herror error

theorem Reserved.removable (hr : Reserved record h) :
    Justified C self request h (.remove record.id) := by
  obtain ⟨configLockHeld, hh, -⟩ := hr.held
  exact ⟨_, hh.known, hh.guarded, rfl, hr.staging⟩

/-! ### The pieces of `stage_operation` -/

theorem lockForStage_keeps (hr : Reserved record h) (hclosed : ¬ h.LockOpen) :
    (lockForStage record).Keeps (conduct C self request) h fun result h' =>
      Reserved record h' ∧ (result ≠ .ok true → ¬ h'.LockOpen) := by
  refine keeps_askPlain trivial fun required => ?_
  have hr : Reserved record (⟨.requiresConfigLock, required⟩ :: h) :=
    hr.push (fun _ => rfl) ⟨rfl, rfl⟩
  have hclosed : ¬ History.LockOpen (⟨.requiresConfigLock, required⟩ :: h) :=
    fun hopen => hclosed ((lockOpen_push ⟨rfl, rfl⟩).mp hopen)
  cases required with
  | false => exact ⟨hr, fun _ => hclosed⟩
  | true =>
    refine keeps_ask (hr.write (.inl rfl) (.inl hr.staging)) ?_ ?_
    · rintro _ _ - rfl
      refine keeps_deviceOk trivial ?_ ?_
      · rintro answer _ hanswer
        obtain rfl : answer = .ok () := hanswer
        refine ⟨⟨hr.staging, ?_, true, Holding.device ⟨rfl, mem_cons_of_mem _ hr.guarded⟩,
          fun _ => rfl⟩,
          fun hne => absurd rfl hne⟩
        exact .tail _ (.tail _ (.tail _ hr.drawn))
      · rintro answer error hanswer
        obtain rfl : answer = .error error := hanswer
        refine ⟨(hr.locked.push (fun _ => rfl) ⟨rfl, rfl⟩).push (fun _ => rfl) ⟨rfl, rfl⟩, ?_⟩
        intro _ hopen
        rw [lockOpen_push ⟨rfl, rfl⟩, lockOpen_push ⟨rfl, rfl⟩, lockOpen_push ⟨rfl, rfl⟩] at hopen
        exact hclosed hopen
    · rintro _ error rfl
      exact ⟨hr.push (fun _ => rfl) ⟨rfl, rfl⟩, fun _ hopen =>
        hclosed ((lockOpen_push ⟨rfl, rfl⟩).mp hopen)⟩

variable {answer : rpc.Answer}

theorem Reserved.device (hr : Reserved record h)
    (hno : (⟨.receive rpc, answer⟩ : Answered V).NoLock) :
    Reserved record (⟨.receive rpc, answer⟩ :: ⟨.send rpc, ()⟩ :: h) :=
  (hr.push (fun _ => rfl) ⟨rfl, rfl⟩).push (fun _ => rfl) hno

theorem lockOpen_device (hno : (⟨.receive rpc, answer⟩ : Answered V).NoLock) :
    History.LockOpen (⟨.receive rpc, answer⟩ :: ⟨.send rpc, ()⟩ :: h) ↔ h.LockOpen :=
  (lockOpen_push hno).trans (lockOpen_push ⟨rfl, rfl⟩)

theorem checkBeforeStage_keeps (hr : Reserved record h) :
    (checkBeforeStage args record).Keeps (conduct C self request) h fun _ h' =>
      Reserved record h' ∧ (h'.LockOpen → h.LockOpen) := by
  have hasked : ∀ answer, Reserved record (⟨.receive .fingerprint, answer⟩ ::
      ⟨.send .fingerprint, ()⟩ :: h) := fun _ => hr.device ⟨rfl, rfl⟩
  refine keeps_deviceOk trivial (fun answer fingerprint _ => ?_)
    fun answer _ _ => ⟨hasked answer, (lockOpen_device ⟨rfl, rfl⟩).mp⟩
  refine keeps_check (fun _ => ?_) fun _ => ⟨hasked answer, (lockOpen_device ⟨rfl, rfl⟩).mp⟩
  refine keeps_ask ((hasked answer).write (.inl rfl) (.inl hr.staging)) ?_ ?_
  · rintro _ _ - rfl
    exact ⟨(hasked answer).locked, fun hopen =>
      (lockOpen_device ⟨rfl, rfl⟩).mp ((lockOpen_push ⟨rfl, rfl⟩).mp hopen)⟩
  · rintro _ error rfl
    exact ⟨(hasked answer).push (fun _ => rfl) ⟨rfl, rfl⟩, fun hopen =>
      (lockOpen_device ⟨rfl, rfl⟩).mp ((lockOpen_push ⟨rfl, rfl⟩).mp hopen)⟩

theorem stageOnDevice_keeps (hr : Reserved record h) :
    (stageOnDevice args).Keeps (conduct C self (.stageOperation args)) h fun result h' =>
      Reserved record h' ∧ ∀ staged fingerprint, result = .ok (staged, fingerprint) →
        h'.Received .fingerprint (.ok fingerprint) := by
  refine keeps_deviceOk (.inl ⟨args, rfl, rfl⟩) (fun answer staged _ => ?_) fun answer _ _ =>
    ⟨hr.device ⟨rfl, rfl⟩, fun _ _ heq => by cases heq⟩
  refine keeps_deviceOk trivial (fun answer' fingerprint hanswer => ?_) fun answer' _ _ =>
    ⟨(hr.device ⟨rfl, rfl⟩).device ⟨rfl, rfl⟩, fun _ _ heq => by cases heq⟩
  obtain rfl : answer' = .ok fingerprint := hanswer
  refine ⟨(hr.device ⟨rfl, rfl⟩).device ⟨rfl, rfl⟩, fun staged' fingerprint' heq => ?_⟩
  cases heq
  exact .head _

theorem abandonStage_keeps {locked : Bool} (hr : Reserved record h)
    (hlocked : locked = false → ¬ h.LockOpen) :
    (abandonStage record locked error : Method V α).Keeps (conduct C self request) h fun _ h' =>
      LockKept record.device h' := by
  cases locked with
  | false =>
    refine keeps_askPlain hr.removable fun _ => lockKept_of_closed fun hopen => ?_
    exact hlocked rfl ((lockOpen_push ⟨rfl, rfl⟩).mp hopen)
  | true =>
    refine keeps_device trivial fun unlocked => ?_
    have hunsure : unlocked ≠ .ok .released →
        Reserved record (⟨.receive .unlock, unlocked⟩ :: ⟨.send .unlock, ()⟩ :: h) := by
      intro hne
      refine hr.device ⟨rfl, ?_⟩
      obtain error | outcome := unlocked
      · rfl
      · cases outcome with
        | released => exact absurd rfl hne
        | unsupported => rfl
    obtain error' | outcome := unlocked
    · exact keeps_attemptWrite (hunsure (by nofun)) (.inl rfl) (.inr (.inr rfl))
        (fun hh => lockKept_of_known hh rfl rfl rfl) fun _ => lockKept_of_failed (.head _) rfl
    · cases outcome with
      | unsupported =>
        exact keeps_attemptWrite (hunsure (by nofun)) (.inl rfl) (.inr (.inr rfl))
          (fun hh => lockKept_of_known hh rfl rfl rfl)
          fun _ => lockKept_of_failed (.head _) rfl
      | released =>
        have hremovable : Justified C self request
            (⟨.receive .unlock, .ok .released⟩ :: ⟨.send .unlock, ()⟩ :: h) (.remove record.id) := by
          obtain ⟨configLockHeld, hh, -⟩ := hr.held
          exact ⟨_, hh.device.known, hh.device.guarded, rfl, hr.staging⟩
        refine keeps_askPlain hremovable fun _ => lockKept_of_closed fun hopen => ?_
        obtain hlocks | ⟨hnot, -⟩ := (lockOpen_push ⟨rfl, rfl⟩).mp hopen
        · cases hlocks
        · exact hnot rfl

theorem stageTouched_keeps (hr : Reserved record h) :
    (stageTouched record error : Method V α).Keeps (conduct C self request) h fun _ h' =>
      LockKept record.device h' :=
  keeps_attemptWrite hr (.inl rfl) (.inr (.inr rfl)) (fun hh => lockKept_of_known hh rfl rfl rfl)
    fun _ => lockKept_of_failed (.head _) rfl

theorem recordStaged_keeps {before after : String} {staged : V.Staged}
    (hr : Reserved record h) (hafter : h.Received .fingerprint (.ok after)) :
    (recordStaged record before after staged).Keeps (conduct C self request) h fun _ h' =>
      LockKept record.device h' := by
  refine keeps_attemptWrite hr (.inr hafter) (.inr (.inl rfl))
    (fun hh => lockKept_of_known hh rfl rfl rfl) fun error => ?_
  exact @keeps_attemptWrite V C self request _ record _ _ _ _ _ _
    (hr.push (fun _ => rfl) ⟨rfl, rfl⟩) (.inr (.tail _ hafter)) (.inr (.inr rfl))
    (fun hh => lockKept_of_known hh rfl rfl rfl) fun _ => lockKept_of_failed (.head _) rfl

theorem stageReservation_keeps
    (hr : Reserved record h) (hclosed : ¬ h.LockOpen) (hdevice : record.device = args.device) :
    (do
      let lockResult ← Prog.attempt (lockForStage record)
      match lockResult with
      | .error error => abandonStage record false error
      | .ok locked =>
        let before ← Prog.attempt (checkBeforeStage args record)
        match before with
        | .error error => abandonStage record locked error
        | .ok beforeFingerprint =>
          let stageResult ← Prog.attempt (stageOnDevice args)
          match stageResult with
          | .error error => stageTouched record error
          | .ok (staged, afterFingerprint) =>
            recordStaged record beforeFingerprint afterFingerprint staged).Keeps
      (conduct C self (.stageOperation args)) h fun _ => Concluded (.stageOperation args) := by
  show Prog.Keeps _ _ _ fun _ h' => LockKept args.device h'
  rw [← hdevice]
  refine keeps_attempt ((lockForStage_keeps hr hclosed).mono ?_)
  rintro lockResult h₁ ⟨hr, hlocked⟩
  cases lockResult with
  | error error => exact abandonStage_keeps hr fun _ => hlocked (by nofun)
  | ok locked =>
    refine keeps_attempt ((checkBeforeStage_keeps hr).mono ?_)
    rintro before h₂ ⟨hr, hopen⟩
    cases before with
    | error error =>
      refine abandonStage_keeps hr fun hfalse hlock => ?_
      subst hfalse
      exact hlocked (by nofun) (hopen hlock)
    | ok beforeFingerprint =>
      refine keeps_attempt ((stageOnDevice_keeps hr).mono ?_)
      rintro stageResult h₃ ⟨hr, hafter⟩
      cases stageResult with
      | error error => exact stageTouched_keeps hr
      | ok value => exact recordStaged_keeps hr (hafter value.1 value.2 rfl)

theorem stageOperation_keeps :
    (stageOperation C args).Keeps (conduct C self (.stageOperation args)) [] fun _ =>
      Concluded (.stageOperation args) := by
  -- until the reservation no lock is asked for
  have hended : ∀ {h : History V}, (∀ answered ∈ h, answered.NoLock) →
      Concluded (.stageOperation args) h :=
    fun hall => lockKept_of_closed (notOpen_of_noLock hall)
  refine keeps_check (fun hactions => ?_) fun _ => hended (by simp)
  refine keeps_ofExcept (fun endpoint hendpoint => ?_) fun _ => hended (by simp)
  refine keeps_ask trivial ?_ fun _ _ _ => hended (by simp [Answered.NoLock, Answered.locks,
    Answered.releases])
  rintro _ _ - rfl
  refine keeps_checkCancelled (fun cancelled => ?_) fun _ _ => hended (by simp [Answered.NoLock,
    Answered.locks, Answered.releases])
  refine keeps_ask trivial ?_ fun _ _ _ => hended (by simp [Answered.NoLock, Answered.locks,
    Answered.releases])
  rintro _ operationId - rfl
  have hno : ∀ answered ∈ ([⟨.newOperationId, .ok operationId⟩, ⟨.isCancelled, cancelled⟩,
      ⟨.deviceGuard args.device, .ok ()⟩] : History V), answered.NoLock := by
    simp [Answered.NoLock, Answered.locks, Answered.releases]
  refine keeps_check (fun hfingerprint => ?_) fun _ => hended hno
  refine keeps_ofExcept (fun values hvalues => ?_) fun _ => hended hno
  have hreserves : Reserves C (.stageOperation args) [⟨.newOperationId, .ok operationId⟩,
      ⟨.isCancelled, cancelled⟩, ⟨.deviceGuard args.device, .ok ()⟩]
      (args.record operationId endpoint values) :=
    .stage args operationId endpoint values _ rfl hendpoint (.head _)
      (by simpa using hfingerprint) (by simpa using hactions) hvalues
  refine keeps_ask ⟨by simp [History.Guarded, StageArgs.record], by simp [Answered.insertsOperation],
    hreserves⟩ ?_ fun _ _ _ => hended (forall_mem_cons.mpr ⟨⟨rfl, rfl⟩, hno⟩)
  rintro _ _ - rfl
  refine stageReservation_keeps ⟨rfl, by simp [History.Drawn, StageArgs.record], false,
    ⟨rfl, by simp [History.Guarded, StageArgs.record]⟩, fun hopen => ?_⟩ ?_ rfl
  · exact absurd hopen (notOpen_of_noLock (forall_mem_cons.mpr ⟨⟨rfl, rfl⟩, hno⟩))
  · exact notOpen_of_noLock (forall_mem_cons.mpr ⟨⟨rfl, rfl⟩, hno⟩)

end Mecmcp.Changeset
