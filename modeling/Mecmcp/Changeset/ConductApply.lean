import Mecmcp.Changeset.ConductMethods
import Mecmcp.Changeset.ConductStage

/-!
# ConductApply — applying keeps its conduct

`apply_change_set` walked through, piece by piece: until the reservation it has asked for no lock
and inserted nothing (`Early`); from the reservation on it also holds the change set it checked and
the one it claimed (`Applying`).
-/

namespace Mecmcp.Changeset

open List

variable {V : Vendor} {C : Crates} {self : Config} {args : ApplyArgs} {h : History V}
variable {answered : Answered V} {changeSet linked : ChangeSetRecord} {actions : List V.Action}
  {operationId : String} {rpc : Rpc V}

/-! ### Before the reservation -/

/-- No lock was asked for and no operation inserted. -/
def Early (h : History V) : Prop :=
  ∀ answered ∈ h, answered.NoLock ∧ answered.insertsOperation = false

theorem Early.push (he : Early h) (hno : answered.NoLock)
    (hinserts : answered.insertsOperation = false) : Early (answered :: h) :=
  forall_mem_cons.mpr ⟨⟨hno, hinserts⟩, he⟩

theorem Early.notOpen (he : Early h) : ¬ h.LockOpen := notOpen_of_noLock fun a ha => (he a ha).1

theorem Early.concluded (he : Early h) : Concluded (.applyChangeSet args) h :=
  .inl (lockKept_of_closed he.notOpen)

theorem checkWindow_keeps {now : UInt64} {message : String}
    (he : Early h) (hread : h.Read changeSet) :
    (checkWindow changeSet now message).Keeps (conduct C self (.applyChangeSet args)) h
      fun result h' => Early h' ∧ ∀ value, result = .ok value →
        now < changeSet.expiresAtUnix ∧ h' = h := by
  unfold checkWindow
  rw [Prog.keeps_ite]
  refine ⟨fun _ => ?_, fun hopen => ⟨he, fun _ _ => ⟨UInt64.not_le.mp hopen, rfl⟩⟩⟩
  refine keeps_ask (.inr ⟨⟨args, rfl⟩, .expired changeSet hread⟩) ?_ ?_
  · rintro _ _ - rfl
    exact ⟨he.push ⟨rfl, rfl⟩ rfl, fun _ heq => by cases heq⟩
  · rintro _ error rfl
    exact ⟨he.push ⟨rfl, rfl⟩ rfl, fun _ heq => by cases heq⟩

theorem keeps_askEarly {α β : Type} {c : Call V} {result : c.Answer → Except CoordinatorError β}
    {f : β → Method V α} {Q : Except CoordinatorError α → History V → Prop} (he : Early h)
    (hcall : Justified C self (.applyChangeSet args) h c)
    (hno : ∀ answer, (⟨c, answer⟩ : Answered V).NoLock ∧
      (⟨c, answer⟩ : Answered V).insertsOperation = false)
    (hok : ∀ answer value, Early (⟨c, answer⟩ :: h) → Expected h c answer →
      result answer = .ok value →
      (f value).Keeps (conduct C self (.applyChangeSet args)) (⟨c, answer⟩ :: h) Q)
    (herror : ∀ error h', Early h' → Q (.error error) h') :
    ((Method.ask c >>= fun answer => Prog.ofExcept (result answer)) >>= f).Keeps
      (conduct C self (.applyChangeSet args)) h Q :=
  keeps_ask hcall
    (fun answer value hexpected hresult =>
      hok answer value (he.push (hno answer).1 (hno answer).2) hexpected hresult)
    fun answer error _ => herror error _ (he.push (hno answer).1 (hno answer).2)

theorem checkPlan_keeps (he : Early h) :
    (checkPlan self args).Keeps (conduct C self (.applyChangeSet args)) h fun _ h' => Early h' := by
  refine keeps_askEarly he trivial (fun _ => ⟨⟨rfl, rfl⟩, rfl⟩) ?_ fun _ _ he => he
  rintro _ changeSet he - rfl
  refine keeps_check (fun _ => ?_) fun _ => he
  refine keeps_check (fun _ => ?_) fun _ => he
  refine keeps_askEarly he trivial (fun _ => ⟨⟨rfl, rfl⟩, rfl⟩) ?_ fun _ _ he => he
  rintro _ nowForWaiver he - rfl
  refine keeps_check (fun _ => ?_) fun _ => he
  refine keeps_check (fun _ => ?_) fun _ => he
  refine keeps_askEarly he trivial (fun _ => ⟨⟨rfl, rfl⟩, rfl⟩) ?_ fun _ _ he => he
  rintro _ now he - rfl
  refine keeps_then (checkWindow_keeps he ⟨args.changeSetId, args.device, by simp⟩) ?_
    fun _ _ hwindow => hwindow.1
  rintro _ h' ⟨he, -⟩
  exact Prog.keeps_ofExcept.mpr he

theorem checkPlanGuarded_keeps (he : Early h) :
    (checkPlanGuarded args).Keeps (conduct C self (.applyChangeSet args)) h fun result h' =>
      Early h' ∧ ∀ record, result = .ok record → ApplyChecked args h' record ∧
        ∀ answered ∈ h, answered ∈ h' := by
  refine keeps_askEarly he trivial (fun _ => ⟨⟨rfl, rfl⟩, rfl⟩) ?_
    fun _ _ he => ⟨he, fun _ heq => by cases heq⟩
  rintro _ record he hrecord rfl
  obtain ⟨hid, hdevice⟩ := hrecord record rfl
  refine keeps_askEarly he trivial (fun _ => ⟨⟨rfl, rfl⟩, rfl⟩) ?_
    fun _ _ he => ⟨he, fun _ heq => by cases heq⟩
  rintro _ now he - rfl
  refine keeps_check (fun hexact => ?_) fun _ => ⟨he, fun _ heq => by cases heq⟩
  refine keeps_check (fun hwaiver => ?_) fun _ => ⟨he, fun _ heq => by cases heq⟩
  have hread : History.Read (⟨.nowUnix, .ok now⟩ ::
      ⟨.changeSet args.changeSetId args.device, .ok record⟩ :: h) record :=
    ⟨args.changeSetId, args.device, by simp⟩
  refine keeps_then (checkWindow_keeps he hread) ?_
    fun _ _ hwindow => ⟨hwindow.1, fun _ heq => by cases heq⟩
  rintro value h' ⟨he, hwindow⟩
  obtain ⟨hopen, rfl⟩ := hwindow value rfl
  refine ⟨he, fun record' heq => ?_⟩
  cases heq
  simp only [ApplyArgs.checkExact, refuseIf_ok, not_or, not_not] at hexact
  obtain ⟨howner, happroved, hdigest, hfingerprint⟩ := hexact
  have hlapsed : waiverLapsed record now = false := by
    simpa [waiverExpiryError] using hwaiver
  exact ⟨⟨hread, hid, hdevice, howner, happroved, hdigest, hfingerprint, now, rfl, hopen, hlapsed⟩,
    fun answered ha => .tail _ (.tail _ ha)⟩

/-! ### From the reservation on -/

theorem ApplyChecked.push {record : ChangeSetRecord}
    (hc : ApplyChecked args h record) (hreading : answered.reading = none) :
    ApplyChecked args (answered :: h) record := by
  obtain ⟨⟨id, device, hread⟩, hid, hdevice, howner, happroved, hdigest, hfingerprint, now, hnow,
    hopen⟩ := hc
  refine ⟨⟨id, device, mem_cons_of_mem _ hread⟩, hid, hdevice, howner, happroved, hdigest,
    hfingerprint, now, ?_, hopen⟩
  rw [History.lastReading, findSome?_cons, hreading]
  exact hnow

/-- The change set that was checked, and the one that was claimed and linked to the operation. -/
structure Applying (args : ApplyArgs) (actions : List V.Action) (operationId : String)
    (linked : ChangeSetRecord) (h : History V) : Prop where
  changeSet : ∃ record claimed, ApplyChecked args h record ∧
    parseActions V 0 record.actions = .ok actions ∧ h.Claimed claimed ∧
    claimed.id = record.id ∧ linked = { claimed with operationId := some operationId }

theorem Applying.push (ha : Applying args actions operationId linked h)
    (hreading : answered.reading = none) :
    Applying args actions operationId linked (answered :: h) := by
  obtain ⟨record, claimed, hchecked, hactions, ⟨id, device, handle, hclaimed⟩, hid, hlinked⟩ :=
    ha.changeSet
  exact ⟨record, claimed, hchecked.push hreading, hactions,
    ⟨id, device, handle, mem_cons_of_mem _ hclaimed⟩, hid, hlinked⟩

variable {answer : rpc.Answer}

theorem Applying.device (ha : Applying args actions operationId linked h) :
    Applying args actions operationId linked (⟨.receive rpc, answer⟩ :: ⟨.send rpc, ()⟩ :: h) :=
  (ha.push rfl).push rfl

theorem History.Drawn.device {id : String} (hdrawn : h.Drawn id) :
    History.Drawn (⟨.receive rpc, answer⟩ :: ⟨.send rpc, ()⟩ :: h) id :=
  mem_cons_of_mem _ (.tail _ hdrawn)

theorem Applying.settles {state : ChangeSetState}
    (ha : Applying args actions operationId linked h) (hdrawn : h.Drawn operationId)
    (hstate : state = .failed ∨ state = .applied) :
    Justified C self (.applyChangeSet args) h (.updateChangeSet { linked with state }) := by
  obtain ⟨record, claimed, -, -, hclaimed, -, rfl⟩ := ha.changeSet
  exact .inr ⟨⟨args, rfl⟩, .settled claimed operationId state hclaimed hdrawn hstate⟩

variable {record : OperationRecord}

theorem Reserved.lockKept (hr : Reserved record h) :
    LockKept record.device h := by
  obtain ⟨configLockHeld, hh, hlock⟩ := hr.held
  exact fun hopen => lockKept_of_known hh rfl (hlock hopen) (by rw [hr.staging]; rfl) hopen

theorem notOpen_push (hclosed : ¬ h.LockOpen) (hno : answered.NoLock) :
    ¬ History.LockOpen (answered :: h) := fun hopen => hclosed ((lockOpen_push hno).mp hopen)

theorem notOpen_append {rest : History V} (hclosed : ¬ h.LockOpen)
    (hrest : ∀ answered ∈ rest, answered.NoLock) : ¬ History.LockOpen (rest ++ h) := by
  induction rest with
  | nil => exact hclosed
  | cons answered rest ih =>
    obtain ⟨hno, hrest⟩ := forall_mem_cons.mp hrest
    exact notOpen_push (ih hrest) hno

theorem claimReserved_keeps {reserved : OperationRecord} (hr : Reserved reserved h)
    (hclosed : ¬ h.LockOpen)
    (hchecked : ApplyChecked args h changeSet)
    (hactions : parseActions V 0 changeSet.actions = .ok actions) :
    (do
      let claimed ←
        Prog.attempt (Method.claimChangeSetForApply changeSet.id changeSet.device .expected)
      match claimed with
      | .error error =>
        Method.remove reserved.id
        Prog.fail error
      | .ok claimed =>
        let linked := { claimed with operationId := some reserved.id }
        let updated ← Prog.attempt (Method.updateChangeSet linked)
        match updated with
        | .error error =>
          Method.remove reserved.id
          Prog.fail error
        | .ok () => pure linked : Method V ChangeSetRecord).Keeps
      (conduct C self (.applyChangeSet args)) h fun result h' => ¬ h'.LockOpen ∧
        ∀ linked, result = .ok linked →
          Reserved reserved h' ∧ Applying args actions reserved.id linked h' := by
  refine keeps_attempt (keeps_call (.inr ⟨args, changeSet, rfl, hchecked, rfl, rfl⟩)
    fun answer hexpected => ?_)
  have hr : Reserved reserved
      (⟨.claimChangeSetForApply changeSet.id changeSet.device .expected, answer⟩ :: h) :=
    hr.push (fun _ => rfl) ⟨rfl, rfl⟩
  have hclosed : ¬ History.LockOpen
      (⟨.claimChangeSetForApply changeSet.id changeSet.device .expected, answer⟩ :: h) :=
    notOpen_push hclosed ⟨rfl, rfl⟩
  cases answer with
  | error error =>
    exact keeps_askPlain hr.removable fun _ =>
      ⟨notOpen_push hclosed ⟨rfl, rfl⟩, fun _ heq => by cases heq⟩
  | ok claimed =>
    obtain ⟨hid, -, -⟩ := hexpected claimed rfl
    have hclaimed : History.Claimed
        (⟨.claimChangeSetForApply changeSet.id changeSet.device .expected, .ok claimed⟩ :: h)
        claimed := ⟨_, _, _, mem_cons_self ..⟩
    have hlink : Justified C self (.applyChangeSet args) (⟨.claimChangeSetForApply changeSet.id
        changeSet.device .expected, .ok claimed⟩ :: h)
        (.updateChangeSet { claimed with operationId := some reserved.id }) :=
      .inr ⟨⟨args, rfl⟩, .linked claimed reserved.id hclaimed hr.drawn⟩
    refine keeps_attempt (keeps_call hlink fun answer _ => ?_)
    cases answer with
    | error error =>
      exact keeps_askPlain (hr.push (fun _ => rfl) ⟨rfl, rfl⟩).removable fun _ =>
        ⟨notOpen_push (notOpen_push hclosed ⟨rfl, rfl⟩) ⟨rfl, rfl⟩, fun _ heq => by cases heq⟩
    | ok =>
      refine ⟨notOpen_push hclosed ⟨rfl, rfl⟩, fun linked heq => ?_⟩
      cases heq
      refine ⟨hr.push (fun _ => rfl) ⟨rfl, rfl⟩, changeSet, claimed, ?_, hactions, ?_, hid, rfl⟩
      · exact (hchecked.push rfl).push rfl
      · exact ⟨_, _, _, mem_cons_of_mem _ (.head _)⟩

theorem reserve_keeps {endpoint : String} (he : Early h) (hchecked : ApplyChecked args h changeSet)
    (hactions : parseActions V 0 changeSet.actions = .ok actions) (hdrawn : h.Drawn operationId)
    (hguarded : h.Guarded args.device)
    (hendpoint : canonicalizeEndpoint C args.endpoint = .ok endpoint)
    (hfingerprint : validateFingerprint args.expectedFingerprint = .ok ()) :
    (reserve args endpoint operationId args.expectedFingerprint changeSet actions.length).Keeps
      (conduct C self (.applyChangeSet args)) h fun result h' => ¬ h'.LockOpen ∧
        ∀ linked, result = .ok linked →
          Reserved (reservation args endpoint operationId args.expectedFingerprint changeSet
            actions.length) h' ∧ Applying args actions operationId linked h' := by
  have hclosed := he.notOpen
  refine keeps_ask ⟨hguarded, fun a ha => (he a ha).2, .apply args operationId endpoint changeSet
    actions rfl hendpoint hdrawn hfingerprint hchecked hactions⟩ ?_
    fun _ _ _ => ⟨notOpen_push hclosed ⟨rfl, rfl⟩, fun _ heq => by cases heq⟩
  rintro _ _ - rfl
  have hclosed : ¬ History.LockOpen (⟨.insert (reservation args endpoint operationId
      args.expectedFingerprint changeSet actions.length), .ok ()⟩ :: h) :=
    notOpen_push hclosed ⟨rfl, rfl⟩
  have hr : Reserved (reservation args endpoint operationId args.expectedFingerprint changeSet
      actions.length) (⟨.insert (reservation args endpoint operationId args.expectedFingerprint
        changeSet actions.length), .ok ()⟩ :: h) :=
    ⟨rfl, mem_cons_of_mem _ hdrawn, false, ⟨rfl, mem_cons_of_mem _ hguarded⟩,
      fun hopen => absurd hopen hclosed⟩
  exact claimReserved_keeps hr hclosed (hchecked.push rfl) hactions

/-! ### The device -/

variable {reserved : OperationRecord} {linked : ChangeSetRecord} {actions : List V.Action}
  {α : Type}
variable {error : CoordinatorError} {owner before : String} {locked : Bool}

theorem abandonApply_keeps {Q : History V → Prop}
    (hremove : Justified C self (.applyChangeSet args) h (.remove reserved.id))
    (ha : Applying args actions reserved.id linked h) (hdrawn : h.Drawn reserved.id)
    (hQ : ∀ removed updated, Q (⟨.updateChangeSet { linked with state := .failed }, updated⟩ ::
      ⟨.remove reserved.id, removed⟩ :: h)) :
    (abandonApply reserved.id linked error : Method V α).Keeps
      (conduct C self (.applyChangeSet args)) h fun result h' =>
        result = .error error ∧ Q h' := by
  refine keeps_askPlain hremove fun removed => ?_
  refine keeps_attempt (keeps_call ((ha.push rfl).settles (.tail _ hdrawn)
    (.inl rfl)) fun updated _ => ?_)
  exact ⟨rfl, hQ removed updated⟩

theorem abandonClosed_keeps (hr : Reserved reserved h)
    (hclosed : ¬ h.LockOpen) (ha : Applying args actions reserved.id linked h) :
    (abandonApply reserved.id linked error : Method V α).Keeps
      (conduct C self (.applyChangeSet args)) h fun result h' =>
        result = .error error ∧ ¬ h'.LockOpen :=
  abandonApply_keeps hr.removable ha hr.drawn fun _ _ =>
    notOpen_push (notOpen_push hclosed ⟨rfl, rfl⟩) ⟨rfl, rfl⟩

theorem Reserved.reread {device : String} (hr : Reserved reserved h)
    (hexpected : Expected h (.record reserved.id owner device) (.ok record)) :
    ∃ configLockHeld, record = { reserved with configLockHeld } ∧
      Holding record (⟨.record reserved.id owner device, .ok record⟩ :: h) ∧
      (h.LockOpen → configLockHeld = true) := by
  obtain ⟨configLockHeld, hh, hlock⟩ := hr.held
  obtain ⟨-, -, -, hsame⟩ := hexpected record rfl
  obtain rfl := hsame _ hh.known hh.guarded rfl (by rw [hr.staging]; rfl)
  exact ⟨configLockHeld, rfl, ⟨rfl, mem_cons_of_mem _ hh.guarded⟩, hlock⟩

theorem Reserved.reheld {device : String} {configLockHeld : Bool} (hr : Reserved reserved h)
    (hh : Holding { reserved with configLockHeld }
      (⟨.record reserved.id owner device, .ok { reserved with configLockHeld }⟩ :: h))
    (hlock : h.LockOpen → configLockHeld = true) :
    Reserved reserved
      (⟨.record reserved.id owner device, .ok { reserved with configLockHeld }⟩ :: h) :=
  ⟨hr.staging, mem_cons_of_mem _ hr.drawn, configLockHeld, hh,
    fun hopen => hlock ((lockOpen_push ⟨rfl, rfl⟩).mp hopen)⟩

/-- How the piece that takes the lock ends. -/
structure LockDecided (args : ApplyArgs) (actions : List V.Action) (reserved : OperationRecord)
    (linked : ChangeSetRecord) (result : Except CoordinatorError Bool) (h : History V) : Prop where
  failed : ∀ error, result = .error error → ¬ h.LockOpen
  reserved : ∀ locked, result = .ok locked → Reserved reserved h ∧
    Applying args actions reserved.id linked h ∧ (locked = false → ¬ h.LockOpen)

theorem lockDecided_error (hclosed : ¬ h.LockOpen) :
    LockDecided args actions reserved linked (.error error) h :=
  ⟨fun _ _ => hclosed, fun _ heq => by cases heq⟩

theorem abandonUnlocked_keeps (hr : Reserved reserved h)
    (hclosed : ¬ h.LockOpen) (ha : Applying args actions reserved.id linked h) :
    (abandonApply reserved.id linked error : Method V Bool).Keeps
      (conduct C self (.applyChangeSet args)) h (LockDecided args actions reserved linked) := by
  refine (abandonClosed_keeps hr hclosed ha).mono ?_
  rintro _ h' ⟨rfl, hclosed⟩
  exact lockDecided_error hclosed

theorem takeLock_keeps (hh : Holding { reserved with configLockHeld := true } h)
    (hstaging : reserved.state = .staging) (hdrawn : h.Drawn reserved.id)
    (hclosed : ¬ h.LockOpen) (ha : Applying args actions reserved.id linked h) :
    (do
      let required ← Method.requiresConfigLock
      if required then
        let locked : Except String Unit ←
          Method.device (.lock ("mecmcp change set " ++ args.changeSetId))
        match locked with
        | .error error =>
          abandonApply reserved.id linked
            ⟨"config_lock", "could not acquire the device configuration lock: " ++ error⟩
        | .ok () => pure true
      else pure false : Method V Bool).Keeps
      (conduct C self (.applyChangeSet args)) h (LockDecided args actions reserved linked) := by
  refine keeps_askPlain trivial fun required => ?_
  have hr : ∀ h' : History V, Holding { reserved with configLockHeld := true } h' →
      h'.Drawn reserved.id → Reserved reserved h' :=
    fun h' hh' hdrawn' => ⟨hstaging, hdrawn', true, hh', fun _ => rfl⟩
  have hh : Holding { reserved with configLockHeld := true } (⟨.requiresConfigLock, required⟩ :: h) :=
    hh.push fun _ => rfl
  have hdrawn : History.Drawn (⟨.requiresConfigLock, required⟩ :: h) reserved.id :=
    mem_cons_of_mem _ hdrawn
  have hclosed : ¬ History.LockOpen (⟨.requiresConfigLock, required⟩ :: h) :=
    notOpen_push hclosed ⟨rfl, rfl⟩
  have ha : Applying args actions reserved.id linked (⟨.requiresConfigLock, required⟩ :: h) :=
    ha.push rfl
  cases required with
  | false => exact ⟨fun _ heq => (by cases heq), fun _ _ => ⟨hr _ hh hdrawn, ha, fun _ => hclosed⟩⟩
  | true =>
    refine keeps_device trivial fun answer => ?_
    cases answer with
    | error error =>
      exact abandonUnlocked_keeps (hr _ hh.device hdrawn.device)
        (fun hopen => hclosed ((lockOpen_device ⟨rfl, rfl⟩).mp hopen)) ha.device
    | ok =>
      refine ⟨fun _ heq => (by cases heq), fun locked heq =>
        ⟨hr _ hh.device hdrawn.device, ha.device, ?_⟩⟩
      cases heq
      intro hfalse
      cases hfalse

theorem lockDevice_keeps (hr : Reserved reserved h) (hclosed : ¬ h.LockOpen)
    (ha : Applying args actions reserved.id linked h) :
    (lockDevice args reserved.id linked).Keeps (conduct C self (.applyChangeSet args)) h
      (LockDecided args actions reserved linked) := by
  refine keeps_ask trivial ?_ fun _ _ _ => lockDecided_error (notOpen_push hclosed ⟨rfl, rfl⟩)
  rintro _ record hexpected rfl
  obtain ⟨configLockHeld, rfl, hh, hlock⟩ := hr.reread hexpected
  have hclosed : ¬ History.LockOpen (⟨.record reserved.id args.owner args.device,
      .ok { reserved with configLockHeld }⟩ :: h) := notOpen_push hclosed ⟨rfl, rfl⟩
  have hr := hr.reheld hh hlock
  have ha : Applying args actions reserved.id linked (⟨.record reserved.id args.owner args.device,
      .ok { reserved with configLockHeld }⟩ :: h) := ha.push rfl
  refine keeps_attempt (keeps_call (hr.write (.inl rfl) (.inl hr.staging)) fun answer _ => ?_)
  cases answer with
  | error error =>
    exact abandonUnlocked_keeps (hr.push (fun _ => rfl) ⟨rfl, rfl⟩)
      (notOpen_push hclosed ⟨rfl, rfl⟩) (ha.push rfl)
  | ok =>
    exact takeLock_keeps ⟨rfl, mem_cons_of_mem _ hr.guarded⟩ hr.staging
      (.tail _ hr.drawn) (notOpen_push hclosed ⟨rfl, rfl⟩) (ha.push rfl)

theorem unlockAndAbandon_keeps (hr : Reserved reserved h)
    (ha : Applying args actions reserved.id linked h) (hlocked : locked = false → ¬ h.LockOpen) :
    (unlockAndAbandon reserved.id linked locked error : Method V α).Keeps
      (conduct C self (.applyChangeSet args)) h fun result h' =>
        result = .error error ∧ Concluded (.applyChangeSet args) h' := by
  cases locked with
  | false =>
    exact (abandonClosed_keeps hr (hlocked rfl) ha).mono fun _ _ hended =>
      ⟨hended.1, .inl (lockKept_of_closed hended.2)⟩
  | true =>
    refine keeps_device trivial fun unlocked => ?_
    obtain ⟨configLockHeld, hh, -⟩ := hr.held
    refine abandonApply_keeps ⟨_, hh.device.known, hh.device.guarded, rfl, hr.staging⟩ ha.device
      hr.drawn.device fun removed updated => ?_
    have hended : (⟨.receive .unlock, unlocked⟩ : Answered V).NoLock →
        (⟨.receive .unlock, unlocked⟩ : Answered V).unlockUnconfirmed = true →
        Concluded (.applyChangeSet args)
          (⟨.updateChangeSet { linked with state := .failed }, updated⟩ ::
            ⟨.remove reserved.id, removed⟩ :: ⟨.receive .unlock, unlocked⟩ ::
            ⟨.send .unlock, ()⟩ :: h) := by
      intro hno hunconfirmed
      by_cases hopen : h.LockOpen
      · exact .inr ⟨[_, _], _, _, rfl, (lockOpen_push ⟨rfl, rfl⟩).mpr hopen, .inr hunconfirmed⟩
      · exact .inl (lockKept_of_closed (notOpen_push (notOpen_push
          (fun h => hopen ((lockOpen_device hno).mp h)) ⟨rfl, rfl⟩) ⟨rfl, rfl⟩))
    obtain error' | outcome := unlocked
    · exact hended ⟨rfl, rfl⟩ rfl
    · cases outcome with
      | unsupported => exact hended ⟨rfl, rfl⟩ rfl
      | released =>
        refine .inl (lockKept_of_closed (notOpen_push (notOpen_push ?_ ⟨rfl, rfl⟩) ⟨rfl, rfl⟩))
        rintro (hlocks | ⟨hnot, -⟩)
        · cases hlocks
        · exact hnot rfl

theorem checkUnmoved_keeps (hr : Reserved reserved h)
    (ha : Applying args actions reserved.id linked h) (hlocked : locked = false → ¬ h.LockOpen) :
    (checkUnmoved args reserved.id linked locked).Keeps
      (conduct C self (.applyChangeSet args)) h fun result h' =>
        (∀ error, result = .error error → Concluded (.applyChangeSet args) h') ∧
        ∀ value, result = .ok value → Reserved reserved h' ∧
          Applying args actions reserved.id linked h' := by
  refine keeps_device trivial fun preStage => ?_
  have hr : Reserved reserved (⟨.receive .fingerprint, preStage⟩ :: ⟨.send .fingerprint, ()⟩ :: h) :=
    hr.device ⟨rfl, rfl⟩
  have hlocked : locked = false → ¬ History.LockOpen
      (⟨.receive .fingerprint, preStage⟩ :: ⟨.send .fingerprint, ()⟩ :: h) :=
    fun hfalse hopen => hlocked hfalse ((lockOpen_device ⟨rfl, rfl⟩).mp hopen)
  have hgiveUp : ∀ error, (unlockAndAbandon reserved.id linked locked error : Method V Unit).Keeps
      (conduct C self (.applyChangeSet args))
      (⟨.receive .fingerprint, preStage⟩ :: ⟨.send .fingerprint, ()⟩ :: h) fun result h' =>
        (∀ error, result = .error error → Concluded (.applyChangeSet args) h') ∧
        ∀ value, result = .ok value → Reserved reserved h' ∧
          Applying args actions reserved.id linked h' := by
    intro error
    refine (unlockAndAbandon_keeps hr ha.device hlocked).mono ?_
    rintro _ h' ⟨rfl, hended⟩
    exact ⟨fun _ _ => hended, fun _ heq => by cases heq⟩
  cases preStage with
  | error error => exact hgiveUp _
  | ok fingerprint =>
    refine Prog.keeps_ite.mpr ⟨fun _ => hgiveUp _, fun _ => ?_⟩
    exact ⟨fun _ heq => (by cases heq), fun _ _ => ⟨hr, ha.device⟩⟩

theorem stageFailed_keeps {error : String} {refusal : Answered V}
    (hr : Reserved reserved (refusal :: h))
    (ha : Applying args actions reserved.id linked (refusal :: h)) (hno : refusal.NoLock)
    (hrefused : refusal.stageRefused = true) :
    (stageFailed reserved.id linked error : Method V α).Keeps
      (conduct C self (.applyChangeSet args)) (refusal :: h)
      fun _ => Concluded (.applyChangeSet args) := by
  have hended : ∀ rest : History V, (∀ answered ∈ rest, answered.NoLock) →
      Concluded (.applyChangeSet args) (rest ++ refusal :: h) := by
    intro rest hrest
    by_cases hopen : h.LockOpen
    · exact .inr ⟨rest, refusal, h, rfl, hopen, .inl hrefused⟩
    · exact .inl (lockKept_of_closed (notOpen_append (notOpen_push hopen hno) hrest))
  refine keeps_attempt (keeps_call (ha.settles hr.drawn (.inl rfl)) fun updated _ => ?_)
  refine keeps_askPlain (hr.push (fun _ => rfl) ⟨rfl, rfl⟩).removable fun removed => ?_
  refine keeps_ofExcept (fun _ _ => ?_) fun _ => hended [_, _] ?_
  · refine keeps_askPlain trivial fun _ => hended [_, _, _] ?_
    simp [Answered.NoLock, Answered.locks, Answered.releases]
  · simp [Answered.NoLock, Answered.locks, Answered.releases]

theorem fingerprintLost_keeps {error : String} (hr : Reserved reserved h)
    (hdevice : reserved.device = args.device) (ha : Applying args actions reserved.id linked h) :
    (fingerprintLost args reserved.id linked error : Method V α).Keeps
      (conduct C self (.applyChangeSet args)) h fun _ => Concluded (.applyChangeSet args) := by
  have hended : ∀ {h' : History V}, LockKept reserved.device h' →
      Concluded (.applyChangeSet args) h' := fun hkept => .inl (hdevice ▸ hkept)
  refine keeps_askPlain trivial fun taggedError => ?_
  have hr : Reserved reserved (⟨.renderTagged error "device.fingerprint_error", taggedError⟩ :: h) :=
    hr.push (fun _ => rfl) ⟨rfl, rfl⟩
  refine keeps_ask trivial ?_ ?_
  · rintro _ record hexpected rfl
    obtain ⟨configLockHeld, rfl, hh, hlock⟩ := hr.reread hexpected
    have hedge : lifecycleEdge reserved.state .indeterminate = true := by rw [hr.staging]; rfl
    refine keeps_ask ⟨_, hh.known, hh.guarded, operationWrite_plain hedge (by decide)
      (.inr ⟨hr.staging, mem_cons_of_mem _ hr.drawn⟩)⟩ ?_ ?_
    · rintro _ _ - rfl
      refine keeps_attempt (keeps_call ((((ha.push rfl).push rfl).push rfl).settles ?_ (.inl rfl))
        fun _ _ => hended fun hopen => ?_)
      · exact .tail _ (.tail _ hr.drawn)
      · rw [lockOpen_push ⟨rfl, rfl⟩, lockOpen_push ⟨rfl, rfl⟩, lockOpen_push ⟨rfl, rfl⟩] at hopen
        exact .inr ⟨_, rfl, mem_cons_of_mem _ (.tail _ hh.guarded), rfl,
          hlock hopen, rfl⟩
    · rintro _ _ rfl
      refine hended fun hopen => ?_
      rw [lockOpen_push ⟨rfl, rfl⟩, lockOpen_push ⟨rfl, rfl⟩] at hopen
      exact .inr ⟨_, rfl, mem_cons_of_mem _ hh.guarded, rfl, hlock hopen,
        by rw [hr.staging]; rfl⟩
  · rintro _ _ rfl
    exact hended (hr.push (fun _ => rfl) ⟨rfl, rfl⟩).lockKept

theorem recordApplied_keeps {details details' : Option String} {after : String}
    {output : Except CoordinatorError Unit → α} (hr : Reserved reserved h)
    (hdevice : reserved.device = args.device) (ha : Applying args actions reserved.id linked h)
    (hafter : h.Received .fingerprint (.ok after)) :
    (do
      let stagedRecord := { reserved with
        current := after, state := .staged, details, configLockHeld := true }
      let updated ← Prog.attempt (Method.update stagedRecord)
      match updated with
      | .ok () => pure ()
      | .error _ =>
        let _ ← Prog.attempt (Method.update
          { stagedRecord with state := .indeterminate, details := details' })
      let applied ← Prog.attempt (Method.updateChangeSet { linked with state := .applied })
      pure (output applied) : Method V α).Keeps
      (conduct C self (.applyChangeSet args)) h fun _ => Concluded (.applyChangeSet args) := by
  have hended : ∀ {h' : History V}, LockKept reserved.device h' →
      Concluded (.applyChangeSet args) h' := fun hkept => .inl (hdevice ▸ hkept)
  refine keeps_attempt (keeps_call (hr.write (.inr hafter) (.inr (.inl rfl))) fun answer _ => ?_)
  cases answer with
  | ok =>
    refine keeps_attempt (keeps_call ((ha.push rfl).settles (.tail _ hr.drawn)
      (.inr rfl)) fun _ _ => hended fun _ => .inr ?_)
    exact ⟨_, rfl, mem_cons_of_mem _ (.tail _ hr.guarded), rfl, rfl, rfl⟩
  | error error =>
    refine keeps_attempt (keeps_call ((hr.push (fun _ => rfl) ⟨rfl, rfl⟩).write
      (.inr (.tail _ hafter)) (.inr (.inr rfl))) fun answer _ => ?_)
    refine keeps_attempt (keeps_call (((ha.push rfl).push rfl).settles
      (.tail _ (.tail _ hr.drawn)) (.inr rfl))
        fun _ _ => hended fun _ => .inl ?_)
    exact ⟨_, mem_cons_of_mem _ (.tail _ (.head _)), rfl⟩

theorem stageReserved_keeps (hr : Reserved reserved h)
    (hdevice : reserved.device = args.device) (ha : Applying args actions reserved.id linked h) :
    (stageReserved args reserved.id before linked actions).Keeps
      (conduct C self (.applyChangeSet args)) h fun _ => Concluded (.applyChangeSet args) := by
  have hended : ∀ {h' : History V}, LockKept reserved.device h' →
      Concluded (.applyChangeSet args) h' := fun hkept => .inl (hdevice ▸ hkept)
  obtain ⟨record, claimed, hchecked, hactions, hclaimed, hid, -⟩ := ha.changeSet
  refine keeps_device (.inr ⟨args, record, claimed, rfl, hchecked.read, hchecked, hclaimed, hid,
    hactions⟩) fun stageResult => ?_
  have hr : Reserved reserved
      (⟨.receive (.stage actions), stageResult⟩ :: ⟨.send (.stage actions), ()⟩ :: h) :=
    hr.device ⟨rfl, rfl⟩
  have ha : Applying args actions reserved.id linked
      (⟨.receive (.stage actions), stageResult⟩ :: ⟨.send (.stage actions), ()⟩ :: h) := ha.device
  cases stageResult with
  | error error => exact stageFailed_keeps hr ha ⟨rfl, rfl⟩ rfl
  | ok staged =>
    refine keeps_device trivial fun after => ?_
    cases after with
    | error error => exact fingerprintLost_keeps (hr.device ⟨rfl, rfl⟩) hdevice ha.device
    | ok afterFingerprint =>
      refine keeps_ask trivial ?_ ?_
      · rintro _ record hexpected rfl
        obtain ⟨configLockHeld, rfl, hh, hlock⟩ := (hr.device ⟨rfl, rfl⟩).reread hexpected
        exact @recordApplied_keeps V C self args _ reserved linked actions _ _ _ _ _
          ((hr.device ⟨rfl, rfl⟩).reheld hh hlock) hdevice (ha.device.push rfl)
          (.tail _ (.head _))
      · rintro _ _ rfl
        exact hended ((hr.device ⟨rfl, rfl⟩).push (fun _ => rfl) ⟨rfl, rfl⟩).lockKept

theorem applyReserved_keeps (hr : Reserved reserved h) (hclosed : ¬ h.LockOpen)
    (hdevice : reserved.device = args.device) (ha : Applying args actions reserved.id linked h) :
    (do
      let locked ← lockDevice args reserved.id linked
      checkUnmoved args reserved.id linked locked
      stageReserved args reserved.id before linked actions).Keeps
      (conduct C self (.applyChangeSet args)) h fun _ => Concluded (.applyChangeSet args) := by
  refine keeps_then (lockDevice_keeps hr hclosed ha) (fun locked h₁ hdecided => ?_)
    fun error h₁ hdecided => .inl (lockKept_of_closed (hdecided.failed error rfl))
  obtain ⟨hr, ha, hlocked⟩ := hdecided.reserved locked rfl
  refine keeps_then (checkUnmoved_keeps hr ha hlocked) (fun _ h₂ hunmoved => ?_)
    fun error h₂ hunmoved => hunmoved.1 error rfl
  obtain ⟨hr, ha⟩ := hunmoved.2 _ rfl
  exact stageReserved_keeps hr hdevice ha

theorem applyChangeSet_keeps :
    (applyChangeSet (V := V) C self args).Keeps (conduct C self (.applyChangeSet args)) []
      fun _ => Concluded (.applyChangeSet args) := by
  have hended : ∀ {h : History V}, Early h → Concluded (.applyChangeSet args) h :=
    fun he => he.concluded
  have he : Early ([] : History V) := fun _ hmem => absurd hmem not_mem_nil
  refine keeps_check (fun _ => ?_) fun _ => hended he
  refine keeps_check (fun hfingerprint => ?_) fun _ => hended he
  rw [mapError_ok] at hfingerprint
  refine keeps_ofExcept (fun endpoint hendpoint => ?_) fun _ => hended he
  refine keeps_then (checkPlan_keeps he) (fun _ h he => ?_) fun _ _ he => hended he
  refine keeps_askEarly he trivial (fun _ => ⟨⟨rfl, rfl⟩, rfl⟩) ?_ fun _ _ he => hended he
  rintro _ _ he - rfl
  refine keeps_checkCancelled (fun cancelled => ?_) fun _ _ => hended (he.push ⟨rfl, rfl⟩ rfl)
  have he : Early (⟨.isCancelled, cancelled⟩ :: ⟨.deviceGuard args.device, .ok ()⟩ :: h) :=
    he.push ⟨rfl, rfl⟩ rfl
  refine keeps_then (checkPlanGuarded_keeps he) (fun changeSet h₁ hplan => ?_)
    fun _ _ hplan => hended hplan.1
  obtain ⟨he, hplan⟩ := hplan
  obtain ⟨hchecked, hkept⟩ := hplan changeSet rfl
  have hguarded : h₁.Guarded args.device := hkept _ (.tail _ (.head _))
  refine keeps_device trivial fun before => ?_
  have he : Early (⟨.receive .fingerprint, before⟩ :: ⟨.send .fingerprint, ()⟩ :: h₁) :=
    (he.push ⟨rfl, rfl⟩ rfl).push ⟨rfl, rfl⟩ rfl
  refine keeps_ofExcept (fun beforeFingerprint _ => ?_) fun _ => hended he
  refine keeps_check (fun hsame => ?_) fun _ => hended he
  rw [refuseIf_ok, not_not] at hsame
  subst hsame
  refine keeps_check (fun _ => ?_) fun _ => hended he
  refine keeps_ofExcept (fun actions hactions => ?_) fun _ => hended he
  refine keeps_askEarly he trivial (fun _ => ⟨⟨rfl, rfl⟩, rfl⟩) ?_ fun _ _ he => hended he
  rintro _ operationId he - rfl
  refine keeps_then (reserve_keeps he (((hchecked.push rfl).push rfl).push rfl) hactions
    (.head _) ?_ hendpoint hfingerprint) (fun linked h₂ hreserved => ?_)
    fun _ _ hreserved => .inl (lockKept_of_closed hreserved.1)
  · exact .tail _ (.tail _ (.tail _ hguarded))
  · obtain ⟨hr, ha⟩ := hreserved.2 linked rfl
    exact applyReserved_keeps hr hreserved.1 rfl ha

/-! ### Every method -/

theorem program_keeps (request : Request V) :
    (request.program C self).Keeps (conduct C self request) [] fun _ => Concluded request := by
  cases request with
  | createChangeSet => exact createChangeSet_keeps.discard
  | approveChangeSet => exact approveChangeSet_keeps.discard
  | waiveApproval => exact waiveApproval_keeps.discard
  | waiveApprovalOperator => exact waiveApprovalOperator_keeps.discard
  | changeSetStatus => exact changeSetStatus_keeps.discard
  | changeSetStatusWithActions => exact changeSetStatusWithActions_keeps.discard
  | cancelChangeSet => exact cancelChangeSet_keeps.discard
  | insertChangeSet | updateChangeSet | updateChangeSetFrom =>
    exact keeps_call (.inl rfl) fun _ _ => trivial
  | claimChangeSetForApply id device handle =>
    exact Prog.Keeps.discard (keeps_call (.inl rfl) fun _ _ => trivial)
  | applyChangeSet args => exact applyChangeSet_keeps.discard
  | stageOperation args => exact stageOperation_keeps.discard
  | diffOperation args staged => exact diffOperation_keeps.discard
  | validateOperation args staged => exact validateOperation_keeps.discard
  | commitOperation args => exact commitOperation_keeps.discard
  | discardOperation args => exact discardOperation_keeps.discard

end Mecmcp.Changeset
