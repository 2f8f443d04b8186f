import Mecmcp.Changeset.System
import Mecmcp.Lib.History

/-!
# Conduct — what a method does with what it has been told

Between two calls of a method anything can happen in the world, so what a method writes or sends can
only be justified by what it has been answered so far, its `History`.  `Justified` says, for each
kind of call, what the history and the request must look like when a method makes it: which record
a write is derived from and how, which operation is being moved along its lifecycle and why, what a
claim, a stage or a commit rests on.  `Expected` is what the world guarantees about the answers.

This is the only description of the methods that the results about runs use; that every method
keeps to it is proved once, program by program.
-/

namespace Mecmcp.Changeset

structure Answered (V : Vendor) where
  call : Call V
  answer : call.Answer

/-- The answered calls of one method, newest first. -/
abbrev History (V : Vendor) : Type := List (Answered V)

variable {V : Vendor}

/-! ### Reading a history -/

namespace Answered

def reading : Answered V → Option UInt64
  | ⟨.nowUnix, answer⟩ => Except.toOption answer
  | _ => none

/-- The operation record last read or written, given the one before. -/
def knows : Answered V → Option OperationRecord → Option OperationRecord
  | ⟨.record _ _ _, answer⟩, known => (Except.toOption answer).or known
  | ⟨.insert record, answer⟩, known => if Except.isOk answer then some record else known
  | ⟨.update record, answer⟩, known => if Except.isOk answer then some record else known
  | ⟨.remove _, _⟩, _ => none
  -- what was read before the guard was taken may have changed since
  | ⟨.deviceGuard _, _⟩, _ => none
  | _, known => known

def writes : Answered V → Option OperationRecord → Option OperationRecord
  | ⟨.update record, answer⟩, written => if Except.isOk answer then some record else written
  | ⟨.record _ _ _, _⟩, _ | ⟨.insert _, _⟩, _ | ⟨.remove _, _⟩, _ | ⟨.deviceGuard _, _⟩, _ => none
  | _, written => written

/-- The device granted its configuration lock. -/
def locks : Answered V → Bool
  | ⟨.receive (.lock _), answer⟩ => Except.isOk answer
  | _ => false

/-- The device confirmed that the lock is released. -/
def releases : Answered V → Bool
  | ⟨.receive .unlock, answer⟩ => match answer with
    | .ok .released => true
    | _ => false
  | _ => false

def insertsOperation : Answered V → Bool
  | ⟨.insert _, _⟩ => true
  | _ => false

def insertsChangeSet : Answered V → Bool
  | ⟨.insertChangeSet _, _⟩ => true
  | _ => false

/-- A write of an operation record failed. -/
def updateFailed : Answered V → Bool
  | ⟨.update _, answer⟩ => !Except.isOk answer
  | _ => false

def stageRefused : Answered V → Bool
  | ⟨.receive (.stage _), answer⟩ => !Except.isOk answer
  | _ => false

/-- The device did not confirm that the lock is released. -/
def unlockUnconfirmed : Answered V → Bool
  | ⟨.receive .unlock, answer⟩ => match answer with
    | .ok .released => false
    | _ => true
  | _ => false

/-- A commit or a rollback was sent to the device. -/
def sendsOutcome : Answered V → Bool
  | ⟨.send (.commit _ _ _), _⟩ | ⟨.send (.rollback _), _⟩ => true
  | _ => false

end Answered

namespace History

def Read (h : History V) (record : ChangeSetRecord) : Prop :=
  ∃ id device, (⟨.changeSet id device, .ok record⟩ : Answered V) ∈ h

def Claimed (h : History V) (record : ChangeSetRecord) : Prop :=
  ∃ id device handle, (⟨.claimChangeSetForApply id device handle, .ok record⟩ : Answered V) ∈ h

/-- The clock was read. -/
def Now (h : History V) (now : UInt64) : Prop := (⟨.nowUnix, .ok now⟩ : Answered V) ∈ h

def Drawn (h : History V) (id : String) : Prop := (⟨.newOperationId, .ok id⟩ : Answered V) ∈ h

/-- The guard of the device was taken; it is held until the method ends. -/
def Guarded (h : History V) (device : String) : Prop :=
  (⟨.deviceGuard device, .ok ()⟩ : Answered V) ∈ h

def Received (h : History V) (rpc : Rpc V) (answer : rpc.Answer) : Prop :=
  (⟨.receive rpc, answer⟩ : Answered V) ∈ h

def lastReading (h : History V) : Option UInt64 := h.findSome? Answered.reading

def known : History V → Option OperationRecord
  | [] => none
  | answered :: h => answered.knows (known h)

/-- The operation record known, if the method itself wrote it. -/
def written : History V → Option OperationRecord
  | [] => none
  | answered :: h => answered.writes (written h)

/-- The device granted its lock, and has not confirmed a release since. -/
def LockOpen (h : History V) : Prop :=
  Since (fun answered => answered.locks = true) (fun answered => answered.releases = true) h

end History

/-! ### Writes of change sets -/

/-- The record `create_change_set` inserts. -/
structure Created (C : Crates) (self : Config) (request : Request V) (h : History V)
    (record : ChangeSetRecord) : Prop where
  planned : ∃ device actions owner expectedFingerprint policySignature now id values onError,
    request = .createChangeSet device actions owner expectedFingerprint policySignature ∧
    h.Now now ∧ h.Drawn id ∧ (∀ answered ∈ h, answered.insertsChangeSet = false) ∧
    validateFingerprint expectedFingerprint = .ok () ∧
    validateChangeSetActions actions self.limits = .ok () ∧
    actionValues onError actions = .ok values ∧
    record = plannedRecord C self now id owner device expectedFingerprint policySignature values

/-- What `apply_change_set` writes over a change set: the expiry of one it read `Approved`, and the
link to the operation and the outcome of the one it claimed. -/
inductive ApplyWrite (h : History V) : ChangeSetRecord → Prop where
  | expired (record : ChangeSetRecord) (hread : h.Read record) :
      ApplyWrite h { record with state := .expired }
  | linked (claimed : ChangeSetRecord) (operationId : String) (hclaimed : h.Claimed claimed)
      (hdrawn : h.Drawn operationId) :
      ApplyWrite h { claimed with operationId := some operationId }
  | settled (claimed : ChangeSetRecord) (operationId : String) (state : ChangeSetState)
      (hclaimed : h.Claimed claimed) (hdrawn : h.Drawn operationId)
      (hstate : state = .failed ∨ state = .applied) :
      ApplyWrite h { claimed with operationId := some operationId, state }

/-- What the other methods write over a change set they read in the state `observed`. -/
inductive LifecycleWrite (C : Crates) (self : Config) (request : Request V) (h : History V)
    (record : ChangeSetRecord) : ChangeSetRecord → Prop where
  | retired (state : ChangeSetState) (hstate : state = .expired ∨ state = .cancelled) :
      LifecycleWrite C self request h record { record with state }
  | approved (device approver expectedDigest : String) (now : UInt64)
      (hrequest : request = .approveChangeSet record.id device approver expectedDigest .human)
      (hplanned : record.state = .planned) (hnow : h.Now now) (hopen : now < record.expiresAtUnix)
      (hother : record.owner ≠ approver)
      (howner : validatePrincipalForDigest C "owner" record.owner = .ok ())
      (happrover : validatePrincipalForDigest C "approver" approver = .ok ())
      (hpreview : record.validatePreview C usizeMax = .ok ()) :
      LifecycleWrite C self request h record
        (record.approvedBy C self record.id approver now)
  | waived (waiver : WaiverRecord) (now : UInt64) (hplanned : record.state = .planned)
      (hnow : h.Now now) (hopen : now < record.expiresAtUnix)
      (hexpiry : waiver.expiresAtUnix.any (· ≤ now) = false) :
      LifecycleWrite C self request h record (record.waivedBy C record.id waiver now)

/-- What `apply_change_set` checked on the change set it will apply: it is the one its caller named,
`Approved`, and its deadlines have not come at the clock's last reading. -/
structure ApplyChecked (args : ApplyArgs) (h : History V) (record : ChangeSetRecord) : Prop where
  read : h.Read record
  id : record.id = args.changeSetId
  device : record.device = args.device
  owner : record.owner = args.owner
  approved : record.state = .approved
  digest : record.digest = args.expectedDigest
  fingerprint : record.expectedCandidateFingerprint = args.expectedFingerprint
  reading : ∃ now, h.lastReading = some now ∧ now < record.expiresAtUnix ∧
    waiverLapsed record now = false

/-! ### Writes of operations -/

def Request.operationId : Request V → Option String
  | diffOperation args _ | validateOperation args _ | discardOperation args => some args.operationId
  | commitOperation args => some args.operationId
  | _ => none

inductive Reserves (C : Crates) (request : Request V) (h : History V) : OperationRecord → Prop where
  | stage (args : StageArgs V) (operationId endpoint : String) (values : List Value)
      (onError : String → CoordinatorError) (hrequest : request = .stageOperation args)
      (hendpoint : canonicalizeHttpsEndpoint C args.endpoint = .ok endpoint)
      (hdrawn : h.Drawn operationId)
      (hfingerprint : validateFingerprint args.expectedFingerprint = .ok ())
      (hactions : args.actions ≠ []) (hvalues : actionValues onError args.actions = .ok values) :
      Reserves C request h (args.record operationId endpoint values)
  | apply (args : ApplyArgs) (operationId endpoint : String) (changeSet : ChangeSetRecord)
      (actions : List V.Action) (hrequest : request = .applyChangeSet args)
      (hendpoint : canonicalizeEndpoint C args.endpoint = .ok endpoint)
      (hdrawn : h.Drawn operationId)
      (hfingerprint : validateFingerprint args.expectedFingerprint = .ok ())
      (hchecked : ApplyChecked args h changeSet)
      (hactions : parseActions V 0 changeSet.actions = .ok actions) :
      Reserves C request h
        (reservation args endpoint operationId args.expectedFingerprint changeSet actions.length)

/-- The edges of an operation's lifecycle, as the methods write them. -/
def lifecycleEdge (source target : LifecycleState) : Bool :=
  match source, target with
  | .staging, .staging | .staging, .staged | .staging, .indeterminate => true
  | .staged, .validating | .validating, .validated | .validating, .failed => true
  | .validated, .committing => true
  | .committing, .committing | .committing, .committed | .committing, .failed
  | .committing, .indeterminate => true
  | .staged, .indeterminate | .validated, .indeterminate | .failed, .indeterminate => true
  | .indeterminate, .indeterminate | .indeterminate, .failed | .indeterminate, .discarded => true
  | _, _ => false

structure OperationWrite (request : Request V) (h : History V) (before after : OperationRecord) :
    Prop where
  id : after.id = before.id
  owner : after.owner = before.owner
  device : after.device = before.device
  endpoint : after.endpoint = before.endpoint
  actions : after.actions = before.actions
  current : after.current = before.current ∨ h.Received .fingerprint (.ok after.current)
  edge : lifecycleEdge before.state after.state = true
  named : request.operationId = some before.id ∨
    before.state = .staging ∧ after.state ≠ .validated ∧ h.Drawn before.id
  validated : after.state = .validated →
    ∃ args staged result, request = .validateOperation args staged ∧
      h.Received (.validate staged) (.ok result)
  /-- once the commit was sent the record may stay `Committing` -/
  committing : after.state = .committing →
    before.state = .validated ∨ ∃ answered ∈ h, answered.sendsOutcome = true
  committed : after.state = .committed → after.configLockHeld = false ∧
    ∃ args jobId details, request = .commitOperation args ∧
      (⟨.receiveOrCancelled (.commit args.staged args.attribution args.options),
        some (.ok (.reconciled true jobId details))⟩ : Answered V) ∈ h
  discarded : after.state = .discarded → after.configLockHeld = false ∧
    ∃ args details, request = .discardOperation args ∧
      h.Received (.rollback .candidateRevert) (.ok ⟨true, details⟩) ∧
      h.Received .unlock (.ok .released)

/-! ### The discipline -/

def Justified (C : Crates) (self : Config) (request : Request V) (h : History V) :
    Call V → Prop
  | .insertChangeSet record => request = .insertChangeSet record ∨ Created C self request h record
  | .updateChangeSet record => request = .updateChangeSet record ∨
      (∃ args, request = .applyChangeSet args) ∧ ApplyWrite h record
  | .updateChangeSetFrom observed record => request = .updateChangeSetFrom observed record ∨
      ∃ before, h.Read before ∧ observed = before.state ∧
        LifecycleWrite C self request h before record
  | .claimChangeSetForApply id device handle =>
      request = .claimChangeSetForApply id device handle ∨
      ∃ args record, request = .applyChangeSet args ∧ ApplyChecked args h record ∧
        id = record.id ∧ device = record.device
  | .insert record => h.Guarded record.device ∧
      (∀ answered ∈ h, answered.insertsOperation = false) ∧ Reserves C request h record
  | .update record => ∃ before, h.known = some before ∧ h.Guarded before.device ∧
      OperationWrite request h before record
  | .remove operationId => ∃ before, h.known = some before ∧ h.Guarded before.device ∧
      before.id = operationId ∧ before.state = .staging
  | .send (.stage actions) =>
      (∃ args, request = .stageOperation args ∧ actions = args.actions) ∨
      ∃ args record claimed, request = .applyChangeSet args ∧ h.Read record ∧
        ApplyChecked args h record ∧ h.Claimed claimed ∧ claimed.id = record.id ∧
        parseActions V 0 record.actions = .ok actions
  | .send (.commit _ _ _) => ∃ record, h.written = some record ∧ h.Guarded record.device ∧
      request.operationId = some record.id ∧ record.state = .committing ∧
      ∀ answered ∈ h, answered.sendsOutcome = false
  | .send (.rollback _) => ∃ record, h.written = some record ∧ h.Guarded record.device ∧
      request.operationId = some record.id ∧ record.state = .indeterminate
  | _ => True

/-- A lock the device granted is released, or on record; unless the record could not be written. -/
def LockKept (device : String) (h : History V) : Prop :=
  h.LockOpen → (∃ answered ∈ h, answered.updateFailed = true) ∨
    ∃ record, h.known = some record ∧ h.Guarded record.device ∧ record.device = device ∧
      record.configLockHeld = true ∧ record.state.terminal = false

/-- With the lock held, the device refused to stage or did not confirm the release. -/
def LockLost (h : History V) : Prop :=
  ∃ newer answered older, h = newer ++ answered :: older ∧ History.LockOpen older ∧
    (answered.stageRefused = true ∨ answered.unlockUnconfirmed = true)

/-- How a method ends.  An apply forgets the lock where the device refuses to stage, and where it
gives up and the device does not confirm the release. -/
def Concluded (request : Request V) (h : History V) : Prop :=
  match request with
  | .stageOperation args => LockKept args.device h
  | .applyChangeSet args => LockKept args.device h ∨ LockLost h
  | _ => True

/-- What the world guarantees about answers: a record read or claimed is the one asked for, and an
operation record read again under its guard is the one known, unless it may have been evicted. -/
def Expected (h : History V) : (c : Call V) → c.Answer → Prop
  | .changeSet id device, answer => ∀ record, answer = .ok record →
      record.id = id ∧ record.device = device
  | .claimChangeSetForApply id device _, answer => ∀ record, answer = .ok record →
      record.id = id ∧ record.device = device ∧ record.state = .applying
  | .record operationId owner device, answer => ∀ record, answer = .ok record →
      record.id = operationId ∧ record.owner = owner ∧ record.device = device ∧
        ∀ before, h.known = some before → h.Guarded before.device → before.id = operationId →
          before.state.terminal = false → record = before
  | _, _ => True

/-- The discipline of the coordinator's methods. -/
def conduct (C : Crates) (self : Config) (request : Request V) :
    Discipline (calls V) (History V) where
  allowed h c := Justified C self request h c
  expected h c answer := Expected h c answer
  next h c answer := ⟨c, answer⟩ :: h

/-! ### Rules

How a program is walked through: one rule for each way a call is used. -/

variable {C : Crates} {self : Config} {request : Request V} {h : History V} {α β : Type}
  {Q : Except CoordinatorError α → History V → Prop}
variable {p : Method V β} {f : β → Method V α} {c : Call V} {rpc : Rpc V}

theorem keeps_then {R : Except CoordinatorError β → History V → Prop}
    (hp : p.Keeps (conduct C self request) h R)
    (hok : ∀ value h', R (.ok value) h' → (f value).Keeps (conduct C self request) h' Q)
    (herror : ∀ error h', R (.error error) h' → Q (.error error) h') :
    (p >>= f).Keeps (conduct C self request) h Q := by
  rw [Prog.keeps_bind]
  refine hp.mono fun result h' hR => ?_
  cases result with
  | ok value => exact hok value h' hR
  | error error => exact herror error h' hR

theorem keeps_attempt {f : Except CoordinatorError β → Method V α}
    (hp : p.Keeps (conduct C self request) h fun result h' =>
      (f result).Keeps (conduct C self request) h' Q) :
    (Prog.attempt p >>= f).Keeps (conduct C self request) h Q := by
  rw [Prog.keeps_bind, Prog.keeps_attempt]
  exact hp

theorem keeps_ofExcept {result : Except CoordinatorError β}
    (hok : ∀ value, result = .ok value → (f value).Keeps (conduct C self request) h Q)
    (herror : ∀ error, Q (.error error) h) :
    (Prog.ofExcept result >>= f).Keeps (conduct C self request) h Q := by
  cases result with
  | ok value => exact hok value rfl
  | error error => exact herror error

theorem keeps_check {result : Except CoordinatorError Unit} {f : Unit → Method V α}
    (hok : result = .ok () → (f ()).Keeps (conduct C self request) h Q)
    (herror : ∀ error, Q (.error error) h) :
    (Method.check result >>= f).Keeps (conduct C self request) h Q :=
  keeps_ofExcept (fun _ => hok) herror

theorem keeps_call {result : c.Answer → Except CoordinatorError α}
    (hcall : Justified C self request h c)
    (hanswer : ∀ answer, Expected h c answer → Q (result answer) (⟨c, answer⟩ :: h)) :
    (Method.ask c >>= fun answer => Prog.ofExcept (result answer)).Keeps
      (conduct C self request) h Q :=
  ⟨hcall, fun answer hexpected => Prog.keeps_ofExcept.mpr (hanswer answer hexpected)⟩

theorem keeps_ask {result : c.Answer → Except CoordinatorError β}
    (hcall : Justified C self request h c)
    (hok : ∀ answer value, Expected h c answer → result answer = .ok value →
      (f value).Keeps (conduct C self request) (⟨c, answer⟩ :: h) Q)
    (herror : ∀ answer error, result answer = .error error →
      Q (.error error) (⟨c, answer⟩ :: h)) :
    ((Method.ask c >>= fun answer => Prog.ofExcept (result answer)) >>= f).Keeps
      (conduct C self request) h Q := by
  refine ⟨hcall, fun answer hexpected => ?_⟩
  show (Prog.ofExcept (result answer) >>= f).Keeps (conduct C self request) (⟨c, answer⟩ :: h) Q
  cases hresult : result answer with
  | ok value => exact hok answer value hexpected hresult
  | error error => exact herror answer error hresult

theorem keeps_askPlain {f : c.Answer → Method V α} (hcall : Justified C self request h c)
    (hanswer : ∀ answer, (f answer).Keeps (conduct C self request) (⟨c, answer⟩ :: h) Q) :
    (Method.ask c >>= f).Keeps (conduct C self request) h Q :=
  ⟨hcall, fun answer _ => hanswer answer⟩

theorem keeps_checkCancelled {f : Unit → Method V α}
    (hok : ∀ cancelled, (f ()).Keeps (conduct C self request) (⟨.isCancelled, cancelled⟩ :: h) Q)
    (herror : ∀ cancelled error, Q (.error error) (⟨.isCancelled, cancelled⟩ :: h)) :
    (checkCancelled >>= f).Keeps (conduct C self request) h Q := by
  refine keeps_then (R := fun _ h' => ∃ cancelled, h' = ⟨.isCancelled, cancelled⟩ :: h) ?_ ?_ ?_
  · exact keeps_askPlain trivial fun cancelled => Prog.keeps_ofExcept.mpr ⟨cancelled, rfl⟩
  · rintro _ _ ⟨cancelled, rfl⟩
    exact hok cancelled
  · rintro error _ ⟨cancelled, rfl⟩
    exact herror cancelled error

theorem keeps_device {f : rpc.Answer → Method V α} (hcall : Justified C self request h (.send rpc))
    (hanswer : ∀ answer, (f answer).Keeps (conduct C self request)
      (⟨.receive rpc, answer⟩ :: ⟨.send rpc, ()⟩ :: h) Q) :
    (Method.device rpc >>= f).Keeps (conduct C self request) h Q :=
  ⟨hcall, fun _ _ => ⟨trivial, fun answer _ => hanswer answer⟩⟩

theorem keeps_deviceOrCancelled {f : Option rpc.Answer → Method V α}
    (hcall : Justified C self request (⟨.cancelledFirst, false⟩ :: h) (.send rpc))
    (hfirst : (f none).Keeps (conduct C self request) (⟨.cancelledFirst, true⟩ :: h) Q)
    (hanswer : ∀ answer, (f answer).Keeps (conduct C self request)
      (⟨.receiveOrCancelled rpc, answer⟩ :: ⟨.send rpc, ()⟩ :: ⟨.cancelledFirst, false⟩ :: h) Q) :
    (Method.deviceOrCancelled rpc >>= f).Keeps (conduct C self request) h Q := by
  refine ⟨trivial, fun cancelled _ => ?_⟩
  cases cancelled with
  | true => exact hfirst
  | false => exact ⟨hcall, fun _ _ => ⟨trivial, fun answer _ => hanswer answer⟩⟩

theorem keeps_deviceOk {result : rpc.Answer → Except String β} {onError : String → CoordinatorError}
    (hcall : Justified C self request h (.send rpc))
    (hok : ∀ answer value, result answer = .ok value → (f value).Keeps (conduct C self request)
      (⟨.receive rpc, answer⟩ :: ⟨.send rpc, ()⟩ :: h) Q)
    (herror : ∀ answer error, result answer = .error error →
      Q (.error (onError error)) (⟨.receive rpc, answer⟩ :: ⟨.send rpc, ()⟩ :: h)) :
    (deviceOk rpc result onError >>= f).Keeps (conduct C self request) h Q := by
  refine ⟨hcall, fun _ _ => ⟨trivial, fun answer _ => ?_⟩⟩
  show (Prog.ofExcept ((result answer).mapError onError) >>= f).Keeps (conduct C self request)
    (⟨.receive rpc, answer⟩ :: ⟨.send rpc, ()⟩ :: h) Q
  cases hresult : result answer with
  | ok value => exact hok answer value hresult
  | error error => exact herror answer error hresult

theorem keeps_report {evidence : Evidence} {f : Except String Unit → Method V α}
    (hanswer : ∀ answer, (f answer).Keeps (conduct C self request)
      (⟨.evidence evidence, answer⟩ :: h) Q)
    (hnone : (f (.ok ())).Keeps (conduct C self request) h Q) :
    (Method.report self evidence >>= f).Keeps (conduct C self request) h Q := by
  by_cases hself : self.evidence = true
  · have hreport : Method.report self evidence = (Method.ask (.evidence evidence) : Method V _) :=
      if_pos hself
    rw [hreport]
    exact keeps_askPlain trivial hanswer
  · have hreport : Method.report self evidence = (pure (.ok ()) : Method V _) := if_neg hself
    rw [hreport]
    exact hnone

end Mecmcp.Changeset
