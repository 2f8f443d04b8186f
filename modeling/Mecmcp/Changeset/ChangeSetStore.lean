import Mecmcp.Changeset.Store

/-!
# ChangeSetStore — writing change sets

`insert_change_set`, `claim_change_set_for_apply`, `update_change_set_from` and
`update_change_set`, with the check every write of an existing change set passes
(`check_change_set_write`).  Each section has one inversion lemma (`…_cases`) that lists what it
can do; every invariant of the store is derived from those.
-/

namespace Mecmcp.Changeset

open List Option

variable {C : Crates} {self : Config} {record : ChangeSetRecord}

/-! ### The write check -/

/-- Which door a write comes through. -/
inductive WriteVia where
  | update | applyClaim
  deriving DecidableEq

/-- `normalise_apply_marker`: only an `Applying` record carries the no-handle marker. -/
def normaliseApplyMarker (record : ChangeSetRecord) : ChangeSetRecord :=
  if record.state ≠ .applying then { record with applyWithoutHandle := false } else record

/-- Both normalisations, in the order every writer applies them. -/
def normaliseRecord (record : ChangeSetRecord) : ChangeSetRecord :=
  normaliseApplyMarker (normaliseTaskHandle record)

section
variable (C : Crates)

/-- What a granted approval freezes: itself, if a principal gave it, and the preview it binds. -/
def checkGrantedApproval (current next : ChangeSetRecord) (approval : ApprovalRecord) :
    Except CoordinatorError Unit := do
  refuseIf (approval.approver.isSome = true ∧ next.approval ≠ some approval)
    ⟨"approval", "an approval cannot be rewritten or removed once granted; plan the operation again to produce a new one"⟩
  refuseIf (5 ≤ approval.digestVersion ∧ current.previewDigest ≠ next.previewDigest)
    ⟨"preview", "the preview is bound by an approval and cannot be changed; plan the operation again to produce a new one"⟩

/-- `check_change_set_write` on a record that exists. -/
def checkExistingWrite (current next : ChangeSetRecord) (via : WriteVia) :
    Except CoordinatorError Unit := do
  refuseIf (next.owner ≠ current.owner ∨ next.device ≠ current.device ∨ next.digest ≠ current.digest)
    ⟨"change_set_id", "a change set's owner, device and plan digest are fixed at creation; plan the operation again"⟩
  if current.state = .approved ∧ next.state = .applying then
    refuseIf (via ≠ .applyClaim)
      ⟨"state", "Approved -> Applying must go through claim_change_set_for_apply; writing it here reintroduces the race where two applies both read Approved and both execute"⟩
  else do
    (next.validatePreview C usizeMax).mapError fun error =>
      ⟨"preview", "the preview is invalid: " ++ error.display⟩
    current.approval.elim (.ok ()) (checkGrantedApproval current next)
    refuseIf (next.approval.bind (·.approver) = some next.owner)
      ⟨"approval", "the change-set owner cannot approve their own plan"⟩
    refuseIf (next.approver = some next.owner)
      ⟨"approver", "the change-set owner cannot approve their own plan"⟩
    refuseIf (changeSetTransitionAllowed current.state next.state = false)
      ⟨"state", current.state.debug ++ " -> " ++ next.state.debug
        ++ " is not a permitted change-set transition"⟩
    refuseIf (current.state = .applying ∧ next.state = .applying ∧
        current.applyWithoutHandle = true ∧ next.applyWithoutHandle = false)
      ⟨"state", "an in-flight apply with no vendor handle cannot have that marker cleared: whether the operation ran is unknown, and clearing it would permit a second execution"⟩

def checkChangeSetWrite (current : Option ChangeSetRecord) (next : ChangeSetRecord)
    (via : WriteVia) : Except CoordinatorError Unit :=
  match current with
  | none => .error ⟨"change_set_id", "unknown change set; update does not create, and a change set is created Planned through insert_change_set"⟩
  | some current => checkExistingWrite C current next via

end

/-! ### The sections -/

/-- `ChangesetCoordinator::change_set`. -/
def readChangeSet (store : Store C) (id device : String) :
    Except CoordinatorError ChangeSetRecord := do
  validateOperationId id
  match store.mem.changeSets[id]? with
  | none => .error ⟨"change_set_id", "unknown change set"⟩
  | some record =>
    if record.device ≠ device then
      .error ⟨"change_set_id", "change set belongs to another device"⟩
    else .ok record

/-- The deadline of the record has come: its approval window, or the expiry of its waiver. -/
def ChangeSetRecord.due (record : ChangeSetRecord) (now : UInt64) : Bool :=
  isExpirable record.state && (decide (record.expiresAtUnix ≤ now) || waiverLapsed record now)

/-- The sweep of `insert_change_set` on one record. -/
def ChangeSetRecord.swept (record : ChangeSetRecord) (now : UInt64) : ChangeSetRecord :=
  if record.due now then { record with state := .expired } else record

/-- States a full store may evict. -/
def isSettled : ChangeSetState → Bool
  | .applied | .expired | .failed | .cancelled => true
  | _ => false

def sweepAndEvict (self : Config) (now : UInt64) (state : ChangesetState) : ChangesetState :=
  let swept := state.changeSets.map fun _ record => record.swept now
  { state with changeSets :=
      if swept.size ≥ self.limits.maxChangeSets then
        swept.filter fun _ record => !isSettled record.state
      else swept }

/-- The records the eviction took out, as they were after the sweep. -/
def evicted (self : Config) (now : UInt64) (state : ChangesetState) :
    Std.ExtTreeMap String ChangeSetRecord :=
  let swept := state.changeSets.map fun _ record => record.swept now
  if swept.size ≥ self.limits.maxChangeSets then
    swept.filter fun _ record => isSettled record.state
  else ∅

/-- The undo of a sweep that could not be written: retired records that are still there get their
state back, then evicted records are inserted again, in the state the sweep left them in. -/
def undoSweep (self : Config) (now : UInt64) (state : ChangesetState) : ChangesetState :=
  let retired := state.changeSets.filterMap fun _ record =>
    if record.due now then some record.state else none
  let restored := (sweepAndEvict self now state).changeSets.map fun id record =>
    match retired[id]? with
    | some previous => { record with state := previous }
    | none => record
  { state with changeSets :=
      restored.insertMany ((evicted self now state).toList.map fun entry => (entry.2.id, entry.2)) }

/-- Something was retired or evicted. -/
def sweptAny (self : Config) (now : UInt64) (state : ChangesetState) : Bool :=
  state.anyChangeSet (·.due now) || !(evicted self now state).isEmpty

def pendingBlocker (state : ChangesetState) (record : ChangeSetRecord) : Option ChangeSetRecord :=
  (state.changeSets.toList.find? fun entry => entry.2.owner == record.owner &&
    entry.2.device == record.device && isPending entry.2.state).map (·.2)

/-- What an insert did to the store, given the write it made. -/
def insertEvents (record : ChangeSetRecord) (effect : Effect C Unit) : List Event :=
  if effect.took then [.inserted record effect.result.isOk] else []

/-- The last part of `insert_change_set`: capacity, the pending check, the insert and its write. -/
def insertSwept (self : Config) (fault : Option WriteFault) (record : ChangeSetRecord)
    (store : Store C) : Effect C Unit :=
  if store.mem.changeSets.size ≥ self.limits.maxChangeSets then
    .refuse store ⟨"change_set_id", "change-set store is full"⟩
  else match pendingBlocker store.mem record with
    | some blocker =>
      .refuse store ⟨"change_set_id", "this principal already has a pending change set on the device (id "
        ++ blocker.id ++ ", state " ++ blocker.state.debug ++ ", expires at unix "
        ++ toString blocker.expiresAtUnix.toNat ++ ")"⟩
    | none =>
      let next := store.mem.putChangeSet record.id record
      let effect := persistOr self fault store next (next.eraseChangeSet record.id)
      { effect with events := insertEvents record effect ++ effect.events }

/-- The checks of `insert_change_set` on the record itself. -/
def checkNewChangeSet (C : Crates) (self : Config) (record : ChangeSetRecord) :
    Except CoordinatorError Unit := do
  (record.validateTargetSet self.limits.maxTargetsPerSet).mapError fun error =>
    ⟨"targets", error.display⟩
  (record.validatePreview C self.limits.maxPreviewBytes).mapError fun error =>
    ⟨"preview", error.display⟩
  refuseIf (record.state ≠ .planned)
    ⟨"state", "a change set is created Planned, not " ++ record.state.debug
      ++ "; later states are reached through the lifecycle, and accepting one here would bypass the transition policy"⟩
  refuseIf (record.approval.isSome = true ∨ record.approver.isSome = true)
    ⟨"approval", "a change set is created unapproved; approval is granted through approve_change_set, not at creation"⟩

/-- `ChangesetCoordinator::insert_change_set`; the sweep and the insert each write the file. -/
def insertChangeSet (self : Config) (clock : Option UInt64)
    (sweepFault finalFault : Option WriteFault) (record : ChangeSetRecord) (store : Store C) :
    Effect C Unit :=
  match checkNewChangeSet C self record with
  | .error error => .refuse store error
  | .ok () =>
    let record := normaliseRecord record
    match store.mem.changeSets[record.id]?, clock with
    | some existing, _ =>
      .refuse store ⟨"change_set_id", "change set " ++ record.id ++ " already exists in state "
        ++ existing.state.debug
        ++ "; insert does not overwrite, and lifecycle changes go through the update path"⟩
    | none, none => .refuse store ⟨"time", "system clock is before the Unix epoch"⟩
    | none, some now =>
      let swept := sweepAndEvict self now store.mem
      if sweptAny self now store.mem then
        let effect := persistOr self sweepFault store swept (undoSweep self now store.mem)
        match effect.result with
        | .error _ => effect
        | .ok () =>
          let final := insertSwept self finalFault record effect.store
          { final with events := final.events ++ effect.events }
      else insertSwept self finalFault record { store with mem := swept }

/-- `ChangesetCoordinator::claim_change_set_for_apply`.  A failed write is reported, and the claim
stays in memory. -/
def claimChangeSetForApply (self : Config) (fault : Option WriteFault) (id device : String)
    (handle : ApplyHandle) (store : Store C) : Effect C ChangeSetRecord :=
  match readChangeSet store id device with
  | .error error => .refuse store error
  | .ok previous =>
    if previous.state ≠ .approved then
      .refuse store ⟨"change_set_id", "change set is " ++ previous.state.debug
        ++ ", not Approved; it cannot be claimed for apply"⟩
    else
      let claimed := { previous with
        state := .applying, applyWithoutHandle := decide (handle = .none) }
      match checkChangeSetWrite C (some previous) claimed .applyClaim with
      | .error error => .refuse store error
      | .ok () =>
        let next := store.mem.putChangeSet id claimed
        let effect := persistOr self fault store next next
        ⟨effect.store, effect.result.map fun _ => claimed,
          .claimed claimed effect.result.isOk :: effect.events⟩

def replaceChangeSet (self : Config) (fault : Option WriteFault) (record : ChangeSetRecord)
    (store : Store C) : Effect C Unit :=
  let next := store.mem.putChangeSet record.id record
  let effect := persistOr self fault store next
    (next.restoreChangeSet record.id store.mem.changeSets[record.id]?)
  let grants := record.state = .approved ∧
    store.mem.changeSets[record.id]?.all (·.state ≠ .approved) = true ∧ effect.took = true
  { effect with events := if grants then .granted record :: effect.events else effect.events }

def updateChangeSet (self : Config) (fault : Option WriteFault) (record : ChangeSetRecord)
    (store : Store C) : Effect C Unit :=
  match checkChangeSetWrite C store.mem.changeSets[record.id]? (normaliseRecord record) .update with
  | .error error => .refuse store error
  | .ok () => replaceChangeSet self fault (normaliseRecord record) store

def updateChangeSetFrom (self : Config) (fault : Option WriteFault) (observed : ChangeSetState)
    (record : ChangeSetRecord) (store : Store C) : Effect C Unit :=
  match store.mem.changeSets[record.id]? with
  | none => .refuse store ⟨"change_set_id", "unknown change set"⟩
  | some current =>
    if current.state ≠ observed then
      .refuse store ⟨"state", "change set moved to " ++ current.state.debug
        ++ " since it was read as " ++ observed.debug
        ++ "; the update was decided against a state that no longer holds"⟩
    else updateChangeSet self fault record store

/-! ### What each section can do -/

@[simp] theorem normaliseRecord_id : (normaliseRecord record).id = record.id := by
  unfold normaliseRecord normaliseApplyMarker normaliseTaskHandle
  split_ifs <;> rfl

@[simp] theorem normaliseRecord_state : (normaliseRecord record).state = record.state := by
  unfold normaliseRecord normaliseApplyMarker normaliseTaskHandle
  split_ifs <;> rfl

theorem normaliseRecord_eq (record : ChangeSetRecord) : ∃ taskId applyWithoutHandle,
    normaliseRecord record = { record with taskId, applyWithoutHandle } := by
  unfold normaliseRecord normaliseApplyMarker normaliseTaskHandle
  split_ifs <;> exact ⟨_, _, rfl⟩

variable {store : Store C} {record current : ChangeSetRecord}

structure WriteChecked (C : Crates) (current next : ChangeSetRecord) : Prop where
  owner : next.owner = current.owner
  device : next.device = current.device
  digest : next.digest = current.digest
  notClaim : ¬ (current.state = .approved ∧ next.state = .applying)
  preview : next.validatePreview C usizeMax = .ok ()
  approvalKept : ∀ approval, current.approval = some approval → approval.approver.isSome = true →
    next.approval = some approval
  previewKept : ∀ approval, current.approval = some approval → 5 ≤ approval.digestVersion →
    current.previewDigest = next.previewDigest
  notOwnApproval : next.approval.bind (·.approver) ≠ some next.owner
  notOwnApprover : next.approver ≠ some next.owner
  transition : changeSetTransitionAllowed current.state next.state = true

theorem checkExistingWrite_update {next : ChangeSetRecord}
    (h : checkExistingWrite C current next .update = .ok ()) : WriteChecked C current next := by
  unfold checkExistingWrite at h
  rw [bind_unit_ok, refuseIf_ok, not_or, not_or, not_not, not_not, not_not] at h
  obtain ⟨⟨howner, hdevice, hdigest⟩, h⟩ := h
  split at h
  · simp at h
  · next hclaim =>
    simp only [bind_unit_ok, mapError_ok, refuseIf_ok, Bool.not_eq_false] at h
    obtain ⟨hpreview, happroval, hown, hown', htrans, -⟩ := h
    have hgranted : ∀ approval, current.approval = some approval →
        checkGrantedApproval current next approval = .ok () := by
      intro approval ha
      rwa [ha] at happroval
    simp only [checkGrantedApproval, bind_unit_ok, refuseIf_ok, not_and, not_not] at hgranted
    exact ⟨howner, hdevice, hdigest, hclaim, hpreview, fun approval ha => (hgranted approval ha).1,
      fun approval ha => (hgranted approval ha).2, hown, hown', htrans⟩

/-- The grant an update reports: the record became `Approved`, in memory or in the file. -/
def grantEvents (current next : ChangeSetRecord) (effect : Effect C Unit) : List Event :=
  if next.state = .approved ∧ current.state ≠ .approved ∧ effect.took = true then [.granted next]
  else []

theorem updateChangeSet_outcome (fault : Option WriteFault) :
    (∃ error, updateChangeSet self fault record store = .refuse store error) ∨
    ∃ current effect, store.mem.changeSets[record.id]? = some current ∧
      WriteChecked C current (normaliseRecord record) ∧
      PersistOutcome self store.disk (store.mem.putChangeSet record.id (normaliseRecord record))
        store.mem effect ∧
      updateChangeSet self fault record store =
        { effect with
          events := grantEvents current (normaliseRecord record) effect ++ effect.events } := by
  unfold updateChangeSet
  cases hcur : store.mem.changeSets[record.id]? with
  | none => exact .inl ⟨_, rfl⟩
  | some current =>
    cases hcheck : checkChangeSetWrite C (some current) (normaliseRecord record) .update with
    | error error => exact .inl ⟨error, rfl⟩
    | ok _ =>
      refine .inr ⟨current, persistOr self fault store
        (store.mem.putChangeSet record.id (normaliseRecord record)) store.mem, rfl,
        checkExistingWrite_update hcheck, persistOr_outcome _ _, ?_⟩
      have hundo := restoreChangeSet_putChangeSet store.mem record.id (normaliseRecord record)
      simp only [replaceChangeSet, normaliseRecord_id, hcur] at hundo ⊢
      rw [hundo]
      unfold grantEvents
      simp only [all_some, decide_eq_true_eq]
      split
      · rfl
      · rw [nil_append]

theorem updateChangeSetFrom_outcome (fault : Option WriteFault) (observed : ChangeSetState) :
    (∃ error, updateChangeSetFrom self fault observed record store = .refuse store error) ∨
    ∃ current, store.mem.changeSets[record.id]? = some current ∧ current.state = observed ∧
      updateChangeSetFrom self fault observed record store =
        updateChangeSet self fault record store := by
  unfold updateChangeSetFrom
  cases hcur : store.mem.changeSets[record.id]? with
  | none => exact .inl ⟨_, rfl⟩
  | some current =>
    dsimp only
    split
    · exact .inl ⟨_, rfl⟩
    · next h => exact .inr ⟨current, rfl, not_not.mp h, rfl⟩

theorem readChangeSet_ok {id device : String} (h : readChangeSet store id device = .ok record) :
    store.mem.changeSets[id]? = some record ∧ record.device = device := by
  simp only [readChangeSet, bind_unit_ok] at h
  obtain ⟨-, h⟩ := h
  cases hid : store.mem.changeSets[id]? with
  | none => simp [hid] at h
  | some found =>
    simp only [hid] at h
    split at h
    · cases h
    · next hdev =>
      cases h
      exact ⟨rfl, not_not.mp hdev⟩

def ChangeSetRecord.claimedAs (previous : ChangeSetRecord) (handle : ApplyHandle) :
    ChangeSetRecord :=
  { previous with state := .applying, applyWithoutHandle := decide (handle = .none) }

/-- What `claim_change_set_for_apply` can do: refuse, or move an `Approved` record to `Applying`,
in memory also when the write fails. -/
theorem claimChangeSetForApply_outcome (fault : Option WriteFault) (id device : String)
    (handle : ApplyHandle) :
    (∃ error, claimChangeSetForApply self fault id device handle store = .refuse store error) ∨
    ∃ previous effect, store.mem.changeSets[id]? = some previous ∧ previous.device = device ∧
      previous.state = .approved ∧
      PersistOutcome self store.disk (store.mem.putChangeSet id (previous.claimedAs handle))
        (store.mem.putChangeSet id (previous.claimedAs handle)) effect ∧
      claimChangeSetForApply self fault id device handle store =
        ⟨effect.store, effect.result.map fun _ => previous.claimedAs handle,
          .claimed (previous.claimedAs handle) effect.result.isOk :: effect.events⟩ := by
  unfold claimChangeSetForApply
  cases hread : readChangeSet store id device with
  | error error => exact .inl ⟨error, rfl⟩
  | ok previous =>
    obtain ⟨hid, hdevice⟩ := readChangeSet_ok hread
    dsimp only
    split
    · exact .inl ⟨_, rfl⟩
    · next hstate =>
      have hstate := not_not.mp hstate
      split
      · exact .inl ⟨_, rfl⟩
      · exact .inr ⟨previous, _, hid, hdevice, hstate, persistOr_outcome _ _, rfl⟩

inductive SweepDone (self : Config) (now : UInt64) (store : Store C) :
    Store C → List Event → Prop where
  | unwritten : SweepDone self now store ⟨sweepAndEvict self now store.mem, store.disk⟩ []
  | written (hpath : self.statePath ≠ none) : SweepDone self now store
      ⟨sweepAndEvict self now store.mem, some (payload C (sweepAndEvict self now store.mem))⟩
      [.wrote (sweepAndEvict self now store.mem)]

/-- What `insert_change_set` can do. -/
inductive InsertOutcome (self : Config) (clock : Option UInt64) (store : Store C)
    (record : ChangeSetRecord) : Effect C Unit → Prop where
  | refused (error : CoordinatorError) : InsertOutcome self clock store record (.refuse store error)
  /-- the sweep could not be written and was undone -/
  | sweepFailed (now : UInt64) (hclock : clock = some now) (effect : Effect C Unit)
      (error : CoordinatorError) (herror : effect.result = .error error)
      (hwrite : PersistOutcome self store.disk (sweepAndEvict self now store.mem)
        (undoSweep self now store.mem) effect) :
      InsertOutcome self clock store record effect
  /-- the store is full, or the principal has a pending change set on the device -/
  | sweptOnly (now : UInt64) (hclock : clock = some now) (swept : Store C) (events : List Event)
      (hsweep : SweepDone self now store swept events) (error : CoordinatorError) :
      InsertOutcome self clock store record ⟨swept, .error error, events⟩
  /-- the insert got to its final write -/
  | attempted (now : UInt64) (hclock : clock = some now) (swept : Store C) (events : List Event)
      (hcheck : checkNewChangeSet C self record = .ok ())
      (hsweep : SweepDone self now store swept events)
      (hnew : store.mem.changeSets[record.id]? = none)
      (hsize : swept.mem.changeSets.size < self.limits.maxChangeSets)
      (hpending : pendingBlocker swept.mem (normaliseRecord record) = none) (effect : Effect C Unit)
      (hwrite : PersistOutcome self swept.disk
        (swept.mem.putChangeSet record.id (normaliseRecord record)) swept.mem effect) :
      InsertOutcome self clock store record ⟨effect.store, effect.result,
        insertEvents (normaliseRecord record) effect ++ effect.events ++ events⟩

theorem sweepAndEvict_none {now : UInt64} {id : String} {state : ChangesetState}
    (h : state.changeSets[id]? = none) : (sweepAndEvict self now state).changeSets[id]? = none := by
  unfold sweepAndEvict
  dsimp only
  split
  · simp [h]
  · simp [h]

theorem insertSwept_outcome {clock : Option UInt64} {now : UInt64} (hclock : clock = some now)
    (fault : Option WriteFault) {swept : Store C} {events : List Event}
    (hcheck : checkNewChangeSet C self record = .ok ())
    (hsweep : SweepDone self now store swept events)
    (hnew : store.mem.changeSets[record.id]? = none) :
    InsertOutcome self clock store record
      { insertSwept self fault (normaliseRecord record) swept with
        events := (insertSwept self fault (normaliseRecord record) swept).events ++ events } := by
  unfold insertSwept
  split
  · exact .sweptOnly now hclock swept events hsweep _
  · next hsize =>
    split
    · exact .sweptOnly now hclock swept events hsweep _
    · next hpending =>
      have hmem : swept.mem.changeSets[record.id]? = none := by
        cases hsweep <;> exact sweepAndEvict_none hnew
      dsimp only
      rw [normaliseRecord_id, eraseChangeSet_putChangeSet hmem]
      exact .attempted now hclock swept events hcheck hsweep hnew (not_le.mp hsize) hpending _
        (persistOr_outcome _ _)

theorem insertChangeSet_outcome (clock : Option UInt64) (sweepFault finalFault : Option WriteFault)
    (record : ChangeSetRecord) (store : Store C) :
    InsertOutcome self clock store record
      (insertChangeSet self clock sweepFault finalFault record store) := by
  unfold insertChangeSet
  cases hcheck : checkNewChangeSet C self record with
  | error error => exact .refused error
  | ok _ =>
    dsimp only
    rw [normaliseRecord_id]
    cases hnew : store.mem.changeSets[record.id]? with
    | some existing => exact .refused _
    | none =>
      cases clock with
      | none => exact .refused _
      | some now =>
        dsimp only
        split
        · have hout := @persistOr_outcome C self sweepFault store
            (sweepAndEvict self now store.mem) (undoSweep self now store.mem)
          generalize persistOr self sweepFault store (sweepAndEvict self now store.mem)
            (undoSweep self now store.mem) = effect at hout ⊢
          cases hout with
          | unwritten _ => exact insertSwept_outcome rfl finalFault hcheck .unwritten hnew
          | written hpath => exact insertSwept_outcome rfl finalFault hcheck (.written hpath) hnew
          | failed error hpath => exact .sweepFailed now rfl _ error rfl (.failed error hpath)
          | landed error hpath => exact .sweepFailed now rfl _ error rfl (.landed error hpath)
        · have h := insertSwept_outcome rfl finalFault hcheck
            (@SweepDone.unwritten C self now store) hnew
          simpa using h

/-! ### The sweep, record by record -/

/-- Every record is filed under its own id. -/
structure Keyed (state : ChangesetState) : Prop where
  operations : ∀ (id : String) record, state.operations[id]? = some record → record.id = id
  changeSets : ∀ (id : String) record, state.changeSets[id]? = some record → record.id = id

theorem getElem?_insertMany_cases {α : Type} {m : Std.ExtTreeMap String α}
    {l : List (String × α)} {k : String} {v : α} (h : (m.insertMany l)[k]? = some v) :
    (k, v) ∈ l ∨ m[k]? = some v := by
  rw [Std.ExtTreeMap.getElem?_insertMany_list, findSomeRev?_eq_findSome?_reverse,
    or_eq_some_iff] at h
  obtain hfind | ⟨-, hm⟩ := h
  · obtain ⟨⟨k', v'⟩, hmem, hkv⟩ := exists_of_findSome?_eq_some hfind
    simp only [Std.LawfulEqCmp.compare_eq_iff_eq, ite_none_right_eq_some,
      Option.some.injEq] at hkv
    obtain ⟨rfl, rfl⟩ := hkv
    exact .inl (mem_reverse.mp hmem)
  · exact .inr hm

variable {now : UInt64} {state : ChangesetState} {id : String}

@[simp] theorem swept_id : (record.swept now).id = record.id := by
  unfold ChangeSetRecord.swept
  split <;> rfl

theorem sweepAndEvict_some (h : (sweepAndEvict self now state).changeSets[id]? = some record) :
    ∃ original, state.changeSets[id]? = some original ∧ record = original.swept now := by
  unfold sweepAndEvict at h
  dsimp only at h
  split at h
  · rw [Std.ExtTreeMap.getElem?_filter', Std.ExtTreeMap.getElem?_map, filter_eq_some_iff] at h
    obtain ⟨original, ho, rfl⟩ := map_eq_some_iff.mp h.1
    exact ⟨original, ho, rfl⟩
  · rw [Std.ExtTreeMap.getElem?_map] at h
    obtain ⟨original, ho, rfl⟩ := map_eq_some_iff.mp h
    exact ⟨original, ho, rfl⟩

theorem evicted_some (h : (evicted self now state)[id]? = some record) :
    ∃ original, state.changeSets[id]? = some original ∧ record = original.swept now := by
  unfold evicted at h
  dsimp only at h
  split at h
  · rw [Std.ExtTreeMap.getElem?_filter', Std.ExtTreeMap.getElem?_map, filter_eq_some_iff] at h
    obtain ⟨original, ho, rfl⟩ := map_eq_some_iff.mp h.1
    exact ⟨original, ho, rfl⟩
  · simp at h

theorem undoSweep_some (hkeyed : Keyed state)
    (h : (undoSweep self now state).changeSets[id]? = some record) :
    ∃ original, state.changeSets[id]? = some original ∧
      (record = original ∨ record = original.swept now) := by
  unfold undoSweep at h
  rcases getElem?_insertMany_cases h with hmem | hrestored
  · obtain ⟨⟨key, entry⟩, hentry, heq⟩ := List.mem_map.mp hmem
    rw [Std.ExtTreeMap.mem_toList_iff_getElem?_eq_some] at hentry
    obtain ⟨original, ho, rfl⟩ := evicted_some hentry
    cases heq
    have hid : original.id = key := hkeyed.changeSets key original ho
    exact ⟨original, by simpa [hid] using ho, .inr rfl⟩
  · rw [Std.ExtTreeMap.getElem?_map] at hrestored
    obtain ⟨sweptRecord, hs, rfl⟩ := map_eq_some_iff.mp hrestored
    obtain ⟨original, ho, rfl⟩ := sweepAndEvict_some hs
    refine ⟨original, ho, .inl ?_⟩
    -- a retired record gets its state back, any other was not touched
    rw [Std.ExtTreeMap.getElem?_filterMap', ho]
    by_cases hdue : original.due now = true
    · simp [ChangeSetRecord.swept, hdue]
    · simp [ChangeSetRecord.swept, hdue]

end Mecmcp.Changeset
