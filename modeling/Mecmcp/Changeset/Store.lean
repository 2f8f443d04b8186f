import Mecmcp.Changeset.KeyedApproval
import Mecmcp.Changeset.Persist

/-!
# Store — the coordinator's critical sections

Every method of `coordinator.rs` that touches the store takes the state mutex, works on the
in-memory state, writes the whole state to disk, and undoes its change in memory when that write
fails (with two exceptions the source documents: `claim_change_set_for_apply` and `remove` keep
theirs).  Nothing is awaited while the mutex is held, so each such body is one atomic function here,
from a `Store` (the state in memory and the file) to an `Effect`.

What the environment decides is an argument: the clock, and whether and where a write fails.
`Effect.events` is what the body did, in the order newest first, for statements about runs.
-/

namespace Mecmcp.Changeset

/-- What a coordinator was loaded with. -/
structure Config where
  statePath : Option String
  limits : OperationLimits
  /-- in whole seconds -/
  approvalTtl : UInt64
  labMode : Bool
  /-- an evidence recorder is attached -/
  evidence : Bool
  approvalDigestKey : Option (List UInt8)

/-- The state in memory and the state file. -/
structure Store (C : Crates) where
  mem : ChangesetState
  disk : Option C.Text

/-- What the store's methods, the device calls and the operator did. -/
inductive Event where
  | wrote (state : ChangesetState)
  /-- `insert_change_set` put the record into the store and returned `ok`, or failed with the record
  in the file -/
  | inserted (record : ChangeSetRecord) (ok : Bool)
  /-- an update moved the change set to `Approved` -/
  | granted (record : ChangeSetRecord)
  /-- `claim_change_set_for_apply` moved the change set to `Applying` and returned `ok` -/
  | claimed (record : ChangeSetRecord) (ok : Bool)

/-- The file after a write of it, the result, and what was done. -/
structure FileEffect (C : Crates) (α : Type) where
  disk : Option C.Text
  result : Except CoordinatorError α
  events : List Event

/-- The store after a critical section, its result, and what it did. -/
structure Effect (C : Crates) (α : Type) where
  store : Store C
  result : Except CoordinatorError α
  events : List Event

variable {C : Crates}

def Effect.refuse {α : Type} (store : Store C) (error : CoordinatorError) : Effect C α :=
  ⟨store, .error error, []⟩

/-- `write_state`, with its error as the coordinator reports it. -/
def writeFile (path : String) (maxStateBytes : ℕ) (fault : Option WriteFault)
    (state : ChangesetState) (disk : Option C.Text) : FileEffect C Unit :=
  let written := writeState C path state maxStateBytes fault disk
  let landed := C.len (payload C state) ≤ maxStateBytes ∧ fault.all (·.landed) = true
  ⟨written.1, written.2.mapError .ofPersistence, if landed then [.wrote state] else []⟩

/-- `persist_locked`: write the whole state, if the coordinator has a state path. -/
def persistLocked (self : Config) (fault : Option WriteFault) (store : Store C) :
    Effect C Unit :=
  match self.statePath with
  | none => ⟨store, .ok (), []⟩
  | some path =>
    let written := writeFile path self.limits.maxStateBytes fault store.mem store.disk
    ⟨{ store with disk := written.disk }, written.result, written.events⟩

/-- Write the state `next`; if the write fails, the state in memory becomes `undo`. -/
def persistOr (self : Config) (fault : Option WriteFault) (store : Store C)
    (next undo : ChangesetState) : Effect C Unit :=
  let effect := persistLocked self fault { store with mem := next }
  match effect.result with
  | .ok () => effect
  | .error _ => { effect with store := { effect.store with mem := undo } }

/-- The change a write was made for is in memory or in the file. -/
def Effect.took (effect : Effect C Unit) : Bool := effect.result.isOk || !effect.events.isEmpty

namespace ChangesetState

def putOperation (state : ChangesetState) (id : String) (record : OperationRecord) :
    ChangesetState :=
  { state with operations := state.operations.insert id record }

def eraseOperation (state : ChangesetState) (id : String) : ChangesetState :=
  { state with operations := state.operations.erase id }

def putChangeSet (state : ChangesetState) (id : String) (record : ChangeSetRecord) :
    ChangesetState :=
  { state with changeSets := state.changeSets.insert id record }

def eraseChangeSet (state : ChangesetState) (id : String) : ChangesetState :=
  { state with changeSets := state.changeSets.erase id }

/-- Put an operation back as it was before `id` was written. -/
def restoreOperation (state : ChangesetState) (id : String) :
    (previous : Option OperationRecord) → ChangesetState
  | some previous => state.putOperation id previous
  | none => state.eraseOperation id

/-- Put a change set back as it was before `id` was written. -/
def restoreChangeSet (state : ChangesetState) (id : String) :
    (previous : Option ChangeSetRecord) → ChangesetState
  | some previous => state.putChangeSet id previous
  | none => state.eraseChangeSet id

end ChangesetState

/-! ### Operations -/

/-- `ChangesetCoordinator::record`. -/
def readRecord (store : Store C) (operationId owner device : String) :
    Except CoordinatorError OperationRecord := do
  validateOperationId operationId
  match store.mem.operations[operationId]? with
  | none => .error ⟨"operation_id", "unknown operation"⟩
  | some record =>
    if record.owner ≠ owner ∨ record.device ≠ device then
      .error ⟨"operation_id", "operation is not owned by this principal and device"⟩
    else .ok record

/-- Terminal operations dropped, where the store is at capacity. -/
def evictTerminal (self : Config) (state : ChangesetState) : ChangesetState :=
  if state.operations.size ≥ self.limits.maxOperations then
    { state with operations := state.operations.filter fun _ record => !record.state.terminal }
  else state

/-- An operation that keeps another one off its device and endpoint. -/
def OperationRecord.blocks (existing record : OperationRecord) : Bool :=
  !existing.state.terminal &&
    (existing.device == record.device || existing.endpoint == record.endpoint)

/-- `ChangesetCoordinator::insert`.  The eviction is kept when the insert is refused. -/
def insertOperation (self : Config) (fault : Option WriteFault) (record : OperationRecord)
    (store : Store C) : Effect C Unit :=
  let state := evictTerminal self store.mem
  if state.operations.size ≥ self.limits.maxOperations then
    .refuse { store with mem := state } ⟨"operation_id", "operation store is full"⟩
  else if state.anyOperation (·.blocks record) then
    .refuse { store with mem := state }
      ⟨"operation_id", "the device already has an active or unreconciled operation"⟩
  else
    persistOr self fault store (state.putOperation record.id record)
      ((state.putOperation record.id record).eraseOperation record.id)

/-- `ChangesetCoordinator::update`. -/
def updateOperation (self : Config) (fault : Option WriteFault) (record : OperationRecord)
    (store : Store C) : Effect C Unit :=
  let next := store.mem.putOperation record.id record
  persistOr self fault store next
    (next.restoreOperation record.id store.mem.operations[record.id]?)

/-- `ChangesetCoordinator::remove`: a failed write is reported to standard error only. -/
def removeOperation (self : Config) (fault : Option WriteFault) (operationId : String)
    (store : Store C) : Effect C Unit :=
  { persistLocked self fault { store with mem := store.mem.eraseOperation operationId } with
    result := .ok () }

/-! ### What a write can do -/

variable {C : Crates} {self : Config} {fault : Option WriteFault} {store : Store C}
variable {state : ChangesetState} {id : String}

/-- The outcomes of writing the state `next` when a failure puts `undo` back into memory. -/
inductive PersistOutcome (self : Config) (disk : Option C.Text) (next undo : ChangesetState) :
    Effect C Unit → Prop where
  | unwritten (hpath : self.statePath = none) :
      PersistOutcome self disk next undo ⟨⟨next, disk⟩, .ok (), []⟩
  | written (hpath : self.statePath ≠ none) :
      PersistOutcome self disk next undo ⟨⟨next, some (payload C next)⟩, .ok (), [.wrote next]⟩
  /-- the write failed with the old file in place -/
  | failed (error : CoordinatorError) (hpath : self.statePath ≠ none) :
      PersistOutcome self disk next undo ⟨⟨undo, disk⟩, .error error, []⟩
  /-- the write failed with the new file in place -/
  | landed (error : CoordinatorError) (hpath : self.statePath ≠ none) :
      PersistOutcome self disk next undo
        ⟨⟨undo, some (payload C next)⟩, .error error, [.wrote next]⟩

inductive WriteOutcome (disk : Option C.Text) (next : ChangesetState) :
    FileEffect C Unit → Prop where
  | written : WriteOutcome disk next ⟨some (payload C next), .ok (), [.wrote next]⟩
  | failed (error : CoordinatorError) : WriteOutcome disk next ⟨disk, .error error, []⟩
  /-- the write failed with the new file in place -/
  | landed (error : CoordinatorError) :
      WriteOutcome disk next ⟨some (payload C next), .error error, [.wrote next]⟩

theorem writeFile_outcome (path : String) (maxStateBytes : ℕ) (fault : Option WriteFault)
    (next : ChangesetState) (disk : Option C.Text) :
    WriteOutcome disk next (writeFile path maxStateBytes fault next disk) := by
  unfold writeFile writeState
  dsimp only
  by_cases hlen : C.len (payload C next) > maxStateBytes
  · rw [if_pos hlen, if_neg (fun h => absurd h.1 (not_le.mpr hlen))]
    exact .failed _
  · have hle := not_lt.mp hlen
    rw [if_neg hlen]
    cases fault with
    | none =>
      rw [if_pos ⟨hle, rfl⟩]
      exact .written
    | some fault =>
      cases hl : fault.landed with
      | true =>
        dsimp only
        rw [if_pos hl, if_pos ⟨hle, by simp [hl]⟩]
        exact .landed _
      | false =>
        dsimp only
        rw [if_neg (by simp [hl]), if_neg (by simp [hl])]
        exact .failed _

theorem persistLocked_outcome :
    PersistOutcome self store.disk store.mem store.mem (persistLocked self fault store) := by
  unfold persistLocked
  cases hpath : self.statePath with
  | none => exact .unwritten hpath
  | some path =>
    have hsome : self.statePath ≠ none := by rw [hpath]; nofun
    have h := writeFile_outcome path self.limits.maxStateBytes fault store.mem store.disk
    dsimp only
    generalize writeFile path self.limits.maxStateBytes fault store.mem store.disk = written at h ⊢
    cases h with
    | written => exact .written hsome
    | failed error => exact .failed error hsome
    | landed error => exact .landed error hsome

theorem persistOr_outcome (next undo : ChangesetState) :
    PersistOutcome self store.disk next undo (persistOr self fault store next undo) := by
  unfold persistOr
  have h := @persistLocked_outcome C self fault { store with mem := next }
  generalize persistLocked self fault { store with mem := next } = effect at h ⊢
  cases h with
  | unwritten hpath => exact .unwritten hpath
  | written hpath => exact .written hpath
  | failed error hpath => exact .failed error hpath
  | landed error hpath => exact .landed error hpath

theorem removeOperation_outcome (operationId : String) :
    ∃ effect, PersistOutcome self store.disk (store.mem.eraseOperation operationId)
        (store.mem.eraseOperation operationId) effect ∧
      (removeOperation self fault operationId store).store = effect.store ∧
      (removeOperation self fault operationId store).events = effect.events :=
  ⟨_, @persistLocked_outcome C self fault { store with mem := store.mem.eraseOperation operationId },
    rfl, rfl⟩

/-! ### Undoing in memory -/

theorem getElem?_putOperation (state : ChangesetState) (id k : String) (record : OperationRecord) :
    (state.putOperation id record).operations[k]? =
      if k = id then some record else state.operations[k]? := by
  simp only [ChangesetState.putOperation, Std.ExtTreeMap.getElem?_insert,
    Std.LawfulEqCmp.compare_eq_iff_eq, @eq_comm _ id k]

theorem getElem?_putChangeSet (state : ChangesetState) (id k : String) (record : ChangeSetRecord) :
    (state.putChangeSet id record).changeSets[k]? =
      if k = id then some record else state.changeSets[k]? := by
  simp only [ChangesetState.putChangeSet, Std.ExtTreeMap.getElem?_insert,
    Std.LawfulEqCmp.compare_eq_iff_eq, @eq_comm _ id k]

theorem getElem?_eraseOperation (state : ChangesetState) (id k : String) :
    (state.eraseOperation id).operations[k]? = if k = id then none else state.operations[k]? := by
  simp only [ChangesetState.eraseOperation, Std.ExtTreeMap.getElem?_erase,
    Std.LawfulEqCmp.compare_eq_iff_eq, @eq_comm _ id k]

@[ext] theorem ChangesetState.ext_getElem? {a b : ChangesetState}
    (ho : ∀ id : String, a.operations[id]? = b.operations[id]?)
    (hc : ∀ id : String, a.changeSets[id]? = b.changeSets[id]?) : a = b := by
  obtain ⟨ao, ac⟩ := a
  obtain ⟨bo, bc⟩ := b
  obtain rfl : ao = bo := Std.ExtTreeMap.ext_getElem? ho
  obtain rfl : ac = bc := Std.ExtTreeMap.ext_getElem? hc
  rfl

theorem restoreOperation_putOperation (state : ChangesetState) (id : String)
    (record : OperationRecord) :
    (state.putOperation id record).restoreOperation id state.operations[id]? = state := by
  cases h : state.operations[id]? with
  | none =>
    refine ChangesetState.ext_getElem? (fun k => ?_) (fun _ => rfl)
    rw [ChangesetState.restoreOperation, getElem?_eraseOperation, getElem?_putOperation]
    by_cases hk : k = id
    · simp [hk, h]
    · simp [hk]
  | some previous =>
    refine ChangesetState.ext_getElem? (fun k => ?_) (fun _ => rfl)
    rw [ChangesetState.restoreOperation, getElem?_putOperation, getElem?_putOperation]
    by_cases hk : k = id
    · simp [hk, h]
    · simp [hk]

theorem eraseOperation_putOperation {record : OperationRecord} :
    (state.putOperation id record).eraseOperation id = state.eraseOperation id := by
  refine ChangesetState.ext_getElem? (fun k => ?_) (fun _ => rfl)
  rw [getElem?_eraseOperation, getElem?_eraseOperation, getElem?_putOperation]
  by_cases hk : k = id <;> simp [hk]

theorem eraseChangeSet_putChangeSet {record : ChangeSetRecord} (h : state.changeSets[id]? = none) :
    (state.putChangeSet id record).eraseChangeSet id = state := by
  refine ChangesetState.ext_getElem? (fun _ => rfl) (fun k => ?_)
  have hput := getElem?_putChangeSet state id k record
  simp only [ChangesetState.eraseChangeSet, Std.ExtTreeMap.getElem?_erase,
    Std.LawfulEqCmp.compare_eq_iff_eq, hput]
  by_cases hk : k = id
  · simp [hk, h]
  · simp [hk, Ne.symm hk]

theorem restoreChangeSet_putChangeSet (state : ChangesetState) (id : String)
    (record : ChangeSetRecord) :
    (state.putChangeSet id record).restoreChangeSet id state.changeSets[id]? = state := by
  cases h : state.changeSets[id]? with
  | none => exact eraseChangeSet_putChangeSet h
  | some previous =>
    refine ChangesetState.ext_getElem? (fun _ => rfl) (fun k => ?_)
    rw [ChangesetState.restoreChangeSet, getElem?_putChangeSet, getElem?_putChangeSet]
    by_cases hk : k = id
    · simp [hk, h]
    · simp [hk]

end Mecmcp.Changeset
