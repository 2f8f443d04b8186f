import Mecmcp.Changeset.Steps

/-!
# Moves — how records move through the store

What one answered call can do to the records, said once for all critical sections: the states it
leaves in memory and writes to the file are obtained from the state in memory before by letting
each change set make a `RecordMove`, dropping some, and inserting at most one (`ChangeSetMoves`),
and the operations by one of the few things in `OperationMoves`.  A load turns each record of the
file into its recovered form.

Every invariant of the store's records follows from these: `exec_moves` for a call, `recovered_…`
for a load, with `reached_keyed` for the keys.
-/

namespace Mecmcp.Changeset

open List Option

variable {C : Crates} {V : Vendor} {self : Config} {c : Call V} {events : List Event} {id : String}
  {state : ChangesetState}

variable {old new : ChangesetState}
variable {record : ChangeSetRecord} {store : Store C} {fault : Option WriteFault} {now : UInt64}

/-! ### Moves -/

/-- One change set's step under the call `c`. -/
inductive RecordMove (C : Crates) (c : Call V) (events : List Event) (record : ChangeSetRecord) :
    ChangeSetRecord → Prop where
  | same : RecordMove C c events record record
  /-- the sweep of an insert retired it -/
  | swept (now : UInt64) (hdue : record.due now = true) :
      RecordMove C c events record { record with state := .expired }
  | updated (next : ChangeSetRecord)
      (hcall : c = .updateChangeSet next ∨ c = .updateChangeSetFrom record.state next)
      (hid : next.id = record.id) (hchecked : WriteChecked C record (normaliseRecord next))
      (hgranted : next.state = .approved → record.state ≠ .approved →
        .granted (normaliseRecord next) ∈ events) :
      RecordMove C c events record (normaliseRecord next)
  | claimed (handle : ApplyHandle) (ok : Bool)
      (hcall : c = .claimChangeSetForApply record.id record.device handle)
      (happroved : record.state = .approved)
      (hclaimed : .claimed (record.claimedAs handle) ok ∈ events) :
      RecordMove C c events record (record.claimedAs handle)

def MovedFrom (C : Crates) (c : Call V) (events : List Event) (old : ChangesetState) (id : String)
    (record : ChangeSetRecord) : Prop :=
  ∃ original, old.changeSets[id]? = some original ∧ RecordMove C c events original record

/-- The change sets of a state that the call `c` left in memory or wrote. -/
inductive ChangeSetMoves (C : Crates) (self : Config) (c : Call V) (events : List Event)
    (old new : ChangesetState) : Prop where
  | kept (h : ∀ (id : String) record, new.changeSets[id]? = some record →
      MovedFrom C c events old id record)
  | inserted (record : ChangeSetRecord) (ok : Bool) (hcall : c = .insertChangeSet record)
      (hcheck : checkNewChangeSet C self record = .ok ())
      (hinserted : .inserted (normaliseRecord record) ok ∈ events)
      (hnew : old.changeSets[record.id]? = none)
      (hpending : ∀ (id : String) other, new.changeSets[id]? = some other →
        other.owner = record.owner → other.device = record.device →
        isPending other.state = true → id = record.id)
      (h : ∀ (id : String) other, new.changeSets[id]? = some other →
        (id = record.id ∧ other = normaliseRecord record) ∨ MovedFrom C c events old id other)

/-- The operations of a state that the call `c` left in memory or wrote. -/
inductive OperationMoves (self : Config) (c : Call V) (old new : ChangesetState) : Prop where
  | same (h : new.operations = old.operations)
  | evicted (record : OperationRecord) (hcall : c = .insert record)
      (h : new.operations = (evictTerminal self old).operations ∨
        new.operations = ((evictTerminal self old).eraseOperation record.id).operations)
  | inserted (record : OperationRecord) (hcall : c = .insert record)
      (hfree : (evictTerminal self old).anyOperation (·.blocks record) = false)
      (h : new.operations = ((evictTerminal self old).putOperation record.id record).operations)
  | updated (record : OperationRecord) (hcall : c = .update record)
      (h : new.operations = (old.putOperation record.id record).operations)
  | removed (operationId : String) (hcall : c = .remove operationId)
      (h : new.operations = (old.eraseOperation operationId).operations)

/-- Both, as one call leaves them. -/
structure StateMoves (C : Crates) (config : Config) (c : Call V) (events : List Event)
    (old new : ChangesetState) : Prop where
  changeSets : ChangeSetMoves C config c events old new
  operations : OperationMoves config c old new

theorem movedFrom_same (h : old.changeSets[id]? = some record) :
    MovedFrom C c events old id record :=
  ⟨record, h, .same⟩

theorem StateMoves.refl : StateMoves C self c events old old :=
  ⟨.kept fun _ _ h => movedFrom_same h, .same rfl⟩

theorem recordMove_swept (record : ChangeSetRecord) (now : UInt64) :
    RecordMove C c events record (record.swept now) := by
  unfold ChangeSetRecord.swept
  split
  · next hdue => exact .swept now hdue
  · exact .same

/-! ### What never changes, and how the state does -/

/-- A change set and what became of it: its id, owner, device and plan digest are fixed, and its
state moved along the table or by a claim. -/
structure Evolves (record next : ChangeSetRecord) : Prop where
  id : next.id = record.id
  owner : next.owner = record.owner
  device : next.device = record.device
  digest : next.digest = record.digest
  state : changeSetTransitionAllowed record.state next.state = true ∨
    record.state = .approved ∧ next.state = .applying

theorem transition_refl (state : ChangeSetState) :
    changeSetTransitionAllowed state state = true := by
  cases state <;> rfl

theorem evolves_refl (record : ChangeSetRecord) : Evolves record record :=
  ⟨rfl, rfl, rfl, rfl, .inl (transition_refl _)⟩

theorem recordMove_evolves {next : ChangeSetRecord}
    (h : RecordMove C c events record next) : Evolves record next := by
  cases h with
  | same => exact evolves_refl record
  | swept now hdue =>
    refine ⟨rfl, rfl, rfl, rfl, .inl ?_⟩
    have hexpirable : isExpirable record.state = true := by
      unfold ChangeSetRecord.due at hdue
      exact (Bool.and_eq_true_iff.mp hdue).1
    show changeSetTransitionAllowed record.state .expired = true
    revert hexpirable
    cases record.state <;> decide
  | updated next hcall hid hchecked hgranted =>
    exact ⟨normaliseRecord_id.trans hid, hchecked.owner, hchecked.device, hchecked.digest,
      .inl hchecked.transition⟩
  | claimed handle ok hcall happroved hclaimed =>
    exact ⟨rfl, rfl, rfl, rfl, .inr ⟨happroved, rfl⟩⟩

theorem readBack_evolves (f : UInt64 → UInt64) (record : ChangeSetRecord) :
    Evolves record ((normaliseTaskHandle record).mapFloat f) := by
  obtain ⟨taskId, heq⟩ := normaliseTaskHandle_eq record
  rw [heq]
  exact ⟨rfl, rfl, rfl, rfl, .inl (transition_refl _)⟩

theorem recovered_evolves (f : UInt64 → UInt64) (record : ChangeSetRecord) :
    Evolves record (recoverChangeSet ((normaliseTaskHandle record).mapFloat f)) := by
  obtain ⟨taskId, heq⟩ := normaliseTaskHandle_eq record
  obtain ⟨state, taskId', heq', rfl | ⟨happlying, rfl⟩⟩ :=
    recoverChangeSet_eq ((normaliseTaskHandle record).mapFloat f)
  · rw [heq', heq]
    exact ⟨rfl, rfl, rfl, rfl, .inl (transition_refl _)⟩
  · rw [heq', heq]
    rw [heq] at happlying
    refine ⟨rfl, rfl, rfl, rfl, .inl ?_⟩
    rw [show record.state = .applying from happlying]
    rfl

/-! ### What the sections leave and write -/

def Effect.Leaves {α : Type} (effect : Effect C α) (state : ChangesetState) : Prop :=
  state = effect.store.mem ∨ .wrote state ∈ effect.events

theorem PersistOutcome.leaves {disk : Option C.Text} {next undo : ChangesetState}
    {effect : Effect C Unit} (h : PersistOutcome self disk next undo effect)
    (hl : effect.Leaves state) :
    (state = next ∧ effect.took = true) ∨ state = undo := by
  cases h with
  | unwritten hpath =>
    obtain rfl | hw := hl
    · exact .inl ⟨rfl, rfl⟩
    · cases hw
  | written hpath =>
    obtain rfl | hw := hl
    · exact .inl ⟨rfl, rfl⟩
    · obtain rfl := Event.wrote.inj (mem_singleton.mp hw)
      exact .inl ⟨rfl, rfl⟩
  | failed error hpath =>
    obtain rfl | hw := hl
    · exact .inr rfl
    · cases hw
  | landed error hpath =>
    obtain rfl | hw := hl
    · exact .inr rfl
    · obtain rfl := Event.wrote.inj (mem_singleton.mp hw)
      exact .inl ⟨rfl, rfl⟩

theorem leaves_of_log {α β : Type} {effect : Effect C α} {result : Except CoordinatorError β}
    {logged : List Event} (hlogged : ∀ state, .wrote state ∉ logged) {state : ChangesetState}
    (h : (⟨effect.store, result, logged ++ effect.events⟩ : Effect C β).Leaves state) :
    effect.Leaves state := by
  obtain rfl | hw := h
  · exact .inl rfl
  · obtain hw | hw := mem_append.mp hw
    · exact absurd hw (hlogged state)
    · exact .inr hw

theorem updateChangeSet_moves (hkeyed : Keyed store.mem)
    (hcall : ∀ current, store.mem.changeSets[record.id]? = some current →
      c = .updateChangeSet record ∨ c = .updateChangeSetFrom current.state record) (hl :
    (updateChangeSet self fault record store).Leaves state) :
    StateMoves C self c (updateChangeSet self fault record store).events store.mem state := by
  obtain ⟨error, h⟩ | ⟨current, effect, hcurrent, hchecked, hwrite, h⟩ :=
    @updateChangeSet_outcome C self store record fault
  · rw [h] at hl ⊢
    obtain rfl | hw := hl
    · exact .refl
    · cases hw
  rw [h] at hl ⊢
  have hl : effect.Leaves state := by
    refine leaves_of_log (fun s hs => ?_) hl
    unfold grantEvents at hs
    split at hs
    · cases mem_singleton.mp hs
    · cases hs
  obtain ⟨rfl, htook⟩ | rfl := hwrite.leaves hl
  · refine ⟨.kept fun id other hother => ?_, .same rfl⟩
    rw [getElem?_putChangeSet] at hother
    split at hother
    · next hid =>
      subst hid
      cases hother
      refine ⟨current, hcurrent, .updated record (hcall current hcurrent)
        (hkeyed.changeSets _ _ hcurrent).symm hchecked fun happroved hnot => ?_⟩
      refine mem_append_left _ ?_
      unfold grantEvents
      rw [if_pos ⟨by rw [normaliseRecord_state]; exact happroved, hnot, htook⟩]
      exact mem_singleton_self _
    · exact movedFrom_same hother
  · exact .refl

theorem leaves_refuse {α : Type} {error : CoordinatorError}
    (h : (Effect.refuse store error : Effect C α).Leaves state) :
    state = store.mem := by
  obtain rfl | hw := h
  · rfl
  · cases hw

theorem updateChangeSetFrom_moves (hkeyed : Keyed store.mem) {observed : ChangeSetState}
    (hl : (updateChangeSetFrom self fault observed record store).Leaves state) :
    StateMoves C self (.updateChangeSetFrom observed record : Call V)
      (updateChangeSetFrom self fault observed record store).events store.mem state := by
  obtain ⟨error, h⟩ | ⟨current, hcurrent, hobserved, h⟩ :=
    @updateChangeSetFrom_outcome C self store record fault observed
  · rw [h] at hl
    obtain rfl := leaves_refuse hl
    exact .refl
  · rw [h] at hl ⊢
    refine updateChangeSet_moves hkeyed (fun current' hcurrent' => .inr ?_) hl
    cases hcurrent.symm.trans hcurrent'
    rw [hobserved]

theorem claimChangeSetForApply_moves (hkeyed : Keyed store.mem)
    {device : String} {handle : ApplyHandle}
    (hl : (claimChangeSetForApply self fault id device handle store).Leaves state) :
    StateMoves C self (.claimChangeSetForApply id device handle : Call V)
      (claimChangeSetForApply self fault id device handle store).events store.mem state := by
  obtain ⟨error, h⟩ | ⟨previous, effect, hprevious, rfl, happroved, hwrite, h⟩ :=
    @claimChangeSetForApply_outcome C self store fault id device handle
  · rw [h] at hl
    obtain rfl := leaves_refuse hl
    exact .refl
  obtain rfl := hkeyed.changeSets _ _ hprevious
  rw [h] at hl ⊢
  have hl : effect.Leaves state := by
    refine @leaves_of_log C Unit _ effect _ [.claimed _ _] (fun s hs => ?_) state hl
    cases mem_singleton.mp hs
  have hstate : state =
      store.mem.putChangeSet previous.id (previous.claimedAs handle) := by
    obtain ⟨rfl, -⟩ | rfl := hwrite.leaves hl <;> rfl
  subst hstate
  refine ⟨.kept fun id other hother => ?_, .same rfl⟩
  rw [getElem?_putChangeSet] at hother
  split at hother
  · next hid =>
    subst hid
    cases hother
    exact ⟨previous, hprevious, .claimed handle effect.result.isOk rfl happroved
      (.head _)⟩
  · exact movedFrom_same hother

/-! ### The insert of a change set -/

theorem sweepAndEvict_movedFrom (h : (sweepAndEvict self now old).changeSets[id]? = some record) :
    MovedFrom C c events old id record := by
  obtain ⟨original, ho, rfl⟩ := sweepAndEvict_some h
  exact ⟨original, ho, recordMove_swept original now⟩

theorem sweepAndEvict_moves (now : UInt64) :
    StateMoves C self c events old (sweepAndEvict self now old) :=
  ⟨.kept fun _ _ h => sweepAndEvict_movedFrom h, .same rfl⟩

theorem undoSweep_moves (hkeyed : Keyed old) (now : UInt64) :
    StateMoves C self c events old (undoSweep self now old) := by
  refine ⟨.kept fun id record h => ?_, .same rfl⟩
  obtain ⟨original, ho, rfl | rfl⟩ := undoSweep_some hkeyed h
  · exact movedFrom_same ho
  · exact ⟨original, ho, recordMove_swept original now⟩

theorem pendingBlocker_none (h : pendingBlocker old record = none) {other : ChangeSetRecord}
    (hother : old.changeSets[id]? = some other)
    (howner : other.owner = record.owner) (hdevice : other.device = record.device) :
    isPending other.state = false := by
  unfold pendingBlocker at h
  rw [map_eq_none_iff, find?_eq_none] at h
  have hmem := Std.ExtTreeMap.mem_toList_iff_getElem?_eq_some.mpr hother
  simpa [howner, hdevice] using h (id, other) hmem

theorem putSwept_moves {ok : Bool}
    (hcall : c = .insertChangeSet record) (hcheck : checkNewChangeSet C self record = .ok ())
    (hinserted : .inserted (normaliseRecord record) ok ∈ events)
    (hnew : old.changeSets[record.id]? = none)
    (hpending : pendingBlocker (sweepAndEvict self now old) (normaliseRecord record) = none) :
    StateMoves C self c events old
      ((sweepAndEvict self now old).putChangeSet record.id (normaliseRecord record)) := by
  obtain ⟨taskId, applyWithoutHandle, heq⟩ := normaliseRecord_eq record
  have howner : (normaliseRecord record).owner = record.owner := by rw [heq]
  have hdevice : (normaliseRecord record).device = record.device := by rw [heq]
  refine ⟨.inserted record ok hcall hcheck hinserted hnew ?_ ?_, .same rfl⟩
  · intro id other hother ho hd hp
    rw [getElem?_putChangeSet] at hother
    split at hother
    · next hid => exact hid
    · rw [pendingBlocker_none hpending hother (ho.trans howner.symm) (hd.trans hdevice.symm)] at hp
      cases hp
  · intro id other hother
    rw [getElem?_putChangeSet] at hother
    split at hother
    · next hid => exact .inl ⟨hid, (Option.some.inj hother).symm⟩
    · exact .inr (sweepAndEvict_movedFrom hother)

theorem sweepDone_leaves {swept : Store C} {sweepEvents : List Event}
    (h : SweepDone self now store swept sweepEvents) :
    swept.mem = sweepAndEvict self now store.mem ∧
      ∀ state, .wrote state ∈ sweepEvents → state = sweepAndEvict self now store.mem := by
  cases h with
  | unwritten => exact ⟨rfl, fun _ h => by cases h⟩
  | written hpath => exact ⟨rfl, fun _ h => Event.wrote.inj (mem_singleton.mp h)⟩

theorem insertChangeSet_moves (hkeyed : Keyed store.mem) {clock : Option UInt64}
    {sweepFault finalFault : Option WriteFault}
    (hl : (insertChangeSet self clock sweepFault finalFault record store).Leaves state) :
    StateMoves C self (.insertChangeSet record : Call V)
      (insertChangeSet self clock sweepFault finalFault record store).events store.mem state := by
  have hout := @insertChangeSet_outcome C self clock sweepFault finalFault record store
  generalize insertChangeSet self clock sweepFault finalFault record store = effect at hout hl ⊢
  cases hout with
  | refused error =>
    obtain rfl := leaves_refuse hl
    exact .refl
  | sweepFailed now _ effect error _ hwrite =>
    obtain ⟨rfl, -⟩ | rfl := hwrite.leaves hl
    · exact sweepAndEvict_moves now
    · exact undoSweep_moves hkeyed now
  | sweptOnly now _ swept sweepEvents hsweep error =>
    obtain ⟨hmem, hwrote⟩ := sweepDone_leaves hsweep
    have hstate : state = sweepAndEvict self now store.mem := by
      obtain rfl | hw := hl
      · exact hmem
      · exact hwrote state hw
    subst hstate
    exact sweepAndEvict_moves now
  | attempted now _ swept sweepEvents hcheck hsweep hnew _ hpending effect hwrite =>
    obtain ⟨hmem, hwrote⟩ := sweepDone_leaves hsweep
    rw [hmem] at hpending hwrite
    have hcases : effect.Leaves state ∨ state = sweepAndEvict self now store.mem := by
      obtain rfl | hw := hl
      · exact .inl (.inl rfl)
      · simp only [mem_append] at hw
        obtain (hw | hw) | hw := hw
        · unfold insertEvents at hw
          split at hw
          · cases mem_singleton.mp hw
          · cases hw
        · exact .inl (.inr hw)
        · exact .inr (hwrote state hw)
    obtain hl | rfl := hcases
    · obtain ⟨rfl, htook⟩ | rfl := hwrite.leaves hl
      · have hinserted : .inserted (normaliseRecord record) effect.result.isOk ∈
            insertEvents (normaliseRecord record) effect ++ effect.events ++ sweepEvents := by
          simp [insertEvents, htook]
        exact putSwept_moves rfl hcheck hinserted hnew hpending
      · exact sweepAndEvict_moves now
    · exact sweepAndEvict_moves now

/-! ### The sections on operations -/

theorem insertOperation_moves {record : OperationRecord}
    (hl : (insertOperation self fault record store).Leaves state) :
    StateMoves C self (.insert record : Call V) events store.mem state := by
  have hsame : (evictTerminal self store.mem).changeSets = store.mem.changeSets := by
    unfold evictTerminal
    split <;> rfl
  have hevicted : StateMoves C self (.insert record : Call V) events store.mem
      (evictTerminal self store.mem) :=
    ⟨.kept fun _ _ h => movedFrom_same (hsame ▸ h), .evicted record rfl (.inl rfl)⟩
  unfold insertOperation at hl
  dsimp only at hl
  split at hl
  · rwa [leaves_refuse hl]
  · split at hl
    · rwa [leaves_refuse hl]
    · next hfree =>
      have hfree : (evictTerminal self store.mem).anyOperation (·.blocks record) = false := by
        simpa using hfree
      obtain ⟨rfl, -⟩ | rfl := (persistOr_outcome _ _).leaves hl
      · exact ⟨.kept fun _ _ h => movedFrom_same (hsame ▸ h), .inserted record rfl hfree rfl⟩
      · refine ⟨.kept fun _ _ h => movedFrom_same (hsame ▸ h), .evicted record rfl (.inr ?_)⟩
        rw [eraseOperation_putOperation]

theorem updateOperation_moves {record : OperationRecord}
    (hl : (updateOperation self fault record store).Leaves state) :
    StateMoves C self (.update record : Call V) events store.mem state := by
  unfold updateOperation at hl
  dsimp only at hl
  rw [restoreOperation_putOperation] at hl
  obtain ⟨rfl, -⟩ | rfl := (persistOr_outcome _ _).leaves hl
  · exact ⟨.kept fun _ _ h => movedFrom_same h, .updated record rfl rfl⟩
  · exact .refl

theorem removeOperation_moves {operationId : String}
    (hl : (removeOperation self fault operationId store).Leaves state) :
    StateMoves C self (.remove operationId : Call V) events store.mem state := by
  obtain ⟨effect, hwrite, hstore, hevents⟩ :=
    @removeOperation_outcome C self fault store operationId
  have hl : effect.Leaves state := by
    unfold Effect.Leaves at hl ⊢
    rwa [← hstore, ← hevents]
  have hstate : state = store.mem.eraseOperation operationId := by
    obtain ⟨rfl, -⟩ | rfl := hwrite.leaves hl <;> rfl
  subst hstate
  exact ⟨.kept fun _ _ h => movedFrom_same h, .removed operationId rfl rfl⟩

/-- **What an answered call leaves in memory and writes**, in terms of the state in memory before. -/
theorem exec_moves {w mid : World C V} {t : ℕ} {answer : c.Answer}
    (hkeyed : Keyed w.store.mem) (h : World.Executed w self t c answer mid events)
    (hl : state = mid.store.mem ∨ .wrote state ∈ events) :
    StateMoves C self c events w.store.mem state := by
  cases h with
  | quiet | nowUnix | rngFailed | guardRefused | changeSet | record | newOperationId | guardTaken =>
    obtain rfl | hw := hl
    · exact .refl
    · cases hw
  | insertChangeSet record sweepFault finalFault => exact insertChangeSet_moves hkeyed hl
  | updateChangeSet record fault => exact updateChangeSet_moves hkeyed (fun _ _ => .inl rfl) hl
  | updateChangeSetFrom observed record fault => exact updateChangeSetFrom_moves hkeyed hl
  | claimChangeSetForApply id device handle fault => exact claimChangeSetForApply_moves hkeyed hl
  | insert record fault => exact insertOperation_moves hl
  | update record fault => exact updateOperation_moves hl
  | remove operationId fault => exact removeOperation_moves hl

/-! ### Invariants of the states in memory and in the file -/

namespace World

variable {path : Option String} {w w' : World C V} {a : Action V}
variable {ok : World C V → Action V → Prop} {args : LoadArgs} {record : OperationRecord}

/-- The state in memory, and the one last written. -/
def Holds (w : World C V) (state : ChangesetState) : Prop :=
  state = w.store.mem ∨ w.image = some state

/-- The state a coordinator works on: the one in memory, or the one of the file when none runs.
The file of a running coordinator is not one: after a write that failed in its last step it holds
what memory has taken back, and the next write of the coordinator replaces it. -/
def Stored (w : World C V) (state : ChangesetState) : Prop :=
  match w.self with
  | some _ => state = w.store.mem
  | none => w.image = some state

theorem Stored.holds (hstored : w.Stored state) : w.Holds state := by
  unfold Stored at hstored
  split at hstored
  · exact .inl hstored
  · exact .inr hstored

/-- The states held after a step are those held before, the empty one, those an answered call left
or wrote, the recovered one and the resolved one. -/
inductive NewState (path : Option String) (w : World C V) : Action V → ChangesetState → Prop where
  | stopped : NewState path w .crash .empty
  | executed (t : ℕ) (choice : Choice V) (self : Config) (request : Request V) (c : Call V)
      (next : c.Answer → Method V Unit) (answer : c.Answer) (mid : World C V)
      (events : List Event) (state : ChangesetState) (hself : w.self = some self)
      (hthread : w.threads t = some ⟨request, .call c next⟩)
      (hexec : Executed w self t c answer mid events)
      (hl : state = mid.store.mem ∨ .wrote state ∈ events) :
      NewState path w (.advance t choice) state
  | recovered (args : LoadArgs) (env : LoadEnv) (hself : w.self = none)
      (hloads : w.Loads args.approvalDigestKey) :
      NewState path w (.load args env) (w.recovered args)
  | resolved (operationId : String) (disposition : RecoveryDisposition) (confirmation : String)
      (limits : OperationLimits) (env : LoadEnv) (record : OperationRecord)
      (hrecord : (readBack C w.image).operations[operationId]? = some record)
      (hterminal : record.state.terminal = false) (hloads : w.Loads none) :
      NewState path w (.resolve operationId disposition confirmation limits env)
        ((readBack C w.image).putOperation operationId (record.resolvedAs disposition))

theorem lastWritten_mem (h : lastWritten events = some state) : .wrote state ∈ events := by
  obtain ⟨event, hmem, hw⟩ := exists_of_findSome?_eq_some h
  cases event with
  | wrote written =>
    cases hw
    exact hmem
  | inserted | granted | claimed => cases hw

def answered (w mid : World C V) (t : ℕ) (request : Request V) (c : Call V)
    (next : c.Answer → Method V Unit) (answer : c.Answer) (events : List Event) : World C V :=
  { mid with
    threads := w.threads.set t (some ⟨request, next answer⟩)
    trace := ⟨some (t, request), w.clock, .answered c answer⟩ ::
      (w.storeEntries (some (t, request)) events ++ w.trace) }

/-- What is held after an answered call is what the call left, or the old file if it wrote
nothing. -/
theorem answered_holds {mid : World C V} {t : ℕ} {request : Request V}
    {next : c.Answer → Method V Unit} {answer : c.Answer}
    (hheld : (w.answered mid t request c next answer events).Holds state) :
    (state = mid.store.mem ∨ .wrote state ∈ events) ∨
      lastWritten events = none ∧ w.image = some state := by
  obtain rfl | him := hheld
  · exact .inl (.inl rfl)
  · have him := (image_advance w t request c answer events).symm.trans him
    cases hlast : lastWritten events with
    | none =>
      rw [hlast, none_or] at him
      exact .inr ⟨rfl, him⟩
    | some written =>
      rw [hlast, some_or] at him
      exact .inl (.inr (Option.some.inj him ▸ lastWritten_mem hlast))

theorem StepCase.holds (h : StepCase path w a w')
    (hheld : w'.Holds state) : w.Holds state ∨ NewState path w a state := by
  cases h with
  | tick | spawn | finish | loadRefused | resolveRefused => exact .inl hheld
  | loadLanded args env hself hpath hloads =>
    obtain rfl | him := hheld
    · exact .inl (.inl rfl)
    · cases him
      exact .inr (.recovered args env hself hloads)
  | loaded args env hself hloads =>
    obtain rfl | him := hheld
    · exact .inr (.recovered args env hself hloads)
    · exact .inl (.inr him)
  | loadRecovered args env hself hpath hloads =>
    obtain rfl | him := hheld
    · exact .inr (.recovered args env hself hloads)
    · cases him
      exact .inr (.recovered args env hself hloads)
  | crash =>
    obtain rfl | him := hheld
    · exact .inr .stopped
    · exact .inl (.inr him)
  | resolved operationId disposition confirmation limits env hself hpath record hrecord hterminal
      hloads =>
    obtain rfl | him := hheld
    · exact .inl (.inl rfl)
    · cases him
      exact .inr (.resolved operationId disposition confirmation limits env record hrecord
        hterminal hloads)
  | advance t choice self request c next answer mid events hself hthread hexec =>
    obtain hl | ⟨-, him⟩ := answered_holds hheld
    · exact .inr (.executed t choice self request c next answer mid events _ hself hthread hexec hl)
    · exact .inl (.inr him)

/-- **Invariants of the held states**: a property of the empty state that every new state has, if
the states held before have it, is a property of every state a run holds. -/
theorem reached_holds {P : ChangesetState → Prop} (hempty : P .empty)
    (hnew : ∀ w a state, Reached path ok w → (∀ held, w.Holds held → P held) → ok w a →
      NewState path w a state → P state) (h : Reached path ok w) (hheld :
    w.Holds state) : P state := by
  induction h generalizing state with
  | start =>
    obtain rfl | him := hheld
    · exact hempty
    · cases him
  | next hreached hok hstep ih =>
    have hcase := step_case (reached_grounded hreached) hstep
    obtain hold | hnewState := hcase.holds hheld
    · exact ih hold
    · exact hnew _ _ _ hreached (fun _ => ih) hok hnewState

/-! ### Records of the file -/

theorem recovered_changeSet {record : ChangeSetRecord}
    (h : (w.recovered args).changeSets[id]? = some record) :
    ∃ state original, w.image = some state ∧ state.changeSets[id]? = some original ∧
      record = recoverChangeSet ((normaliseTaskHandle original).mapFloat C.reparse) := by
  rw [recovered, getElem?_recoverState_changeSets] at h
  obtain ⟨readRecord, hr, rfl⟩ := map_eq_some_iff.mp h
  obtain ⟨state, original, him, ho, rfl⟩ := readBack_changeSet hr
  exact ⟨state, original, him, ho, rfl⟩

/-- Outside of calls a change set comes from the file, and none becomes `Approved`. -/
theorem NewState.evolves {record : ChangeSetRecord} (hn : NewState path w a state)
    (hno : ∀ t choice, a ≠ .advance t choice) (hrecord : state.changeSets[id]? = some record) :
    ∃ held original, w.image = some held ∧ held.changeSets[id]? = some original ∧
      Evolves original record ∧ (record.state = .approved → original.state = .approved) := by
  cases hn with
  | stopped => simp [ChangesetState.empty] at hrecord
  | executed t choice => exact absurd rfl (hno t choice)
  | recovered args =>
    obtain ⟨held, original, him, ho, rfl⟩ := recovered_changeSet hrecord
    refine ⟨held, original, him, ho, recovered_evolves _ _, fun happroved => ?_⟩
    obtain ⟨taskId, heq⟩ := normaliseTaskHandle_eq original
    obtain ⟨state, taskId', heq', rfl | ⟨-, rfl⟩⟩ :=
      recoverChangeSet_eq ((normaliseTaskHandle original).mapFloat C.reparse)
    · rwa [heq', heq] at happroved
    · rw [heq'] at happroved
      cases happroved
  | resolved =>
    obtain ⟨held, original, him, ho, rfl⟩ := readBack_changeSet hrecord
    refine ⟨held, original, him, ho, readBack_evolves _ _, fun happroved => ?_⟩
    obtain ⟨taskId, heq⟩ := normaliseTaskHandle_eq original
    rwa [heq] at happroved

theorem recovered_operation (h : (w.recovered args).operations[id]? = some record) :
    ∃ state original, w.image = some state ∧ state.operations[id]? = some original ∧
      record = recoverOperation args.stagedRecovery (original.mapFloat C.reparse) := by
  rw [recovered, getElem?_recoverState_operations] at h
  obtain ⟨readRecord, hr, rfl⟩ := map_eq_some_iff.mp h
  obtain ⟨state, original, him, ho, rfl⟩ := readBack_operation hr
  exact ⟨state, original, him, ho, rfl⟩

/-! ### Keys -/

theorem keyed_empty : Keyed .empty := by
  constructor <;> intro id record h <;> simp [ChangesetState.empty] at h

theorem keyed_of_valid {version : ℕ} {key : Option (List UInt8)}
    (h : validateStateWithKey C state version key = .ok ()) : Keyed state := by
  obtain ⟨-, -, hops, hsets⟩ := validateStateWithKey_ok.mp h
  constructor
  · intro id record hr
    have hv := hops id record hr
    simp only [validateOperationEntry, bind_unit_ok, refuseIf_ok, not_or, not_not] at hv
    exact hv.2.1.1.symm
  · intro id record hr
    have hv := hsets id record hr
    simp only [validateChangeSetEntry, bind_unit_ok, refuseIf_ok, not_or, not_not] at hv
    exact hv.2.1.1.symm

theorem keyed_recoverState (h : Keyed state)
    (stagedRecovery : StagedRecovery) : Keyed (recoverState stagedRecovery state) := by
  constructor
  · intro id record hr
    rw [getElem?_recoverState_operations] at hr
    obtain ⟨original, ho, rfl⟩ := map_eq_some_iff.mp hr
    rw [recoverOperation_id]
    exact h.operations id original ho
  · intro id record hr
    rw [getElem?_recoverState_changeSets] at hr
    obtain ⟨original, ho, rfl⟩ := map_eq_some_iff.mp hr
    rw [recoverChangeSet_id]
    exact h.changeSets id original ho

theorem evictTerminal_some (h : (evictTerminal self state).operations[id]? = some record) :
    state.operations[id]? = some record := by
  unfold evictTerminal at h
  split at h
  · rw [Std.ExtTreeMap.getElem?_filter', filter_eq_some_iff] at h
    exact h.1
  · exact h

theorem keyed_of_moves
    {old new : ChangesetState} (hkeyed : Keyed old) (h : StateMoves C self c events old new) :
    Keyed new := by
  have hmoved : ∀ (id : String) record, MovedFrom C c events old id record → record.id = id := by
    rintro id record ⟨original, ho, hmove⟩
    rw [(recordMove_evolves hmove).id]
    exact hkeyed.changeSets id original ho
  constructor
  · intro id record hr
    cases h.operations with
    | same h => exact hkeyed.operations id record (h ▸ hr)
    | evicted _ _ h =>
      obtain h | h := h
      · exact hkeyed.operations id record (evictTerminal_some (h ▸ hr))
      · rw [h, getElem?_eraseOperation] at hr
        split at hr
        · cases hr
        · exact hkeyed.operations id record (evictTerminal_some hr)
    | inserted inserted _ _ h =>
      rw [h, getElem?_putOperation] at hr
      split at hr
      · next hid => rw [← Option.some.inj hr, hid]
      · exact hkeyed.operations id record (evictTerminal_some hr)
    | updated updated _ h =>
      rw [h, getElem?_putOperation] at hr
      split at hr
      · next hid => rw [← Option.some.inj hr, hid]
      · exact hkeyed.operations id record hr
    | removed operationId _ h =>
      rw [h, getElem?_eraseOperation] at hr
      split at hr
      · cases hr
      · exact hkeyed.operations id record hr
  · intro id record hr
    cases h.changeSets with
    | kept h => exact hmoved id record (h id record hr)
    | inserted inserted _ _ _ _ _ _ h =>
      obtain ⟨rfl, rfl⟩ | hm := h id record hr
      · exact normaliseRecord_id
      · exact hmoved id record hm

theorem reached_keyed (h : Reached path ok w) (hheld : w.Holds state) : Keyed state := by
  refine reached_holds keyed_empty ?_ h hheld
  intro w a state _ hheld _ hnew
  cases hnew with
  | stopped => exact keyed_empty
  | executed t choice self request c next answer mid events state hself hthread hexec hl =>
    have hkeyed := hheld _ (.inl rfl)
    exact keyed_of_moves hkeyed (exec_moves hkeyed hexec hl)
  | recovered args env hself hloads =>
    obtain ⟨version, hvalid⟩ := hloads
    exact keyed_recoverState (keyed_of_valid hvalid) args.stagedRecovery
  | resolved operationId disposition confirmation limits env record hrecord hterminal hloads =>
    obtain ⟨version, hvalid⟩ := hloads
    have hkeyed := keyed_of_valid hvalid
    refine ⟨fun id other ho => ?_, hkeyed.changeSets⟩
    rw [getElem?_putOperation] at ho
    split at ho
    · next hid =>
      cases ho
      rw [hid]
      exact hkeyed.operations operationId record hrecord
    · exact hkeyed.operations id other ho

end World

end Mecmcp.Changeset
