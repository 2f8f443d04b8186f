import Mecmcp.Changeset.Lifecycle

/-!
# Undo — what a failed insert leaves in memory

`insert` and `insert_change_set` make room before they check anything: terminal operations are
dropped, expired change sets retired and settled ones evicted.  Here is what is left of the map in
memory when such a call fails with nothing written to the file.
-/

namespace Mecmcp.Changeset

open List Option

section
variable {C : Crates} {self : Config} {fault : Option WriteFault} {store : Store C}
  {state : ChangesetState}

/-! ### Operations -/

theorem evictTerminal_eq_iff : (evictTerminal self state).operations = state.operations ↔
    state.operations.size < self.limits.maxOperations ∨
      state.anyOperation (·.state.terminal) = false := by
  unfold evictTerminal
  by_cases hroom : state.operations.size < self.limits.maxOperations
  · rw [if_neg (not_le.mpr hroom)]
    exact ⟨fun _ => .inl hroom, fun _ => rfl⟩
  · rw [if_pos (not_lt.mp hroom)]
    constructor
    · intro heq
      refine .inr ?_
      by_contra hany
      rw [Bool.not_eq_false, ChangesetState.anyOperation, List.any_eq_true] at hany
      obtain ⟨⟨id, record⟩, hmem, hterminal⟩ := hany
      have hstored := Std.ExtTreeMap.mem_toList_iff_getElem?_eq_some.mp hmem
      have hkept : (state.operations.filter fun _ record => !record.state.terminal)[id]? =
          some record := by
        exact (congrArg (·[id]?) heq).trans hstored
      rw [Std.ExtTreeMap.getElem?_filter', filter_eq_some_iff] at hkept
      simp_all
    · rintro (h | hnone)
      · exact absurd h hroom
      · refine Std.ExtTreeMap.ext_getElem? fun id => ?_
        rw [Std.ExtTreeMap.getElem?_filter']
        rcases hstored : state.operations[id]? with _ | record
        · rfl
        · simp [anyOperation_false hnone hstored]

/-- Nothing is evicted and, if the insert reaches its write, nothing is stored under its id. -/
def ChangesetState.KeptByInsert (self : Config) (record : OperationRecord)
    (state : ChangesetState) : Prop :=
  (state.operations.size < self.limits.maxOperations ∨
      state.anyOperation (·.state.terminal) = false) ∧
    (self.limits.maxOperations ≤ state.operations.size ∨
      state.anyOperation (·.blocks record) = true ∨ state.operations[record.id]? = none)

variable {record : OperationRecord}

theorem keptByInsert_of_refused
    (h : self.limits.maxOperations ≤ (evictTerminal self state).operations.size ∨
      (evictTerminal self state).anyOperation (·.blocks record) = true) :
    (evictTerminal self state).operations = state.operations ↔
      state.KeptByInsert self record := by
  constructor
  · intro heq
    refine ⟨evictTerminal_eq_iff.mp heq, ?_⟩
    rw [ChangesetState.anyOperation, heq] at h
    rcases h with hfull | hbusy
    · exact .inl hfull
    · exact .inr (.inl hbusy)
  · intro hkept
    exact evictTerminal_eq_iff.mpr hkept.1

/-- Taking the new record out again gives the operations back if nothing was evicted and nothing
stored under its id. -/
theorem keptByInsert_of_undone
    (hroom : (evictTerminal self state).operations.size < self.limits.maxOperations)
    (hfree : (evictTerminal self state).anyOperation (·.blocks record) = false) :
    ((evictTerminal self state).eraseOperation record.id).operations = state.operations ↔
      state.KeptByInsert self record := by
  constructor
  · intro heq
    have hlookup : ∀ id : String, state.operations[id]? =
        if id = record.id then none else (evictTerminal self state).operations[id]? := by
      intro id
      rw [← heq]
      exact getElem?_eraseOperation _ _ _
    have hnone : state.operations[record.id]? = none := by rw [hlookup, if_pos rfl]
    have hsame : (evictTerminal self state).operations = state.operations := by
      refine Std.ExtTreeMap.ext_getElem? fun id => ?_
      by_cases hid : id = record.id
      · subst hid
        rw [hnone]
        by_contra hsome
        obtain ⟨existing, hexisting⟩ := ne_none_iff_exists'.mp hsome
        rw [World.evictTerminal_some hexisting] at hnone
        cases hnone
      · rw [hlookup id, if_neg hid]
    exact ⟨evictTerminal_eq_iff.mp hsame, .inr (.inr hnone)⟩
  · rintro ⟨hkept, hid⟩
    have hsame := evictTerminal_eq_iff.mpr hkept
    rw [ChangesetState.anyOperation, hsame] at hfree
    rw [hsame] at hroom
    have hnone : state.operations[record.id]? = none := by
      rcases hid with hfull | hbusy | hnone
      · omega
      · rw [ChangesetState.anyOperation, hfree] at hbusy
        cases hbusy
      · exact hnone
    refine Std.ExtTreeMap.ext_getElem? fun id => ?_
    rw [getElem?_eraseOperation, hsame]
    by_cases hk : id = record.id
    · rw [if_pos hk, hk, hnone]
    · rw [if_neg hk]

/-- **What a failed `insert` leaves in memory.**  With nothing written the file is as it was; the
operations in memory are as they were exactly if no terminal record had to make room and, where the
call got as far as its write, nothing was stored under the id of the new record. -/
theorem failed_insert_keeps_operations_iff {record : OperationRecord} {error : CoordinatorError}
    (herror : (insertOperation self fault record store).result = .error error)
    (hunwritten : (insertOperation self fault record store).events = []) :
    (insertOperation self fault record store).store.disk = store.disk ∧
      ((insertOperation self fault record store).store.mem.operations = store.mem.operations ↔
        store.mem.KeptByInsert self record) := by
  unfold insertOperation at herror hunwritten ⊢
  dsimp only at herror hunwritten ⊢
  by_cases hfull : self.limits.maxOperations ≤ (evictTerminal self store.mem).operations.size
  · rw [if_pos hfull]
    exact ⟨rfl, keptByInsert_of_refused (.inl hfull)⟩
  rw [if_neg hfull] at herror hunwritten ⊢
  by_cases hbusy : (evictTerminal self store.mem).anyOperation (·.blocks record) = true
  · rw [if_pos hbusy]
    exact ⟨rfl, keptByInsert_of_refused (.inr hbusy)⟩
  rw [if_neg hbusy] at herror hunwritten ⊢
  have hwrite := @persistOr_outcome C self fault store
    ((evictTerminal self store.mem).putOperation record.id record)
    (((evictTerminal self store.mem).putOperation record.id record).eraseOperation record.id)
  rw [eraseOperation_putOperation] at hwrite herror hunwritten ⊢
  generalize persistOr self fault store _ _ = effect at hwrite herror hunwritten ⊢
  cases hwrite with
  | unwritten | written => cases herror
  | landed => cases hunwritten
  | failed =>
    exact ⟨rfl, keptByInsert_of_undone (not_le.mp hfull) (Bool.not_eq_true _ ▸ hbusy)⟩

end

/-- A coordinator without a file that keeps at most two operations and two change sets. -/
def twoSlots : Config where
  statePath := none
  limits := { OperationLimits.default with maxOperations := 2, maxChangeSets := 2 }
  approvalTtl := 900
  labMode := false
  evidence := false
  approvalDigestKey := none

/-- An operation of `alice` on `edge1`. -/
def edgeOperation (id : String) (state : LifecycleState) : OperationRecord where
  id
  owner := "alice"
  device := "edge1"
  endpoint := "https://a"
  action := ⟨.str "set", Json.uniqueKeys_str _⟩
  xpath := none
  actions := []
  changeSetId := none
  current := sampleFingerprint
  state
  jobId := none
  details := none
  configLockHeld := false
  policySignature := "policy"
  attribution := none
  rollbackDeadlineUnix := none
  configAuthority := none

/-- A busy device, and room for the new operation: the refused insert changes nothing. -/
theorem busy_insert_keeps_operations :
    (insertOperation twoSlots none (edgeOperation "b" .staging)
      ⟨ChangesetState.empty.putOperation "a" (edgeOperation "a" .staging), (none : Option Json)⟩
        : Effect Crates.sample Unit).store.mem.operations =
      (ChangesetState.empty.putOperation "a" (edgeOperation "a" .staging)).operations := by
  refine (failed_insert_keeps_operations_iff rfl rfl).2.mpr ⟨.inl (by decide), .inr (.inl ?_)⟩
  decide

/-- Two slots, one taken by a committed operation and one by an active one on `edge1`: another
operation for `edge1` is refused, and the committed one is gone from memory. -/
theorem refused_insert_drops_committed :
    let store : Store Crates.sample :=
      ⟨(ChangesetState.empty.putOperation "a" (edgeOperation "a" .committed)).putOperation "b"
        (edgeOperation "b" .staging), none⟩
    let effect := insertOperation twoSlots none (edgeOperation "c" .staging) store
    effect.result = .error ⟨"operation_id",
        "the device already has an active or unreconciled operation"⟩ ∧ effect.events = [] ∧
      effect.store.mem.operations ≠ store.mem.operations := by
  intro store effect
  have hevicted : ¬ (evictTerminal twoSlots store.mem).operations.size ≥ 2 ∧
      (evictTerminal twoSlots store.mem).anyOperation (·.blocks (edgeOperation "c" .staging)) =
        true ∧
      (evictTerminal twoSlots store.mem).operations["a"]?.isSome = false ∧
      store.mem.operations["a"]?.isSome = true := by decide +kernel
  obtain ⟨hroom, hbusy, hgone, hstored⟩ := hevicted
  have hrefused : effect = .refuse { store with mem := evictTerminal twoSlots store.mem }
      ⟨"operation_id", "the device already has an active or unreconciled operation"⟩ := by
    exact (if_neg hroom).trans (if_pos hbusy)
  rw [hrefused]
  refine ⟨rfl, rfl, fun heq => ?_⟩
  have hlookup := congrArg (fun operations => operations["a"]?.isSome) heq
  exact absurd (hgone.symm.trans (hlookup.trans hstored)) Bool.false_ne_true

/-! ### Change sets -/

section
variable {C : Crates} {self : Config} {fault finalFault : Option WriteFault} {store : Store C}
  {state : ChangesetState} {now : UInt64} {id : String} {record : ChangeSetRecord}

theorem isSettled_swept_of_due (h : record.due now = true) :
    isSettled (record.swept now).state = true := by
  rw [ChangeSetRecord.swept, if_pos h]
  rfl

theorem swept_of_not_due (h : record.due now = false) : record.swept now = record := by
  rw [ChangeSetRecord.swept, if_neg (by simp [h])]

theorem not_due_of_isSettled (h : isSettled record.state = true) : record.due now = false := by
  unfold ChangeSetRecord.due
  rcases hstate : record.state <;> simp_all [isSettled, isExpirable]

theorem insertMany_eq_of_agree {α : Type} {m target : Std.ExtTreeMap String α}
    {l : List (String × α)} (hagree : ∀ k v, (k, v) ∈ l → target[k]? = some v)
    (hbase : ∀ k : String, m[k]? = target[k]? ∨ m[k]? = none ∧ ∃ v, (k, v) ∈ l) :
    m.insertMany l = target := by
  refine Std.ExtTreeMap.ext_getElem? fun k => ?_
  rcases hfound : (m.insertMany l)[k]? with _ | v
  · rw [Std.ExtTreeMap.getElem?_insertMany_list, findSomeRev?_eq_findSome?_reverse,
      or_eq_none_iff, findSome?_eq_none_iff] at hfound
    rcases hbase k with hsame | ⟨-, v, hmem⟩
    · rw [← hsame, hfound.2]
    · simpa using hfound.1 (k, v) (mem_reverse.mpr hmem)
  · rcases getElem?_insertMany_cases hfound with hmem | hm
    · exact (hagree k v hmem).symm
    · rcases hbase k with hsame | ⟨hnone, -⟩
      · rw [← hsame, hm]
      · rw [hnone] at hm
        cases hm

/-- What the undo leaves of the swept map before the evicted records are put back. -/
def restoredStates (self : Config) (now : UInt64) (state : ChangesetState) :
    Std.ExtTreeMap String ChangeSetRecord :=
  (sweepAndEvict self now state).changeSets.map fun id record =>
    match (state.changeSets.filterMap fun _ record =>
      if record.due now then some record.state else none)[id]? with
    | some previous => { record with state := previous }
    | none => record

theorem undoSweep_changeSets : (undoSweep self now state).changeSets =
    (restoredStates self now state).insertMany
      ((evicted self now state).toList.map fun entry => (entry.2.id, entry.2)) := rfl

theorem undoSweep_of_room (hroom : state.changeSets.size < self.limits.maxChangeSets) :
    (undoSweep self now state).changeSets = state.changeSets := by
  have hsize : ¬ (state.changeSets.map fun _ record => record.swept now).size ≥
      self.limits.maxChangeSets := by
    rw [Std.ExtTreeMap.size_map]
    omega
  have hnothing : evicted self now state = ∅ := if_neg hsize
  rw [undoSweep_changeSets]
  refine insertMany_eq_of_agree (fun k v hmem => ?_) (fun k => .inl ?_)
  · rw [hnothing] at hmem
    cases hmem
  · simp only [restoredStates, sweepAndEvict, if_neg hsize, Std.ExtTreeMap.getElem?_map,
      Std.ExtTreeMap.getElem?_filterMap']
    rcases hstored : state.changeSets[k]? with _ | existing
    · rfl
    · by_cases hdue : existing.due now = true
      · simp [ChangeSetRecord.swept, hdue]
      · simp [ChangeSetRecord.swept, hdue]

section
variable (hfull : self.limits.maxChangeSets ≤ state.changeSets.size)
include hfull

theorem le_size_swept : self.limits.maxChangeSets ≤
    (state.changeSets.map fun _ record => record.swept now).size := by
  rwa [Std.ExtTreeMap.size_map]

theorem getElem?_evicted : (evicted self now state)[id]? =
    (state.changeSets[id]?.map (·.swept now)).filter fun record => isSettled record.state := by
  simp only [evicted, if_pos (le_size_swept hfull), Std.ExtTreeMap.getElem?_filter', Std.ExtTreeMap.getElem?_map]

theorem getElem?_restoredStates : (restoredStates self now state)[id]? =
    state.changeSets[id]?.filter fun record => !isSettled (record.swept now).state := by
  simp only [restoredStates, sweepAndEvict, if_pos (le_size_swept hfull),
    Std.ExtTreeMap.getElem?_filter', Std.ExtTreeMap.getElem?_map, Std.ExtTreeMap.getElem?_filterMap']
  rcases hstored : state.changeSets[id]? with _ | existing
  · rfl
  · by_cases hdue : existing.due now = true
    · simp [filter_some, isSettled_swept_of_due hdue]
    · rw [Bool.not_eq_true] at hdue
      by_cases hsettled : isSettled existing.state = true
      · simp [filter_some, swept_of_not_due hdue, hsettled]
      · simp [filter_some, swept_of_not_due hdue, hsettled, hdue]

/-- What the undo puts under an id at capacity: a settled record of that id that was evicted, or
the record that stayed. -/
theorem undoSweep_full_cases (h : (undoSweep self now state).changeSets[id]? = some record) :
    (record.id = id ∧ isSettled record.state = true) ∨
      (state.changeSets[id]? = some record ∧ isSettled (record.swept now).state = false) := by
  rw [undoSweep_changeSets] at h
  rcases getElem?_insertMany_cases h with hmem | hrestored
  · obtain ⟨⟨key, entry⟩, hentry, heq⟩ := List.mem_map.mp hmem
    rw [Std.ExtTreeMap.mem_toList_iff_getElem?_eq_some, getElem?_evicted hfull,
      filter_eq_some_iff] at hentry
    cases heq
    exact .inl ⟨rfl, hentry.2⟩
  · rw [getElem?_restoredStates hfull, filter_eq_some_iff] at hrestored
    exact .inr ⟨hrestored.1, by simpa using hrestored.2⟩

/-- At capacity the undo gives back the map if no deadline has come and every settled record is
filed under its own id. -/
theorem undoSweep_of_none_due
    (h : ∀ (id : String) existing, state.changeSets[id]? = some existing →
      existing.due now = false ∧ (isSettled existing.state = true → existing.id = id)) :
    (undoSweep self now state).changeSets = state.changeSets := by
  have hevicted : ∀ (key : String) entry, (evicted self now state)[key]? = some entry →
      entry.id = key ∧ state.changeSets[key]? = some entry := by
    intro key entry hentry
    rw [getElem?_evicted hfull, filter_eq_some_iff, map_eq_some_iff] at hentry
    obtain ⟨⟨original, hstored, rfl⟩, hsettled⟩ := hentry
    rw [swept_of_not_due (h key original hstored).1] at hsettled ⊢
    exact ⟨(h key original hstored).2 hsettled, hstored⟩
  rw [undoSweep_changeSets]
  refine insertMany_eq_of_agree (fun k v hmem => ?_) (fun k => ?_)
  · obtain ⟨⟨key, entry⟩, hentry, heq⟩ := List.mem_map.mp hmem
    rw [Std.ExtTreeMap.mem_toList_iff_getElem?_eq_some] at hentry
    obtain ⟨hid, hstored⟩ := hevicted key entry hentry
    cases heq
    simpa [hid] using hstored
  · rw [getElem?_restoredStates hfull]
    rcases hstored : state.changeSets[k]? with _ | existing
    · exact .inl rfl
    · obtain ⟨hdue, hkeyed⟩ := h k existing hstored
      by_cases hsettled : isSettled existing.state = true
      · refine .inr ⟨by simp [swept_of_not_due hdue, hsettled], existing,
          List.mem_map.mpr ⟨(k, existing), ?_, by simp [hkeyed hsettled]⟩⟩
        rw [Std.ExtTreeMap.mem_toList_iff_getElem?_eq_some, getElem?_evicted hfull, hstored]
        simp [swept_of_not_due hdue, hsettled]
      · exact .inl (by simp [swept_of_not_due hdue, hsettled])

end

/-- The undo of a sweep gives back the map in memory exactly if the store has room, or no deadline
has come and every settled record is filed under its own id. -/
theorem undoSweep_eq_iff : (undoSweep self now state).changeSets = state.changeSets ↔
    state.changeSets.size < self.limits.maxChangeSets ∨
      ∀ (id : String) existing, state.changeSets[id]? = some existing →
        existing.due now = false ∧ (isSettled existing.state = true → existing.id = id) := by
  constructor
  · intro heq
    by_cases hroom : state.changeSets.size < self.limits.maxChangeSets
    · exact .inl hroom
    · refine .inr fun id existing hstored => ?_
      rw [← heq] at hstored
      rcases undoSweep_full_cases (not_lt.mp hroom) hstored with ⟨hid, hsettled⟩ | ⟨-, hlive⟩
      · exact ⟨not_due_of_isSettled hsettled, fun _ => hid⟩
      · have hdue : existing.due now = false := by
          by_contra hdue
          rw [isSettled_swept_of_due (Bool.not_eq_false _ ▸ hdue)] at hlive
          cases hlive
        refine ⟨hdue, fun hsettled => ?_⟩
        rw [swept_of_not_due hdue, hsettled] at hlive
        cases hlive
  · rintro (hroom | h)
    · exact undoSweep_of_room hroom
    · by_cases hroom : state.changeSets.size < self.limits.maxChangeSets
      · exact undoSweep_of_room hroom
      · exact undoSweep_of_none_due (not_lt.mp hroom) h

/-- `insert_change_set` got as far as its sweep, the sweep changed something, and the write of it
failed with the old file in place. -/
structure SweepUnwritten (config : Config) (now : UInt64) (fault : Option WriteFault)
    (record : ChangeSetRecord) (store : Store C) : Prop where
  checked : checkNewChangeSet C config record = .ok ()
  fresh : store.mem.changeSets[record.id]? = none
  swept : sweptAny config now store.mem = true
  failed : ∃ error, (persistLocked config fault
    { store with mem := sweepAndEvict config now store.mem }).result = .error error
  unwritten : (persistLocked config fault
    { store with mem := sweepAndEvict config now store.mem }).events = []

/-- **What a failed sweep leaves in memory.**  The call fails, and the change sets are as they were,
each with its state, exactly if the store had room, or no deadline had come and every settled record
was filed under its own id: a record that is retired and evicted comes back `Expired`. -/
theorem failed_sweep_undone_iff (h : SweepUnwritten self now fault record store) :
    (∃ error, (insertChangeSet self (some now) fault finalFault record store).result =
        .error error) ∧
      ((insertChangeSet self (some now) fault finalFault record store).store.mem.changeSets =
          store.mem.changeSets ↔
        store.mem.changeSets.size < self.limits.maxChangeSets ∨
          ∀ (id : String) existing, store.mem.changeSets[id]? = some existing →
            existing.due now = false ∧ (isSettled existing.state = true → existing.id = id)) := by
  obtain ⟨error, herror⟩ := h.failed
  have hwrite : (persistOr self fault store (sweepAndEvict self now store.mem)
      (undoSweep self now store.mem)).result = .error error ∧
      (persistOr self fault store (sweepAndEvict self now store.mem)
        (undoSweep self now store.mem)).store.mem = undoSweep self now store.mem := by
    unfold persistOr
    dsimp only
    rw [herror]
    exact ⟨rfl, rfl⟩
  have heffect : insertChangeSet self (some now) fault finalFault record store =
      persistOr self fault store (sweepAndEvict self now store.mem)
        (undoSweep self now store.mem) := by
    unfold insertChangeSet
    rw [h.checked]
    dsimp only
    rw [normaliseRecord_id, h.fresh]
    dsimp only
    rw [if_pos h.swept, hwrite.1]
  rw [heffect, hwrite.2]
  exact ⟨⟨error, hwrite.1⟩, undoSweep_eq_iff⟩

end

/-- A coordinator with a file and room for so many change sets. -/
def changeSetSlots (maxChangeSets : ℕ) : Config where
  statePath := some "/var/lib/mecmcp/state.json"
  limits := { OperationLimits.default with maxChangeSets }
  approvalTtl := 900
  labMode := false
  evidence := false
  approvalDigestKey := none

/-- The store holds a plan whose window ends at 1000. -/
def lapsedStore : Store Crates.sample :=
  ⟨ChangesetState.empty.putChangeSet (samplePlan 'a').id (samplePlan 'a'), none⟩

theorem lapsedStore_unwritten (maxChangeSets : ℕ) :
    SweepUnwritten (changeSetSlots maxChangeSets) 1000 (some ⟨.create, "full"⟩) (samplePlan 'b')
      lapsedStore where
  checked := rfl
  fresh := by
    refine (getElem?_putChangeSet _ _ _ _).trans ?_
    rw [if_neg (by decide)]
    rfl
  swept := Bool.or_eq_true_iff.mpr (.inl (by decide))
  failed := by
    show ∃ error, Except.mapError _ (writeState ..).2 = .error error
    unfold writeState
    split <;> exact ⟨_, rfl⟩
  unwritten := if_neg fun hlanded => nomatch hlanded.2

/-- With room for two change sets the plan is back as it was. -/
theorem lapsed_plan_restored :
    (insertChangeSet (changeSetSlots 2) (some 1000) (some ⟨.create, "full"⟩) none (samplePlan 'b')
      lapsedStore).store.mem.changeSets = lapsedStore.mem.changeSets :=
  (failed_sweep_undone_iff (lapsedStore_unwritten 2)).2.mpr (.inl (by decide))

/-- With room for one change set the plan is retired and evicted, and it comes back `Expired`. -/
theorem evicted_plan_stays_expired :
    SweepUnwritten (changeSetSlots 1) 1000 (some ⟨.create, "full"⟩) (samplePlan 'b') lapsedStore ∧
      (insertChangeSet (changeSetSlots 1) (some 1000) (some ⟨.create, "full"⟩) none
        (samplePlan 'b') lapsedStore).store.mem.changeSets ≠ lapsedStore.mem.changeSets := by
  refine ⟨lapsedStore_unwritten 1, fun heq => ?_⟩
  have hstate := congrArg (fun changeSets => changeSets[(samplePlan 'a').id]?.map (·.state)) heq
  exact absurd hstate (by decide +kernel)

end Mecmcp.Changeset
