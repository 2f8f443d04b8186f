import Mecmcp.Changeset.ConductApply
import Mecmcp.Changeset.Moves

/-!
# Threads — every method of a run keeps its conduct

`program_keeps` says what a method does with what it is told.  Here it is tied to runs: in every
reachable world each thread has kept its conduct up to where it stands, with the calls the history
attributes to it (`historyOf`) as what it was told.  What a thread knows of an operation under the
guard of its device is what the store holds, because every other write of that operation needs the
same guard, and because no two threads ever draw the same id.

`Conducted.advance` is the result the statements about runs use: the call a thread makes next is
justified, and what it does to each operation is one of the few things in `OperationMoved`.
-/

namespace Mecmcp.Changeset

open List

variable {C : Crates} {V : Vendor}

/-! ### Whose calls a history holds -/

/-- The answered call, if thread `t` made it. -/
def Entry.answeredBy (t : ℕ) (entry : Entry V) : Option (Answered V) :=
  match entry.what with
  | .answered call answer =>
    if entry.source.map Prod.fst = some t then some ⟨call, answer⟩ else none
  | _ => none

/-- What thread `t` was told, newest first. -/
def historyOf (trace : List (Entry V)) (t : ℕ) : History V := trace.filterMap (Entry.answeredBy t)

theorem historyOf_append (new old : List (Entry V)) (t : ℕ) :
    historyOf (new ++ old) t = historyOf new t ++ historyOf old t :=
  filterMap_append

theorem mem_historyOf {trace : List (Entry V)} {t : ℕ} {answered : Answered V} :
    answered ∈ historyOf trace t ↔ ∃ entry ∈ trace, entry.source.map Prod.fst = some t ∧
      entry.what = .answered answered.call answered.answer := by
  rw [historyOf, mem_filterMap]
  refine exists_congr fun entry => and_congr_right fun _ => ?_
  obtain ⟨source, clock, what⟩ := entry
  obtain ⟨call, answer⟩ := answered
  cases what with
  | answered call' answer' =>
    simp [Entry.answeredBy]
  | store | resolved => simp [Entry.answeredBy]

/-- An id was drawn by a thread that has tried to insert an operation. -/
def Introduced (trace : List (Entry V)) (id : String) : Prop :=
  ∃ t, (historyOf trace t).Drawn id ∧ ∃ answered ∈ historyOf trace t,
    answered.insertsOperation = true

theorem Introduced.append {old : List (Entry V)} {id : String} (h : Introduced old id)
    (new : List (Entry V)) : Introduced (new ++ old) id := by
  obtain ⟨t, hdrawn, answered, hmem, hinserts⟩ := h
  refine ⟨t, ?_, answered, ?_, hinserts⟩
  · rw [historyOf_append]
    exact mem_append_right _ hdrawn
  · rw [historyOf_append]
    exact mem_append_right _ hmem

namespace World

variable {path : Option String} {w w' mid : World C V} {a : Action V} {self : Config}
  {t : ℕ} {request : Request V} {c : Call V} {answer : c.Answer} {events : List Event}
  {h : History V}
variable {id device : String} {state : ChangesetState} {record : OperationRecord} {store : Store C}
  {ok : World C V → Action V → Prop} {next : c.Answer → Method V Unit}

theorem historyOf_advance (w : World C V) (t t' : ℕ) (request : Request V) (c : Call V)
    (answer : c.Answer) (events : List Event) :
    historyOf (⟨some (t, request), w.clock, .answered c answer⟩ ::
      (w.storeEntries (some (t, request)) events ++ w.trace)) t' =
      if t = t' then ⟨c, answer⟩ :: historyOf w.trace t' else historyOf w.trace t' := by
  rw [← cons_append, historyOf_append]
  by_cases ht : t = t'
  · simp [historyOf, storeEntries, Entry.answeredBy, ht]
  · simp [historyOf, storeEntries, Entry.answeredBy, ht]

theorem historyOf_of_le {n : ℕ} {trace : List (Entry V)} (hs : Sources n trace) (ht : n ≤ t) :
    historyOf trace t = [] := by
  rw [historyOf, filterMap_eq_nil_iff]
  intro entry he
  unfold Entry.answeredBy
  split
  · rw [if_neg]
    intro hsource
    obtain ⟨⟨t', request⟩, hentry, rfl⟩ := Option.map_eq_some_iff.mp hsource
    exact absurd (hs entry he t' request hentry) (not_lt.mpr ht)
  · rfl

/-! ### What a thread knows -/

/-- What a thread was told, and what it may conclude from it. -/
structure Agrees (w : World C V) (t : ℕ) (h : History V) : Prop where
  history : h = historyOf w.trace t
  guarded : ∀ device, h.Guarded device → w.guards device = some t
  known : ∀ record, h.known = some record → h.Guarded record.device →
    record.state.terminal = false → w.store.mem.operations[record.id]? = some record

/-- The random ids of a run. -/
structure Fresh (w : World C V) : Prop where
  held : ∀ state, w.Holds state → ∀ (id : String) record, state.operations[id]? = some record →
    Introduced w.trace id
  drawn : ∀ t id, (historyOf w.trace t).Drawn id → id ∈ w.used
  once : ∀ t t' id, (historyOf w.trace t).Drawn id → (historyOf w.trace t').Drawn id → t = t'

theorem Fresh.unintroduced (hf : Fresh w) (hdrawn : (historyOf w.trace t).Drawn id)
    (hnone : ∀ answered ∈ historyOf w.trace t, answered.insertsOperation = false) :
    ¬ Introduced w.trace id := by
  rintro ⟨t', hdrawn', answered, hmem, hinserts⟩
  obtain rfl := hf.once t t' id hdrawn hdrawn'
  rw [hnone answered hmem] at hinserts
  cases hinserts

theorem Fresh.unheld (hf : Fresh w) (hdrawn : (historyOf w.trace t).Drawn id)
    (hnone : ∀ answered ∈ historyOf w.trace t, answered.insertsOperation = false)
    (hheld : w.Holds state) : state.operations[id]? = none := by
  cases hrecord : state.operations[id]? with
  | none => rfl
  | some record =>
    exact absurd (hf.held state hheld id record hrecord) (hf.unintroduced hdrawn hnone)

/-- Every thread keeps its conduct. -/
structure Conducted (w : World C V) : Prop where
  kept : ∀ self, w.self = some self →
    w.threads.Kept (conduct C self) Concluded fun t _ h => Agrees w t h
  fresh : Fresh w

/-! ### What a call does to the operations -/

inductive OperationMoved (C : Crates) (request : Request V) (h : History V) (c : Call V)
    (id : String) : Option OperationRecord → Option OperationRecord → Prop where
  | same (record : Option OperationRecord) : OperationMoved C request h c id record record
  | evicted (record : OperationRecord) (hterminal : record.state.terminal = true) :
      OperationMoved C request h c id (some record) none
  | inserted (record : OperationRecord) (hcall : c = .insert record) (hid : record.id = id)
      (hreserves : Reserves C request h record) :
      OperationMoved C request h c id none (some record)
  | updated (before after : OperationRecord) (hcall : c = .update after) (hid : after.id = id)
      (hguarded : h.Guarded before.device) (hwrite : OperationWrite request h before after) :
      OperationMoved C request h c id (some before) (some after)
  | removed (before : OperationRecord) (hcall : c = .remove id) (hguarded : h.Guarded before.device)
      (hstaging : before.state = .staging) :
      OperationMoved C request h c id (some before) none

theorem evictTerminal_cases (self : Config) (state : ChangesetState) (id : String) :
    (evictTerminal self state).operations[id]? = state.operations[id]? ∨
    ∃ record, state.operations[id]? = some record ∧ record.state.terminal = true ∧
      (evictTerminal self state).operations[id]? = none := by
  unfold evictTerminal
  split
  · dsimp only
    rw [Std.ExtTreeMap.getElem?_filter']
    cases hrecord : state.operations[id]? with
    | none => exact .inl rfl
    | some record =>
      cases hterminal : record.state.terminal with
      | true => exact .inr ⟨record, rfl, hterminal, by simp [Option.filter, hterminal]⟩
      | false => exact .inl (by simp [Option.filter, hterminal])
  · exact .inl rfl

theorem evictTerminal_moved (self : Config) (state : ChangesetState) (id : String) :
    OperationMoved C request h c id state.operations[id]?
      (evictTerminal self state).operations[id]? := by
  obtain heq | ⟨record, hrecord, hterminal, hnone⟩ := evictTerminal_cases self state id
  · rw [heq]
    exact .same _
  · rw [hrecord, hnone]
    exact .evicted record hterminal

theorem lifecycleEdge_source {source target : LifecycleState}
    (h : lifecycleEdge source target = true) : source.terminal = false := by
  revert h
  cases source <;> cases target <;> decide

theorem reserves_drawn (hreserves : Reserves C request h record) :
    h.Drawn record.id := by
  cases hreserves with
  | stage args operationId endpoint values onError hrequest hendpoint hdrawn => exact hdrawn
  | apply args operationId endpoint changeSet actions hrequest hendpoint hdrawn => exact hdrawn

theorem operation_moved
    (hmoves : OperationMoves self c w.store.mem state) (hj : Justified C self request h c)
    (ha : Agrees w t h) (hf : Fresh w) (id : String) :
    OperationMoved C request h c id w.store.mem.operations[id]? state.operations[id]? := by
  cases hmoves with
  | same heq =>
    rw [heq]
    exact .same _
  | evicted record hcall heq =>
    subst hcall
    obtain heq | heq := heq
    · rw [heq]
      exact evictTerminal_moved self _ id
    · rw [heq, getElem?_eraseOperation]
      split
      · next hid =>
        obtain ⟨-, hnone, hreserves⟩ := hj
        rw [ha.history] at hnone hreserves
        rw [hf.unheld (hid ▸ reserves_drawn hreserves) hnone (.inl rfl)]
        exact .same _
      · exact evictTerminal_moved self _ id
  | inserted record hcall hfree heq =>
    subst hcall
    rw [heq, getElem?_putOperation]
    split
    · next hid =>
      obtain ⟨-, hnone, hreserves⟩ := hj
      rw [hf.unheld (t := t) (hid ▸ ha.history ▸ reserves_drawn hreserves) (ha.history ▸ hnone)
        (.inl rfl)]
      exact .inserted record rfl hid.symm hreserves
    · exact evictTerminal_moved self _ id
  | updated record hcall heq =>
    subst hcall
    obtain ⟨before, hknown, hguarded, hwrite⟩ := hj
    rw [heq, getElem?_putOperation]
    split
    · next hid =>
      have hheld := ha.known before hknown hguarded (lifecycleEdge_source hwrite.edge)
      rw [hid, hwrite.id, hheld]
      exact .updated before record rfl hwrite.id hguarded hwrite
    · exact .same _
  | removed operationId hcall heq =>
    subst hcall
    obtain ⟨before, hknown, hguarded, hid', hstaging⟩ := hj
    rw [heq, getElem?_eraseOperation]
    split
    · next hid =>
      have hheld := ha.known before hknown hguarded (by rw [hstaging]; rfl)
      rw [hid, ← hid', hheld]
      exact .removed before (hid' ▸ rfl) hguarded hstaging
    · exact .same _

theorem OperationMoved.stays
    {after : Option OperationRecord} (hm : OperationMoved C request h c id (some record) after)
    (hterminal : record.state.terminal = false) :
    after = some record ∨ h.Guarded record.device ∧ ((∃ next, c = .update next) ∨ c = .remove id) := by
  cases hm with
  | same => exact .inl rfl
  | evicted _ hterminal' =>
    rw [hterminal] at hterminal'
    cases hterminal'
  | updated _ next hcall hid hguarded => exact .inr ⟨hguarded, .inl ⟨next, hcall⟩⟩
  | removed _ hcall hguarded => exact .inr ⟨hguarded, .inr hcall⟩

/-! ### Answers -/

theorem readRecord_ok {operationId owner : String}
    (hread : readRecord store operationId owner device = .ok record) :
    store.mem.operations[operationId]? = some record ∧ record.owner = owner ∧
      record.device = device := by
  simp only [readRecord, bind_unit_ok] at hread
  obtain ⟨-, hread⟩ := hread
  cases hrecord : store.mem.operations[operationId]? with
  | none => simp [hrecord] at hread
  | some found =>
    simp only [hrecord] at hread
    split at hread
    · cases hread
    · next hmatch =>
      cases hread
      rw [not_or, not_not, not_not] at hmatch
      exact ⟨rfl, hmatch⟩

theorem executed_expected (hkeyed : Keyed w.store.mem) (ha : Agrees w t h)
    (hexec : Executed w self t c answer mid events) : Expected h c answer := by
  cases hexec with
  | quiet answer hquiet => cases c <;> trivial
  | nowUnix | rngFailed | newOperationId | guardRefused | guardTaken | insertChangeSet
  | updateChangeSet | updateChangeSetFrom | insert | update | remove => trivial
  | changeSet id device =>
    intro record hread
    obtain ⟨hid, hdevice⟩ := readChangeSet_ok hread
    exact ⟨hkeyed.changeSets _ _ hid, hdevice⟩
  | claimChangeSetForApply id device handle fault =>
    intro record hclaim
    obtain ⟨error, hout⟩ | ⟨previous, effect, hprevious, hdevice, -, -, hout⟩ :=
      @claimChangeSetForApply_outcome C self w.store fault id device handle
    · rw [hout] at hclaim
      cases hclaim
    · rw [hout] at hclaim
      cases hresult : effect.result with
      | error error =>
        simp only [hresult] at hclaim
        cases hclaim
      | ok =>
        simp only [hresult] at hclaim
        cases hclaim
        exact ⟨(hkeyed.changeSets _ previous hprevious : previous.id = id), hdevice, rfl⟩
  | record operationId owner device =>
    intro record hread
    obtain ⟨hrecord, howner, hdevice⟩ := readRecord_ok hread
    refine ⟨hkeyed.operations _ _ hrecord, howner, hdevice, ?_⟩
    rintro before hknown hguarded rfl hterminal
    exact Option.some.inj (hrecord.symm.trans (ha.known before hknown hguarded hterminal))

/-! ### One answered call -/

theorem Executed.guards_keep (hexec : Executed w self t c answer mid events)
    {t' : ℕ} (hheld : w.guards device = some t') : mid.guards device = some t' := by
  cases hexec with
  | guardTaken endpoint hfree =>
    show (if device = endpoint then some t else w.guards device) = some t'
    rw [if_neg, hheld]
    rintro rfl
    rw [hfree] at hheld
    cases hheld
  | quiet | nowUnix | rngFailed | newOperationId | guardRefused | insertChangeSet
  | updateChangeSet | updateChangeSetFrom | insert | update | remove | changeSet
  | claimChangeSetForApply | record => exact hheld

theorem Executed.used_grows (hexec : Executed w self t c answer mid events) :
    (∀ id ∈ w.used, id ∈ mid.used) ∧
      ∀ id, (⟨c, answer⟩ : Answered V) = ⟨.newOperationId, .ok id⟩ → id ∉ w.used ∧ id ∈ mid.used := by
  cases hexec with
  | newOperationId bytes hlength hfresh =>
    refine ⟨fun id hid => .tail _ hid, fun id heq => ?_⟩
    cases heq
    exact ⟨hfresh, mem_cons_self ..⟩
  | rngFailed => exact ⟨fun _ hid => hid, fun id heq => by cases heq⟩
  | quiet answer hquiet =>
    refine ⟨fun _ hid => hid, fun id heq => ?_⟩
    obtain rfl : c = .newOperationId := congrArg Answered.call heq
    cases hquiet
  | nowUnix | guardRefused | guardTaken | insertChangeSet | updateChangeSet | updateChangeSetFrom
  | insert | update | remove | changeSet | claimChangeSetForApply | record =>
    exact ⟨fun _ hid => hid, fun id heq => nomatch congrArg Answered.call heq⟩

theorem guarded_cons (hc : ∀ endpoint, c ≠ .deviceGuard endpoint)
    (hguarded : History.Guarded (⟨c, answer⟩ :: h) device) : h.Guarded device := by
  obtain heq | hmem := mem_cons.mp hguarded
  · exact absurd (congrArg Answered.call heq).symm (hc device)
  · exact hmem

variable {fault : Option WriteFault}

theorem insertOperation_ok (hok : (insertOperation self fault record store).result.isOk = true) :
    (insertOperation self fault record store).store.mem.operations[record.id]? = some record := by
  unfold insertOperation at hok ⊢
  dsimp only at hok ⊢
  split at hok
  · cases hok
  · next hfull =>
    rw [if_neg hfull]
    split at hok
    · cases hok
    · next hfree =>
      rw [if_neg hfree]
      have hout := @persistOr_outcome C self fault store
        ((evictTerminal self store.mem).putOperation record.id record)
        (((evictTerminal self store.mem).putOperation record.id record).eraseOperation record.id)
      generalize persistOr self fault store _ _ = effect at hok hout ⊢
      cases hout with
      | unwritten | written => rw [getElem?_putOperation, if_pos rfl]
      | failed | landed => cases hok

theorem updateOperation_outcome {record : OperationRecord}
    {store : Store C} :
    PersistOutcome self store.disk (store.mem.putOperation record.id record) store.mem
      (updateOperation self fault record store) := by
  unfold updateOperation
  dsimp only
  rw [restoreOperation_putOperation]
  exact persistOr_outcome _ _

theorem updateOperation_mem (fault : Option WriteFault) (record : OperationRecord)
    (store : Store C) :
    (updateOperation self fault record store).store.mem =
      if (updateOperation self fault record store).result.isOk then
        store.mem.putOperation record.id record else store.mem := by
  have hout := @updateOperation_outcome C self fault record store
  generalize updateOperation self fault record store = effect at hout ⊢
  cases hout <;> rfl

def SparesOperations : Call V → Prop
  | .insert _ | .update _ | .remove _ => False
  | _ => True

theorem operations_same (hmoves : OperationMoves self c w.store.mem state)
    (hc : SparesOperations c) : state.operations = w.store.mem.operations := by
  cases hmoves with
  | same heq => exact heq
  | evicted record hcall | inserted record hcall | updated record hcall | removed id hcall =>
    rw [hcall] at hc
    cases hc

theorem known_cons (hkeyed : Keyed w.store.mem) (ha : Agrees w t h) (hf : Fresh w)
    (hj : Justified C self request h c) (hexec : Executed w self t c answer mid events)
    (hknown : History.known (⟨c, answer⟩ :: h) = some record)
    (hguarded : History.Guarded (⟨c, answer⟩ :: h) record.device)
    (hterminal : record.state.terminal = false) :
    mid.store.mem.operations[record.id]? = some record := by
  have hmoves := (exec_moves hkeyed hexec (.inl rfl)).operations
  -- a call that is no insert, update or removal, and tells nothing of an operation
  have hplain : SparesOperations c → (∀ endpoint, c ≠ .deviceGuard endpoint) →
      Answered.knows ⟨c, answer⟩ h.known = h.known →
      mid.store.mem.operations[record.id]? = some record := by
    intro hc hguard hknows
    rw [operations_same hmoves hc]
    exact ha.known record (hknows ▸ hknown) (guarded_cons hguard hguarded) hterminal
  cases hexec with
  | quiet answer hquiet =>
    refine hplain ?_ ?_ ?_
    · cases c <;> trivial
    · intro endpoint
      cases c <;> first | (cases hquiet; done) | nofun
    · cases c <;> first | (cases hquiet; done) | rfl
  | nowUnix | rngFailed | newOperationId | insertChangeSet | updateChangeSet
  | updateChangeSetFrom | changeSet | claimChangeSetForApply =>
    exact hplain trivial (fun _ => by nofun) rfl
  | guardRefused | guardTaken | remove => cases hknown
  | record operationId owner device =>
    have hguarded := guarded_cons (fun _ => by nofun) hguarded
    cases hread : readRecord w.store operationId owner device with
    | error error =>
      rw [hread] at hknown
      exact ha.known record hknown hguarded hterminal
    | ok found =>
      rw [hread] at hknown
      obtain rfl : found = record := Option.some.inj hknown
      obtain ⟨hfound, -, -⟩ := readRecord_ok hread
      rw [hkeyed.operations _ _ hfound]
      exact hfound
  | insert inserted fault =>
    have hguarded := guarded_cons (fun _ => by nofun) hguarded
    have hknown : (if (insertOperation self fault inserted w.store).result.isOk = true then
      some inserted else h.known) = some record := hknown
    cases hok : (insertOperation self fault inserted w.store).result.isOk with
    | true =>
      rw [hok, if_pos rfl] at hknown
      cases hknown
      exact insertOperation_ok hok
    | false =>
      rw [hok, if_neg (by decide)] at hknown
      have hmoved := operation_moved hmoves hj ha hf record.id
      rw [ha.known record hknown hguarded hterminal] at hmoved
      obtain hstays | ⟨-, ⟨next, hcall⟩ | hcall⟩ := hmoved.stays hterminal
      · exact hstays
      · cases hcall
      · cases hcall
  | update updated fault =>
    have hguarded := guarded_cons (fun _ => by nofun) hguarded
    have hknown : (if (updateOperation self fault updated w.store).result.isOk = true then
      some updated else h.known) = some record := hknown
    rw [updateOperation_mem]
    split at hknown
    · next hok =>
      cases hknown
      rw [if_pos hok, getElem?_putOperation, if_pos rfl]
    · next hok =>
      rw [if_neg hok]
      exact ha.known record hknown hguarded hterminal

theorem agrees_self (hkeyed : Keyed w.store.mem) (ha : Agrees w t h) (hf : Fresh w)
    (hj : Justified C self request h c) (hexec : Executed w self t c answer mid events) :
    Agrees (w.answered mid t request c next answer events) t (⟨c, answer⟩ :: h) where
  history := by
    show _ = historyOf (_ :: _) t
    rw [historyOf_advance, if_pos rfl, ha.history]
  guarded device hguarded := by
    show mid.guards device = some t
    obtain heq | hmem := mem_cons.mp hguarded
    · cases hexec with
      | guardTaken endpoint hfree =>
        cases heq
        exact if_pos rfl
      | quiet answer hquiet =>
        obtain rfl : Call.deviceGuard device = c := congrArg Answered.call heq
        cases hquiet
      | guardRefused => cases heq
      | nowUnix | rngFailed | newOperationId | insertChangeSet | updateChangeSet
      | updateChangeSetFrom | insert | update | remove | changeSet | claimChangeSetForApply
      | record => cases congrArg Answered.call heq
    · exact hexec.guards_keep (ha.guarded device hmem)
  known _ hknown hguarded hterminal :=
    (known_cons hkeyed ha hf hj hexec hknown hguarded hterminal :)

theorem agrees_other (hkeyed : Keyed w.store.mem) (ha : Agrees w t h) (hf : Fresh w)
    (hj : Justified C self request h c) (hexec : Executed w self t c answer mid events) {t' : ℕ}
    {h' : History V} (hne : t' ≠ t) (ha' : Agrees w t' h') :
    Agrees (w.answered mid t request c next answer events) t' h' where
  history := by
    show h' = historyOf (_ :: _) t'
    rw [historyOf_advance, if_neg hne.symm, ha'.history]
  guarded device hguarded := hexec.guards_keep (ha'.guarded device hguarded)
  known record hknown hguarded hterminal := by
    have hmoved := operation_moved (exec_moves hkeyed hexec (.inl rfl)).operations hj ha hf record.id
    rw [ha'.known record hknown hguarded hterminal] at hmoved
    obtain hstays | ⟨hmine, -⟩ := hmoved.stays hterminal
    · exact hstays
    · -- both threads would hold the guard of the device
      have hboth := (ha'.guarded _ hguarded).symm.trans (ha.guarded _ hmine)
      exact absurd (Option.some.inj hboth) hne

theorem introduced_answered {id : String} (hi : Introduced w.trace id) :
    Introduced (w.answered mid t request c next answer events).trace id :=
  hi.append (⟨some (t, request), w.clock, .answered c answer⟩ ::
    w.storeEntries (some (t, request)) events)

theorem fresh_answered (hkeyed : Keyed w.store.mem) (ha : Agrees w t h) (hf : Fresh w)
    (hj : Justified C self request h c) (hexec : Executed w self t c answer mid events) :
    Fresh (w.answered mid t request c next answer events) := by
  obtain ⟨hgrows, hnew⟩ := hexec.used_grows
  have hhistory : ∀ t', historyOf (w.answered mid t request c next answer events).trace t' =
      if t = t' then ⟨c, answer⟩ :: historyOf w.trace t' else historyOf w.trace t' :=
    fun t' => historyOf_advance w t t' request c answer events
  -- an id drawn by now was drawn before, or is the one drawn in this call
  have hdrawn : ∀ t' id, (historyOf (w.answered mid t request c next answer events).trace t').Drawn
      id → (historyOf w.trace t').Drawn id ∨ t = t' ∧ id ∉ w.used ∧ id ∈ mid.used := by
    intro t' id hd
    rw [hhistory] at hd
    split at hd
    · next ht =>
      obtain heq | hd := mem_cons.mp hd
      · exact .inr ⟨ht, hnew id heq.symm⟩
      · exact .inl hd
    · exact .inl hd
  refine ⟨fun state hheld id record hrecord => ?_, fun t' id hd => ?_, fun t₁ t₂ id h₁ h₂ => ?_⟩
  · obtain hleft | ⟨-, him⟩ := answered_holds hheld
    · have hmoved := operation_moved (exec_moves hkeyed hexec hleft).operations hj ha hf id
      rw [hrecord] at hmoved
      generalize hbefore : w.store.mem.operations[id]? = before at hmoved
      cases hmoved with
      | same => exact introduced_answered (hf.held _ (.inl rfl) id record hbefore)
      | updated before => exact introduced_answered (hf.held _ (.inl rfl) id before hbefore)
      | inserted _ hcall hid hreserves =>
        subst hcall
        refine ⟨t, ?_, ⟨.insert record, answer⟩, ?_, rfl⟩
        · rw [hhistory, if_pos rfl]
          exact .tail _ (hid ▸ ha.history ▸ reserves_drawn hreserves)
        · rw [hhistory, if_pos rfl]
          exact .head _
    · exact introduced_answered (hf.held state (.inr him) id record hrecord)
  · obtain hd | ⟨-, -, hmem⟩ := hdrawn t' id hd
    · exact hgrows id (hf.drawn t' id hd)
    · exact hmem
  · obtain h₁ | ⟨rfl, hfresh, -⟩ := hdrawn t₁ id h₁
    · obtain h₂ | ⟨-, hfresh, -⟩ := hdrawn t₂ id h₂
      · exact hf.once t₁ t₂ id h₁ h₂
      · exact absurd (hf.drawn t₁ id h₁) hfresh
    · obtain h₂ | ⟨ht, -⟩ := hdrawn t₂ id h₂
      · exact absurd (hf.drawn t₂ id h₂) hfresh
      · exact ht

/-- **A call of a reached world**: it is justified by what its thread was told, and the world after
it is conducted again. -/
theorem Conducted.advance (hc : Conducted w) (hkeyed : Keyed w.store.mem) (hself : w.self = some self)
    (hthread : w.threads t = some ⟨request, .call c next⟩)
    (hexec : Executed w self t c answer mid events) :
    Agrees w t (historyOf w.trace t) ∧ Justified C self request (historyOf w.trace t) c ∧
      Expected (historyOf w.trace t) c answer ∧
      Conducted (w.answered mid t request c next answer events) := by
  obtain ⟨h, ha, hj, hnext⟩ := (hc.kept self hself).advance hthread
  obtain rfl := ha.history
  have hexpected := executed_expected hkeyed ha hexec
  refine ⟨ha, hj, hexpected, ⟨fun self' hself' => ?_, fresh_answered hkeyed ha hc.fresh hj hexec⟩⟩
  have hsame : self' = self := by
    have hself' : mid.self = some self' := hself'
    rw [hexec.frame.self_eq, hself] at hself'
    exact (Option.some.inj hself').symm
  subst hsame
  exact hnext (fun t' _ h' => Agrees (w.answered mid t request c next answer events) t' h') answer
    hexpected (agrees_self hkeyed ha hc.fresh hj hexec)
    fun t' _ h' hne ha' => agrees_other hkeyed ha hc.fresh hj hexec hne ha'

/-! ### Every reached world -/

theorem kept_of_stopped (hg : Grounded path w) (hself : w.self = none) {D : Request V →
    Discipline (calls V) (History V)} {final : Request V → History V → Prop}
    {Knows : ℕ → Request V → History V → Prop} : w.threads.Kept D final Knows := by
  rw [(hg.stopped hself).2.1]
  exact Pool.kept_empty

theorem historyOf_outside {new : List (Entry V)} (hnew : ∀ entry ∈ new, entry.Outside)
    (old : List (Entry V)) (t : ℕ) : historyOf (new ++ old) t = historyOf old t := by
  rw [historyOf_append, append_left_eq_self, historyOf, filterMap_eq_nil_iff]
  intro entry he
  have hout := hnew entry he
  obtain ⟨source, clock, what⟩ := entry
  cases what with
  | answered => cases hout
  | store | resolved => rfl

theorem StepCase.used_eq (hs : StepCase path w a w') (hno : ∀ t choice, a ≠ .advance t choice) :
    w'.used = w.used := by
  cases hs with
  | advance t choice => exact absurd rfl (hno t choice)
  | tick | loadRefused | loadLanded | loaded | loadRecovered | crash | resolveRefused | resolved
  | spawn | finish => rfl

theorem NewState.operation_of (hn : NewState path w a state)
    (hno : ∀ t choice, a ≠ .advance t choice) (hrecord : state.operations[id]? = some record) :
    ∃ held original, w.Holds held ∧ held.operations[id]? = some original := by
  cases hn with
  | stopped => simp [ChangesetState.empty] at hrecord
  | executed t choice => exact absurd rfl (hno t choice)
  | recovered args env hself hloads =>
    obtain ⟨held, original, him, ho, -⟩ := recovered_operation hrecord
    exact ⟨held, original, .inr him, ho⟩
  | resolved operationId disposition confirmation limits env found hfound =>
    have hread : ∃ original, (readBack C w.image).operations[id]? = some original := by
      rw [getElem?_putOperation] at hrecord
      split at hrecord
      · next hid => exact ⟨found, hid ▸ hfound⟩
      · exact ⟨record, hrecord⟩
    obtain ⟨original, horiginal⟩ := hread
    obtain ⟨held, original', him, ho, -⟩ := readBack_operation horiginal
    exact ⟨held, original', .inr him, ho⟩

theorem fresh_outside (hf : Fresh w) (hs : StepCase path w a w')
    (hno : ∀ t choice, a ≠ .advance t choice) : Fresh w' := by
  obtain ⟨new, htrace, hnew⟩ := hs.outside hno
  have hhistory : ∀ t, historyOf w'.trace t = historyOf w.trace t := fun t => by
    rw [htrace, historyOf_outside hnew]
  refine ⟨fun state hheld id record hrecord => ?_, fun t id hd => ?_, fun t t' id hd hd' => ?_⟩
  · rw [htrace]
    refine Introduced.append ?_ new
    obtain hold | hn := hs.holds hheld
    · exact hf.held state hold id record hrecord
    · obtain ⟨held, original, hheld, ho⟩ := hn.operation_of hno hrecord
      exact hf.held held hheld id original ho
  · rw [hs.used_eq hno]
    exact hf.drawn t id (hhistory t ▸ hd)
  · exact hf.once t t' id (hhistory t ▸ hd) (hhistory t' ▸ hd')

theorem kept_outside (hg : Grounded path w) (hc : Conducted w) (hs : StepCase path w a w')
    (hno : ∀ t choice, a ≠ .advance t choice) (self : Config) (hself : w'.self = some self) :
    w'.threads.Kept (conduct C self) Concluded fun t _ h => Agrees w' t h := by
  cases hs with
  | advance t choice => exact absurd rfl (hno t choice)
  | tick clock => exact (hc.kept self hself).mono fun t _ h ha => ⟨ha.history, ha.guarded, ha.known⟩
  | loadRefused args env hnone | loadLanded args env hnone | resolveRefused _ _ _ _ _ hnone
  | resolved _ _ _ _ _ hnone => exact kept_of_stopped hg hnone
  | loaded args env hnone | loadRecovered args env hnone => exact kept_of_stopped hg hnone
  | crash => cases hself
  | spawn request self' hself' =>
    obtain rfl := Option.some.inj (hself'.symm.trans hself)
    refine Pool.Kept.spawn (s := []) ?_ ?_ (program_keeps request)
    · exact (hc.kept self' hself').mono fun t _ h ha => ⟨ha.history, ha.guarded, ha.known⟩
    · exact ⟨(historyOf_of_le hg.sources le_rfl).symm, fun _ hd => absurd hd not_mem_nil,
        fun _ hk => by cases hk⟩
  | finish t thread hthread =>
    refine (hc.kept self hself).remove fun t' _ h hne ha => ⟨ha.history, fun device hd => ?_, ha.known⟩
    have hheld := ha.guarded device hd
    show (if w.guards device = some t then none else w.guards device) = some t'
    rw [if_neg, hheld]
    rw [hheld]
    exact fun heq => hne (Option.some.inj heq)

/-- **In every reached world each thread keeps its conduct.** -/
theorem reached_conducted (hr : Reached path ok w) :
    Conducted w := by
  refine reached_invariant ?_ ?_ hr
  · refine ⟨fun self hself => (by cases hself), ?_, ?_, ?_⟩
    · rintro state (rfl | him) id record hrecord
      · simp [World.initial, ChangesetState.empty] at hrecord
      · cases him
    · exact fun t id hd => absurd hd not_mem_nil
    · exact fun t t' id hd => absurd hd not_mem_nil
  · intro w a w' hreached hc _ hs
    obtain ⟨t, choice, rfl⟩ | hno := a.advance_or_not
    · cases hs with
      | advance _ _ self request c next answer mid events hself hthread hexec =>
        exact (hc.advance (reached_keyed hreached (.inl rfl)) hself hthread hexec).2.2.2
    · exact ⟨kept_outside (reached_grounded hreached) hc hs hno, fresh_outside hc.fresh hs hno⟩

/-! ### Attribution -/

/-- The history names the request a thread serves. -/
def Attributed (w : World C V) : Prop :=
  ∀ entry ∈ w.trace, ∀ t request, entry.source = some (t, request) →
    ∀ thread, w.threads t = some thread → thread.request = request

theorem attributed_answered (hat : Attributed w)
    (hthread : w.threads t = some ⟨request, .call c next⟩) :
    Attributed (w.answered mid t request c next answer events) := by
  intro entry he t' request' hsource thread ht'
  have ht' : w.threads.set t _ t' = some thread := ht'
  -- the thread serves the same request as before the step
  have hsame : ∃ thread', w.threads t' = some thread' ∧ thread'.request = thread.request := by
    by_cases hne : t' = t
    · subst hne
      rw [Pool.set_self] at ht'
      cases ht'
      exact ⟨_, hthread, rfl⟩
    · rw [Pool.set_of_ne _ _ hne] at ht'
      exact ⟨thread, ht', rfl⟩
  obtain ⟨thread', hthread', hrequest⟩ := hsame
  rw [← hrequest]
  have he : entry ∈ (⟨some (t, request), w.clock, .answered c answer⟩ ::
    w.storeEntries (some (t, request)) events) ++ w.trace := he
  obtain he | he := mem_append.mp he
  · obtain ⟨rfl, rfl⟩ := Prod.mk.inj (Option.some.inj
      ((advance_entries_source w t request c answer events entry he).symm.trans hsource))
    rw [hthread] at hthread'
    rw [← Option.some.inj hthread']
  · exact hat entry he t' request' hsource thread' hthread'

variable {thread : Thread (calls V) CoordinatorError (Request V)}

/-- A thread after such a step was there before, or is new; then the history is the same. -/
theorem StepCase.thread_kept (hs : StepCase path w a w') (hg : Grounded path w)
    (hno : ∀ t choice, a ≠ .advance t choice)
    (hthread : w'.threads t = some thread) :
    w'.trace = w.trace ∧ (w.threads t = some thread ∨ t = w.nextThread) := by
  have hstopped : w.self = none → w.threads t ≠ some thread := by
    intro hself heq
    rw [(hg.stopped hself).2.1] at heq
    cases heq
  cases hs with
  | advance t choice => exact absurd rfl (hno t choice)
  | tick => exact ⟨rfl, .inl hthread⟩
  | loadRefused _ _ hself | loadLanded _ _ hself | loaded _ _ hself | loadRecovered _ _ hself
  | resolveRefused _ _ _ _ _ hself | resolved _ _ _ _ _ hself =>
    exact absurd hthread (hstopped hself)
  | crash => cases hthread
  | spawn spawned self hself =>
    have hthread : w.threads.set w.nextThread _ t = some thread := hthread
    by_cases hne : t = w.nextThread
    · exact ⟨rfl, .inr hne⟩
    · rw [Pool.set_of_ne _ _ hne] at hthread
      exact ⟨rfl, .inl hthread⟩
  | finish ended _ _ =>
    have hthread : w.threads.set ended none t = some thread := hthread
    by_cases hne : t = ended
    · rw [hne, Pool.set_self] at hthread
      cases hthread
    · rw [Pool.set_of_ne _ _ hne] at hthread
      exact ⟨rfl, .inl hthread⟩

theorem attributed_outside (hg : Grounded path w) (hat : Attributed w) (hs : StepCase path w a w')
    (hno : ∀ t choice, a ≠ .advance t choice) : Attributed w' := by
  intro entry he t request hsource thread hthread
  obtain ⟨htrace, hthread | rfl⟩ := hs.thread_kept hg hno hthread
  · exact hat entry (htrace ▸ he) t request hsource thread hthread
  · exact absurd (hg.sources entry (htrace ▸ he) _ request hsource) (lt_irrefl _)

theorem reached_attributed (hr : Reached path ok w) :
    Attributed w := by
  refine reached_invariant (fun entry he => absurd he not_mem_nil) ?_ hr
  intro w a w' hreached hat _ hs
  obtain ⟨t, choice, rfl⟩ | hno := a.advance_or_not
  · cases hs with
    | advance _ _ self request c next answer mid events hself hthread hexec =>
      exact attributed_answered hat hthread
  · exact attributed_outside (reached_grounded hreached) hat hs hno

theorem StepCase.thread_outside (hs : StepCase path w a w') (hg : Grounded path w)
    (hno : ∀ t choice, a ≠ .advance t choice)
    (hthread : w'.threads t = some thread) :
    w.threads t = some thread ∨ historyOf w'.trace t = [] := by
  obtain ⟨htrace, hthread | rfl⟩ := hs.thread_kept hg hno hthread
  · exact .inl hthread
  · rw [htrace]
    exact .inr (historyOf_of_le hg.sources le_rfl)

/-! ### The induction rule -/

/-- An answered call of a run, with what is known about it. -/
structure Called (path : Option String) (ok : World C V → Action V → Prop) (w : World C V)
    (config : Config) (t : ℕ) (request : Request V) (c : Call V) (next : c.Answer → Method V Unit)
    (answer : c.Answer) (mid : World C V) (events : List Event) : Prop where
  reached : Reached path ok w
  self_eq : w.self = some config
  thread : w.threads t = some ⟨request, .call c next⟩
  executed : Executed w config t c answer mid events
  agrees : Agrees w t (historyOf w.trace t)
  justified : Justified C config request (historyOf w.trace t) c
  expected : Expected (historyOf w.trace t) c answer

theorem Called.keyed
    (hc : Called path ok w self t request c next answer mid events) : Keyed w.store.mem :=
  reached_keyed hc.reached (.inl rfl)

theorem Called.moved (hc : Called path ok w self t request c next answer mid events)
    (hl : state = mid.store.mem ∨ .wrote state ∈ events) (id : String) :
    OperationMoved C request (historyOf w.trace t) c id w.store.mem.operations[id]?
      state.operations[id]? :=
  operation_moved (exec_moves hc.keyed hc.executed hl).operations hc.justified hc.agrees
    (reached_conducted hc.reached).fresh id

/-- **The induction rule for runs of methods**: what answered calls preserve, and the other steps,
holds throughout. -/
theorem reached_calls {P : World C V → Prop} (hinit : P (World.initial C V))
    (hcall : ∀ (w : World C V) self t choice request c next answer mid events,
      Called path ok w self t request c next answer mid events → P w → ok w (.advance t choice) →
      w.exec self t c choice = some (mid, answer, events) →
      P (w.answered mid t request c next answer events))
    (hout : ∀ w a w', Reached path ok w → P w → ok w a → StepCase path w a w' →
      (∀ t choice, a ≠ .advance t choice) → P w') (hr : Reached path ok w) : P w := by
  refine reached_invariant hinit ?_ hr
  intro w a w' hreached hP hok hs
  obtain ⟨t, choice, rfl⟩ | hno := a.advance_or_not
  · cases hs with
    | advance _ _ self request c next answer mid events hself hthread hexec hchoice =>
      obtain ⟨ha, hj, he, -⟩ := (reached_conducted hreached).advance
        (reached_keyed hreached (.inl rfl)) hself hthread hexec
      exact hcall w self t choice request c next answer mid events
        ⟨hreached, hself, hthread, hexec, ha, hj, he⟩ hP hok hchoice
  · exact hout w a w' hreached hP hok hs hno

theorem reached_answers {P : Answered V → Prop}
    (hcall : ∀ (w : World C V) self t choice request c next answer mid events,
      Called path ok w self t request c next answer mid events → ok w (.advance t choice) →
      w.exec self t c choice = some (mid, answer, events) → P ⟨c, answer⟩)
    (hr : Reached path ok w) {t : ℕ} {answered : Answered V} (h : answered ∈ historyOf w.trace t) :
    P answered := by
  refine reached_calls (P := fun w => ∀ t answered, answered ∈ historyOf w.trace t → P answered)
    (fun _ _ h => absurd h not_mem_nil) ?_ ?_ hr t answered h
  · intro w self t choice request c next answer mid events hc hall hok hchoice t' answered hmem
    have hmem := (historyOf_advance w t t' request c answer events) ▸ hmem
    split at hmem
    · obtain rfl | hmem := mem_cons.mp hmem
      · exact hcall w self t choice request c next answer mid events hc hok hchoice
      · exact hall t' answered hmem
    · exact hall t' answered hmem
  · intro w a w' _ hall _ hs hno t' answered hmem
    obtain ⟨new, htrace, hnew⟩ := hs.outside hno
    rw [htrace, historyOf_outside hnew] at hmem
    exact hall t' answered hmem

theorem reached_claimed (hr : Reached path ok w) {t : ℕ}
    {record : ChangeSetRecord} (h : (historyOf w.trace t).Claimed record) :
    record.state = .applying := by
  obtain ⟨id, device, handle, hmem⟩ := h
  refine reached_answers (P := fun answered => ∀ id device handle record,
    answered = ⟨.claimChangeSetForApply id device handle, .ok record⟩ → record.state = .applying)
    ?_ hr hmem id device handle record rfl
  rintro w self t choice request c next answer mid events hc - - id device handle record heq
  cases heq
  exact (hc.expected record rfl).2.2

end World

end Mecmcp.Changeset
