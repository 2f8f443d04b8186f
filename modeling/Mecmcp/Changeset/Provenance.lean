import Mecmcp.Changeset.ApplyClaim
import Mecmcp.Changeset.Threads

/-!
# Provenance — where a change set comes from

What the history says about the change sets a run holds: the last insert of the id had the record's
owner and plan digest, and a record that is `Approved` was granted under that digest since
(`reached_sourced`).  `executed_event` lists what the events of one call say, and
`answered_changeSet` where the change sets held after a call come from.

A run in which the records that callers build themselves all meet a condition is a run of
`RawWrites`.
-/

namespace Mecmcp.Changeset

open List

variable {C : Crates} {V : Vendor} {self : Config} {c : Call V} {events : List Event} {id : String}
  {record : ChangeSetRecord}

/-! ### Records built by callers -/

def Request.rawWrite : Request V → Option ChangeSetRecord
  | .insertChangeSet record | .updateChangeSet record | .updateChangeSetFrom _ record => some record
  | _ => none

def World.rawWrite (w : World C V) (a : Action V) : Option ChangeSetRecord :=
  (w.answerTo a).bind fun answered => answered.2.1.rawWrite

/-- If the step writes a record its caller built, the record meets a condition. -/
def RawWrites (P : ChangeSetRecord → Prop) (w : World C V) (a : Action V) : Prop :=
  ∀ record ∈ w.rawWrite a, P record

instance (P : ChangeSetRecord → Prop) [DecidablePred P] (w : World C V) (a : Action V) :
    Decidable (RawWrites P w a) :=
  inferInstanceAs (Decidable (∀ record ∈ w.rawWrite a, P record))

/-! ### What the events of a call say -/

section
variable {store : Store C} {fault : Option WriteFault}

theorem PersistOutcome.event {disk : Option C.Text} {next undo : ChangesetState}
    {effect : Effect C Unit} (h : PersistOutcome self disk next undo effect) {event : Event}
    (he : event ∈ effect.events) : ∃ state, event = .wrote state := by
  cases h with
  | unwritten | failed => cases he
  | written | landed => exact ⟨next, mem_singleton.mp he⟩

/-- What an event of the call `c` says about the state in memory before it. -/
inductive EventCase (C : Crates) (config : Config) (old : ChangesetState) (c : Call V)
    (events : List Event) : Event → Prop where
  | wrote (state : ChangesetState) : EventCase C config old c events (.wrote state)
  | inserted (record : ChangeSetRecord) (ok : Bool) (hcall : c = .insertChangeSet record)
      (hcheck : checkNewChangeSet C config record = .ok ())
      (hnew : old.changeSets[record.id]? = none)
      (hwritten : lastWritten events = none → config.statePath = none) :
      EventCase C config old c events (.inserted (normaliseRecord record) ok)
  | granted (next current : ChangeSetRecord)
      (hcall : c = .updateChangeSet next ∨ c = .updateChangeSetFrom current.state next)
      (hcurrent : old.changeSets[next.id]? = some current)
      (hchecked : WriteChecked C current (normaliseRecord next)) :
      EventCase C config old c events (.granted (normaliseRecord next))
  | claimed (id device : String) (previous : ChangeSetRecord) (handle : ApplyHandle) (ok : Bool)
      (hcall : c = .claimChangeSetForApply id device handle)
      (hprevious : old.changeSets[id]? = some previous) (happroved : previous.state = .approved) :
      EventCase C config old c events (.claimed (previous.claimedAs handle) ok)

theorem insertChangeSet_event {clock : Option UInt64} {sweepFault finalFault : Option WriteFault}
    {event : Event}
    (h : event ∈ (insertChangeSet self clock sweepFault finalFault record store).events) :
    EventCase C self store.mem (.insertChangeSet record : Call V)
      (insertChangeSet self clock sweepFault finalFault record store).events event := by
  have hout := @insertChangeSet_outcome C self clock sweepFault finalFault record store
  generalize insertChangeSet self clock sweepFault finalFault record store = effect at h hout ⊢
  cases hout with
  | refused error => cases h
  | sweepFailed now _ effect error _ hwrite =>
    obtain ⟨state, rfl⟩ := hwrite.event h
    exact .wrote state
  | sweptOnly now _ swept events hsweep error =>
    cases hsweep with
    | unwritten => cases h
    | written =>
      obtain rfl := mem_singleton.mp h
      exact .wrote _
  | attempted now _ swept events hcheck hsweep hnew _ _ effect hwrite =>
    obtain h | h := mem_append.mp h
    · obtain h | h := mem_append.mp h
      · unfold insertEvents at h
        split at h
        · next htook =>
          obtain rfl := mem_singleton.mp h
          refine .inserted record _ rfl hcheck hnew fun hlast => ?_
          rw [append_assoc, lastWritten_append] at hlast
          cases hwrite with
          | unwritten hpath => exact hpath
          | written | landed => simp [lastWritten, Event.written] at hlast
          | failed => cases htook
        · cases h
      · obtain ⟨state, rfl⟩ := hwrite.event h
        exact .wrote state
    · cases hsweep with
      | unwritten => cases h
      | written =>
        obtain rfl := mem_singleton.mp h
        exact .wrote _

theorem updateChangeSet_event {event : Event}
    (h : event ∈ (updateChangeSet self fault record store).events)
    (hcall : ∀ current, store.mem.changeSets[record.id]? = some current →
      c = .updateChangeSet record ∨ c = .updateChangeSetFrom current.state record) :
    EventCase C self store.mem c events event := by
  obtain ⟨error, heq⟩ | ⟨current, effect, hcurrent, hchecked, hwrite, heq⟩ :=
    @updateChangeSet_outcome C self store record fault
  · rw [heq] at h
    cases h
  · rw [heq] at h
    obtain h | h := mem_append.mp h
    · unfold grantEvents at h
      split at h
      · obtain rfl := mem_singleton.mp h
        exact .granted record current (hcall current hcurrent) hcurrent hchecked
      · cases h
    · obtain ⟨state, rfl⟩ := hwrite.event h
      exact .wrote state

theorem updateChangeSetFrom_event {observed : ChangeSetState} {event : Event}
    (h : event ∈ (updateChangeSetFrom self fault observed record store).events) :
    EventCase C self store.mem (.updateChangeSetFrom observed record : Call V) events event := by
  obtain ⟨error, heq⟩ | ⟨current, hcurrent, hstate, heq⟩ :=
    @updateChangeSetFrom_outcome C self store record fault observed
  · rw [heq] at h
    cases h
  · rw [heq] at h
    refine updateChangeSet_event h fun current' hcurrent' => .inr ?_
    cases hcurrent.symm.trans hcurrent'
    rw [hstate]

theorem claimChangeSetForApply_event {id device : String} {handle : ApplyHandle} {event : Event}
    (h : event ∈ (claimChangeSetForApply self fault id device handle store).events) :
    EventCase C self store.mem (.claimChangeSetForApply id device handle : Call V) events event := by
  obtain ⟨error, heq⟩ | ⟨previous, effect, hprevious, -, happroved, hwrite, heq⟩ :=
    @claimChangeSetForApply_outcome C self store fault id device handle
  · rw [heq] at h
    cases h
  · rw [heq] at h
    obtain rfl | h := mem_cons.mp h
    · exact .claimed id device previous handle _ rfl hprevious happroved
    · obtain ⟨state, rfl⟩ := hwrite.event h
      exact .wrote state

theorem insertOperation_event {record : OperationRecord} {event : Event}
    (h : event ∈ (insertOperation self fault record store).events) :
    ∃ state, event = .wrote state := by
  unfold insertOperation at h
  dsimp only at h
  split at h
  · cases h
  · split at h
    · cases h
    · exact (persistOr_outcome _ _).event h

theorem executed_event {w mid : World C V} {t : ℕ} {answer : c.Answer}
    (hexec : World.Executed w self t c answer mid events) {event : Event} (h : event ∈ events) :
    EventCase C self w.store.mem c events event := by
  have hwrote : (∃ state, event = .wrote state) → EventCase C self w.store.mem c events event := by
    rintro ⟨state, rfl⟩
    exact .wrote state
  cases hexec with
  | quiet | nowUnix | rngFailed | guardRefused | changeSet | record | newOperationId | guardTaken =>
    cases h
  | insertChangeSet record sweepFault finalFault => exact insertChangeSet_event h
  | updateChangeSet record fault => exact updateChangeSet_event h fun _ _ => .inl rfl
  | updateChangeSetFrom observed record fault => exact updateChangeSetFrom_event h
  | claimChangeSetForApply id device handle fault => exact claimChangeSetForApply_event h
  | insert record fault => exact hwrote (insertOperation_event h)
  | update record fault => exact hwrote ((persistOr_outcome _ _).event h)
  | remove operationId fault =>
    obtain ⟨effect, hwrite, -, hevents⟩ := @removeOperation_outcome C self fault w.store operationId
    exact hwrote (hwrite.event (hevents ▸ h))

end

/-! ### Sources in the history -/

/-- `insert_change_set` put a record of this owner and plan digest under the id. -/
def Entry.insertsAs (id owner digest : String) (entry : Entry V) : Bool :=
  match entry.what with
  | .store (.inserted record _) =>
    record.id == id && record.owner == owner && record.digest == digest
  | _ => false

/-- An update moved the change set, under this plan digest, to `Approved`. -/
def Entry.grants (id digest : String) (entry : Entry V) : Bool :=
  match entry.what with
  | .store (.granted record) => record.id == id && record.digest == digest
  | _ => false

/-- The id was last inserted with the record's owner and plan digest, and if the record is
`Approved`, it was granted under that digest since. -/
structure Sourced (trace : List (Entry V)) (id : String) (record : ChangeSetRecord) : Prop where
  created : Since (fun entry => entry.insertsAs id record.owner record.digest = true)
    (fun entry => entry.inserts id = true) trace
  granted : record.state = .approved →
    Since (fun entry => entry.grants id record.digest = true)
      (fun entry => entry.inserts id = true) trace

variable {trace new : List (Entry V)} {record original : ChangeSetRecord}

theorem Sourced.append (h : Sourced trace id record)
    (hnone : ∀ entry ∈ new, ¬ entry.inserts id = true) : Sourced (new ++ trace) id record :=
  ⟨since_append_of_none hnone h.created,
    fun happroved => since_append_of_none hnone (h.granted happroved)⟩

theorem Sourced.evolve (h : Sourced trace id original) (he : Evolves original record)
    (hgranted : record.state = .approved → original.state ≠ .approved →
      Since (fun entry => entry.grants id record.digest = true)
        (fun entry => entry.inserts id = true) trace) : Sourced trace id record := by
  refine ⟨?_, fun happroved => ?_⟩
  · rw [he.owner, he.digest]
    exact h.created
  · by_cases hbefore : original.state = .approved
    · rw [he.digest]
      exact h.granted hbefore
    · exact hgranted happroved hbefore

namespace World

variable {path : Option String} {w w' mid : World C V} {a : Action V} {t : ℕ} {request : Request V}
  {next : c.Answer → Method V Unit} {answer : c.Answer} {ok : World C V → Action V → Prop}

theorem Called.rawWrite {choice : Choice V}
    (hc : Called path ok w self t request c next answer mid events)
    (hchoice : w.exec self t c choice = some (mid, answer, events)) :
    w.rawWrite (.advance t choice) = request.rawWrite := by
  simp [World.rawWrite, answerTo, hc.self_eq, hc.thread, hchoice]

/-! ### The change sets held after a call -/

/-- Where a change set held after the call `c` comes from. -/
inductive HeldFrom (w : World C V) (config : Config) (c : Call V) (events : List Event)
    (id : String) (record : ChangeSetRecord) : Prop where
  | inserted (added : ChangeSetRecord) (ok : Bool) (hcall : c = .insertChangeSet added)
      (hid : added.id = id) (heq : record = normaliseRecord added)
      (hcheck : checkNewChangeSet C config added = .ok ())
      (hevent : .inserted (normaliseRecord added) ok ∈ events)
  | moved (hnone : ∀ added ok, .inserted added ok ∈ events → added.id ≠ id)
      (original : ChangeSetRecord) (ho : w.store.mem.changeSets[id]? = some original)
      (hmove : RecordMove C c events original record)
  | kept (hnone : ∀ added ok, .inserted added ok ∈ events → added.id ≠ id)
      (state : ChangesetState) (him : w.image = some state)
      (ho : state.changeSets[id]? = some record)

variable {state : ChangesetState}

theorem answered_changeSet (hg : Grounded path w) (hkeyed : Keyed w.store.mem)
    (hself : w.self = some self) (hexec : Executed w self t c answer mid events)
    (hheld : (w.answered mid t request c next answer events).Holds state)
    (hrecord : state.changeSets[id]? = some record) : HeldFrom w self c events id record := by
  have hmoved : MovedFrom C c events w.store.mem id record → HeldFrom w self c events id record := by
    rintro ⟨original, ho, hmove⟩
    refine .moved (fun added ok hmem hid => ?_) original ho hmove
    cases executed_event hexec hmem with
    | inserted added ok hcall hcheck hnew =>
      rw [← hid, normaliseRecord_id, hnew] at ho
      cases ho
  obtain hl | ⟨hlast, him⟩ := answered_holds hheld
  · cases (exec_moves hkeyed hexec hl).changeSets with
    | kept h => exact hmoved (h id record hrecord)
    | inserted added ok hcall hcheck hinserted hnew _ h =>
      obtain ⟨rfl, heq⟩ | hm := h id record hrecord
      · exact .inserted added ok hcall rfl heq hcheck hinserted
      · exact hmoved hm
  · refine .kept (fun added ok hmem => ?_) state him hrecord
    cases executed_event hexec hmem with
    | inserted added ok hcall hcheck hnew hwritten =>
      rw [hg.pathless ((hg.config self hself).symm.trans (hwritten hlast))] at him
      cases him

/-- What a call adds to the history. -/
abbrev newEntries (w : World C V) (t : ℕ) (request : Request V) (c : Call V) (answer : c.Answer)
    (events : List Event) : List (Entry V) :=
  ⟨some (t, request), w.clock, .answered c answer⟩ :: w.storeEntries (some (t, request)) events

theorem newEntries_store {event : Event} (h : event ∈ events) :
    ⟨some (t, request), w.clock, .store event⟩ ∈ w.newEntries t request c answer events :=
  mem_cons_of_mem _ (mem_map_of_mem h)

theorem newEntries_inserts {entry : Entry V} (he : entry ∈ w.newEntries t request c answer events)
    (hi : entry.inserts id = true) : ∃ added ok, .inserted added ok ∈ events ∧ added.id = id ∧
      entry.what = .store (.inserted added ok) := by
  obtain rfl | he := mem_cons.mp he
  · cases hi
  · obtain ⟨event, hevent, rfl⟩ := mem_map.mp he
    cases event with
    | inserted added ok => exact ⟨added, ok, hevent, beq_iff_eq.mp hi, rfl⟩
    | wrote | granted | claimed => cases hi

theorem newEntries_none (hnone : ∀ added ok, .inserted added ok ∈ events → added.id ≠ id) :
    ∀ entry ∈ w.newEntries t request c answer events, ¬ entry.inserts id = true := by
  intro entry he hi
  obtain ⟨added, ok, hmem, hid, -⟩ := newEntries_inserts he hi
  exact hnone added ok hmem hid

theorem sourced_inserted {answer : Except CoordinatorError Unit}
    (hexec : Executed w self t (.insertChangeSet record) answer mid events)
    (hcheck : checkNewChangeSet C self record = .ok ()) {ok : Bool}
    (hevent : .inserted (normaliseRecord record) ok ∈ events) (trace : List (Entry V)) :
    Sourced (w.newEntries t request (.insertChangeSet record) answer events ++ trace) record.id
      (normaliseRecord record) := by
  constructor
  · refine since_of_mem (newEntries_store hevent) (by simp [Entry.insertsAs]) fun entry he hi => ?_
    obtain ⟨added, ok', hmem, -, hwhat⟩ := newEntries_inserts he hi
    cases executed_event hexec hmem with
    | inserted other ok' hcall =>
      cases hcall
      simp [Entry.insertsAs, hwhat]
  · intro happroved
    simp only [checkNewChangeSet, bind_unit_ok, refuseIf_ok, not_not] at hcheck
    rw [normaliseRecord_state, hcheck.2.2.1] at happroved
    cases happroved

theorem sourced_moved {trace : List (Entry V)} {original : ChangeSetRecord}
    (hs : Sourced trace id original) (hkeyed : original.id = id)
    (hnone : ∀ added ok, .inserted added ok ∈ events → added.id ≠ id)
    (hmove : RecordMove C c events original record) :
    Sourced (w.newEntries t request c answer events ++ trace) id record := by
  refine (hs.append (newEntries_none hnone)).evolve (recordMove_evolves hmove) ?_
  intro happroved hbefore
  cases hmove with
  | same => exact absurd happroved hbefore
  | swept | claimed => cases happroved
  | updated written hcall hid hchecked hgranted =>
    refine since_of_mem (newEntries_store (hgranted (normaliseRecord_state ▸ happroved) hbefore))
      (by simp [Entry.grants, hid, hkeyed]) fun entry he hi => ?_
    exact absurd hi (newEntries_none hnone entry he)

theorem sourced_outside (hs : StepCase path w a w') (hno : ∀ t choice, a ≠ .advance t choice)
    (hall : ∀ state, w.Holds state → ∀ (id : String) record, state.changeSets[id]? = some record →
      Sourced w.trace id record) (hheld : w'.Holds state)
    (hrecord : state.changeSets[id]? = some record) : Sourced w'.trace id record := by
  obtain ⟨new, htrace, hnew⟩ := hs.outside hno
  rw [htrace]
  refine Sourced.append ?_ fun entry he hi => ?_
  · obtain hold | hn := hs.holds hheld
    · exact hall state hold id record hrecord
    obtain ⟨held, original, him, ho, hevolves, happroved⟩ := hn.evolves hno hrecord
    exact (hall held (.inr him) id original ho).evolve hevolves fun h hbefore =>
      absurd (happroved h) hbefore
  · have hout := hnew entry he
    obtain ⟨source, clock, what⟩ := entry
    cases what with
    | answered | resolved => cases hi
    | store event =>
      cases event with
      | inserted => cases hout
      | wrote | granted | claimed => cases hi

/-- **The history accounts for every change set held.** -/
theorem reached_sourced (h : Reached path ok w) (hheld : w.Holds state)
    (hrecord : state.changeSets[id]? = some record) :
    Sourced w.trace id record := by
  refine reached_calls (P := fun w => ∀ state, w.Holds state → ∀ (id : String) record,
    state.changeSets[id]? = some record → Sourced w.trace id record) ?_ ?_ ?_ h state hheld id
    record hrecord
  · rintro state (rfl | him) id record hrecord
    · simp [World.initial, ChangesetState.empty] at hrecord
    · cases him
  · intro w self t choice request c next answer mid events hc hall _ _ state hheld id record hrecord
    cases answered_changeSet (reached_grounded hc.reached) hc.keyed hc.self_eq hc.executed hheld
        hrecord with
    | inserted added ok hcall hid heq hcheck hevent =>
      subst hcall hid heq
      exact sourced_inserted hc.executed hcheck hevent w.trace
    | moved hnone original ho hmove =>
      exact sourced_moved (hall _ (.inl rfl) id original ho) (hc.keyed.changeSets id original ho)
        hnone hmove
    | kept hnone state him ho =>
      exact (hall state (.inr him) id record ho).append (newEntries_none hnone)
  · exact fun w a w' _ hall _ hs hno state hheld id record hrecord =>
      sourced_outside hs hno hall hheld hrecord

end World

end Mecmcp.Changeset
