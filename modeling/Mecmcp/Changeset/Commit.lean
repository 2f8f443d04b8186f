import Mecmcp.Changeset.Lifecycle

/-!
# Commit — a commit is sent at most once, and never after a rollback

Before a commit or a rollback is sent, a write of the operation as `Committing` or `Indeterminate`
has returned `Ok`.  From there no write, no undo of a failed write and no restart leads back to
`Validated` (`spent_edge`, `CommitInv.spent`), and only a `Validated` operation can be made
`Committing` by a method that has not sent its commit.  A method between that write and its send
holds the guard of the device, so nobody else sends in between (`CommitInv.unsent`).
-/

namespace Mecmcp.Changeset

open List

variable {C : Crates} {V : Vendor} {path : Option String} {c : Call V} {id : String}
  {entry : Entry V}

/-- A state from which an operation is never `Validated` again. -/
def LifecycleState.spent : LifecycleState → Bool
  | committing | committed | failed | indeterminate | discarded => true
  | _ => false

theorem spent_edge {source target : LifecycleState} (h : lifecycleEdge source target = true)
    (hspent : source.spent = true) : target.spent = true := by
  revert h hspent
  cases source <;> cases target <;> decide

/-! ### Commits, rollbacks and validations in a history -/

section
variable {clock : Option UInt64}

/-- `transaction.commit` was invoked for the operation. -/
def Entry.sendsCommit (id : String) (entry : Entry V) : Bool :=
  match entry.source, entry.what with
  | some (_, request), .answered (.send (.commit _ _ _)) _ => request.operationId == some id
  | _, _ => false

/-- `transaction.rollback` was invoked for the operation. -/
def Entry.sendsRollback (id : String) (entry : Entry V) : Bool :=
  match entry.source, entry.what with
  | some (_, request), .answered (.send (.rollback _)) _ => request.operationId == some id
  | _, _ => false

/-- `transaction.validate` returned `Ok` for the operation. -/
def Entry.validatesOk (id : String) (entry : Entry V) : Bool :=
  match entry.source, entry.what with
  | some (_, request), .answered (.receive (.validate _)) answer =>
    request.operationId == some id && Except.isOk answer
  | _, _ => false

/-- A write of the operation in a spent state returned `Ok`. -/
def Entry.settles (id : String) (entry : Entry V) : Bool :=
  match entry.what with
  | .answered (.update record) answer =>
    record.id == id && record.state.spent && Except.isOk answer
  | _ => false

/-- A commit or a rollback was invoked for the operation. -/
def Entry.sends (id : String) (entry : Entry V) : Bool :=
  entry.sendsCommit id || entry.sendsRollback id

/-- The operation was validated, and nothing was sent for it. -/
def Cleared (id : String) (trace : List (Entry V)) : Prop :=
  (∀ entry ∈ trace, entry.sends id = false) ∧ ∃ entry ∈ trace, entry.validatesOk id = true

variable {answer : c.Answer}

theorem Entry.sends_eq {t : ℕ} {request : Request V}
    (h : Entry.sends id ⟨some (t, request), clock, .answered c answer⟩ = true) :
    request.operationId = some id ∧ (⟨c, answer⟩ : Answered V).sendsOutcome = true := by
  unfold Entry.sends Entry.sendsCommit Entry.sendsRollback at h
  cases c with
  | send rpc =>
    cases rpc with
    | commit | rollback => exact ⟨by simpa using h, rfl⟩
    | fingerprint | stage | diff | validate | lock | unlock => cases h
  | _ => cases h

theorem Entry.settles_eq {source : Option (ℕ × Request V)}
    (h : Entry.settles id ⟨source, clock, .answered c answer⟩ = true) :
    ∃ record, (⟨c, answer⟩ : Answered V) = ⟨.update record, .ok ()⟩ ∧ record.id = id ∧
      record.state.spent = true := by
  unfold Entry.settles at h
  cases c with
  | update record =>
    simp only [Bool.and_eq_true, beq_iff_eq] at h
    obtain ⟨⟨hid, hspent⟩, hok⟩ := h
    refine ⟨record, ?_, hid, hspent⟩
    cases answer with
    | ok => rfl
    | error => cases hok
  | _ => cases h

theorem written_known {h : History V} {record : OperationRecord}
    (hw : h.written = some record) : h.known = some record ∧ ⟨.update record, .ok ()⟩ ∈ h := by
  induction h with
  | nil => cases hw
  | cons answered h ih =>
    obtain ⟨call, answer⟩ := answered
    have hkeep : Answered.writes ⟨call, answer⟩ (History.written h) = History.written h →
        Answered.knows ⟨call, answer⟩ (History.known h) = History.known h →
        History.known (⟨call, answer⟩ :: h) = some record ∧
          ⟨.update record, .ok ()⟩ ∈ (⟨call, answer⟩ :: h : History V) := by
      intro hwrites hknows
      obtain ⟨hknown, hmem⟩ := ih (hwrites ▸ hw)
      exact ⟨hknows.trans hknown, mem_cons_of_mem _ hmem⟩
    cases call with
    | update updated =>
      cases answer with
      | ok =>
        cases hw
        exact ⟨rfl, mem_cons_self ..⟩
      | error => exact hkeep rfl rfl
    | record | insert | remove | deviceGuard => cases hw
    | _ => exact hkeep rfl rfl

end

namespace World

section
variable {w w' mid : World C V} {a : Action V} {ok : World C V → Action V → Prop} {self : Config}
  {t : ℕ} {request : Request V} {next : c.Answer → Method V Unit} {answer : c.Answer}
  {events : List Event}
variable {record before after : OperationRecord} {state : ChangesetState} {t' : ℕ}
  {thread : Thread (calls V) CoordinatorError (Request V)}

/-- What keeps commits apart. -/
structure CommitInv (w : World C V) : Prop where
  spent : ∀ id, (∃ entry ∈ w.trace, entry.settles id = true) → ∀ state, w.Holds state →
    ∀ record, state.operations[id]? = some record → record.state.spent = true
  introduced : ∀ id, (∃ entry ∈ w.trace, entry.settles id = true) → Introduced w.trace id
  sent : ∀ id, (∃ entry ∈ w.trace, entry.sends id = true) →
    ∃ entry ∈ w.trace, entry.settles id = true
  validated : ∀ state, w.Holds state → ∀ (id : String) record,
    state.operations[id]? = some record → record.state = .validated →
    ∃ entry ∈ w.trace, entry.validatesOk id = true
  unsent : ∀ t thread, w.threads t = some thread → ∀ record,
    (historyOf w.trace t).written = some record → (historyOf w.trace t).Guarded record.device →
    record.state = .committing →
    (∀ answered ∈ historyOf w.trace t, answered.sendsOutcome = false) → Cleared record.id w.trace

/-- A line of the history after an answered call is that of the call, one of the store, or an old
one. -/
theorem mem_answered (he : entry ∈ (w.answered mid t request c next answer events).trace) :
    entry = ⟨some (t, request), w.clock, .answered c answer⟩ ∨
      (∃ event, entry = ⟨some (t, request), w.clock, .store event⟩) ∨ entry ∈ w.trace := by
  have he : entry ∈ _ :: (w.storeEntries (some (t, request)) events ++ w.trace) := he
  obtain rfl | he := mem_cons.mp he
  · exact .inl rfl
  · obtain he | he := mem_append.mp he
    · obtain ⟨event, -, rfl⟩ := mem_map.mp he
      exact .inr (.inl ⟨event, rfl⟩)
    · exact .inr (.inr he)

theorem mem_answered_old (he : entry ∈ w.trace) :
    entry ∈ (w.answered mid t request c next answer events).trace :=
  mem_cons_of_mem _ (mem_append_right _ he)

theorem settles_answered (h : ∃ entry ∈ (w.answered mid t request c next answer events).trace,
      entry.settles id = true) :
    (∃ record, (⟨c, answer⟩ : Answered V) = ⟨.update record, .ok ()⟩ ∧ record.id = id ∧
      record.state.spent = true) ∨ ∃ entry ∈ w.trace, entry.settles id = true := by
  obtain ⟨entry, he, hsettles⟩ := h
  obtain rfl | ⟨event, rfl⟩ | he := mem_answered he
  · exact .inl (Entry.settles_eq hsettles)
  · cases hsettles
  · exact .inr ⟨entry, he, hsettles⟩

theorem sends_answered
    (h : ∃ entry ∈ (w.answered mid t request c next answer events).trace, entry.sends id = true) :
    (request.operationId = some id ∧ (⟨c, answer⟩ : Answered V).sendsOutcome = true) ∨
      ∃ entry ∈ w.trace, entry.sends id = true := by
  obtain ⟨entry, he, hsends⟩ := h
  obtain rfl | ⟨event, rfl⟩ | he := mem_answered he
  · exact .inl (Entry.sends_eq hsends)
  · cases hsends
  · exact .inr ⟨entry, he, hsends⟩

theorem cleared_answered (hcleared : Cleared id w.trace)
    (hquiet : request.operationId = some id → (⟨c, answer⟩ : Answered V).sendsOutcome = false) :
    Cleared id (w.answered mid t request c next answer events).trace := by
  obtain ⟨hnone, entry, he, hvalidates⟩ := hcleared
  refine ⟨fun entry he => ?_, entry, mem_answered_old he, hvalidates⟩
  by_contra hsends
  obtain ⟨hrequest, hsends⟩ | ⟨entry, he, hsends⟩ :=
    sends_answered ⟨entry, he, by simpa using hsends⟩
  · rw [hquiet hrequest] at hsends
    cases hsends
  · rw [hnone entry he] at hsends
    cases hsends

/-- A call that sends a commit or a rollback: the operation it is for is the one its thread wrote
last, under the guard of its device. -/
theorem Called.sends (hc : Called path ok w self t request c next answer mid events)
    (hsends : (⟨c, answer⟩ : Answered V).sendsOutcome = true) :
    ∃ record, (historyOf w.trace t).written = some record ∧
      (historyOf w.trace t).Guarded record.device ∧ request.operationId = some record.id ∧
      record.state.spent = true ∧ record.state.terminal = false := by
  have hj := hc.justified
  cases c with
  | send rpc =>
    cases rpc with
    | commit =>
      obtain ⟨record, hwritten, hguarded, hrequest, hstate, -⟩ := hj
      exact ⟨record, hwritten, hguarded, hrequest, by rw [hstate]; rfl, by rw [hstate]; rfl⟩
    | rollback =>
      obtain ⟨record, hwritten, hguarded, hrequest, hstate⟩ := hj
      exact ⟨record, hwritten, hguarded, hrequest, by rw [hstate]; rfl, by rw [hstate]; rfl⟩
    | fingerprint | stage | diff | validate | lock | unlock => cases hsends
  | _ => cases hsends

theorem settles_of_written
    (hw : (historyOf w.trace t).written = some record) (hspent : record.state.spent = true) :
    ∃ entry ∈ w.trace, entry.settles record.id = true := by
  obtain ⟨-, hmem⟩ := written_known hw
  obtain ⟨entry, he, -, hwhat⟩ := mem_historyOf.mp hmem
  refine ⟨entry, he, ?_⟩
  rw [Entry.settles, hwhat]
  simp [hspent, Except.isOk, Except.toBool]

theorem executed_update {answer : Except CoordinatorError Unit}
    (hexec : Executed w self t (.update record) answer mid events) (hok : answer.isOk = true) :
    mid.store.mem = w.store.mem.putOperation record.id record ∧
      (events = [.wrote (w.store.mem.putOperation record.id record)] ∨
        events = [] ∧ self.statePath = none) := by
  cases hexec with
  | quiet _ hquiet => cases hquiet
  | update _ fault =>
    have hout := @updateOperation_outcome C self fault record w.store
    generalize updateOperation self fault record w.store = effect at hout hok ⊢
    cases hout with
    | unwritten hpath => exact ⟨rfl, .inr ⟨rfl, hpath⟩⟩
    | written hpath => exact ⟨rfl, .inl rfl⟩
    | failed | landed => cases hok

theorem executed_update_failed {answer : Except CoordinatorError Unit}
    (hexec : Executed w self t (.update record) answer mid events) (hfailed : ¬ answer.isOk = true) :
    mid.store.mem = w.store.mem := by
  cases hexec with
  | quiet _ hquiet => cases hquiet
  | update _ fault =>
    show (updateOperation self fault record w.store).store.mem = w.store.mem
    rw [updateOperation_mem, if_neg hfailed]

theorem held_of_updated
    {next : Except CoordinatorError Unit → Method V Unit} {answer : Except CoordinatorError Unit}
    (hc : Called path ok w self t request (.update record) next answer mid events)
    (hok : answer.isOk = true)
    (hheld : (w.answered mid t request (.update record) next answer events).Holds state) :
    state.operations[record.id]? = some record := by
  have hg := reached_grounded hc.reached
  obtain ⟨hmem, hevents⟩ := executed_update hc.executed hok
  have hput : state = w.store.mem.putOperation record.id record →
      state.operations[record.id]? = some record := by
    rintro rfl
    rw [getElem?_putOperation, if_pos rfl]
  obtain (rfl | hwrote) | ⟨hlast, him⟩ := answered_holds hheld
  · exact hput hmem
  · obtain rfl | ⟨rfl, -⟩ := hevents
    · exact hput (Event.wrote.inj (mem_singleton.mp hwrote))
    · cases hwrote
  · obtain rfl | ⟨-, hpath⟩ := hevents
    · cases hlast
    · rw [hg.pathless ((hg.config self hc.self_eq).symm.trans hpath)] at him
      cases him

theorem validated_call (hat : Attributed w)
    (hc : Called path ok w self t request c next answer mid events)
    (hwrite : OperationWrite request (historyOf w.trace t) before after)
    (hstate : after.state = .validated) :
    ∃ entry ∈ w.trace, entry.validatesOk after.id = true := by
  obtain ⟨args, staged, result, rfl, hreceived⟩ := hwrite.validated hstate
  obtain ⟨entry, he, hsource, hwhat⟩ := mem_historyOf.mp hreceived
  obtain ⟨⟨t', request'⟩, hentry, rfl⟩ := Option.map_eq_some_iff.mp hsource
  obtain rfl : Request.validateOperation args staged = request' :=
    hat entry he t' request' hentry _ hc.thread
  have hnamed : (Request.validateOperation args staged).operationId = some after.id := by
    rw [hwrite.id]
    obtain hnamed | ⟨-, hne, -⟩ := hwrite.named
    · exact hnamed
    · exact absurd hstate hne
  refine ⟨entry, he, ?_⟩
  rw [Entry.validatesOk, hentry, hwhat]
  simp [hnamed, Except.isOk, Except.toBool]

theorem spent_call (hi : CommitInv w)
    (hc : Called path ok w self t request c next answer mid events)
    (hsettled : ∃ entry ∈ w.trace, entry.settles id = true)
    (hleft : state = mid.store.mem ∨ .wrote state ∈ events)
    (hrecord : state.operations[id]? = some record) :
    record.state.spent = true := by
  have hmoved := hc.moved hleft id
  rw [hrecord] at hmoved
  generalize hbefore : w.store.mem.operations[id]? = before at hmoved
  cases hmoved with
  | same => exact hi.spent id hsettled _ (.inl rfl) record hbefore
  | updated before _ _ _ _ hwrite =>
    exact spent_edge hwrite.edge (hi.spent id hsettled _ (.inl rfl) before hbefore)
  | inserted _ hcall hid hreserves =>
    subst hcall
    obtain ⟨-, hnone, -⟩ := hc.justified
    exact absurd (hi.introduced id hsettled) ((reached_conducted hc.reached).fresh.unintroduced
      (hid ▸ reserves_drawn hreserves) hnone)

theorem unsent_update (hi : CommitInv w) (hheld : w.store.mem.operations[before.id]? = some before)
    (hwrite : OperationWrite request (historyOf w.trace t) before after)
    (hstate : after.state = .committing)
    (hunsent : ∀ answered ∈ historyOf w.trace t, answered.sendsOutcome = false) :
    Cleared after.id w.trace := by
  obtain hvalidated | ⟨answered, hmem, hsends⟩ := hwrite.committing hstate
  · rw [hwrite.id]
    refine ⟨fun entry he => ?_, hi.validated _ (.inl rfl) _ before hheld hvalidated⟩
    by_contra hsent
    have hsettled := hi.sent before.id ⟨entry, he, by simpa using hsent⟩
    have hspent := hi.spent before.id hsettled _ (.inl rfl) before hheld
    rw [hvalidated] at hspent
    cases hspent
  · rw [hunsent answered hmem] at hsends
    cases hsends

theorem unsent_other (hc : Called path ok w self t request c next answer mid events) (hne : t' ≠ t)
    (hthread : w.threads t' = some thread)
    (hwritten : (historyOf w.trace t').written = some record)
    (hguarded : (historyOf w.trace t').Guarded record.device) (hstate : record.state = .committing)
    (hrequest : request.operationId = some record.id) :
    (⟨c, answer⟩ : Answered V).sendsOutcome = false := by
  by_contra hsends
  obtain ⟨mine, hmine, hmineGuarded, hmineRequest, -, hopen⟩ := hc.sends (by simpa using hsends)
  obtain ⟨h', ha', -⟩ := (reached_conducted hc.reached).kept self hc.self_eq t' thread hthread
  obtain rfl := ha'.history
  have hid : record.id = mine.id := Option.some.inj (hrequest.symm.trans hmineRequest)
  have hheld := ha'.known record (written_known hwritten).1 hguarded (by rw [hstate]; rfl)
  rw [hid, hc.agrees.known mine (written_known hmine).1 hmineGuarded hopen] at hheld
  cases hheld
  have hboth := (ha'.guarded _ hguarded).symm.trans (hc.agrees.guarded _ hmineGuarded)
  exact hne (Option.some.inj hboth)

theorem writes_cases {written : Option OperationRecord}
    (h : Answered.writes ⟨c, answer⟩ written = some record) :
    (⟨c, answer⟩ : Answered V) = ⟨.update record, .ok ()⟩ ∨
      written = some record ∧ ∀ endpoint, c ≠ .deviceGuard endpoint := by
  cases c with
  | update updated =>
    cases answer with
    | ok =>
      cases h
      exact .inl rfl
    | error => exact .inr ⟨h, fun _ heq => by cases heq⟩
  | record | insert | remove | deviceGuard => cases h
  | _ => exact .inr ⟨h, fun _ heq => by cases heq⟩

theorem unsent_call (hi : CommitInv w)
    (hc : Called path ok w self t request c next answer mid events)
    (hthread : (w.answered mid t request c next answer events).threads t' = some thread)
    (hwritten : (historyOf (w.answered mid t request c next answer events).trace t').written =
      some record)
    (hguarded : (historyOf (w.answered mid t request c next answer events).trace t').Guarded
      record.device) (hstate : record.state = .committing)
    (hunsent : ∀ answered ∈ historyOf (w.answered mid t request c next answer events).trace t',
      answered.sendsOutcome = false) :
    Cleared record.id (w.answered mid t request c next answer events).trace := by
  have hhistory := historyOf_advance w t t' request c answer events
  have hthread : w.threads.set t _ t' = some thread := hthread
  by_cases ht : t = t'
  · subst ht
    have hhistory : historyOf (w.answered mid t request c next answer events).trace t =
        ⟨c, answer⟩ :: historyOf w.trace t := hhistory.trans (if_pos rfl)
    rw [hhistory] at hwritten hguarded hunsent
    obtain ⟨hquiet, hrest⟩ := forall_mem_cons.mp hunsent
    refine cleared_answered ?_ fun _ => hquiet
    obtain heq | ⟨hwritten, hc'⟩ := writes_cases hwritten
    · cases heq
      obtain ⟨before, hknown, hguarded, hwrite⟩ := hc.justified
      exact unsent_update hi
        (hc.agrees.known before hknown hguarded (lifecycleEdge_source hwrite.edge)) hwrite hstate
        hrest
    · exact hi.unsent t _ hc.thread record hwritten (guarded_cons hc' hguarded) hstate hrest
  · have hhistory : historyOf (w.answered mid t request c next answer events).trace t' =
        historyOf w.trace t' := hhistory.trans (if_neg ht)
    rw [hhistory] at hwritten hguarded hunsent
    rw [Pool.set_of_ne _ _ (Ne.symm ht)] at hthread
    exact cleared_answered (hi.unsent t' thread hthread record hwritten hguarded hstate hunsent)
      (unsent_other hc (Ne.symm ht) hthread hwritten hguarded hstate)

theorem commitInv_call (hi : CommitInv w)
    (hc : Called path ok w self t request c next answer mid events) :
    CommitInv (w.answered mid t request c next answer events) where
  spent id hsettled state hheld record hrecord := by
    obtain ⟨updated, heq, hid, hspent⟩ | hsettled := settles_answered hsettled
    · cases heq
      have hheld := held_of_updated hc rfl hheld
      rw [hid, hrecord] at hheld
      rw [Option.some.inj hheld]
      exact hspent
    · obtain hleft | ⟨-, him⟩ := answered_holds hheld
      · exact spent_call hi hc hsettled hleft hrecord
      · exact hi.spent id hsettled state (.inr him) record hrecord
  introduced id hsettled := by
    obtain ⟨updated, heq, rfl, -⟩ | hsettled := settles_answered hsettled
    · cases heq
      obtain ⟨before, hknown, hguarded, hwrite⟩ := hc.justified
      have hheld := hc.agrees.known before hknown hguarded (lifecycleEdge_source hwrite.edge)
      rw [hwrite.id]
      exact introduced_answered
        ((reached_conducted hc.reached).fresh.held _ (.inl rfl) _ before hheld)
    · exact introduced_answered (hi.introduced id hsettled)
  sent id hsent := by
    have hold : ∃ entry ∈ w.trace, entry.settles id = true := by
      obtain ⟨hrequest, hsends⟩ | hsent := sends_answered hsent
      · obtain ⟨record, hwritten, -, hrecord, hspent, -⟩ := hc.sends hsends
        cases hrequest.symm.trans hrecord
        exact settles_of_written hwritten hspent
      · exact hi.sent id hsent
    obtain ⟨entry, he, hsettles⟩ := hold
    exact ⟨entry, mem_answered_old he, hsettles⟩
  validated state hheld id record hrecord hstate := by
    have hold : ∃ entry ∈ w.trace, entry.validatesOk id = true := by
      obtain hleft | ⟨-, him⟩ := answered_holds hheld
      · have hmoved := hc.moved hleft id
        rw [hrecord] at hmoved
        generalize hbefore : w.store.mem.operations[id]? = before at hmoved
        cases hmoved with
        | same => exact hi.validated _ (.inl rfl) id record hbefore hstate
        | updated before _ _ hid _ hwrite =>
          exact hid ▸ validated_call (reached_attributed hc.reached) hc hwrite hstate
        | inserted _ hcall hid hreserves => cases hreserves <;> cases hstate
      · exact hi.validated state (.inr him) id record hrecord hstate
    obtain ⟨entry, he, hvalidates⟩ := hold
    exact ⟨entry, mem_answered_old he, hvalidates⟩
  unsent _ _ hthread _ hwritten hguarded hstate hunsent :=
    unsent_call hi hc hthread hwritten hguarded hstate hunsent

/-! ### Steps that answer no call -/

theorem outside_entries {new : List (Entry V)} (hnew : ∀ entry ∈ new, entry.Outside)
    (he : entry ∈ new ++ w.trace) (id : String) :
    entry ∈ w.trace ∨ entry.settles id = false ∧ entry.sends id = false := by
  obtain he | he := mem_append.mp he
  · have hout := hnew entry he
    obtain ⟨source, clock, what⟩ := entry
    cases what with
    | answered => cases hout
    | store | resolved => cases source <;> exact .inr ⟨rfl, rfl⟩
  · exact .inl he

theorem recoverOperation_spent (stagedRecovery : StagedRecovery)
    (hspent : record.state.spent = true) :
    (recoverOperation stagedRecovery record).state.spent = true := by
  obtain ⟨state, details, heq, rfl | ⟨rfl, -⟩⟩ := recoverOperation_eq stagedRecovery record
  · rw [heq]
    exact hspent
  · rw [heq]
    rfl

theorem NewState.spent (hn : NewState path w a state)
    (hno : ∀ t choice, a ≠ .advance t choice) {next : OperationRecord}
    (hnext : state.operations[id]? = some next) :
    ∃ held record, w.Holds held ∧ held.operations[id]? = some record ∧
      (record.state.spent = true → next.state.spent = true) ∧
      (next.state = .validated → record.state = .validated) := by
  cases hn with
  | stopped => simp [ChangesetState.empty] at hnext
  | executed t choice => exact absurd rfl (hno t choice)
  | recovered args env hself hloads =>
    obtain ⟨held, record, him, hrecord, rfl⟩ := recovered_operation hnext
    refine ⟨held, record, .inr him, hrecord, fun hspent => recoverOperation_spent _ hspent,
      fun hstate => ?_⟩
    obtain ⟨state, details, heq, rfl | ⟨rfl, -⟩⟩ :=
      recoverOperation_eq args.stagedRecovery (record.mapFloat C.reparse)
    · rw [heq] at hstate
      exact hstate
    · rw [heq] at hstate
      cases hstate
  | resolved operationId disposition confirmation limits env found hfound hopen hloads =>
    rw [getElem?_putOperation] at hnext
    split at hnext
    · next hid =>
      cases hnext
      obtain ⟨held, record, him, hrecord, rfl⟩ := readBack_operation hfound
      refine ⟨held, record, .inr him, hid ▸ hrecord, fun _ => ?_, fun hstate => ?_⟩
      · cases disposition <;> rfl
      · cases disposition <;> cases hstate
    · obtain ⟨held, record, him, hrecord, rfl⟩ := readBack_operation hnext
      exact ⟨held, record, .inr him, hrecord, fun h => h, fun h => h⟩

theorem commitInv_outside (hi : CommitInv w) (hg : Grounded path w) (hs : StepCase path w a w')
    (hno : ∀ t choice, a ≠ .advance t choice) : CommitInv w' := by
  obtain ⟨new, htrace, hnew⟩ := hs.outside hno
  have hhistory : ∀ t, historyOf w'.trace t = historyOf w.trace t := fun t => by
    rw [htrace, historyOf_outside hnew]
  have hkeep : ∀ entry ∈ w.trace, entry ∈ w'.trace := fun entry he =>
    htrace ▸ mem_append_right _ he
  have hsettled : ∀ id, (∃ entry ∈ w'.trace, entry.settles id = true) →
      ∃ entry ∈ w.trace, entry.settles id = true := by
    rintro id ⟨entry, he, hsettles⟩
    obtain he | ⟨hnot, -⟩ := outside_entries hnew (htrace ▸ he) id
    · exact ⟨entry, he, hsettles⟩
    · rw [hnot] at hsettles
      cases hsettles
  have hsent : ∀ id, (∃ entry ∈ w'.trace, entry.sends id = true) →
      ∃ entry ∈ w.trace, entry.sends id = true := by
    rintro id ⟨entry, he, hsends⟩
    obtain he | ⟨-, hnot⟩ := outside_entries hnew (htrace ▸ he) id
    · exact ⟨entry, he, hsends⟩
    · rw [hnot] at hsends
      cases hsends
  refine ⟨fun id hs' state hheld record hrecord => ?_, fun id hs' => ?_, fun id hs' => ?_,
    fun state hheld id record hrecord hstate => ?_, fun t thread hthread record => ?_⟩
  · obtain hold | hn := hs.holds hheld
    · exact hi.spent id (hsettled id hs') state hold record hrecord
    · obtain ⟨held, original, hheld, ho, hspent, -⟩ := hn.spent hno hrecord
      exact hspent (hi.spent id (hsettled id hs') held hheld original ho)
  · rw [htrace]
    exact (hi.introduced id (hsettled id hs')).append new
  · obtain ⟨entry, he, hsettles⟩ := hi.sent id (hsent id hs')
    exact ⟨entry, hkeep entry he, hsettles⟩
  · have hold : ∃ entry ∈ w.trace, entry.validatesOk id = true := by
      obtain hold | hn := hs.holds hheld
      · exact hi.validated state hold id record hrecord hstate
      · obtain ⟨held, original, hheld, ho, -, hvalidated⟩ := hn.spent hno hrecord
        exact hi.validated held hheld id original ho (hvalidated hstate)
    obtain ⟨entry, he, hvalidates⟩ := hold
    exact ⟨entry, hkeep entry he, hvalidates⟩
  · intro hwritten hguarded hstate hunsent
    obtain hthread | hnil := hs.thread_outside hg hno hthread
    · rw [hhistory] at hwritten hguarded hunsent
      obtain ⟨hnone, entry, he, hvalidates⟩ :=
        hi.unsent t thread hthread record hwritten hguarded hstate hunsent
      refine ⟨fun entry he => ?_, entry, hkeep entry he, hvalidates⟩
      by_contra hsends
      obtain ⟨entry, he, hsends⟩ := hsent record.id ⟨entry, he, by simpa using hsends⟩
      rw [hnone entry he] at hsends
      cases hsends
    · rw [hnil] at hwritten
      cases hwritten

theorem reached_commitInv (hr : Reached path ok w) : CommitInv w := by
  refine reached_calls ?_ (fun _ _ _ _ _ _ _ _ _ _ hc hi _ _ => commitInv_call hi hc)
    (fun w a w' hreached hi _ hs hno => commitInv_outside hi (reached_grounded hreached) hs hno) hr
  refine ⟨?_, ?_, ?_, ?_, ?_⟩
  · rintro id ⟨entry, he, -⟩
    exact absurd he not_mem_nil
  · rintro id ⟨entry, he, -⟩
    exact absurd he not_mem_nil
  · rintro id ⟨entry, he, -⟩
    exact absurd he not_mem_nil
  · rintro state (rfl | him) id record hrecord
    · simp [World.initial, ChangesetState.empty] at hrecord
    · cases him
  · intro t thread hthread
    cases hthread

end

end World

variable {w : World C V}

theorem commits_cleared (h : World.Reached path (fun _ _ => True) w) (id : String) :
    AtEach (fun entry => entry.sendsCommit id = true) (Cleared id) w.trace := by
  refine World.reached_calls (P := fun w => AtEach (fun entry => entry.sendsCommit id = true)
    (Cleared id) w.trace) trivial ?_ ?_ h
  · intro w self t choice request c next answer mid events hc hall _ _
    have hstored : ∀ entry ∈ w.storeEntries (some (t, request)) events,
        ¬ entry.sendsCommit id = true := by
      intro entry he
      obtain ⟨event, -, rfl⟩ := mem_map.mp he
      nofun
    refine ⟨fun hcommit => ?_, atEach_append hstored hall⟩
    cases c with
    | send rpc =>
      cases rpc with
      | commit staged attribution options =>
        obtain ⟨record, hwritten, hguarded, hrequest, hstate, hunsent⟩ := hc.justified
        have hcommit : (request.operationId == some id) = true := hcommit
        obtain rfl := Option.some.inj (hrequest.symm.trans (beq_iff_eq.mp hcommit))
        cases hc.executed with
        | quiet =>
          exact (World.reached_commitInv hc.reached).unsent t _ hc.thread record hwritten hguarded
            hstate hunsent
      | fingerprint | stage | diff | validate | rollback | lock | unlock => cases hcommit
    | _ => cases hcommit
  · intro w a w' _ hall _ hs hno
    obtain ⟨new, htrace, hnew⟩ := hs.outside hno
    rw [htrace]
    refine atEach_append (fun entry he hcommit => ?_) hall
    have hout := hnew entry he
    obtain ⟨source, clock, what⟩ := entry
    cases what with
    | answered => cases hout
    | store | resolved => cases source <;> cases hcommit

/-- **A commit is sent at most once per operation, after a successful validation, and never after a
rollback**: whenever `transaction.commit` is invoked for an operation, the run until then holds a
validation of it that returned `Ok`, and no commit and no rollback of it. -/
theorem commit_sent_once (h : World.Reached path (fun _ _ => True) w) {id : String}
    {newer older : List (Entry V)} {entry : Entry V} (hsplit : w.trace = newer ++ entry :: older)
    (hcommit : entry.sendsCommit id = true) :
    (∀ earlier ∈ older, earlier.sendsCommit id = false ∧ earlier.sendsRollback id = false) ∧
      ∃ earlier ∈ older, earlier.validatesOk id = true := by
  have hall := commits_cleared h id
  rw [hsplit] at hall
  obtain ⟨hnone, hvalidated⟩ := hall.split hcommit
  refine ⟨fun earlier he => ?_, hvalidated⟩
  simpa [Entry.sends] using hnone earlier he

/-! ### A commit -/

def stageReservation (t : ℕ) : List (Action Vendor.sample) :=
  .advance t (.flag false) :: (answerFingerprint t ++
    (.advance t (.write none) :: .advance t .go :: .advance t (.device (.stage (.ok ()))) ::
      (answerFingerprint t ++ [.advance t (.write none), .finish t])))

/-- A method on the operation of `alice` reads it and takes the guard. -/
def openOperation (t : ℕ) (request : Request Vendor.sample) : List (Action Vendor.sample) :=
  .spawn request :: .advance t .go :: .advance t .go :: .advance t (.flag false) ::
    .advance t .go :: answerFingerprint t

def sampleOperation (byte : UInt8) : OperationArgs :=
  ⟨sampleId byte, "edge1", "alice", sampleFingerprint⟩

def validateStaged (t : ℕ) (byte : UInt8) : List (Action Vendor.sample) :=
  openOperation t (.validateOperation (sampleOperation byte) ()) ++
    [.advance t (.write none), .advance t .go, .advance t (.device (.validate (.ok ()))),
      .advance t (.write none), .finish t]

def sampleCommit (byte : UInt8) : CommitArgs Vendor.sample :=
  { sampleOperation byte with
    currentPolicySignature := "policy"
    staged := ()
    attribution := ⟨.token "alice", .human, none, none, none, "request"⟩
    options := ⟨none⟩ }

def commitValidated (t : ℕ) (byte : UInt8) : List (Action Vendor.sample) :=
  openOperation t (.commitOperation (sampleCommit byte)) ++
    [.advance t (.flag false), .advance t (.write none), .advance t (.flag false), .advance t .go]

def commitRun : List (Action Vendor.sample) :=
  startCoordinator ++ reserveDevice 0 (.sample "edge1" "https://a") 1 ++ stageReservation 0 ++
    validateStaged 1 1 ++ commitValidated 2 1

theorem commitRun_commits : ((sampleRun none commitRun).any fun w =>
    w.trace.head?.any (Entry.sendsCommit (sampleId 1))) = true := by decide

/-- An operation is staged, validated and committed. -/
theorem commitRun_sent_once : ∃ w : World Crates.sample Vendor.sample,
    World.Reached none (fun _ _ => True) w ∧ ∃ entry older, w.trace = entry :: older ∧
      entry.sendsCommit (sampleId 1) = true ∧
      (∀ earlier ∈ older, earlier.sendsCommit (sampleId 1) = false ∧
        earlier.sendsRollback (sampleId 1) = false) ∧
      ∃ earlier ∈ older, earlier.validatesOk (sampleId 1) = true := by
  obtain ⟨w, hreached, hcommits⟩ := sampleRun_reached commitRun_commits
  obtain ⟨entry, hhead, hcommit⟩ := (Option.any_eq_true _ _).mp hcommits
  obtain ⟨older, htrace⟩ := head?_eq_some_iff.mp hhead
  exact ⟨w, hreached, entry, older, htrace, hcommit,
    @commit_sent_once _ _ _ w hreached _ [] older entry htrace hcommit⟩

end Mecmcp.Changeset
