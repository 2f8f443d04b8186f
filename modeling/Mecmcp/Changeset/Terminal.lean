import Mecmcp.Changeset.Commit

/-!
# Terminal — terminal operations tell the truth and stay put

A record becomes `Committed` or `Discarded` by one write of one method, made after the device
reported what the state says, or by an operator's resolution of the file.  No method writes over it:
every edge of the lifecycle starts in a state that is not terminal, and what a method knows of an
operation under its guard is what the store holds.
-/

namespace Mecmcp.Changeset

open List

variable {C : Crates} {V : Vendor} {path : Option String} {id : String} {record : OperationRecord}

/-! ### What a terminal state rests on -/

section
variable {old trace : List (Entry V)}

def Answered.commitSucceeded : Answered V → Bool
  | ⟨.receiveOrCancelled (.commit _ _ _), some (.ok (.reconciled true _ _))⟩ => true
  | _ => false

def Answered.rollbackSucceeded : Answered V → Bool
  | ⟨.receive (.rollback _), .ok outcome⟩ => outcome.succeeded
  | _ => false

/-- Thread `t`, serving a request that names the operation, was told this. -/
def ToldFor (trace : List (Entry V)) (id : String) (t : ℕ) (told : Answered V → Bool) : Prop :=
  ∃ entry ∈ trace, ∃ request answered, entry.source = some (t, request) ∧
    request.operationId = some id ∧ entry.what = .answered answered.call answered.answer ∧
    told answered = true

/-- An operator resolved the operation. -/
def ResolvedAs (trace : List (Entry V)) (id : String) (disposition : RecoveryDisposition) : Prop :=
  ∃ entry ∈ trace, entry.what = .resolved id disposition

/-- A terminal record is what the run says. -/
structure Truthful (trace : List (Entry V)) (id : String) (record : OperationRecord) : Prop where
  committed : record.state = .committed →
    (∃ t, ToldFor trace id t Answered.commitSucceeded) ∨ ResolvedAs trace id .committed
  discarded : record.state = .discarded →
    (∃ t, ToldFor trace id t Answered.rollbackSucceeded ∧ ToldFor trace id t Answered.releases) ∨
      ResolvedAs trace id .discarded
  unlocked : record.state.terminal = true → record.configLockHeld = false

theorem ToldFor.append {t : ℕ} {told : Answered V → Bool}
    (h : ToldFor old id t told) (new : List (Entry V)) : ToldFor (new ++ old) id t told := by
  obtain ⟨entry, he, hrest⟩ := h
  exact ⟨entry, mem_append_right _ he, hrest⟩

theorem ResolvedAs.append {disposition : RecoveryDisposition}
    (h : ResolvedAs old id disposition) (new : List (Entry V)) :
    ResolvedAs (new ++ old) id disposition := by
  obtain ⟨entry, he, hwhat⟩ := h
  exact ⟨entry, mem_append_right _ he, hwhat⟩

theorem Truthful.append
    (h : Truthful old id record) (new : List (Entry V)) : Truthful (new ++ old) id record where
  committed hstate := (h.committed hstate).imp
    (fun ⟨t, htold⟩ => ⟨t, htold.append new⟩) fun hr => hr.append new
  discarded hstate := (h.discarded hstate).imp
    (fun ⟨t, hrolled, hreleased⟩ => ⟨t, hrolled.append new, hreleased.append new⟩)
    fun hr => hr.append new
  unlocked := h.unlocked

theorem truthful_of_open (hopen : record.state.terminal = false) : Truthful trace id record where
  committed hstate := by
    rw [hstate] at hopen
    cases hopen
  discarded hstate := by
    rw [hstate] at hopen
    cases hopen
  unlocked hterminal := by
    rw [hopen] at hterminal
    cases hterminal

theorem Truthful.of_eq {next : OperationRecord}
    (h : Truthful trace id record) (hstate : next.state = record.state)
    (hlock : next.configLockHeld = record.configLockHeld) : Truthful trace id next :=
  ⟨hstate ▸ h.committed, hstate ▸ h.discarded, hlock ▸ hstate ▸ h.unlocked⟩

theorem Truthful.recovered
    (h : Truthful trace id record) (stagedRecovery : StagedRecovery) (f : UInt64 → UInt64) :
    Truthful trace id (recoverOperation stagedRecovery (record.mapFloat f)) := by
  obtain ⟨state, details, heq, rfl | ⟨rfl, -⟩⟩ :=
    recoverOperation_eq stagedRecovery (record.mapFloat f)
  · rw [heq]
    exact h.of_eq rfl rfl
  · rw [heq]
    exact truthful_of_open rfl

end

namespace World

section
variable {w w' mid : World C V} {a : Action V} {ok : World C V → Action V → Prop} {self : Config}
  {t : ℕ} {request : Request V} {c : Call V} {next : c.Answer → Method V Unit} {answer : c.Answer}
  {events : List Event}
variable {state : ChangesetState} {final : LifecycleState}

theorem toldFor_of_mem (hat : Attributed w) (hthread : w.threads t = some ⟨request, .call c next⟩)
    (hnamed : request.operationId = some id) {answered : Answered V} {told : Answered V → Bool}
    (hmem : answered ∈ historyOf w.trace t) (htold : told answered = true) :
    ToldFor w.trace id t told := by
  obtain ⟨entry, he, hsource, hwhat⟩ := mem_historyOf.mp hmem
  obtain ⟨⟨t', request'⟩, hentry, rfl⟩ := Option.map_eq_some_iff.mp hsource
  obtain rfl : request = request' := hat entry he t' request' hentry _ hthread
  exact ⟨entry, he, request, answered, hentry, hnamed, hwhat, htold⟩

theorem truthful_update (hc : Called path ok w self t request c next answer mid events)
    {before after : OperationRecord}
    (hwrite : OperationWrite request (historyOf w.trace t) before after) :
    Truthful w.trace after.id after := by
  have hat := reached_attributed hc.reached
  refine ⟨fun hstate => ?_, fun hstate => ?_, fun hterminal => ?_⟩
  · obtain ⟨-, args, jobId, details, rfl, hmem⟩ := hwrite.committed hstate
    have hnamed : (Request.commitOperation args).operationId = some after.id := by
      rw [hwrite.id]
      obtain hnamed | ⟨hstaging, -⟩ := hwrite.named
      · exact hnamed
      · have hedge := hwrite.edge
        rw [hstaging, hstate] at hedge
        cases hedge
    exact .inl ⟨t, toldFor_of_mem hat hc.thread hnamed hmem rfl⟩
  · obtain ⟨-, args, details, rfl, hrolled, hreleased⟩ := hwrite.discarded hstate
    have hnamed : (Request.discardOperation args : Request V).operationId = some after.id := by
      rw [hwrite.id]
      obtain hnamed | ⟨hstaging, -⟩ := hwrite.named
      · exact hnamed
      · have hedge := hwrite.edge
        rw [hstaging, hstate] at hedge
        cases hedge
    exact .inl ⟨t, toldFor_of_mem hat hc.thread hnamed hrolled rfl,
      toldFor_of_mem hat hc.thread hnamed hreleased rfl⟩
  · cases hstate : after.state with
    | committed => exact (hwrite.committed hstate).1
    | discarded => exact (hwrite.discarded hstate).1
    | staging | staged | validating | validated | committing | failed | indeterminate =>
      rw [hstate] at hterminal
      cases hterminal

theorem truthful_call (hc : Called path ok w self t request c next answer mid events)
    (hheld : ∀ state, w.Holds state → ∀ (id : String) record, state.operations[id]? = some record →
      Truthful w.trace id record)
    (hnew : (w.answered mid t request c next answer events).Holds state)
    (hrecord : state.operations[id]? = some record) :
    Truthful w.trace id record := by
  obtain hleft | ⟨-, him⟩ := answered_holds hnew
  · have hmoved := hc.moved hleft id
    rw [hrecord] at hmoved
    generalize hbefore : w.store.mem.operations[id]? = before at hmoved
    cases hmoved with
    | same => exact hheld _ (.inl rfl) id record hbefore
    | updated before _ _ hid _ hwrite => exact hid ▸ truthful_update hc hwrite
    | inserted _ hcall hid hreserves =>
      exact truthful_of_open (by cases hreserves <;> rfl)
  · exact hheld state (.inr him) id record hrecord

theorem truthful_outside (hs : StepCase path w a w') (hno : ∀ t choice, a ≠ .advance t choice)
    (hheld : ∀ state, w.Holds state → ∀ (id : String) record, state.operations[id]? = some record →
      Truthful w.trace id record) (hnew : w'.Holds state) (hrecord :
    state.operations[id]? = some record) :
    Truthful w'.trace id record := by
  obtain ⟨new, htrace, -⟩ := hs.outside hno
  have hkeep : Truthful w.trace id record → Truthful w'.trace id record := fun ht => by
    rw [htrace]
    exact ht.append new
  obtain hold | hn := hs.holds hnew
  · exact hkeep (hheld state hold id record hrecord)
  cases hn with
  | stopped => simp [ChangesetState.empty] at hrecord
  | executed t choice => exact absurd rfl (hno t choice)
  | recovered args env hself hloads =>
    obtain ⟨held, original, him, ho, rfl⟩ := recovered_operation hrecord
    exact hkeep ((hheld held (.inr him) id original ho).recovered _ _)
  | resolved operationId disposition confirmation limits env found hfound hopen hloads =>
    cases hs with
    | resolveRefused => exact hheld _ hnew id record hrecord
    | resolved =>
      rw [getElem?_putOperation] at hrecord
      split at hrecord
      · next hid =>
        cases hrecord
        subst hid
        cases disposition with
        | committed =>
          refine ⟨fun _ => .inr ⟨_, mem_cons_self .., rfl⟩, fun h => ?_, fun _ => rfl⟩
          cases h
        | discarded =>
          refine ⟨fun h => ?_, fun _ => .inr ⟨_, mem_cons_self .., rfl⟩, fun _ => rfl⟩
          cases h
      · obtain ⟨held, original, him, ho, rfl⟩ := readBack_operation hrecord
        exact hkeep ((hheld held (.inr him) id original ho).of_eq rfl rfl)

theorem reached_truthful (hr : Reached path ok w) (hheld : w.Holds state)
    (hrecord : state.operations[id]? = some record) :
    Truthful w.trace id record := by
  refine reached_calls (P := fun w => ∀ state, w.Holds state → ∀ (id : String) record,
    state.operations[id]? = some record → Truthful w.trace id record) ?_ ?_ ?_ hr state hheld id
    record hrecord
  · rintro state (rfl | him) id record hrecord
    · simp [World.initial, ChangesetState.empty] at hrecord
    · cases him
  · intro w self t choice request c next answer mid events hc hheld _ _ state hnew id record hrecord
    exact (truthful_call hc hheld hnew hrecord).append
      (⟨some (t, request), w.clock, .answered c answer⟩ ::
        w.storeEntries (some (t, request)) events)
  · intro w a w' _ hheld _ hs hno state hnew id record hrecord
    exact truthful_outside hs hno hheld hnew hrecord

/-! ### Permanence -/

def HeldIn (w : World C V) (id : String) (final : LifecycleState) : Prop :=
  ∀ state, w.Holds state → ∀ record, state.operations[id]? = some record → record.state = final

theorem OperationMoved.terminal {h : History V} {next : OperationRecord}
    (hm : OperationMoved C request h c id (some record) (some next))
    (hterminal : record.state.terminal = true) : next.state = record.state := by
  cases hm with
  | same => rfl
  | updated _ _ _ _ _ hwrite => exact hwrite.continues.terminal hterminal

/-- A terminal state in memory is the one in the file. -/
def Settled (w : World C V) : Prop :=
  ∀ (id : String) record, w.store.mem.operations[id]? = some record →
    record.state.terminal = true → HeldIn w id record.state

theorem settled_call (hsettled : Settled w)
    (hc : Called path ok w self t request c next answer mid events) :
    Settled (w.answered mid t request c next answer events) := by
  intro id record hrecord' hterminal state hheld other hother
  have hrecord : mid.store.mem.operations[id]? = some record := hrecord'
  have hmoved := hc.moved (.inl rfl) id
  rw [hrecord] at hmoved
  generalize hbefore : w.store.mem.operations[id]? = before at hmoved
  cases hmoved with
  | same =>
    have hold := hsettled id record hbefore hterminal
    obtain hleft | ⟨-, him⟩ := answered_holds hheld
    · have hmoved := hc.moved hleft id
      rw [hbefore, hother] at hmoved
      exact hmoved.terminal hterminal
    · exact hold state (.inr him) other hother
  | inserted _ hcall hid hreserves => cases hreserves <;> cases hterminal
  | updated before _ hcall hid hguarded hwrite =>
    subst hcall
    have hok : Except.isOk answer = true := by
      by_contra hfailed
      rw [executed_update_failed hc.executed hfailed, hbefore] at hrecord
      cases hrecord
      rw [lifecycleEdge_source hwrite.edge] at hterminal
      cases hterminal
    have hput := held_of_updated hc hok hheld
    rw [hid, hother] at hput
    rw [Option.some.inj hput]

theorem settled_outside (hg : Grounded path w) (hsettled : Settled w) (hs : StepCase path w a w')
    (hno : ∀ t choice, a ≠ .advance t choice) : Settled w' := by
  -- what a load puts into memory and writes keeps the terminal states of the file
  have hloaded : ∀ args (id : String) record, (w.recovered args).operations[id]? = some record →
      record.state.terminal = true → ∀ state, state = w.recovered args ∨ w.image = some state →
      ∀ other, state.operations[id]? = some other → other.state = record.state := by
    intro args id record hrecord hterminal state hstate other hother
    obtain ⟨held, original, him, ho, rfl⟩ := recovered_operation hrecord
    obtain rfl | him' := hstate
    · rw [hrecord] at hother
      rw [← Option.some.inj hother]
    · obtain rfl := Option.some.inj (him.symm.trans him')
      obtain rfl := Option.some.inj (ho.symm.trans hother)
      obtain ⟨state, details, heq, rfl | ⟨rfl, -⟩⟩ :=
        recoverOperation_eq args.stagedRecovery (original.mapFloat C.reparse)
      · rw [heq]
        rfl
      · rw [heq] at hterminal
        cases hterminal
  have hempty : ∀ (id : String) record, w.self = none →
      w.store.mem.operations[id]? ≠ some record := by
    intro id record hself hrecord
    rw [(hg.stopped hself).1] at hrecord
    simp [ChangesetState.empty] at hrecord
  intro id record hrecord hterminal state hheld other hother
  cases hs with
  | advance t choice => exact absurd rfl (hno t choice)
  | tick | spawn | finish | loadRefused | resolveRefused =>
    exact hsettled id record hrecord hterminal state hheld other hother
  | crash => simp [ChangesetState.empty] at hrecord
  | loadLanded _ _ hself | resolved _ _ _ _ _ hself => exact absurd hrecord (hempty id record hself)
  | loaded args => exact hloaded args id record hrecord hterminal state hheld other hother
  | loadRecovered args =>
    refine hloaded args id record hrecord hterminal state (.inl ?_) other hother
    obtain rfl | him := hheld
    · rfl
    · exact (Option.some.inj him).symm

theorem reached_settled (hr : Reached path ok w) : Settled w := by
  refine reached_calls ?_ (fun _ _ _ _ _ _ _ _ _ _ hc hsettled _ _ => settled_call hsettled hc)
    (fun w a w' hreached hsettled _ hs hno =>
      settled_outside (reached_grounded hreached) hsettled hs hno) hr
  intro id record hrecord
  simp [World.initial, ChangesetState.empty] at hrecord

theorem heldIn_step (hterminal : final.terminal = true)
    (hr : Reached path ok w) (hintroduced : Introduced w.trace id) (hfinal : HeldIn w id final)
    (hs : StepCase path w a w') : HeldIn w' id final := by
  intro state hheld record hrecord
  obtain hold | hn := hs.holds hheld
  · exact hfinal state hold record hrecord
  cases hn.operations hr with
  | kept held hheld h =>
    obtain ⟨original, ho, hcontinues⟩ := h id record hrecord
    have hsame := hfinal held hheld original ho
    rw [hcontinues.terminal (hsame ▸ hterminal), hsame]
  | inserted reserved request known hreserves hnew h =>
    obtain ⟨rfl, rfl⟩ | ⟨hold, -⟩ := h id record hrecord
    · exact absurd hintroduced hnew
    · exact hfinal _ (.inl rfl) record hold

theorem introduced_step (hs : StepCase path w a w') (hi : Introduced w.trace id) :
    Introduced w'.trace id := by
  obtain ⟨t, choice, rfl⟩ | hno := a.advance_or_not
  · cases hs with
    | advance => exact introduced_answered hi
  · obtain ⟨new, htrace, -⟩ := hs.outside hno
    rw [htrace]
    exact hi.append new

theorem heldIn_run (hterminal : final.terminal = true)
    (hr : Reached path (fun _ _ => True) w) (hintroduced : Introduced w.trace id)
    (hfinal : HeldIn w id final) (hrun : Reachable (World.step path) w (fun _ _ => True) w') :
    Reached path (fun _ _ => True) w' ∧ Introduced w'.trace id ∧ HeldIn w' id final := by
  induction hrun with
  | start => exact ⟨hr, hintroduced, hfinal⟩
  | next _ _ hstep ih =>
    obtain ⟨hr, hintroduced, hfinal⟩ := ih
    have hs := step_case (reached_grounded hr) hstep
    exact ⟨.next hr trivial hstep, introduced_step hs hintroduced,
      heldIn_step hterminal hr hintroduced hfinal hs⟩

theorem heldIn_of_stored (hr : Reached path ok w) (hstored : w.Stored state)
    (hrecord : state.operations[id]? = some record)
    (hterminal : record.state.terminal = true) : HeldIn w id record.state := by
  unfold Stored at hstored
  cases hself : w.self with
  | some self =>
    rw [hself] at hstored
    obtain rfl : state = w.store.mem := hstored
    exact reached_settled hr id record hrecord hterminal
  | none =>
    rw [hself] at hstored
    have him : w.image = some state := hstored
    rintro held (rfl | him') other hother
    · rw [((reached_grounded hr).stopped hself).1] at hother
      simp [ChangesetState.empty] at hother
    · cases him.symm.trans him'
      rw [Option.some.inj (hother.symm.trans hrecord)]

end

end World

variable {w : World C V}

/-- **Terminal operations tell the truth and stay put.**  In every run, every record held in memory
or in the file that is `Committed` or `Discarded` is so because the device reported it or an operator
resolved it, and has no lock flag; and a record that is terminal in the store is in that state in
every state held from then on, as long as it stays. -/
theorem terminal_operations_stay (h : World.Reached path (fun _ _ => True) w) :
    (∀ state, w.Holds state → ∀ (id : String) record, state.operations[id]? = some record →
      Truthful w.trace id record) ∧
    ∀ state, w.Stored state → ∀ (id : String) record, state.operations[id]? = some record →
      record.state.terminal = true →
      ∀ w', Reachable (World.step path) w (fun _ _ => True) w' →
      ∀ later, w'.Holds later → ∀ record', later.operations[id]? = some record' →
        record'.state = record.state := by
  refine ⟨fun state hheld id record hrecord => World.reached_truthful h hheld hrecord, ?_⟩
  intro state hstored id record hrecord hterminal w' hrun
  have hintroduced := (World.reached_conducted h).fresh.held state hstored.holds id record hrecord
  exact (World.heldIn_run hterminal h hintroduced
    (World.heldIn_of_stored h hstored hrecord hterminal) hrun).2.2

/-! ### An operation that is committed -/

def committedRun : List (Action Vendor.sample) :=
  commitRun ++ [.advance 2 (.device (.commit (.ok (.reconciled true none none)))),
    .advance 2 (.write none), .finish 2]

/-- The operation is committed, and is still there after another device has been reserved. -/
theorem committedRun_committed : ((sampleRun none committedRun).any fun w => w.self.isSome &&
    w.store.mem.operations[sampleId 1]?.any (·.state = .committed) &&
    (runActions (World.step none) w (reserveDevice 3 (.sample "edge2" "https://b") 2)).any fun w' =>
      w'.store.mem.operations[sampleId 1]?.isSome && w'.store.mem.operations[sampleId 2]?.isSome) =
    true := by decide +kernel

/-- A committed operation of a run is truthful, and stays committed. -/
theorem committedRun_stays : ∃ w w' : World Crates.sample Vendor.sample,
    World.Reached none (fun _ _ => True) w ∧
    Reachable (World.step none) w (fun _ _ => True) w' ∧ ∃ record record',
      w.store.mem.operations[sampleId 1]? = some record ∧ record.state = .committed ∧
      Truthful w.trace (sampleId 1) record ∧
      w'.store.mem.operations[sampleId 1]? = some record' ∧ record'.state = .committed := by
  obtain ⟨w, hreached, hruns⟩ := sampleRun_reached committedRun_committed
  simp only [Bool.and_eq_true, Option.any_eq_true, Option.isSome_iff_exists] at hruns
  obtain ⟨⟨⟨self, hself⟩, record, hrecord, hstate⟩, w', hrun, ⟨record', hrecord'⟩, -⟩ := hruns
  have hcommitted : record.state = .committed := of_decide_eq_true hstate
  have hstored : w.Stored w.store.mem := by
    unfold World.Stored
    rw [hself]
  have hrun : Reachable (World.step none) w (fun _ _ => True) w' := Reachable.start.run hrun
  obtain ⟨htruthful, hstays⟩ := terminal_operations_stay hreached
  refine ⟨w, w', hreached, hrun, record, record', hrecord, hcommitted,
    htruthful _ (.inl rfl) _ record hrecord, hrecord', ?_⟩
  rw [hstays _ hstored _ record hrecord (by rw [hcommitted]; rfl) w' hrun _ (.inl rfl) record'
    hrecord', hcommitted]

end Mecmcp.Changeset
