import Mecmcp.Changeset.Evidence
import Mecmcp.Changeset.Staged

/-!
# Expiry — deadlines at the claim

`apply_change_set` compares the deadlines of a change set with the clock, then waits for the device,
and only then claims; the claim itself does not look at the clock.  A claim made directly, or one
that comes after the deadline has passed in the meantime, spends an expired approval
(`expired_approval_claimed`).

Without caller-built records an `Approved` change set does not change while it is `Approved`, and
its id is not used again (`reached_staysRead`), so a claim by an apply whose last clock reading is
still current is in time (`claims_in_time`).
-/

namespace Mecmcp.Changeset

open List

variable {C : Crates} {V : Vendor} {path : Option String}

def notPast (clock reading : Option UInt64) : Bool :=
  match clock, reading with
  | some now, some reading => now ≤ reading
  | _, _ => true

/-- If the step claims a change set, it does so for an apply, and the clock is not past the last
reading of that call. -/
def PromptClaim (w : World C V) (a : Action V) : Prop :=
  match w.answerTo a with
  | some (t, request, ⟨.claimChangeSetForApply _ _ _, _⟩) =>
    (request matches .applyChangeSet _) = true ∧
      notPast w.clock (historyOf w.trace t).lastReading = true
  | _ => True

instance (w : World C V) (a : Action V) : Decidable (PromptClaim w a) := by
  delta PromptClaim
  generalize w.answerTo a = answer
  rcases answer with _ | ⟨t, request, call, answered⟩
  · exact instDecidableTrue
  · cases call <;> exact inferInstance

/-- The step writes no record its caller built, and claims promptly. -/
def PromptStep (w : World C V) (a : Action V) : Prop :=
  RawWrites (fun _ => False) w a ∧ PromptClaim w a

instance (w : World C V) (a : Action V) : Decidable (PromptStep w a) :=
  inferInstanceAs (Decidable (_ ∧ _))

/-- No deadline of the record has come. -/
def ChangeSetRecord.InTime (record : ChangeSetRecord) (now : UInt64) : Prop :=
  now < record.expiresAtUnix ∧
    ∀ waiver expiresAt, record.waiver = some waiver → waiver.expiresAtUnix = some expiresAt →
      now < expiresAt

theorem inTime_of_reading {record : ChangeSetRecord} {now reading : UInt64} (hle : now ≤ reading)
    (hopen : reading < record.expiresAtUnix) (hlapsed : waiverLapsed record reading = false) :
    record.InTime now := by
  refine ⟨UInt64.lt_of_le_of_lt hle hopen, fun waiver expiresAt hwaiver hexpiry => ?_⟩
  unfold waiverLapsed at hlapsed
  rw [hwaiver, Option.bind_some, hexpiry] at hlapsed
  exact UInt64.lt_of_le_of_lt hle (UInt64.not_le.mp (of_decide_eq_false hlapsed))

variable {written : ChangeSetRecord}

theorem ApplyWrite.settles {V : Vendor} {h : History V} (hw : ApplyWrite h written)
    (hclaimed : ∀ claimed, h.Claimed claimed → claimed.state = .applying) :
    isExpirable written.state = false := by
  cases hw with
  | expired => rfl
  | linked claimed _ hc =>
    rw [hclaimed claimed hc]
    rfl
  | settled claimed _ state _ _ hstate =>
    obtain rfl | rfl := hstate <;> rfl

namespace World

section
variable {w w' mid : World C V} {a : Action V} {ok : World C V → Action V → Prop} {self : Config}
  {t : ℕ} {choice : Choice V} {request : Request V} {c : Call V} {next : c.Answer → Method V Unit}
  {answer : c.Answer} {events : List Event}
variable {record : ChangeSetRecord} {id device : String} {handle : ApplyHandle}

/-! ### Ids are used once -/

/-- Every insert is by the call that drew the id. -/
def InsertsDrawn (w : World C V) : Prop :=
  ∀ entry ∈ w.trace, ∀ id, entry.inserts id = true → ∃ t, (historyOf w.trace t).Drawn id ∧
    ∃ answered ∈ historyOf w.trace t, answered.insertsChangeSet = true

theorem Called.created (hc : Called path ok w self t request c next answer mid events)
    (hraw : RawWrites (fun _ => False) w (.advance t choice))
    (hchoice : w.exec self t c choice = some (mid, answer, events))
    (hcall : c = .insertChangeSet record) : (historyOf w.trace t).Drawn record.id ∧
      ∀ answered ∈ historyOf w.trace t, answered.insertsChangeSet = false := by
  have hjustified := hc.justified
  subst hcall
  obtain hrequest | ⟨_, _, _, _, _, _, _, _, _, -, -, hdrawn, hnone, -, -, -, rfl⟩ := hjustified
  · exact (hraw record ((hc.rawWrite hchoice).trans (hrequest ▸ rfl))).elim
  · exact ⟨hdrawn, hnone⟩

theorem historyOf_answered_subset (t' : ℕ) {answered : Answered V}
    (h : answered ∈ historyOf w.trace t') :
    answered ∈ historyOf (w.answered mid t request c next answer events).trace t' := by
  show answered ∈ historyOf (_ :: (w.storeEntries (some (t, request)) events ++ w.trace)) t'
  rw [historyOf_advance]
  split
  · exact mem_cons_of_mem _ h
  · exact h

theorem insertsDrawn_call (hc : Called path ok w self t request c next answer mid events)
    (hraw : RawWrites (fun _ => False) w (.advance t choice))
    (hchoice : w.exec self t c choice = some (mid, answer, events)) (hall : InsertsDrawn w) :
    InsertsDrawn (w.answered mid t request c next answer events) := by
  intro entry he id hi
  have he : entry ∈ w.newEntries t request c answer events ++ w.trace := he
  obtain he | he := mem_append.mp he
  · obtain ⟨added, ok', hmem, hid, -⟩ := newEntries_inserts he hi
    cases executed_event hc.executed hmem with
    | inserted record ok' hcall =>
      obtain ⟨hdrawn, -⟩ := hc.created hraw hchoice hcall
      refine ⟨t, historyOf_answered_subset t (hid ▸ normaliseRecord_id.symm ▸ hdrawn), ⟨c, answer⟩,
        ?_, by subst hcall; rfl⟩
      show _ ∈ historyOf (_ :: (w.storeEntries (some (t, request)) events ++ w.trace)) t
      rw [historyOf_advance, if_pos rfl]
      exact mem_cons_self ..
  · obtain ⟨t', hdrawn, answered, hmem, hinserts⟩ := hall entry he id hi
    exact ⟨t', historyOf_answered_subset t' hdrawn, answered, historyOf_answered_subset t' hmem,
      hinserts⟩

theorem insertsDrawn_outside (hs : StepCase path w a w') (hno : ∀ t choice, a ≠ .advance t choice)
    (hall : InsertsDrawn w) : InsertsDrawn w' := by
  obtain ⟨new, htrace, hnew⟩ := hs.outside hno
  intro entry he id hi
  rw [htrace] at he ⊢
  obtain he | he := mem_append.mp he
  · have hout := hnew entry he
    obtain ⟨source, clock, what⟩ := entry
    cases what with
    | answered | resolved => cases hi
    | store event =>
      cases event with
      | inserted => cases hout
      | wrote | granted | claimed => cases hi
  · obtain ⟨t, h⟩ := hall entry he id hi
    exact ⟨t, by rwa [historyOf_outside hnew]⟩

theorem reached_insertsDrawn (h : Reached path PromptStep w) : InsertsDrawn w := by
  refine reached_calls (fun entry he => absurd he not_mem_nil) ?_ ?_ h
  · exact fun w self t choice request c next answer mid events hc hall hok hchoice =>
      insertsDrawn_call hc hok.1 hchoice hall
  · exact fun w a w' _ hall _ hs hno => insertsDrawn_outside hs hno hall

theorem Called.inserts_new (hc : Called path PromptStep w self t request c next answer mid events)
    (hraw : RawWrites (fun _ => False) w (.advance t choice))
    (hchoice : w.exec self t c choice = some (mid, answer, events))
    (hbefore : ∃ entry ∈ w.trace, entry.inserts id = true)
    (hcall : c = .insertChangeSet record) : record.id ≠ id := by
  rintro rfl
  obtain ⟨entry, he, hi⟩ := hbefore
  obtain ⟨hdrawn, hnone⟩ := hc.created hraw hchoice hcall
  obtain ⟨t', hdrawn', answered, hmem, hinserts⟩ := reached_insertsDrawn hc.reached entry he _ hi
  obtain rfl := (reached_conducted hc.reached).fresh.once t t' _ hdrawn hdrawn'
  rw [hnone answered hmem] at hinserts
  cases hinserts

/-! ### An approved change set stays as it was read -/

/-- The change set in memory is this one, or is no longer `Approved`. -/
def AsRead (w : World C V) (record : ChangeSetRecord) : Prop :=
  (∃ entry ∈ w.trace, entry.inserts record.id = true) ∧
    ∀ current, w.store.mem.changeSets[record.id]? = some current →
      current = record ∨ isExpirable current.state = false

/-- What a running call has read `Approved` is as it was read. -/
def StaysRead (w : World C V) : Prop :=
  ∀ t thread, w.threads t = some thread → ∀ record, (historyOf w.trace t).Read record →
    record.state = .approved → w.AsRead record

theorem Called.settles (hc : Called path ok w self t request c next answer mid events)
    (hraw : RawWrites (fun _ => False) w (.advance t choice))
    (hchoice : w.exec self t c choice = some (mid, answer, events))
    (hcall : c = .updateChangeSet written ∨ c = .updateChangeSetFrom .approved written) :
    isExpirable written.state = false := by
  have hjustified := hc.justified
  have hno : request.rawWrite ≠ some written := fun h =>
    hraw written ((hc.rawWrite hchoice).trans h)
  obtain rfl | rfl := hcall
  · obtain rfl | ⟨-, hwrite⟩ := hjustified
    · exact absurd rfl hno
    · exact hwrite.settles fun _ => reached_claimed hc.reached
  · obtain rfl | ⟨before, -, hobserved, hwrite⟩ := hjustified
    · exact absurd rfl hno
    · cases hwrite with
      | retired state hstate => obtain rfl | rfl := hstate <;> rfl
      | approved _ _ _ _ _ hplanned | waived _ _ hplanned =>
        rw [hplanned] at hobserved
        cases hobserved

theorem asRead_call (hc : Called path PromptStep w self t request c next answer mid events)
    (hraw : RawWrites (fun _ => False) w (.advance t choice))
    (hchoice : w.exec self t c choice = some (mid, answer, events))
    (happroved : record.state = .approved) (has : w.AsRead record) :
    (w.answered mid t request c next answer events).AsRead record := by
  obtain ⟨⟨entry, he, hi⟩, hmem⟩ := has
  refine ⟨⟨entry, mem_cons_of_mem _ (mem_append_right _ he), hi⟩, ?_⟩
  intro current hcurrent
  have hcurrent : mid.store.mem.changeSets[record.id]? = some current := hcurrent
  have hmoved : MovedFrom C c events w.store.mem record.id current := by
    cases (exec_moves hc.keyed hc.executed (.inl rfl)).changeSets with
    | kept h => exact h _ current hcurrent
    | inserted added _ hcall _ _ _ _ h =>
      obtain ⟨hid, -⟩ | hm := h _ current hcurrent
      · exact absurd hid.symm (hc.inserts_new hraw hchoice ⟨entry, he, hi⟩ hcall)
      · exact hm
  obtain ⟨original, ho, hmove⟩ := hmoved
  obtain rfl | hsettled := hmem original ho
  · cases hmove with
    | same => exact .inl rfl
    | swept | claimed => exact .inr rfl
    | updated written hcall hid hchecked hgranted =>
      rw [happroved] at hcall
      refine .inr ?_
      rw [normaliseRecord_state]
      exact hc.settles hraw hchoice hcall
  · right
    by_contra hexpirable
    rw [(recordMove_evolves hmove).expirable (Bool.not_eq_false _ ▸ hexpirable)] at hsettled
    cases hsettled

theorem staysRead_call (hc : Called path PromptStep w self t request c next answer mid events)
    (hraw : RawWrites (fun _ => False) w (.advance t choice))
    (hchoice : w.exec self t c choice = some (mid, answer, events)) (hall : StaysRead w) :
    StaysRead (w.answered mid t request c next answer events) := by
  rintro t' thread hthread record ⟨id, device, hread⟩ happroved
  have hthread : w.threads.set t _ t' = some thread := hthread
  have hread := (historyOf_advance w t t' request c answer events) ▸ hread
  by_cases ht : t = t'
  · subst ht
    rw [if_pos rfl] at hread
    obtain heq | hread := mem_cons.mp hread
    · -- the call is the read itself
      cases heq
      obtain ⟨hrecord, rfl⟩ := executed_read hc.executed rfl
      have hid := hc.keyed.changeSets id record hrecord
      obtain ⟨between, entry, older, htrace, hi, -⟩ :=
        split_of_since (reached_sourced hc.reached (.inl rfl) hrecord).created
      refine asRead_call hc hraw hchoice happroved ⟨⟨entry, by simp [htrace], ?_⟩, ?_⟩
      · unfold Entry.insertsAs at hi
        unfold Entry.inserts
        split at hi
        · next hwhat => simp_all
        · cases hi
      · intro current hcurrent
        rw [hid, hrecord] at hcurrent
        exact .inl (Option.some.inj hcurrent).symm
    · exact asRead_call hc hraw hchoice happroved
        (hall t _ hc.thread record ⟨id, device, hread⟩ happroved)
  · rw [if_neg ht] at hread
    rw [Pool.set_of_ne _ _ (Ne.symm ht)] at hthread
    exact asRead_call hc hraw hchoice happroved
      (hall t' thread hthread record ⟨id, device, hread⟩ happroved)

theorem staysRead_outside (hg : Grounded path w) (hs : StepCase path w a w')
    (hno : ∀ t choice, a ≠ .advance t choice) (hall : StaysRead w) : StaysRead w' := by
  intro t thread hthread record hread happroved
  obtain hthread | hnil := hs.thread_outside hg hno hthread
  · have hrunning : w.self ≠ none := by
      intro hself
      rw [(hg.stopped hself).2.1] at hthread
      cases hthread
    obtain ⟨new, htrace, hnew⟩ := hs.outside hno
    rw [htrace, historyOf_outside hnew] at hread
    obtain ⟨⟨entry, he, hi⟩, hmem⟩ := hall t thread hthread record hread happroved
    refine ⟨⟨entry, htrace ▸ mem_append_right _ he, hi⟩, ?_⟩
    cases hs with
    | advance t choice => exact absurd rfl (hno t choice)
    | tick | spawn | finish => exact hmem
    | crash => intro current h; simp [ChangesetState.empty] at h
    | loadRefused _ _ hself | loadLanded _ _ hself | loaded _ _ hself | loadRecovered _ _ hself
    | resolveRefused _ _ _ _ _ hself | resolved _ _ _ _ _ hself => exact absurd hself hrunning
  · obtain ⟨id, device, h⟩ := hread
    rw [hnil] at h
    cases h

theorem reached_staysRead (h : Reached path PromptStep w) : StaysRead w := by
  refine reached_calls ?_ ?_ ?_ h
  · intro t thread hthread
    cases hthread
  · exact fun w self t choice request c next answer mid events hc hall hok hchoice =>
      staysRead_call hc hok.1 hchoice hall
  · exact fun w a w' hreached hall _ hs hno =>
      staysRead_outside (reached_grounded hreached) hs hno hall

/-! ### Claims -/

theorem promptClaim_answer {answer : Except CoordinatorError ChangeSetRecord} (h : PromptClaim w a)
    (hanswer : w.answerTo a = some (t, request, ⟨.claimChangeSetForApply id device handle, answer⟩)) :
    (∃ args, request = .applyChangeSet args) ∧
      notPast w.clock (historyOf w.trace t).lastReading = true := by
  unfold PromptClaim at h
  rw [hanswer] at h
  obtain ⟨hrequest, hreading⟩ := h
  refine ⟨?_, hreading⟩
  cases request with
  | applyChangeSet args => exact ⟨args, rfl⟩
  | _ => cases hrequest

theorem Called.claims_inTime (hc : Called path PromptStep w self t request c next answer mid events)
    (hok : PromptStep w (.advance t choice))
    (hchoice : w.exec self t c choice = some (mid, answer, events))
    (hcall : c = .claimChangeSetForApply id device handle)
    {previous : ChangeSetRecord} (hprevious : w.store.mem.changeSets[id]? = some previous)
    (happroved : previous.state = .approved) {now : UInt64} (hnow : w.clock = some now) :
    previous.InTime now := by
  subst hcall
  have hanswer : w.answerTo (.advance t choice) =
      some (t, request, ⟨.claimChangeSetForApply id device handle, answer⟩) := by
    simp [World.answerTo, hc.self_eq, hc.thread, hchoice]
  obtain ⟨⟨args, hrequest⟩, hreading⟩ := promptClaim_answer hok.2 hanswer
  obtain hdirect | ⟨args', record, -, hchecked, rfl, -⟩ := hc.justified
  · rw [hdirect] at hrequest
    cases hrequest
  · have has := reached_staysRead hc.reached t _ hc.thread record hchecked.read hchecked.approved
    obtain rfl | hsettled := has.2 previous hprevious
    · obtain ⟨reading, hlast, hopen, hlapsed⟩ := hchecked.reading
      rw [hnow, hlast] at hreading
      exact inTime_of_reading (of_decide_eq_true hreading) hopen hlapsed
    · rw [happroved] at hsettled
      cases hsettled

end

end World

variable {w : World C V}

/-- **An expired approval is not spent** in runs without caller-built records whose claims are made
by applies, with the clock not past the last reading of the call. -/
theorem claims_in_time (h : World.Reached path PromptStep w) {entry : Entry V}
    (he : entry ∈ w.trace) {record : ChangeSetRecord} {ok : Bool}
    (hclaimed : entry.what = .store (.claimed record ok)) {now : UInt64}
    (hnow : entry.clock = some now) : record.InTime now := by
  refine World.reached_calls (P := fun w => ∀ entry ∈ w.trace, ∀ record ok,
    entry.what = .store (.claimed record ok) → ∀ now, entry.clock = some now → record.InTime now)
    (fun entry he => absurd he not_mem_nil) ?_ ?_ h entry he record ok hclaimed now hnow
  · intro w self t choice request c next answer mid events hc hall hok hchoice entry he record ok
      hclaimed now hnow
    have he : entry ∈ w.newEntries t request c answer events ++ w.trace := he
    obtain he | he := mem_append.mp he
    · obtain rfl | he := mem_cons.mp he
      · cases hclaimed
      obtain ⟨event, hevent, rfl⟩ := mem_map.mp he
      obtain rfl : event = .claimed record ok := Happening.store.inj hclaimed
      cases executed_event hc.executed hevent with
      | claimed id device previous handle ok hcall hprevious happroved =>
        exact hc.claims_inTime hok hchoice hcall hprevious happroved hnow
    · exact hall entry he record ok hclaimed now hnow
  · intro w a w' _ hall _ hs hno entry he record ok hclaimed now hnow
    obtain ⟨new, htrace, hnew⟩ := hs.outside hno
    rw [htrace] at he
    obtain he | he := mem_append.mp he
    · have hout := hnew entry he
      unfold Entry.Outside at hout
      rw [hclaimed] at hout
      exact hout.elim
    · exact hall entry he record ok hclaimed now hnow

/-! ### A claim in time, and one that is late -/

/-- A plan as `create_change_set` makes it. -/
def createdPlan : ChangeSetRecord :=
  plannedRecord Crates.sample (LoadArgs.sample.config none) 100 (sampleId 9) "alice" "edge1"
    sampleFingerprint "policy" [⟨.str "set", Json.uniqueKeys_str _⟩]

/-- `alice` creates the plan, and `bob` approves it. -/
def createAndApprove : List (Action Vendor.sample) :=
  startCoordinator ++
    [.spawn (.createChangeSet "edge1" ["set"] "alice" sampleFingerprint "policy"), .advance 0 .go,
      .advance 0 (.random (.ok (List.replicate 32 9))), .advance 0 (.writes none none), .finish 0,
      .spawn (.approveChangeSet createdPlan.id "edge1" "bob" createdPlan.digest .human),
      .advance 1 .go, .advance 1 .go, .advance 1 (.write none), .finish 1]

/-- An apply of the plan reads it, reserves the device and claims it. -/
def applyCreated : List (Action Vendor.sample) :=
  .spawn (.applyChangeSet { ApplyArgs.sample with
      changeSetId := createdPlan.id, expectedDigest := createdPlan.digest }) ::
    .advance 2 .go :: .advance 2 .go :: .advance 2 .go :: .advance 2 .go ::
    .advance 2 (.flag false) :: .advance 2 .go :: .advance 2 .go :: (answerFingerprint 2 ++
      [.advance 2 (.random (.ok (List.replicate 32 1))), .advance 2 (.write none),
        .advance 2 (.write none)])

theorem applyCreated_claims :
    ((checkedRun none PromptStep (createAndApprove ++ applyCreated)).any fun w =>
      (endsWithClaim w).isSome && w.trace.all fun entry => entry.clock == some 100) = true := by
  decide +kernel

/-- An apply claims its plan in time. -/
theorem applyCreated_in_time : ∃ (w : World Crates.sample Vendor.sample)
    (record : ChangeSetRecord), World.Reached none PromptStep w ∧ endsWithClaim w = some record ∧
      record.InTime 100 := by
  obtain ⟨w, hreached, hcheck⟩ := checkedRun_reached applyCreated_claims
  obtain ⟨hends, hclock⟩ := Bool.and_eq_true_iff.mp hcheck
  obtain ⟨record, hrecord⟩ := Option.isSome_iff_exists.mp hends
  obtain ⟨last, entry, older, htrace, hwhat⟩ := endsWithClaim_spec hrecord
  have he : entry ∈ w.trace := by simp [htrace]
  exact ⟨w, record, hreached, hrecord, claims_in_time hreached he hwhat
    (beq_iff_eq.mp (all_eq_true.mp hclock entry he))⟩

/-- The window of the plan closes before it is claimed. -/
def lateClaim : List (Action Vendor.sample) :=
  createAndApprove ++ [.tick (some 5000),
    .spawn (.claimChangeSetForApply createdPlan.id "edge1" .expected), .advance 2 (.write none)]

theorem lateClaim_claims :
    ((checkedRun none (RawWrites fun _ => False) lateClaim).any fun w =>
      (endsWithClaim w).any fun record => decide (record.expiresAtUnix ≤ 5000) &&
        w.trace[1]?.any fun entry => entry.clock == some 5000) = true := by
  decide +kernel

/-- With no caller-built record, a plan is claimed at a time past its approval window. -/
theorem expired_approval_claimed : ∃ w : World Crates.sample Vendor.sample,
    World.Reached none (RawWrites fun _ => False) w ∧ ∃ entry ∈ w.trace, ∃ record now,
      entry.what = .store (.claimed record true) ∧ entry.clock = some now ∧
      ¬ record.InTime now := by
  obtain ⟨w, hreached, hclaims⟩ := checkedRun_reached lateClaim_claims
  obtain ⟨record, hrecord, hlate⟩ := (Option.any_eq_true _ _).mp hclaims
  obtain ⟨hexpired, hclock⟩ := Bool.and_eq_true_iff.mp hlate
  obtain ⟨last, entry, older, htrace, hwhat⟩ := endsWithClaim_spec hrecord
  rw [htrace] at hclock
  refine ⟨w, hreached, entry, by simp [htrace], record, 5000, hwhat, beq_iff_eq.mp hclock, ?_⟩
  exact fun hin => UInt64.not_le.mpr hin.1 (of_decide_eq_true hexpired)

end Mecmcp.Changeset
