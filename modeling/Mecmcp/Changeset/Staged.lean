import Mecmcp.Changeset.Locks
import Mecmcp.Changeset.Provenance

/-!
# Staged — what is staged is what was approved

The plan digest of a change set is frozen, but nothing compares it with the plan again before a
reload: a raw update replaces the actions of an approved change set under its old digest, and they
are staged (`stages_other_actions`).  In runs whose caller-built records have the digest of their
own plan, every record held, read or claimed has (`reached_digestBound`), and the actions that
`apply_change_set` stages are those of a plan with the digest the change set was approved under
(`stages_approved_plan`).
-/

namespace Mecmcp.Changeset

open List

variable {C : Crates} {V : Vendor} {path : Option String} {self : Config} {t : ℕ}
  {request : Request V} {args : ApplyArgs} {actions : List String}

/-! ### The plan of a change set -/

def ChangeSetRecord.DigestBound (C : Crates) (record : ChangeSetRecord) : Prop :=
  changeSetDigestWithTargets C record.owner record.device record.expectedCandidateFingerprint
    record.actions record.targets = record.digest

instance (C : Crates) : DecidablePred (ChangeSetRecord.DigestBound C) := fun _ =>
  inferInstanceAs (Decidable (_ = _))

structure SamePlan (record next : ChangeSetRecord) : Prop where
  owner : next.owner = record.owner
  device : next.device = record.device
  fingerprint : next.expectedCandidateFingerprint = record.expectedCandidateFingerprint
  actions : next.actions = record.actions
  targets : next.targets = record.targets
  digest : next.digest = record.digest

section
variable {h : History V} {record next : ChangeSetRecord}

theorem SamePlan.digestBound (hs : SamePlan record next) (hb : record.DigestBound C) :
    next.DigestBound C := by
  unfold ChangeSetRecord.DigestBound at hb ⊢
  rw [hs.owner, hs.device, hs.fingerprint, hs.actions, hs.targets, hs.digest, hb]

theorem samePlan_normalise (record : ChangeSetRecord) :
    SamePlan record (normaliseRecord record) := by
  obtain ⟨taskId, marker, heq⟩ := normaliseRecord_eq record
  rw [heq]
  exact ⟨rfl, rfl, rfl, rfl, rfl, rfl⟩

theorem samePlan_recover (record : ChangeSetRecord) :
    SamePlan record (recoverChangeSet record) := by
  obtain ⟨state, taskId, heq, -⟩ := recoverChangeSet_eq record
  rw [heq]
  exact ⟨rfl, rfl, rfl, rfl, rfl, rfl⟩

theorem LifecycleWrite.samePlan (hw : LifecycleWrite C self request h record next) :
    SamePlan record next := by
  cases hw <;> exact ⟨rfl, rfl, rfl, rfl, rfl, rfl⟩

theorem ApplyWrite.samePlan (hw : ApplyWrite h next) :
    ∃ source, (h.Read source ∨ h.Claimed source) ∧ SamePlan source next := by
  cases hw with
  | expired record hread => exact ⟨record, .inl hread, rfl, rfl, rfl, rfl, rfl, rfl⟩
  | linked claimed _ hclaimed | settled claimed _ _ hclaimed =>
    exact ⟨claimed, .inr hclaimed, rfl, rfl, rfl, rfl, rfl, rfl⟩

theorem digestBound_planned {now : UInt64}
    {id owner device expectedFingerprint policySignature : String} {actions : List Value} :
    (plannedRecord C self now id owner device expectedFingerprint policySignature
      actions).DigestBound C := rfl

theorem digestBound_of_valid {version : ℕ} {key : Option (List UInt8)} {id : String}
    (hv : validateChangeSetEntry C version key id record = .ok ()) : record.DigestBound C := by
  simp only [validateChangeSetEntry, bind_unit_ok, refuseIf_ok, not_not] at hv
  exact hv.2.2.2.2.2.2.1

end

/-! ### Along a run -/

namespace World

section
variable {w w' mid : World C V} {a : Action V} {choice : Choice V} {c : Call V}
  {next : c.Answer → Method V Unit} {answer : c.Answer} {events : List Event}
variable {id device : String} {record : ChangeSetRecord} {ok : World C V → Action V → Prop}

theorem executed_read {answer : Except CoordinatorError ChangeSetRecord}
    (hexec : Executed w self t (.changeSet id device) answer mid events)
    (hok : answer = .ok record) : w.store.mem.changeSets[id]? = some record ∧ events = [] := by
  cases hexec with
  | quiet _ hquiet => cases hquiet
  | changeSet => exact ⟨(readChangeSet_ok hok).1, rfl⟩

theorem executed_claimed {handle : ApplyHandle} {answer : Except CoordinatorError ChangeSetRecord}
    (hexec : Executed w self t (.claimChangeSetForApply id device handle) answer mid events)
    (hok : answer = .ok record) :
    ∃ previous, w.store.mem.changeSets[id]? = some previous ∧ record = previous.claimedAs handle := by
  cases hexec with
  | quiet _ hquiet => cases hquiet
  | claimChangeSetForApply _ _ _ fault =>
    obtain ⟨error, heq⟩ | ⟨previous, effect, hprevious, -, -, -, heq⟩ :=
      @claimChangeSetForApply_outcome C self w.store fault id device handle
    · rw [heq] at hok
      cases hok
    · rw [heq] at hok
      refine ⟨previous, hprevious, ?_⟩
      cases hresult : effect.result with
      | error error => simp [hresult, Except.map] at hok
      | ok _ =>
        simp only [hresult, Except.map, Except.ok.injEq] at hok
        exact hok.symm

/-- Every record held, read or claimed has the digest of its plan. -/
structure DigestsBound (w : World C V) : Prop where
  held : ∀ state, w.Holds state → ∀ (id : String) record, state.changeSets[id]? = some record →
    record.DigestBound C
  known : ∀ t record, (historyOf w.trace t).Read record ∨ (historyOf w.trace t).Claimed record →
    record.DigestBound C

theorem Called.digestBound_insert {added : ChangeSetRecord}
    (hc : Called path (RawWrites (ChangeSetRecord.DigestBound C)) w self t request c next answer mid
      events) (hok : RawWrites (ChangeSetRecord.DigestBound C) w (.advance t choice))
    (hchoice : w.exec self t c choice = some (mid, answer, events))
    (hcall : c = .insertChangeSet added) : added.DigestBound C := by
  have hjustified := hc.justified
  subst hcall
  obtain hraw | ⟨_, _, _, _, _, _, _, _, _, _, _, _, _, _, _, _, rfl⟩ := hjustified
  · exact hok added ((hc.rawWrite hchoice).trans (hraw ▸ rfl))
  · exact digestBound_planned

theorem Called.digestBound_update {written : ChangeSetRecord}
    (hc : Called path (RawWrites (ChangeSetRecord.DigestBound C)) w self t request c next answer mid
      events) (hok : RawWrites (ChangeSetRecord.DigestBound C) w (.advance t choice))
    (hchoice : w.exec self t c choice = some (mid, answer, events)) (hb : DigestsBound w)
    (hcall : c = .updateChangeSet written ∨ c = .updateChangeSetFrom record.state written) :
    written.DigestBound C := by
  have hjustified := hc.justified
  have hraw : request.rawWrite = some written → written.DigestBound C := fun hraw =>
    hok written ((hc.rawWrite hchoice).trans hraw)
  obtain rfl | rfl := hcall
  · obtain rfl | ⟨-, hwrite⟩ := hjustified
    · exact hraw rfl
    · obtain ⟨source, hknown, hsame⟩ := hwrite.samePlan
      exact hsame.digestBound (hb.known t source hknown)
  · obtain rfl | ⟨before, hread, -, hwrite⟩ := hjustified
    · exact hraw rfl
    · exact hwrite.samePlan.digestBound (hb.known t before (.inl hread))

theorem digestsBound_call
    (hc : Called path (RawWrites (ChangeSetRecord.DigestBound C)) w self t request c next answer mid
      events) (hok : RawWrites (ChangeSetRecord.DigestBound C) w (.advance t choice))
    (hchoice : w.exec self t c choice = some (mid, answer, events)) (hb : DigestsBound w) :
    DigestsBound (w.answered mid t request c next answer events) := by
  constructor
  · intro state hheld id record hrecord
    cases answered_changeSet (reached_grounded hc.reached) hc.keyed hc.self_eq hc.executed hheld
        hrecord with
    | inserted added ok hcall hid heq hcheck hevent =>
      subst heq
      exact (samePlan_normalise added).digestBound (hc.digestBound_insert hok hchoice hcall)
    | moved hnone original ho hmove =>
      have hold := hb.held _ (.inl rfl) id original ho
      cases hmove with
      | same | swept | claimed => exact hold
      | updated written hcall hid hchecked hgranted =>
        exact (samePlan_normalise written).digestBound
          (hc.digestBound_update hok hchoice hb hcall)
    | kept hnone state him ho => exact hb.held state (.inr him) id record ho
  · intro t' record hknown
    have hhistory := historyOf_advance w t t' request c answer events
    -- what the call itself read or claimed was in memory
    have hself : ∀ id device, (⟨c, answer⟩ : Answered V) = ⟨.changeSet id device, .ok record⟩ →
        record.DigestBound C := by
      intro id device heq
      cases heq
      exact hb.held _ (.inl rfl) id record (executed_read hc.executed rfl).1
    have hself' : ∀ id device handle, (⟨c, answer⟩ : Answered V) =
        ⟨.claimChangeSetForApply id device handle, .ok record⟩ → record.DigestBound C := by
      intro id device handle heq
      cases heq
      obtain ⟨previous, hprevious, rfl⟩ := executed_claimed hc.executed rfl
      exact (hb.held _ (.inl rfl) id previous hprevious :)
    have hmem : ∀ answered, answered ∈ historyOf (w.answered mid t request c next answer
        events).trace t' → answered = ⟨c, answer⟩ ∨ answered ∈ historyOf w.trace t' := by
      intro answered h
      have h := hhistory ▸ h
      split at h
      · exact mem_cons.mp h
      · exact .inr h
    obtain ⟨id, device, h⟩ | ⟨id, device, handle, h⟩ := hknown
    · obtain heq | h := hmem _ h
      · exact hself id device heq.symm
      · exact hb.known t' record (.inl ⟨id, device, h⟩)
    · obtain heq | h := hmem _ h
      · exact hself' id device handle heq.symm
      · exact hb.known t' record (.inr ⟨id, device, handle, h⟩)

theorem digestsBound_outside (hs : StepCase path w a w') (hno : ∀ t choice, a ≠ .advance t choice)
    (hb : DigestsBound w) : DigestsBound w' := by
  constructor
  · intro state hheld id record hrecord
    have hread : ∀ {key record}, w.Loads key →
        (readBack C w.image).changeSets[id]? = some record → record.DigestBound C := by
      rintro key record ⟨version, hvalid⟩ hr
      exact digestBound_of_valid ((validateStateWithKey_ok.mp hvalid).2.2.2 id record hr)
    obtain hold | hn := hs.holds hheld
    · exact hb.held state hold id record hrecord
    cases hn with
    | stopped => simp [ChangesetState.empty] at hrecord
    | executed t choice => exact absurd rfl (hno t choice)
    | recovered args env hself hloads =>
      rw [recovered, getElem?_recoverState_changeSets] at hrecord
      obtain ⟨original, ho, rfl⟩ := Option.map_eq_some_iff.mp hrecord
      exact (samePlan_recover original).digestBound (hread hloads ho)
    | resolved _ _ _ _ _ _ _ _ hloads => exact hread hloads hrecord
  · intro t record hknown
    obtain ⟨new, htrace, hnew⟩ := hs.outside hno
    rw [htrace, historyOf_outside hnew] at hknown
    exact hb.known t record hknown

theorem reached_digestBound (h : Reached path (RawWrites (ChangeSetRecord.DigestBound C)) w) :
    DigestsBound w := by
  refine reached_calls ?_ ?_ ?_ h
  · constructor
    · rintro state (rfl | him) id record hrecord
      · simp [World.initial, ChangesetState.empty] at hrecord
      · cases him
    · rintro t record (⟨_, _, h⟩ | ⟨_, _, _, h⟩) <;> cases h
  · exact fun w self t choice request c next answer mid events hc hb hok hchoice =>
      digestsBound_call hc hok hchoice hb
  · exact fun w a w' _ hb _ hs hno => digestsBound_outside hs hno hb

/-- The change set is granted under this digest, since its id was last inserted. -/
abbrev GrantedFor (id digest : String) (trace : List (Entry V)) : Prop :=
  Since (fun entry => entry.grants id digest = true) (fun entry => entry.inserts id = true) trace

theorem reads_granted (h : Reached path ok w)
    (record : ChangeSetRecord) (happroved : record.state = .approved) :
    AtEach (fun entry : Entry V =>
      ∃ id device, entry.what = .answered (.changeSet id device) (.ok record))
      (GrantedFor record.id record.digest) w.trace := by
  refine reached_calls (P := fun w => AtEach (fun entry : Entry V =>
    ∃ id device, entry.what = .answered (.changeSet id device) (.ok record))
    (GrantedFor record.id record.digest) w.trace) trivial ?_ ?_ h
  · intro w self t choice request c next answer mid events hc hall _ _
    refine ⟨?_, atEach_append ?_ hall⟩
    · rintro ⟨id, device, heq⟩
      cases heq
      obtain ⟨hrecord, rfl⟩ := executed_read hc.executed rfl
      have hgranted := (reached_sourced hc.reached (.inl rfl) hrecord).granted happroved
      rwa [← hc.keyed.changeSets id record hrecord] at hgranted
    · rintro entry he ⟨id, device, heq⟩
      obtain ⟨event, -, rfl⟩ := mem_map.mp he
      cases heq
  · intro w a w' _ hall _ hs hno
    obtain ⟨new, htrace, hnew⟩ := hs.outside hno
    rw [htrace]
    refine atEach_append ?_ hall
    rintro entry he ⟨id, device, heq⟩
    have hout := hnew entry he
    unfold Entry.Outside at hout
    rw [heq] at hout
    exact hout

theorem Called.line
    (hc : Called path ok w self t request c next answer mid events) {answered : Answered V}
    (h : answered ∈ historyOf w.trace t) : ∃ newer entry older, w.trace = newer ++ entry :: older ∧
      entry.source = some (t, request) ∧ entry.what = .answered answered.call answered.answer := by
  obtain ⟨entry, he, hthread, hwhat⟩ := mem_historyOf.mp h
  obtain ⟨⟨t', request'⟩, hsource, rfl⟩ := Option.map_eq_some_iff.mp hthread
  obtain ⟨newer, older, htrace⟩ := append_of_mem he
  have hrequest := reached_attributed hc.reached entry he t' request' hsource _ hc.thread
  exact ⟨newer, entry, older, htrace, hrequest ▸ hsource, hwhat⟩

end

end World

variable {w : World C V}

/-- The call numbered `t` has read a change set of its caller's owner, device and fingerprint whose
actions are these, and the digest of that plan is the one the change set was granted under. -/
def StagesApproved (C : Crates) (t : ℕ) (args : ApplyArgs) (actions : List V.Action)
    (older : List (Entry V)) : Prop :=
  ∃ record newer read before id device, older = newer ++ read :: before ∧
    read.source = some (t, .applyChangeSet args) ∧
    read.what = .answered (.changeSet id device) (.ok record) ∧ record.id = args.changeSetId ∧
    record.owner = args.owner ∧ record.device = args.device ∧
    record.expectedCandidateFingerprint = args.expectedFingerprint ∧
    parseActions V 0 record.actions = .ok actions ∧
    World.GrantedFor record.id (changeSetDigestWithTargets C record.owner record.device
      record.expectedCandidateFingerprint record.actions record.targets) before

/-- **What is staged is what was approved**, in runs whose caller-built records have the digest of
their own plan. -/
theorem stages_approved_plan
    (h : World.Reached path (RawWrites (ChangeSetRecord.DigestBound C)) w)
    {newer older : List (Entry V)} {entry : Entry V} (hsplit : w.trace = newer ++ entry :: older)
    {t : ℕ} {args : ApplyArgs} {actions : List V.Action}
    (hsource : entry.source = some (t, .applyChangeSet args))
    (hstage : entry.what = .answered (.send (.stage actions)) ()) :
    StagesApproved C t args actions older := by
  suffices hall : AtEach (fun entry : Entry V => entry.source = some (t, .applyChangeSet args) ∧
      entry.what = .answered (.send (.stage actions)) ()) (StagesApproved C t args actions)
      w.trace by
    rw [hsplit] at hall
    exact hall.split ⟨hsource, hstage⟩
  clear hsplit hsource hstage
  refine World.reached_calls (P := fun w => AtEach (fun entry : Entry V =>
    entry.source = some (t, .applyChangeSet args) ∧
      entry.what = .answered (.send (.stage actions)) ()) (StagesApproved C t args actions)
    w.trace) trivial ?_ ?_ h
  · intro w self t' choice request c next answer mid events hc hall _ _
    refine ⟨?_, atEach_append ?_ hall⟩
    · rintro ⟨hsource, hstage⟩
      cases hsource
      cases hstage
      obtain ⟨_, hrequest, -⟩ | ⟨args', record, claimed, hrequest, -, hchecked, -, -, hactions⟩ :=
        hc.justified
      · cases hrequest
      cases hrequest
      obtain ⟨id, device, hread⟩ := hchecked.read
      obtain ⟨newer, read, before, htrace, hsource, hwhat⟩ := hc.line hread
      have hgranted := World.reads_granted hc.reached record hchecked.approved
      rw [htrace] at hgranted
      have hbound := (World.reached_digestBound hc.reached).known t record
        (.inl ⟨id, device, hread⟩)
      refine ⟨record, w.storeEntries (some (t, .applyChangeSet args)) events ++ newer, read, before,
        id, device, ?_, hsource, hwhat, hchecked.id, hchecked.owner, hchecked.device,
        hchecked.fingerprint, hactions, ?_⟩
      · rw [htrace, append_assoc]
      · rw [show changeSetDigestWithTargets C _ _ _ _ _ = record.digest from hbound]
        exact hgranted.split ⟨id, device, hwhat⟩
    · rintro entry he ⟨-, hstage⟩
      obtain ⟨event, -, rfl⟩ := mem_map.mp he
      cases hstage
  · intro w a w' _ hall _ hs hno
    obtain ⟨new, htrace, hnew⟩ := hs.outside hno
    rw [htrace]
    refine atEach_append ?_ hall
    rintro entry he ⟨-, hstage⟩
    have hout := hnew entry he
    unfold Entry.Outside at hout
    rw [hstage] at hout
    exact hout

/-! ### An apply that stages its plan, and one that stages another -/

/-- The device is not locked, and is asked to stage. -/
def sendStage (t : ℕ) : List (Action Vendor.sample) :=
  .advance t (.flag false) :: (answerFingerprint t ++ [.advance t .go])

def approvedApply : List (Action Vendor.sample) :=
  startAndPlan .sample ++ approvePlan 1 ++ startApply 2 ++ answerFingerprint 2 ++
    reserveAndClaim 2 1 ++ sendStage 2

/-- The last step asked a device to stage, for an apply. -/
def endsWithStage (w : World Crates.sample Vendor.sample) : Option (ℕ × ApplyArgs × List String) :=
  match w.trace with
  | ⟨some (t, .applyChangeSet args), _, .answered (.send (.stage actions)) _⟩ :: _ =>
    some (t, args, actions)
  | _ => none

theorem endsWithStage_spec {w : World Crates.sample Vendor.sample}
    (h : endsWithStage w = some (t, args, actions)) :
    ∃ entry older, w.trace = entry :: older ∧ entry.source = some (t, .applyChangeSet args) ∧
      entry.what = .answered (.send (.stage actions)) () := by
  unfold endsWithStage at h
  split at h
  · next heq =>
    cases h
    exact ⟨_, _, heq, rfl, rfl⟩
  · cases h

theorem approvedApply_stages :
    ((checkedRun none (RawWrites (ChangeSetRecord.DigestBound Crates.sample)) approvedApply).any
      fun w => (endsWithStage w).isSome) = true := by decide +kernel

/-- An approved plan is staged. -/
theorem approvedApply_approved : ∃ (w : World Crates.sample Vendor.sample) (t : ℕ)
    (args : ApplyArgs) (actions : List String) (older : List (Entry Vendor.sample)),
    World.Reached none (RawWrites (ChangeSetRecord.DigestBound Crates.sample)) w ∧
      endsWithStage w = some (t, args, actions) ∧
      StagesApproved Crates.sample t args actions older := by
  obtain ⟨w, hreached, hends⟩ := checkedRun_reached approvedApply_stages
  obtain ⟨⟨t, args, actions⟩, hends⟩ := Option.isSome_iff_exists.mp hends
  obtain ⟨entry, older, htrace, hsource, hstage⟩ := endsWithStage_spec hends
  exact ⟨w, t, args, actions, older, hreached, hends,
    @stages_approved_plan _ _ _ w hreached [] older entry htrace t args actions hsource hstage⟩

/-- A raw update gives the approved plan other actions, under its digest. -/
def replaceActions (t : ℕ) : List (Action Vendor.sample) :=
  [.spawn (.updateChangeSet
      { (samplePlan 'a').approvedBy Crates.sample (LoadArgs.sample.config none) (samplePlan 'a').id
          "bob" 100 with actions := [⟨.str "delete", rfl⟩] }),
    .advance t (.write none), .finish t]

def replacedApply : List (Action Vendor.sample) :=
  startAndPlan .sample ++ approvePlan 1 ++ replaceActions 2 ++ startApply 3 ++
    answerFingerprint 3 ++ reserveAndClaim 3 1 ++ sendStage 3

/-- The entry is the read, by the call numbered `t`, of a change set that was granted under the
digest of its plan. -/
def readsGranted (t : ℕ) (trace : List (Entry Vendor.sample)) (entry : Entry Vendor.sample) : Bool :=
  match entry.what with
  | .answered (.changeSet _ _) answer => entry.source.any (·.1 == t) &&
    answer.toOption.any fun record => trace.any (Entry.grants record.id
      (changeSetDigestWithTargets Crates.sample record.owner record.device
        record.expectedCandidateFingerprint record.actions record.targets))
  | _ => false

theorem not_stagesApproved
    {older : List (Entry Vendor.sample)} (h : older.any (readsGranted t older) = false) :
    ¬ StagesApproved Crates.sample t args actions older := by
  rintro ⟨record, newer, read, before, id, device, hsplit, hsource, hwhat, -, -, -, -, -, hgranted⟩
  obtain ⟨between, grant, first, rfl, hgrant, -⟩ := split_of_since hgranted
  refine any_eq_false.mp h read (by simp [hsplit]) ?_
  simp only [readsGranted, hwhat, hsource, Option.any_some, beq_self_eq_true, Bool.true_and,
    Except.toOption, any_eq_true]
  exact ⟨grant, by simp [hsplit], hgrant⟩

theorem replacedApply_stages : ((sampleRun none replacedApply).any fun w =>
    (endsWithStage w).any fun stage => !w.trace.tail.any (readsGranted stage.1 w.trace.tail)) =
      true := by
  decide +kernel

/-- The actions staged are those of no plan that was approved. -/
theorem stages_other_actions : ∃ w : World Crates.sample Vendor.sample,
    World.Reached none (fun _ _ => True) w ∧ ∃ t args actions entry older,
      w.trace = entry :: older ∧ entry.source = some (t, .applyChangeSet args) ∧
      entry.what = .answered (.send (.stage actions)) () ∧
      ¬ StagesApproved Crates.sample t args actions older := by
  obtain ⟨w, hreached, hends⟩ := sampleRun_reached replacedApply_stages
  obtain ⟨⟨t, args, actions⟩, hends, hnone⟩ := (Option.any_eq_true _ _).mp hends
  obtain ⟨entry, older, htrace, hsource, hstage⟩ := endsWithStage_spec hends
  rw [htrace] at hnone
  exact ⟨w, hreached, t, args, actions, entry, older, htrace, hsource, hstage,
    not_stagesApproved (Bool.not_eq_true' _ ▸ hnone)⟩

end Mecmcp.Changeset
