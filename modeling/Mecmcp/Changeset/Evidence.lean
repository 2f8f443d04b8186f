import Mecmcp.Changeset.Provenance

/-!
# Evidence — what a claim rests on

`approve_change_set` and the two waivers leave an approver who is not the owner, or a waiver.  The
write check of a caller-built record looks at the approver it names, and not at whether it names
one, so a raw update moves a plan to `Approved` with no approval at all
(`claimed_without_evidence`), and the claim asks for no more than that state.  In runs whose raw
updates name an approver or a waiver where they say `Approved`, every claim rests on one
(`claims_rest_on_evidence`).
-/

namespace Mecmcp.Changeset

open List

variable {C : Crates} {V : Vendor} {path : Option String} {self : Config} {request : Request V}

/-! ### Evidence -/

def ChangeSetRecord.NamesEvidence (record : ChangeSetRecord) : Prop :=
  (record.approval.bind (·.approver)).isSome = true ∨ record.waiver.isSome = true ∨
    record.approver.isSome = true

instance (record : ChangeSetRecord) : Decidable record.NamesEvidence :=
  inferInstanceAs (Decidable (_ ∨ _))

/-- An `Approved` record names an approver or a waiver. -/
def ChangeSetRecord.ApprovalNamed (record : ChangeSetRecord) : Prop :=
  record.state = .approved → record.NamesEvidence

instance : DecidablePred ChangeSetRecord.ApprovalNamed := fun record =>
  inferInstanceAs (Decidable (record.state = .approved → record.NamesEvidence))

/-- Someone other than the owner approved the record, or it carries a waiver. -/
def ChangeSetRecord.Evidenced (record : ChangeSetRecord) (owner : String) : Prop :=
  (∃ approver, record.approval.bind (·.approver) = some approver ∧ approver ≠ owner) ∨
    record.waiver.isSome = true ∨ ∃ approver, record.approver = some approver ∧ approver ≠ owner

section
variable {h : History V} {current record next : ChangeSetRecord}

theorem WriteChecked.evidenced (hw : WriteChecked C current next) (hn : next.NamesEvidence) :
    next.Evidenced next.owner := by
  obtain happroval | hwaiver | happrover := hn
  · obtain ⟨approver, heq⟩ := Option.isSome_iff_exists.mp happroval
    exact .inl ⟨approver, heq, fun hown => hw.notOwnApproval (hown ▸ heq)⟩
  · exact .inr (.inl hwaiver)
  · obtain ⟨approver, heq⟩ := Option.isSome_iff_exists.mp happrover
    exact .inr (.inr ⟨approver, heq, fun hown => hw.notOwnApprover (hown ▸ heq)⟩)

theorem namesEvidence_normalise (hn : record.NamesEvidence) :
    (normaliseRecord record).NamesEvidence := by
  obtain ⟨taskId, marker, heq⟩ := normaliseRecord_eq record
  rw [heq]
  exact hn

theorem LifecycleWrite.named (hw : LifecycleWrite C self request h record next) :
    next.ApprovalNamed := by
  intro happroved
  cases hw with
  | retired state hstate =>
    obtain rfl | rfl := hstate <;> cases happroved
  | approved => exact .inl rfl
  | waived => exact .inr (.inl rfl)

theorem ApplyWrite.named (hw : ApplyWrite h next)
    (hclaimed : ∀ claimed, h.Claimed claimed → claimed.state = .applying) : next.ApprovalNamed := by
  intro happroved
  cases hw with
  | expired => cases happroved
  | linked claimed operationId hc =>
    have hstate : claimed.state = .approved := happroved
    rw [hclaimed claimed hc] at hstate
    cases hstate
  | settled claimed operationId state hc hd hstate =>
    obtain rfl | rfl := hstate <;> cases happroved

end

namespace World

section
variable {w mid : World C V} {t : ℕ} {choice : Choice V} {c : Call V}
  {next : c.Answer → Method V Unit} {answer : c.Answer} {events : List Event}
  {P : ChangeSetRecord → Prop}

theorem Called.named {record written : ChangeSetRecord}
    (hc : Called path (RawWrites ChangeSetRecord.ApprovalNamed) w self t request c next answer mid
      events) (hok : RawWrites ChangeSetRecord.ApprovalNamed w (.advance t choice))
    (hchoice : w.exec self t c choice = some (mid, answer, events))
    (hcall : c = .updateChangeSet written ∨ c = .updateChangeSetFrom record.state written) :
    written.ApprovalNamed := by
  have hjustified := hc.justified
  have hraw : request.rawWrite = some written → written.ApprovalNamed := fun hraw =>
    hok written ((hc.rawWrite hchoice).trans hraw)
  obtain rfl | rfl := hcall
  · obtain rfl | ⟨-, hwrite⟩ := hjustified
    · exact hraw rfl
    · exact hwrite.named fun _ => reached_claimed hc.reached
  · obtain rfl | ⟨before, -, -, hwrite⟩ := hjustified
    · exact hraw rfl
    · exact hwrite.named

theorem reached_evidenced (h : Reached path (RawWrites ChangeSetRecord.ApprovalNamed) w)
    {state : ChangesetState} (hheld : w.Holds state) {id : String} {record : ChangeSetRecord}
    (hrecord : state.changeSets[id]? = some record) (happroved : record.state = .approved) :
    record.Evidenced record.owner := by
  refine reached_calls (P := fun w => ∀ state, w.Holds state → ∀ (id : String) record,
    state.changeSets[id]? = some record → record.state = .approved →
    record.Evidenced record.owner) ?_ ?_ ?_ h state hheld id record hrecord happroved
  · rintro state (rfl | him) id record hrecord
    · simp [World.initial, ChangesetState.empty] at hrecord
    · cases him
  · intro w self t choice request c next answer mid events hc hall hok hchoice state hheld id record
      hrecord happroved
    cases answered_changeSet (reached_grounded hc.reached) hc.keyed hc.self_eq hc.executed hheld
        hrecord with
    | inserted added ok hcall hid heq hcheck hevent =>
      simp only [checkNewChangeSet, bind_unit_ok, refuseIf_ok, not_not] at hcheck
      rw [heq, normaliseRecord_state, hcheck.2.2.1] at happroved
      cases happroved
    | moved hnone original ho hmove =>
      cases hmove with
      | same => exact hall _ (.inl rfl) id _ ho happroved
      | swept | claimed => cases happroved
      | updated written hcall hid hchecked hgranted =>
        exact hchecked.evidenced (namesEvidence_normalise
          (hc.named hok hchoice hcall (normaliseRecord_state ▸ happroved)))
    | kept hnone state him ho => exact hall state (.inr him) id record ho happroved
  · intro w a w' _ hall _ hs hno state hheld id record hrecord happroved
    obtain hold | hn := hs.holds hheld
    · exact hall state hold id record hrecord happroved
    cases hn with
    | stopped => simp [ChangesetState.empty] at hrecord
    | executed t choice => exact absurd rfl (hno t choice)
    | recovered args =>
      obtain ⟨held, original, him, ho, rfl⟩ := recovered_changeSet hrecord
      obtain ⟨taskId, heq⟩ := normaliseTaskHandle_eq original
      obtain ⟨state, taskId', heq', rfl | ⟨-, rfl⟩⟩ :=
        recoverChangeSet_eq ((normaliseTaskHandle original).mapFloat C.reparse)
      · rw [heq', heq] at happroved ⊢
        exact hall held (.inr him) id original ho happroved
      · rw [heq'] at happroved
        cases happroved
    | resolved =>
      obtain ⟨held, original, him, ho, rfl⟩ := readBack_changeSet hrecord
      obtain ⟨taskId, heq⟩ := normaliseTaskHandle_eq original
      rw [heq] at happroved ⊢
      exact hall held (.inr him) id original ho happroved

end

end World

variable {w : World C V}

/-- What a claimed record rests on: someone other than the owner the id was last inserted with, or
a waiver. -/
def ClaimRests (record : ChangeSetRecord) (older : List (Entry V)) : Prop :=
  ∃ owner digest, Since (fun entry => entry.insertsAs record.id owner digest = true)
    (fun entry => entry.inserts record.id = true) older ∧ record.Evidenced owner

/-- **No unapproved or self-approved change set is claimed**, in runs whose caller-built records
name an approver or a waiver where they are `Approved`. -/
theorem claims_rest_on_evidence
    (h : World.Reached path (RawWrites ChangeSetRecord.ApprovalNamed) w)
    {newer older : List (Entry V)} {entry : Entry V} {record : ChangeSetRecord} {ok : Bool}
    (hsplit : w.trace = newer ++ entry :: older)
    (hclaimed : entry.what = .store (.claimed record ok)) : ClaimRests record older := by
  suffices hall : AtEach (fun entry : Entry V => entry.what = .store (.claimed record ok))
      (ClaimRests record) w.trace by
    rw [hsplit] at hall
    exact hall.split hclaimed
  clear hsplit hclaimed
  refine World.reached_calls (P := fun w =>
    AtEach (fun entry : Entry V => entry.what = .store (.claimed record ok)) (ClaimRests record)
      w.trace) trivial ?_ ?_ h
  · intro w self t choice request c next answer mid events hc hall _ _
    show AtEach _ _ (w.newEntries t request c answer events ++ w.trace)
    refine atEach_append_of (fun newer entry older heq hclaimed => ?_) hall
    have hentry : entry ∈ w.newEntries t request c answer events :=
      heq ▸ mem_append_right _ (mem_cons_self ..)
    obtain rfl | he := mem_cons.mp hentry
    · cases hclaimed
    obtain ⟨event, hevent, rfl⟩ := mem_map.mp he
    obtain rfl : event = .claimed record ok := Happening.store.inj hclaimed
    cases executed_event hc.executed hevent with
    | claimed id device previous handle ok hcall hprevious happroved =>
      -- the record is the one in memory, but for its state and its marker
      have hid := hc.keyed.changeSets id previous hprevious
      have hevidenced := World.reached_evidenced hc.reached (.inl rfl) hprevious happroved
      refine ⟨previous.owner, previous.digest, ?_, hevidenced⟩
      have hsourced := (World.reached_sourced hc.reached (.inl rfl) hprevious).created
      rw [← hid] at hsourced
      refine since_append_of_none (fun entry he hi => ?_) hsourced
      obtain ⟨added, ok', hmem, -⟩ := World.newEntries_inserts
        (heq ▸ mem_append_right _ (mem_cons_of_mem _ he)) hi
      subst hcall
      cases executed_event hc.executed hmem with
      | inserted _ _ hcall => cases hcall
  · intro w a w' _ hall _ hs hno
    obtain ⟨new, htrace, hnew⟩ := hs.outside hno
    rw [htrace]
    refine atEach_append (fun entry he hclaimed => ?_) hall
    have hout := hnew entry he
    unfold Entry.Outside at hout
    rw [hclaimed] at hout
    exact hout

/-! ### A claim with an approver, and one without -/

def endsWithClaim (w : World Crates.sample Vendor.sample) : Option ChangeSetRecord :=
  match w.trace with
  | _ :: ⟨_, _, .store (.claimed record true)⟩ :: _ => some record
  | _ => none

theorem endsWithClaim_spec {w : World Crates.sample Vendor.sample} {record : ChangeSetRecord}
    (h : endsWithClaim w = some record) : ∃ last entry older, w.trace = last :: entry :: older ∧
      entry.what = .store (.claimed record true) := by
  unfold endsWithClaim at h
  split at h
  · next last _ _ claimed older heq =>
    obtain rfl := Option.some.inj h
    exact ⟨last, _, older, heq, rfl⟩
  · cases h

theorem samplePlan_claimed_named :
    ((checkedRun none (RawWrites ChangeSetRecord.ApprovalNamed)
      (startAndPlan .sample ++ approveAndClaim 1)).any fun w =>
        (endsWithClaim w).isSome) = true := by decide +kernel

/-- A plan that `bob` approved is claimed. -/
theorem samplePlan_claim_rests : ∃ (w : World Crates.sample Vendor.sample)
    (record : ChangeSetRecord) (older : List (Entry Vendor.sample)),
    World.Reached none (RawWrites ChangeSetRecord.ApprovalNamed) w ∧
      endsWithClaim w = some record ∧ ClaimRests record older := by
  obtain ⟨w, hreached, hclaims⟩ := checkedRun_reached samplePlan_claimed_named
  obtain ⟨record, hrecord⟩ := Option.isSome_iff_exists.mp hclaims
  obtain ⟨last, entry, older, htrace, hwhat⟩ := endsWithClaim_spec hrecord
  exact ⟨w, record, older, hreached, hrecord,
    @claims_rest_on_evidence _ _ _ w hreached [last] older entry record true htrace hwhat⟩

/-- A raw update says `Approved`, and the plan is claimed. -/
def unapprovedClaim : List (Action Vendor.sample) :=
  startAndPlan .sample ++
    [.spawn (.updateChangeSet { samplePlan 'a' with state := .approved }),
      .advance 1 (.write none),
      .spawn (.claimChangeSetForApply (samplePlan 'a').id "edge1" .expected),
      .advance 2 (.write none)]

theorem unapprovedClaim_claims : ((sampleRun none unapprovedClaim).any fun w =>
    (endsWithClaim w).any fun record => decide (¬ record.NamesEvidence)) = true := by
  decide +kernel

/-- A record with no approval, no waiver and no approver is claimed. -/
theorem claimed_without_evidence : ∃ w : World Crates.sample Vendor.sample,
    World.Reached none (fun _ _ => True) w ∧ ∃ entry ∈ w.trace, ∃ record,
      entry.what = .store (.claimed record true) ∧ ∀ owner, ¬ record.Evidenced owner := by
  obtain ⟨w, hreached, hclaims⟩ := sampleRun_reached unapprovedClaim_claims
  obtain ⟨record, hrecord, hnone⟩ := (Option.any_eq_true _ _).mp hclaims
  obtain ⟨last, entry, older, htrace, hwhat⟩ := endsWithClaim_spec hrecord
  refine ⟨w, hreached, entry, by simp [htrace], record, hwhat, fun owner hevidenced => ?_⟩
  refine of_decide_eq_true hnone ?_
  obtain ⟨approver, happroval, -⟩ | hwaiver | ⟨approver, happrover, -⟩ := hevidenced
  · exact .inl (by rw [happroval]; rfl)
  · exact .inr (.inl hwaiver)
  · exact .inr (.inr (by rw [happrover]; rfl))

end Mecmcp.Changeset
