import Mecmcp.Changeset.ApplyClaim

/-!
# Seal — a granted approval and the preview it binds are frozen

From digest version 5 an approval binds the digest of the preview, and a record with such an
approval by a principal is `Sealed`.  The write check, the claim and the sweep keep the approval
record and the preview digest of a sealed record (`recordMove_seal`), and the file gives both back,
so every version of it that a run holds from then on has them (`sealed_approval_frozen`).

The digest of a held preview is the one of its artifact (`reached_previewBound`), so two artifacts
under one seal have the same SHA-256.
-/

namespace Mecmcp.Changeset

open Option

variable {C : Crates} {V : Vendor} {c : Call V} {events : List Event} {path : Option String}
  {w w' : World C V}

/-! ### Seals -/

/-- A principal granted the record's approval, and the approval binds the preview. -/
def ChangeSetRecord.Sealed (record : ChangeSetRecord) : Prop :=
  ∃ approval, record.approval = some approval ∧ approval.approver.isSome = true ∧
    5 ≤ approval.digestVersion

structure SameSeal (record next : ChangeSetRecord) : Prop where
  approval : next.approval = record.approval
  previewDigest : next.previewDigest = record.previewDigest

def ChangeSetRecord.PreviewBound (C : Crates) (record : ChangeSetRecord) : Prop :=
  ∀ preview, record.preview = some preview → preview.digest = Changeset.previewDigest C preview.artifact

variable {record middle next : ChangeSetRecord}

theorem SameSeal.refl (record : ChangeSetRecord) : SameSeal record record := ⟨rfl, rfl⟩

theorem SameSeal.trans (h : SameSeal record middle) (h' : SameSeal middle next) :
    SameSeal record next :=
  ⟨h'.approval.trans h.approval, h'.previewDigest.trans h.previewDigest⟩

theorem SameSeal.symm (h : SameSeal record next) : SameSeal next record :=
  ⟨h.approval.symm, h.previewDigest.symm⟩

theorem SameSeal.sealed (h : SameSeal record next) (hs : record.Sealed) : next.Sealed := by
  obtain ⟨approval, ha, hgranted⟩ := hs
  exact ⟨approval, h.approval.trans ha, hgranted⟩

theorem writeChecked_seal (h : WriteChecked C record next) (hs : record.Sealed) :
    SameSeal record next := by
  obtain ⟨approval, ha, hgranted, hversion⟩ := hs
  exact ⟨(h.approvalKept approval ha hgranted).trans ha.symm,
    (h.previewKept approval ha hversion).symm⟩

theorem recordMove_seal (h : RecordMove C c events record next) (hs : record.Sealed) :
    SameSeal record next := by
  cases h with
  | same => exact .refl record
  | swept | claimed => exact ⟨rfl, rfl⟩
  | updated next hcall hid hchecked hgranted => exact writeChecked_seal hchecked hs

theorem recordMove_seals (h : RecordMove C c events record next) (hs : next.Sealed) :
    record.Sealed ∨ ∃ written, c = .updateChangeSet written ∨
      c = .updateChangeSetFrom record.state written := by
  cases h with
  | same | swept | claimed => exact .inl hs
  | updated next hcall => exact .inr ⟨next, hcall⟩

theorem recovered_seal (f : UInt64 → UInt64) (record : ChangeSetRecord) :
    SameSeal record (recoverChangeSet ((normaliseTaskHandle record).mapFloat f)) := by
  obtain ⟨taskId, heq⟩ := normaliseTaskHandle_eq record
  obtain ⟨state, taskId', heq', -⟩ := recoverChangeSet_eq ((normaliseTaskHandle record).mapFloat f)
  rw [heq', heq]
  exact ⟨rfl, rfl⟩

theorem readBack_seal (f : UInt64 → UInt64) (record : ChangeSetRecord) :
    SameSeal record ((normaliseTaskHandle record).mapFloat f) := by
  obtain ⟨taskId, heq⟩ := normaliseTaskHandle_eq record
  rw [heq]
  exact ⟨rfl, rfl⟩

theorem not_sealed_of_checkNew {self : Config} (h : checkNewChangeSet C self record = .ok ()) :
    ¬ (normaliseRecord record).Sealed := by
  rintro ⟨approval, ha, -⟩
  obtain ⟨taskId, marker, heq⟩ := normaliseRecord_eq record
  rw [heq] at ha
  simp only [checkNewChangeSet, bind_unit_ok, refuseIf_ok] at h
  exact h.2.2.2 (.inl (by rw [show record.approval = some approval from ha]; rfl))

/-! ### Previews -/

theorem previewBound_of_valid {maximum : ℕ} (h : record.validatePreview C maximum = .ok ()) :
    record.PreviewBound C := by
  intro preview hp
  unfold ChangeSetRecord.validatePreview at h
  rw [hp] at h
  dsimp only at h
  split at h
  · cases h
  · split at h
    · cases h
    · split at h
      · cases h
      · next hdigest => exact (not_not.mp hdigest).symm

theorem previewBound_of_checkNew {self : Config} (h : checkNewChangeSet C self record = .ok ()) :
    (normaliseRecord record).PreviewBound C := by
  obtain ⟨taskId, marker, heq⟩ := normaliseRecord_eq record
  rw [heq]
  simp only [checkNewChangeSet, bind_unit_ok, mapError_ok] at h
  exact previewBound_of_valid h.2.1

theorem recordMove_previewBound (h : RecordMove C c events record next)
    (hb : record.PreviewBound C) : next.PreviewBound C := by
  cases h with
  | same | swept | claimed => exact hb
  | updated next hcall hid hchecked hgranted => exact previewBound_of_valid hchecked.preview

theorem sha256_of_previewDigest {a b : String} (h : previewDigest C a = previewDigest C b) :
    C.sha256 (utf8 a) = C.sha256 (utf8 b) := by
  have hbytes := congrArg utf8 h
  simp only [previewDigest, utf8_append] at hbytes
  exact bytesHex_injective (utf8_injective (List.append_cancel_left hbytes))

theorem SameSeal.artifact (h : SameSeal record next) (hr : record.PreviewBound C)
    (hn : next.PreviewBound C) {preview preview' : PreviewRecord}
    (hp : record.preview = some preview) (hp' : next.preview = some preview') :
    C.sha256 (utf8 preview'.artifact) = C.sha256 (utf8 preview.artifact) := by
  have hdigest := h.previewDigest
  simp only [ChangeSetRecord.previewDigest, hp, hp', map_some, Option.some.injEq] at hdigest
  exact sha256_of_previewDigest ((hn _ hp').symm.trans (hdigest.trans (hr _ hp)))

/-! ### Along a run -/

namespace World

section
variable {a : Action V} {ok : World C V → Action V → Prop}
variable {state : ChangesetState} {id : String} {record : ChangeSetRecord} {self : Config} {t : ℕ}
  {mid : World C V}
variable {answer : c.Answer}

theorem reached_previewBound (h : Reached path ok w) (hheld : w.Holds state)
    (hrecord : state.changeSets[id]? = some record) : record.PreviewBound C := by
  refine reached_holds (P := fun state => ∀ (id : String) record,
    state.changeSets[id]? = some record → record.PreviewBound C) ?_ ?_ h hheld id record hrecord
  · intro id record hr
    simp [ChangesetState.empty] at hr
  · intro w a state hreached hheld _ hnew id record hr
    cases hnew with
    | stopped => simp [ChangesetState.empty] at hr
    | executed t choice self request c next answer mid events state hself hthread hexec hl =>
      have hmoved : ∀ id record, MovedFrom C c events w.store.mem id record →
          record.PreviewBound C := by
        rintro id record ⟨original, ho, hmove⟩
        exact recordMove_previewBound hmove (hheld _ (.inl rfl) id original ho)
      cases (exec_moves (reached_keyed hreached (.inl rfl)) hexec hl).changeSets with
      | kept h => exact hmoved id record (h id record hr)
      | inserted inserted _ _ hcheck _ _ _ h =>
        obtain ⟨-, rfl⟩ | hm := h id record hr
        · exact previewBound_of_checkNew hcheck
        · exact hmoved id record hm
    | recovered args env hself hloads =>
      obtain ⟨held, original, him, ho, rfl⟩ := recovered_changeSet hr
      obtain ⟨taskId, heq⟩ := normaliseTaskHandle_eq original
      obtain ⟨state, taskId', heq', -⟩ :=
        recoverChangeSet_eq ((normaliseTaskHandle original).mapFloat C.reparse)
      rw [heq', heq]
      exact hheld held (.inr him) id original ho
    | resolved =>
      obtain ⟨held, original, him, ho, rfl⟩ := readBack_changeSet hr
      obtain ⟨taskId, heq⟩ := normaliseTaskHandle_eq original
      rw [heq]
      exact hheld held (.inr him) id original ho

def SealedAs (w : World C V) (id : String) (record : ChangeSetRecord) : Prop :=
  ∀ state, w.Holds state → ∀ other, state.changeSets[id]? = some other → SameSeal record other

def StoresChangeSet (w : World C V) (id : String) : Prop :=
  ∃ state record, w.Stored state ∧ state.changeSets[id]? = some record

instance (w : World C V) (id : String) : Decidable (w.StoresChangeSet id) :=
  decidable_of_iff (((match w.self with | some _ => some w.store.mem | none => w.image).bind
      fun state => state.changeSets[id]?).isSome = true) (by
    rw [Option.isSome_iff_exists]
    unfold StoresChangeSet Stored
    cases w.self <;> simp only [Option.bind_eq_some_iff] <;> exact exists_comm.trans (by simp))

theorem StoresChangeSet.running (h : w.StoresChangeSet id)
    (hself : w.self = some self) : ∃ record, w.store.mem.changeSets[id]? = some record := by
  obtain ⟨state, record, hstored, hrecord⟩ := h
  unfold Stored at hstored
  rw [hself] at hstored
  obtain rfl : state = w.store.mem := hstored
  exact ⟨record, hrecord⟩

theorem executed_seal (hkeyed : Keyed w.store.mem) (hexec : Executed w self t c answer mid events)
    (hl : state = mid.store.mem ∨ .wrote state ∈ events)
    {other : ChangeSetRecord} (hrecord : w.store.mem.changeSets[id]? = some record)
    (hs : record.Sealed) (hother : state.changeSets[id]? = some other) : SameSeal record other := by
  have hmoved : MovedFrom C c events w.store.mem id other → SameSeal record other := by
    rintro ⟨original, ho, hmove⟩
    cases hrecord.symm.trans ho
    exact recordMove_seal hmove hs
  cases (exec_moves hkeyed hexec hl).changeSets with
  | kept h => exact hmoved (h id other hother)
  | inserted inserted _ _ _ _ hnew _ h =>
    obtain ⟨rfl, -⟩ | hm := h id other hother
    · rw [hnew] at hrecord
      cases hrecord
    · exact hmoved hm

theorem sealedAs_step (hr : Reached path ok w)
    (hsealed : record.Sealed) (hall : w.SealedAs id record) (hpresent : w.StoresChangeSet id)
    (hs : StepCase path w a w') : w'.SealedAs id record := by
  intro state hheld other hother
  obtain hold | hnew := hs.holds hheld
  · exact hall state hold other hother
  cases hnew with
  | stopped => simp [ChangesetState.empty] at hother
  | executed t choice self request c next answer mid events state hself hthread hexec hl =>
    obtain ⟨current, hcurrent⟩ := hpresent.running hself
    have hseal := hall _ (.inl rfl) current hcurrent
    exact hseal.trans (executed_seal (reached_keyed hr (.inl rfl)) hexec hl hcurrent
      (hseal.sealed hsealed) hother)
  | recovered args env hself hloads =>
    obtain ⟨held, original, him, ho, rfl⟩ := recovered_changeSet hother
    exact (hall held (.inr him) original ho).trans (recovered_seal _ original)
  | resolved =>
    obtain ⟨held, original, him, ho, rfl⟩ := readBack_changeSet hother
    exact (hall held (.inr him) original ho).trans (readBack_seal _ original)

/-! ### The file agrees with a seal in memory -/

theorem updateChangeSet_written {fault : Option WriteFault} {store : Store C} :
    (updateChangeSet self fault record store).store.mem = store.mem ∨ self.statePath = none ∨
      ∀ old state, (lastWritten (updateChangeSet self fault record store).events).or old =
        some state → state = (updateChangeSet self fault record store).store.mem := by
  obtain ⟨error, heq⟩ | ⟨current, effect, -, -, hwrite, heq⟩ :=
    @updateChangeSet_outcome C self store record fault
  · exact .inl (by rw [heq]; rfl)
  · rw [heq]
    cases hwrite with
    | unwritten hpath => exact .inr (.inl hpath)
    | failed | landed => exact .inl rfl
    | written =>
      refine .inr (.inr fun old state hlast => ?_)
      unfold grantEvents at hlast
      split at hlast <;> exact (Option.some.inj hlast).symm

theorem executed_update_written (hexec : Executed w self t c answer mid events)
    {observed : ChangeSetState}
    (hcall : c = .updateChangeSet record ∨ c = .updateChangeSetFrom observed record) :
    mid.store.mem = w.store.mem ∨ self.statePath = none ∨
      ∀ old state, (lastWritten events).or old = some state → state = mid.store.mem := by
  obtain rfl | rfl := hcall
  · cases hexec with
    | quiet => exact .inl rfl
    | updateChangeSet record fault => exact updateChangeSet_written
  · cases hexec with
    | quiet => exact .inl rfl
    | updateChangeSetFrom observed record fault =>
      dsimp only
      unfold updateChangeSetFrom
      split
      · exact .inl rfl
      · split
        · exact .inl rfl
        · exact updateChangeSet_written

def SealsAgree (w : World C V) : Prop :=
  ∀ (id : String) record, w.store.mem.changeSets[id]? = some record → record.Sealed →
    w.SealedAs id record

theorem sealsAgree_call {request : Request V} {next : c.Answer → Method V Unit}
    (hr : Reached path ok w) (hself : w.self = some self) (hagree : SealsAgree w)
    (hexec : Executed w self t c answer mid events) :
    SealsAgree (w.answered mid t request c next answer events) := by
  intro id record hrecord hsealed state hheld other hother
  have hkeyed := reached_keyed hr (.inl rfl)
  replace hrecord : mid.store.mem.changeSets[id]? = some record := hrecord
  -- the record was sealed before the call, or an update sealed it
  have hbefore : ∃ original, w.store.mem.changeSets[id]? = some original ∧
      RecordMove C c events original record := by
    cases (exec_moves hkeyed hexec (.inl rfl)).changeSets with
    | kept h => exact h id record hrecord
    | inserted inserted _ _ hcheck _ _ _ h =>
      obtain ⟨-, rfl⟩ | hm := h id record hrecord
      · exact absurd hsealed (not_sealed_of_checkNew hcheck)
      · exact hm
  obtain ⟨original, ho, hmove⟩ := hbefore
  by_cases hold : original.Sealed
  · have hseal := executed_seal hkeyed hexec (.inl rfl) ho hold hrecord
    obtain hl | ⟨-, him⟩ := answered_holds hheld
    · exact hseal.symm.trans (executed_seal hkeyed hexec hl ho hold hother)
    · exact hseal.symm.trans (hagree id original ho hold state (.inr him) other hother)
  · obtain hold' | ⟨written, hcall⟩ := recordMove_seals hmove hsealed
    · exact absurd hold' hold
    obtain hmem | hpath | hwritten := executed_update_written hexec hcall
    · rw [hmem, ho] at hrecord
      exact absurd (Option.some.inj hrecord ▸ hsealed) hold
    · have hg := reached_grounded hr
      have hnone := hg.pathless ((hg.config self hself).symm.trans hpath)
      obtain rfl | him := hheld
      · exact (Option.some.inj (hrecord.symm.trans hother)) ▸ .refl record
      · have him := (image_advance w t request c answer events).symm.trans him
        rw [hexec.frame.pathless hpath, hnone] at him
        cases him
    · have hstate : state = mid.store.mem := by
        obtain rfl | him := hheld
        · rfl
        · exact hwritten _ _ ((image_advance w t request c answer events).symm.trans him)
      subst hstate
      exact (Option.some.inj (hrecord.symm.trans hother)) ▸ .refl record

theorem sealsAgree_step (hr : Reached path ok w) (hagree : SealsAgree w)
    (hs : StepCase path w a w') : SealsAgree w' := by
  have hloaded : ∀ args (id : String) record, (w.recovered args).changeSets[id]? = some record →
      ∀ state, state = w.recovered args ∨ w.image = some state →
      ∀ other, state.changeSets[id]? = some other → SameSeal record other := by
    intro args id record hrecord state hstate other hother
    obtain ⟨held, original, him, ho, rfl⟩ := recovered_changeSet hrecord
    obtain rfl | him' := hstate
    · rw [← Option.some.inj (hrecord.symm.trans hother)]
      exact .refl _
    · cases him.symm.trans him'
      cases ho.symm.trans hother
      exact (recovered_seal _ _).symm
  have hempty : ∀ (id : String) record, w.self = none →
      w.store.mem.changeSets[id]? ≠ some record := by
    intro id record hself hrecord
    rw [((reached_grounded hr).stopped hself).1] at hrecord
    simp [ChangesetState.empty] at hrecord
  intro id record hrecord hsealed state hheld other hother
  cases hs with
  | advance t choice self request c next answer mid events hself hthread hexec =>
    exact sealsAgree_call hr hself hagree hexec id record hrecord hsealed state hheld other hother
  | tick | spawn | finish | loadRefused | resolveRefused =>
    exact hagree id record hrecord hsealed state hheld other hother
  | crash => simp [ChangesetState.empty] at hrecord
  | loadLanded _ _ hself | resolved _ _ _ _ _ hself => exact absurd hrecord (hempty id record hself)
  | loaded args => exact hloaded args id record hrecord state hheld other hother
  | loadRecovered args =>
    refine hloaded args id record hrecord state (.inl ?_) other hother
    obtain rfl | him := hheld
    · rfl
    · exact (Option.some.inj him).symm

theorem reached_sealsAgree (h : Reached path ok w) : SealsAgree w := by
  induction h with
  | start =>
    intro id record hrecord
    simp [World.initial, ChangesetState.empty] at hrecord
  | next hreached _ hstep ih =>
    exact sealsAgree_step hreached ih (step_case (reached_grounded hreached) hstep)

theorem sealedAs_of_stored (h : Reached path ok w) (hstored : w.Stored state)
    (hrecord : state.changeSets[id]? = some record) (hsealed : record.Sealed) :
    w.SealedAs id record := by
  unfold Stored at hstored
  cases hself : w.self with
  | some self =>
    rw [hself] at hstored
    obtain rfl : state = w.store.mem := hstored
    exact reached_sealsAgree h id record hrecord hsealed
  | none =>
    rw [hself] at hstored
    have him : w.image = some state := hstored
    rintro held (rfl | him') other hother
    · rw [((reached_grounded h).stopped hself).1] at hother
      simp [ChangesetState.empty] at hother
    · cases him.symm.trans him'
      rw [Option.some.inj (hother.symm.trans hrecord)]
      exact .refl record

theorem sealedAs_run
    (h : Reached path (fun _ _ => True) w) (hsealed : record.Sealed) (hall : w.SealedAs id record)
    (hrun : Reachable (World.step path) w (fun w _ => w.StoresChangeSet id) w') :
    Reached path (fun _ _ => True) w' ∧ w'.SealedAs id record := by
  induction hrun with
  | start => exact ⟨h, hall⟩
  | next _ hpresent hstep ih =>
    obtain ⟨hr, hall⟩ := ih
    exact ⟨.next hr trivial hstep,
      sealedAs_step hr hsealed hall hpresent (step_case (reached_grounded hr) hstep)⟩

end

end World

/-- **A granted approval and the preview it binds are frozen.**  Once the store holds a change set
whose approval a principal granted at digest version 5 or later, every version of it held in memory
or in the file has that approval record, as long as the store keeps the change set; it has a preview
if the first had one, with the same digest, and with the same artifact unless the two artifacts
collide under SHA-256. -/
theorem sealed_approval_frozen (h : World.Reached path (fun _ _ => True) w)
    {state : ChangesetState} (hstored : w.Stored state) {id : String} {record : ChangeSetRecord}
    (hrecord : state.changeSets[id]? = some record) {approval : ApprovalRecord}
    (happroval : record.approval = some approval) (hgranted : approval.approver.isSome = true)
    (hversion : 5 ≤ approval.digestVersion)
    (hrun : Reachable (World.step path) w (fun w _ => w.StoresChangeSet id) w')
    {later : ChangesetState} (hheld : w'.Holds later) {record' : ChangeSetRecord}
    (hrecord' : later.changeSets[id]? = some record') :
    record'.approval = some approval ∧ record'.preview.isSome = record.preview.isSome ∧
      record'.previewDigest = record.previewDigest ∧
      ∀ preview preview', record.preview = some preview → record'.preview = some preview' →
        (C.sha256 (utf8 preview'.artifact) = C.sha256 (utf8 preview.artifact) →
          preview'.artifact = preview.artifact) →
        preview'.artifact = preview.artifact := by
  have hsealed : record.Sealed := ⟨approval, happroval, hgranted, hversion⟩
  obtain ⟨hr', hall⟩ := World.sealedAs_run h hsealed
    (World.sealedAs_of_stored h hstored hrecord hsealed) hrun
  have hseal := hall later hheld record' hrecord'
  have hpresence := congrArg Option.isSome hseal.previewDigest
  simp only [ChangeSetRecord.previewDigest, isSome_map] at hpresence
  refine ⟨hseal.approval.trans happroval, hpresence, hseal.previewDigest, ?_⟩
  intro preview preview' hp hp' hcollide
  exact hcollide (hseal.artifact (World.reached_previewBound h hstored.holds hrecord)
    (World.reached_previewBound hr' hheld hrecord') hp hp')

/-! ### A seal that outlives a restart -/

def previewedPlan : ChangeSetRecord :=
  { samplePlan 'a' with
    preview := some ⟨"[edit]\n+ set", previewDigest Crates.sample "[edit]\n+ set", none⟩ }

def sealPlan : List (Action Vendor.sample) :=
  [.tick (some 100), .load .sample .quiet, .spawn (.insertChangeSet previewedPlan),
    .advance 0 (.writes none none)] ++ approvePlan 1

def claimAndRestart : List (Action Vendor.sample) :=
  [.spawn (.claimChangeSetForApply previewedPlan.id "edge1" .expected), .advance 2 (.write none),
    .crash, .load .sample .quiet]

def sealedPair (before after : World Crates.sample Vendor.sample) :
    Option (ChangeSetRecord × ChangeSetRecord) :=
  before.store.mem.changeSets[previewedPlan.id]?.bind fun record =>
    after.store.mem.changeSets[previewedPlan.id]?.map fun record' => (record, record')

theorem sealPlan_restarts :
    ((sampleRun (some "/var/lib/mecmcp/state.json") sealPlan).any fun w =>
      (runChecked (World.step (some "/var/lib/mecmcp/state.json"))
          (fun w _ => w.StoresChangeSet previewedPlan.id) w claimAndRestart).any fun w' =>
        w.self.isSome && (sealedPair w w').any fun pair =>
          pair.1.approval.any (fun approval =>
            approval.approver.isSome && decide (5 ≤ approval.digestVersion)) &&
          pair.2.state == .failed) = true := by
  decide +kernel

/-- An approved plan with a preview is claimed and settled by a restart; its approval stays. -/
theorem sealPlan_frozen : ∃ (w w' : World Crates.sample Vendor.sample)
    (record record' : ChangeSetRecord) (approval : ApprovalRecord),
    World.Reached (some "/var/lib/mecmcp/state.json") (fun _ _ => True) w ∧
      w.store.mem.changeSets[previewedPlan.id]? = some record ∧
      w'.store.mem.changeSets[previewedPlan.id]? = some record' ∧ record'.state = .failed ∧
      approval.approver.isSome = true ∧ record.approval = some approval ∧
      record'.approval = some approval ∧ record'.previewDigest = record.previewDigest := by
  obtain ⟨w, hreached, hrest⟩ := sampleRun_reached sealPlan_restarts
  obtain ⟨w', hrun, hrest⟩ := (Option.any_eq_true _ _).mp hrest
  obtain ⟨hrunning, hrest⟩ := Bool.and_eq_true_iff.mp hrest
  obtain ⟨⟨record, record'⟩, hpair, hrest⟩ := (Option.any_eq_true _ _).mp hrest
  obtain ⟨happroved, hstate⟩ := Bool.and_eq_true_iff.mp hrest
  obtain ⟨approval, happroval, hbinds⟩ := (Option.any_eq_true _ _).mp happroved
  obtain ⟨hgranted, hversion⟩ := Bool.and_eq_true_iff.mp hbinds
  obtain ⟨first, hrecord, hpair⟩ := bind_eq_some_iff.mp hpair
  obtain ⟨second, hrecord', hpair⟩ := map_eq_some_iff.mp hpair
  obtain ⟨rfl, rfl⟩ := Prod.mk.inj hpair
  have hstored : w.Stored w.store.mem := by
    obtain ⟨self, hself⟩ := isSome_iff_exists.mp hrunning
    unfold World.Stored
    rw [hself]
  obtain ⟨hkept, -, hdigest, -⟩ := sealed_approval_frozen hreached hstored hrecord happroval hgranted
    (of_decide_eq_true hversion) (Reachable.start.checked hrun) (.inl rfl) hrecord'
  exact ⟨w, w', first, second, approval, hreached, hrecord, hrecord', beq_iff_eq.mp hstate, hgranted,
    happroval, hkept, hdigest⟩

end Mecmcp.Changeset
