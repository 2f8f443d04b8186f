import Mecmcp.Changeset.Moves

/-!
# Pending — one pending change set per principal and device

`insert_change_set` is the only place that looks for a pending change set of the same principal on
the same device.  That it is enough rests on the other doors: no write, sweep, undo, restart or
claim makes a settled change set pending again, and none changes its owner or device
(`Evolves`).
-/

namespace Mecmcp.Changeset

variable {C : Crates} {V : Vendor}

/-- At most one change set per owner and device is `Planned`, `Approved` or `Applying`. -/
def OnePending (state : ChangesetState) : Prop :=
  ∀ (id₁ id₂ : String) r₁ r₂, state.changeSets[id₁]? = some r₁ → state.changeSets[id₂]? = some r₂ →
    isPending r₁.state = true → isPending r₂.state = true → r₁.owner = r₂.owner →
    r₁.device = r₂.device → id₁ = id₂

section
variable {c : Call V} {events : List Event} {record next : ChangeSetRecord}
variable {old new : ChangesetState}

theorem Evolves.pending (h : Evolves record next) (hp : isPending next.state = true) :
    isPending record.state = true := by
  obtain h | ⟨h, -⟩ := h.state
  · revert h hp
    cases record.state <;> cases next.state <;> decide
  · rw [h]
    rfl

/-- A state whose pending change sets were pending before has one per owner and device if the state
before had. -/
theorem onePending_of_from (hold : OnePending old)
    (h : ∀ (id : String) next, new.changeSets[id]? = some next →
      ∃ record, old.changeSets[id]? = some record ∧ Evolves record next) : OnePending new := by
  intro id₁ id₂ n₁ n₂ h₁ h₂ hp₁ hp₂ howner hdevice
  obtain ⟨r₁, hr₁, hfrom₁⟩ := h id₁ n₁ h₁
  obtain ⟨r₂, hr₂, hfrom₂⟩ := h id₂ n₂ h₂
  exact hold id₁ id₂ r₁ r₂ hr₁ hr₂ (hfrom₁.pending hp₁) (hfrom₂.pending hp₂)
    (hfrom₁.owner ▸ hfrom₂.owner ▸ howner) (hfrom₁.device ▸ hfrom₂.device ▸ hdevice)

theorem changeSetMoves_onePending {self : Config}
    (hold : OnePending old) (h : ChangeSetMoves C self c events old new) : OnePending new := by
  cases h with
  | kept h =>
    refine onePending_of_from hold fun id next hn => ?_
    obtain ⟨record, hr, hmove⟩ := h id next hn
    exact ⟨record, hr, recordMove_evolves hmove⟩
  | inserted record ok _ _ _ _ hpending h =>
    intro id₁ id₂ n₁ n₂ h₁ h₂ hp₁ hp₂ howner hdevice
    by_cases hsame : n₁.owner = record.owner ∧ n₁.device = record.device
    · -- both compete with the new record, so both are it
      rw [hpending id₁ n₁ h₁ hsame.1 hsame.2 hp₁,
        hpending id₂ n₂ h₂ (howner ▸ hsame.1) (hdevice ▸ hsame.2) hp₂]
    · have hmoved : ∀ (id : String) n, new.changeSets[id]? = some n →
          ¬ (n.owner = record.owner ∧ n.device = record.device) →
          ∃ r, old.changeSets[id]? = some r ∧ Evolves r n := by
        intro id n hn hne
        obtain ⟨-, rfl⟩ | ⟨r, hr, hmove⟩ := h id n hn
        · obtain ⟨taskId, applyWithoutHandle, heq⟩ := normaliseRecord_eq record
          rw [heq] at hne
          exact absurd ⟨rfl, rfl⟩ hne
        · exact ⟨r, hr, recordMove_evolves hmove⟩
      obtain ⟨r₁, hr₁, hfrom₁⟩ := hmoved id₁ n₁ h₁ hsame
      obtain ⟨r₂, hr₂, hfrom₂⟩ := hmoved id₂ n₂ h₂ (howner ▸ hdevice ▸ hsame)
      exact hold id₁ id₂ r₁ r₂ hr₁ hr₂ (hfrom₁.pending hp₁) (hfrom₂.pending hp₂)
        (hfrom₁.owner ▸ hfrom₂.owner ▸ howner) (hfrom₁.device ▸ hfrom₂.device ▸ hdevice)

end

variable {path : Option String} {w : World C V}

theorem onePending_empty : OnePending .empty := by
  intro id₁ id₂ r₁ r₂ h₁
  simp [ChangesetState.empty] at h₁

/-- **One pending change set per principal and device**, in memory and in the file, in every run of
the system. -/
theorem one_pending_in_every_run (h : World.Reached path (fun _ _ => True) w)
    {state : ChangesetState} (hheld : w.Holds state) : OnePending state := by
  refine World.reached_holds onePending_empty ?_ h hheld
  intro w a state hreached hheld _ hnew
  have himage : ∀ {new : ChangesetState}, (∀ (id : String) next, new.changeSets[id]? = some next →
      ∃ state record, w.image = some state ∧ state.changeSets[id]? = some record ∧
        Evolves record next) → OnePending new := by
    intro new hfrom
    cases him : w.image with
    | none =>
      intro id₁ id₂ r₁ r₂ h₁
      obtain ⟨state, -, hstate, -⟩ := hfrom id₁ r₁ h₁
      rw [him] at hstate
      cases hstate
    | some held =>
      refine onePending_of_from (hheld held (.inr him)) fun id next hn => ?_
      obtain ⟨state, record, hstate, hr, hp⟩ := hfrom id next hn
      cases him.symm.trans hstate
      exact ⟨record, hr, hp⟩
  cases hnew with
  | stopped => exact onePending_empty
  | executed t choice self request c next answer mid events state hself hthread hexec hl =>
    have hkeyed := World.reached_keyed hreached (.inl rfl)
    exact changeSetMoves_onePending (hheld _ (.inl rfl)) (exec_moves hkeyed hexec hl).changeSets
  | recovered args env hself hloads =>
    refine himage fun id next hn => ?_
    obtain ⟨state, original, him, ho, rfl⟩ := World.recovered_changeSet hn
    exact ⟨state, original, him, ho, recovered_evolves _ original⟩
  | resolved operationId disposition confirmation limits env record hrecord hterminal hloads =>
    refine himage fun id next hn => ?_
    obtain ⟨state, original, him, ho, rfl⟩ := readBack_changeSet hn
    exact ⟨state, original, him, ho, readBack_evolves _ original⟩

/-- Plans of `alice` for two devices, and then a second one for the first device, which is refused. -/
theorem samplePlans_pending : ((sampleRun none [.tick (some 100), .load .sample .quiet,
    .spawn (.insertChangeSet (samplePlan 'a')), .advance 0 (.writes none none),
    .spawn (.insertChangeSet { samplePlan 'b' with device := "edge2" }),
    .advance 1 (.writes none none),
    .spawn (.insertChangeSet (samplePlan 'c')), .advance 2 (.writes none none)]).any fun w =>
      w.store.mem.changeSets.toList.map (fun entry => (entry.1, isPending entry.2.state)) ==
        [((samplePlan 'a').id, true), ((samplePlan 'b').id, true)]) = true := by decide +kernel

/-- A coordinator that holds two pending plans of one principal. -/
theorem samplePlans_one_each : ∃ w : World Crates.sample Vendor.sample,
    World.Reached none (fun _ _ => True) w ∧
      w.store.mem.changeSets.toList.map (fun entry => (entry.1, isPending entry.2.state)) =
        [((samplePlan 'a').id, true), ((samplePlan 'b').id, true)] ∧
      OnePending w.store.mem := by
  obtain ⟨w, hreached, hpending⟩ := sampleRun_reached samplePlans_pending
  exact ⟨w, hreached, beq_iff_eq.mp hpending, one_pending_in_every_run hreached (.inl rfl)⟩

end Mecmcp.Changeset
