import Mecmcp.Changeset.Moves
import Mecmcp.Lib.History

/-!
# ApplyClaim — one approval permits at most one apply

A claim that returned `Ok` left the change set `Applying`, in memory and in the file.  No write,
sweep, undo, restart or later claim leads from there back to `Planned` or `Approved`
(`Evolves.expirable`), so until the id is inserted again it cannot be claimed again.

The insert that reopens an id need not have succeeded: one whose final write failed with the new
file in place is reported as an error and taken out of memory, but a restart reads it from the file
(`claimed_twice_after_failed_insert`).
-/

namespace Mecmcp.Changeset

open List

variable {C : Crates} {V : Vendor} {path : Option String} {id : String}

/-! ### Claims and inserts in a history -/

section
variable {entry : Entry V}

/-- `claim_change_set_for_apply` of the id returned `Ok`. -/
def Entry.claimsOk (id : String) (entry : Entry V) : Bool :=
  match entry.what with
  | .answered (.claimChangeSetForApply claimed _ _) answer => claimed == id && Except.isOk answer
  | _ => false

/-- `insert_change_set` of the id returned `Ok`. -/
def Entry.insertsOk (id : String) (entry : Entry V) : Bool :=
  match entry.what with
  | .answered (.insertChangeSet record) answer => record.id == id && Except.isOk answer
  | _ => false

/-- `insert_change_set` of the id returned `Ok`, or failed with the record in the file. -/
def Entry.inserts (id : String) (entry : Entry V) : Bool :=
  match entry.what with
  | .store (.inserted record _) => record.id == id
  | _ => false

abbrev ClaimOpen (id : String) (trace : List (Entry V)) : Prop :=
  Since (fun entry => entry.claimsOk id = true) (fun entry => entry.inserts id = true) trace

theorem Entry.Outside.not_claimsOk (h : entry.Outside) : ¬ entry.claimsOk id = true := by
  obtain ⟨source, clock, what⟩ := entry
  cases what with
  | answered => cases h
  | store | resolved => nofun

end

theorem Evolves.expirable {record next : ChangeSetRecord}
    (h : Evolves record next) (hnext : isExpirable next.state = true) :
    isExpirable record.state = true := by
  obtain h | ⟨h, -⟩ := h.state
  · revert h hnext
    cases record.state <;> cases next.state <;> decide
  · rw [h]
    rfl

namespace World

section
variable {w w' : World C V} {a : Action V}
variable {self : Config} {t : ℕ} {mid : World C V} {events : List Event} {c : Call V}

/-! ### What a claim does -/

/-- A claim that returned `Ok` found the change set `Approved` and left it `Applying` in memory and,
if there is one, in the file. -/
theorem claimed_of_ok {device : String} {handle : ApplyHandle}
    {answer : Except CoordinatorError ChangeSetRecord}
    (h : Executed w self t (.claimChangeSetForApply id device handle) answer mid events)
    (hok : answer.isOk = true) :
    ∃ previous, w.store.mem.changeSets[id]? = some previous ∧ previous.state = .approved ∧
      (∀ state, state = mid.store.mem ∨ .wrote state ∈ events →
        state.changeSets[id]? = some (previous.claimedAs handle)) ∧
      (lastWritten events = none → self.statePath = none) := by
  cases h with
  | quiet _ hquiet => cases hquiet
  | claimChangeSetForApply _ _ _ fault =>
    obtain ⟨error, h⟩ | ⟨previous, effect, hprevious, -, happroved, hwrite, h⟩ :=
      @claimChangeSetForApply_outcome C self w.store fault id device handle
    · rw [h] at hok
      cases hok
    rw [h] at hok ⊢
    refine ⟨previous, hprevious, happroved, fun state hstate => ?_, fun hlast => ?_⟩
    · have hput : state = w.store.mem.putChangeSet id (previous.claimedAs handle) := by
        have hl : effect.Leaves state := by
          refine @leaves_of_log C Unit _ effect (effect.result.map fun _ => previous.claimedAs handle)
            [.claimed _ _] (fun s hs => ?_) state hstate
          cases mem_singleton.mp hs
        obtain ⟨rfl, -⟩ | rfl := hwrite.leaves hl <;> rfl
      rw [hput, getElem?_putChangeSet, if_pos rfl]
    · cases hwrite with
      | unwritten hpath => exact hpath
      | written hpath => cases hlast
      | failed error hpath => cases hok
      | landed error hpath => cases hok

/-! ### A spent change set stays spent -/

/-- A claimed id that was not inserted since is in no held state `Planned` or `Approved`. -/
def Spent (w : World C V) : Prop :=
  ∀ id, ClaimOpen id w.trace → ∀ state, w.Holds state →
    ∀ record, state.changeSets[id]? = some record → isExpirable record.state = false

theorem spent_of_moves {old new : ChangesetState} (h : ChangeSetMoves C self c events old new)
    (hnone : ∀ record ok, .inserted record ok ∈ events → record.id ≠ id)
    (hold : ∀ record, old.changeSets[id]? = some record → isExpirable record.state = false)
    {record : ChangeSetRecord} (hr : new.changeSets[id]? = some record) :
    isExpirable record.state = false := by
  have hmoved : MovedFrom C c events old id record := by
    cases h with
    | kept h => exact h id record hr
    | inserted added ok _ _ hinserted _ _ h =>
      obtain ⟨hid, -⟩ | hmoved := h id record hr
      · exact absurd (normaliseRecord_id.trans hid.symm) (hnone _ _ hinserted)
      · exact hmoved
  obtain ⟨original, ho, hmove⟩ := hmoved
  have hspent := hold original ho
  by_contra hexpirable
  rw [(recordMove_evolves hmove).expirable (Bool.not_eq_false _ ▸ hexpirable)] at hspent
  cases hspent

theorem spent_advance (hg : Grounded path w) (hkeyed : Keyed w.store.mem) (hspent : Spent w)
    {request : Request V}
    {next : c.Answer → Method V Unit} {answer : c.Answer}
    (hself : w.self = some self) (hexec : Executed w self t c answer mid events) :
    Spent (w.answered mid t request c next answer events) := by
  intro id hopen state hheld record hr
  have hcases := answered_holds hheld
  obtain hclaim | ⟨-, hrest⟩ := hopen
  · cases c
    case claimChangeSetForApply claimed device handle =>
      obtain ⟨hid, hok⟩ := Bool.and_eq_true_iff.mp hclaim
      obtain rfl := beq_iff_eq.mp hid
      obtain ⟨previous, -, -, hleft, hpathless⟩ := claimed_of_ok hexec hok
      obtain hnew | ⟨hlast, him⟩ := hcases
      · obtain rfl := Option.some.inj (hr.symm.trans (hleft state hnew))
        rfl
      · rw [hg.pathless ((hg.config self hself).symm.trans (hpathless hlast))] at him
        cases him
    all_goals cases hclaim
  · obtain ⟨hold, hnone⟩ := since_append (fun entry he => by
      obtain ⟨event, -, rfl⟩ := mem_map.mp he
      nofun) hrest
    obtain hnew | ⟨-, him⟩ := hcases
    · refine spent_of_moves (exec_moves hkeyed hexec hnew).changeSets ?_
        (hspent id hold _ (.inl rfl)) hr
      intro added ok hmem hid
      exact hnone _ (mem_map_of_mem hmem) (beq_iff_eq.mpr hid)
    · exact hspent id hold state (.inr him) record hr

theorem spent_outside (hspent : Spent w) (hcase : StepCase path w a w')
    (ha : ∀ t choice, a ≠ .advance t choice) : Spent w' := by
  intro id hopen state hheld record hr
  obtain ⟨new, htrace, hout⟩ := hcase.outside ha
  have hold : ClaimOpen id w.trace := by
    rw [htrace] at hopen
    exact (since_append (fun entry he => (hout entry he).not_claimsOk) hopen).1
  obtain hheld | hnew := hcase.holds hheld
  · exact hspent id hold state hheld record hr
  obtain ⟨held, original, him, ho, hevolves, -⟩ := hnew.evolves ha hr
  have hspent := hspent id hold held (.inr him) original ho
  by_contra hexpirable
  rw [hevolves.expirable (Bool.not_eq_false _ ▸ hexpirable)] at hspent
  cases hspent

theorem reached_spent {ok : World C V → Action V → Prop} (h : Reached path ok w) : Spent w := by
  refine reached_invariant ?_ ?_ h
  · intro id hopen
    cases hopen
  · intro w a w' hreached hspent _ hcase
    obtain ⟨t, choice, rfl⟩ | ha := a.advance_or_not
    · cases hcase with
      | advance _ _ self request c next answer mid events hself hthread hexec =>
        exact spent_advance (reached_grounded hreached) (reached_keyed hreached (.inl rfl)) hspent
          hself hexec
    · exact spent_outside hspent hcase ha

end

end World

variable {w : World C V}

/-- **One approval permits at most one apply**: in every run, between two claims of one id that
returned `Ok`, the id was inserted again, by an `insert_change_set` that returned `Ok` or that failed
with the record in the file. -/
theorem claims_separated_by_insert (h : World.Reached path (fun _ _ => True) w) (id : String) :
    Separated (fun entry => entry.claimsOk id = true) (fun entry => entry.inserts id = true)
      w.trace := by
  refine World.reached_invariant (P := fun w => Separated (fun entry => entry.claimsOk id = true)
    (fun entry => entry.inserts id = true) w.trace) separated_nil ?_ h
  intro w a w' hreached hseparated _ hcase
  obtain ⟨t, choice, rfl⟩ | ha := a.advance_or_not
  rotate_left
  · obtain ⟨new, htrace, hout⟩ := hcase.outside ha
    rw [htrace]
    exact separated_append (fun entry he => (hout entry he).not_claimsOk) hseparated
  cases hcase with
  | advance _ _ self request c next answer mid events hself hthread hexec =>
    have hstored : ∀ entry ∈ w.storeEntries (some (t, request)) events,
        ¬ entry.claimsOk id = true := by
      intro entry he
      obtain ⟨event, -, rfl⟩ := mem_map.mp he
      nofun
    refine separated_cons (separated_append hstored hseparated) fun hclaim hopen => ?_
    have hopen := (since_append hstored hopen).1
    cases c
    case claimChangeSetForApply claimed device handle =>
      obtain ⟨hid, hok⟩ := Bool.and_eq_true_iff.mp hclaim
      obtain rfl := beq_iff_eq.mp hid
      -- the claim found the record `Approved`
      obtain ⟨previous, hprevious, happroved, -⟩ := World.claimed_of_ok hexec hok
      have hspent := World.reached_spent hreached _ hopen _ (.inl rfl) previous hprevious
      rw [happroved] at hspent
      cases hspent
    all_goals cases hclaim

/-- The plan is approved by `bob` and claimed, by the calls numbered `t` and `t + 1`. -/
def approveAndClaim (t : ℕ) : List (Action Vendor.sample) :=
  [.spawn (.approveChangeSet (samplePlan 'a').id "edge1" "bob" (samplePlan 'a').digest .human),
    .advance t .go, .advance t .go, .advance t (.write none),
    .spawn (.claimChangeSetForApply (samplePlan 'a').id "edge1" .expected),
    .advance (t + 1) (.write none)]

def startAndPlan (args : LoadArgs) : List (Action Vendor.sample) :=
  [.tick (some 100), .load args .quiet,
    .spawn (.insertChangeSet (samplePlan 'a')), .advance 0 (.writes none none)]

/-- `bob` approves the plan. -/
def approvePlan (t : ℕ) : List (Action Vendor.sample) :=
  [.spawn (.approveChangeSet (samplePlan 'a').id "edge1" "bob" (samplePlan 'a').digest .human),
    .advance t .go, .advance t .go, .advance t (.write none), .finish t]

/-- Room for one change set. -/
def LoadArgs.tight : LoadArgs :=
  { LoadArgs.sample with limits := { OperationLimits.default with maxChangeSets := 1 } }

/-- The coordinator is restarted, which settles the claimed plan; an insert of another plan evicts
it and fails; then an insert of the first plan fails in the last step of its write, with the record
in the file, and the coordinator is restarted. -/
def evictAndReinsert : List (Action Vendor.sample) :=
  [.crash, .load .tight .quiet,
    .spawn (.insertChangeSet (samplePlan 'b')),
    .advance 3 (.writes none (some ⟨.write, "no space left on device"⟩)),
    .spawn (.insertChangeSet (samplePlan 'a')),
    .advance 4 (.writes none (some ⟨.syncDirectory, "input/output error"⟩)),
    .crash, .load .tight .quiet]

def reclaimRun : List (Action Vendor.sample) :=
  startAndPlan .tight ++ approveAndClaim 1 ++ evictAndReinsert ++ approveAndClaim 5

theorem reclaimRun_claims :
    ((sampleRun (some "/var/lib/mecmcp/state.json") reclaimRun).any fun w =>
      w.trace.countP (Entry.claimsOk (samplePlan 'a').id) == 2 &&
      decide (¬ Separated (fun entry => entry.claimsOk (samplePlan 'a').id = true)
        (fun entry => entry.insertsOk (samplePlan 'a').id = true) w.trace)) = true := by
  decide +kernel

/-- A plan is claimed twice in a run; the insert that failed with the record in the file stands
between the claims. -/
theorem samplePlan_claimed_twice : ∃ w : World Crates.sample Vendor.sample,
    World.Reached (some "/var/lib/mecmcp/state.json") (fun _ _ => True) w ∧
      w.trace.countP (Entry.claimsOk (samplePlan 'a').id) = 2 ∧
      Separated (fun entry => entry.claimsOk (samplePlan 'a').id = true)
        (fun entry => entry.inserts (samplePlan 'a').id = true) w.trace := by
  obtain ⟨w, hreached, hclaims⟩ := sampleRun_reached reclaimRun_claims
  exact ⟨w, hreached, beq_iff_eq.mp (Bool.and_eq_true_iff.mp hclaims).1,
    claims_separated_by_insert hreached _⟩

/-- Two claims of one id return `Ok` with no successful insert of it between them. -/
theorem claimed_twice_after_failed_insert : ∃ w : World Crates.sample Vendor.sample,
    World.Reached (some "/var/lib/mecmcp/state.json") (fun _ _ => True) w ∧
      ¬ Separated (fun entry => entry.claimsOk (samplePlan 'a').id = true)
        (fun entry => entry.insertsOk (samplePlan 'a').id = true) w.trace := by
  obtain ⟨w, hreached, hclaims⟩ := sampleRun_reached reclaimRun_claims
  exact ⟨w, hreached, of_decide_eq_true (Bool.and_eq_true_iff.mp hclaims).2⟩

end Mecmcp.Changeset
