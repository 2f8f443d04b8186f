import Mecmcp.Changeset.ApplyClaim
import Mecmcp.Changeset.Lifecycle

/-!
# Locks — the device's configuration lock is accounted for

A `stage_operation` that ends with the device's lock granted and no confirmed release leaves a
record that says so.  An `apply_change_set` does not: where the device refuses to stage it drops the
reservation with the lock held, and where it gives up it asks for the release, does not look at the
answer, and drops the reservation.  In runs where neither happens every lock is accounted for
(`lock_on_record`).
-/

namespace Mecmcp.Changeset

variable {C : Crates} {V : Vendor} {path : Option String} {w : World C V}
variable {t : ℕ} {request : Request V} {c : Call V}

/-- This step keeps the lock accounted for: if it writes an operation record the write succeeds, and
if it is the answer of a device to an apply that holds its lock, the device has staged or has
confirmed the release. -/
def LockSafe (w : World C V) (a : Action V) : Prop :=
  match w.answerTo a with
  | some (t, .applyChangeSet _, ⟨c, answer⟩) => (⟨c, answer⟩ : Answered V).updateFailed = false ∧
    ((historyOf w.trace t).LockOpen → (⟨c, answer⟩ : Answered V).stageRefused = false ∧
      (⟨c, answer⟩ : Answered V).unlockUnconfirmed = false)
  | some (_, _, ⟨c, answer⟩) => (⟨c, answer⟩ : Answered V).updateFailed = false
  | none => True

instance (h : History V) : Decidable h.LockOpen := decidableSince h

instance (w : World C V) (a : Action V) : Decidable (LockSafe w a) := by
  unfold LockSafe
  split <;> infer_instance

variable {answer : c.Answer}

theorem lockSafe_answer {a : Action V} (h : LockSafe w a)
    (hanswer : w.answerTo a = some (t, request, ⟨c, answer⟩)) :
    (⟨c, answer⟩ : Answered V).updateFailed = false ∧
      ∀ args, request = .applyChangeSet args → (historyOf w.trace t).LockOpen →
        (⟨c, answer⟩ : Answered V).stageRefused = false ∧
        (⟨c, answer⟩ : Answered V).unlockUnconfirmed = false := by
  unfold LockSafe at h
  rw [hanswer] at h
  cases request with
  | applyChangeSet args => exact ⟨h.1, fun _ _ => h.2⟩
  | _ => exact ⟨h, fun _ heq => by cases heq⟩

def Returned (thread : Thread (calls V) CoordinatorError (Request V)) : Prop :=
  match thread.prog with
  | .call _ _ => False
  | _ => True

def Request.reserves : Request V → Option String
  | .stageOperation args => some args.device
  | .applyChangeSet args => some args.device
  | _ => none

def LockRecorded (state : ChangesetState) (device : String) : Prop :=
  ∃ (id : String) (record : OperationRecord), state.operations[id]? = some record ∧
    record.device = device ∧ record.configLockHeld = true

/-- Every `stage_operation` and `apply_change_set` that has returned with the lock granted and not
released left an operation record of its device that says so. -/
def LocksOnRecord (w : World C V) : Prop :=
  ∀ t thread device, w.threads t = some thread → Returned thread →
    thread.request.reserves = some device → (historyOf w.trace t).LockOpen →
    LockRecorded w.store.mem device

/-- What lock-safe steps add to the history of a thread. -/
structure SafeHistory (w : World C V) : Prop where
  updates : ∀ t answered, answered ∈ historyOf w.trace t → answered.updateFailed = false
  applies : ∀ t thread args, w.threads t = some thread → thread.request = .applyChangeSet args →
    ¬ LockLost (historyOf w.trace t)

theorem not_lockLost_nil : ¬ LockLost ([] : History V) := by
  rintro ⟨newer, answered, older, heq, -⟩
  cases newer <;> cases heq

theorem LockLost.cons {answered : Answered V} {h : History V} (hl : LockLost (answered :: h)) :
    LockLost h ∨ h.LockOpen ∧ (answered.stageRefused = true ∨ answered.unlockUnconfirmed = true) := by
  obtain ⟨newer, lost, older, heq, hopen, hreason⟩ := hl
  cases newer with
  | nil =>
    obtain ⟨rfl, rfl⟩ := List.cons.inj heq
    exact .inr ⟨hopen, hreason⟩
  | cons first newer =>
    obtain ⟨-, rfl⟩ := List.cons.inj heq
    exact .inl ⟨newer, lost, older, rfl, hopen, hreason⟩

theorem safeHistory_call {self : Config} {choice : Choice V} {next : c.Answer → Method V Unit}
    {mid : World C V} {events : List Event} (hs : SafeHistory w)
    (hc : World.Called path LockSafe w self t request c next answer mid events)
    (hsafe : LockSafe w (.advance t choice))
    (hchoice : w.exec self t c choice = some (mid, answer, events)) :
    SafeHistory (w.answered mid t request c next answer events) := by
  have hanswer : w.answerTo (.advance t choice) = some (t, request, ⟨c, answer⟩) := by
    simp [World.answerTo, hc.self_eq, hc.thread, hchoice]
  obtain ⟨hupdate, hconfirms⟩ := lockSafe_answer hsafe hanswer
  have hhistory := fun t' => World.historyOf_advance w t t' request c answer events
  refine ⟨fun t' answered hmem => ?_, fun t' thread args hthread hrequest hlost => ?_⟩
  · have hmem := (hhistory t') ▸ hmem
    split at hmem
    · obtain rfl | hmem := List.mem_cons.mp hmem
      · exact hupdate
      · exact hs.updates t' answered hmem
    · exact hs.updates t' answered hmem
  · have hlost := (hhistory t') ▸ hlost
    have hthread : w.threads.set t _ t' = some thread := hthread
    by_cases ht : t = t'
    · subst ht
      rw [if_pos rfl] at hlost
      rw [Pool.set_self] at hthread
      cases hthread
      obtain hlost | ⟨hopen, hreason⟩ := hlost.cons
      · exact hs.applies t _ args hc.thread hrequest hlost
      · obtain ⟨hstaged, hreleased⟩ := hconfirms args hrequest hopen
        rw [hstaged, hreleased] at hreason
        cases hreason <;> contradiction
    · rw [if_neg ht] at hlost
      rw [Pool.set_of_ne _ _ (Ne.symm ht)] at hthread
      exact hs.applies t' thread args hthread hrequest hlost

theorem reached_safeHistory (h : World.Reached path LockSafe w) : SafeHistory w := by
  refine World.reached_calls ?_ ?_ ?_ h
  · exact ⟨fun t answered hmem => absurd hmem List.not_mem_nil, fun t thread args hthread => by
      cases hthread⟩
  · exact fun w self t choice request c next answer mid events hc hs hsafe hchoice =>
      safeHistory_call hs hc hsafe hchoice
  · intro w a w' hreached hs _ hcase hno
    obtain ⟨new, htrace, hnew⟩ := hcase.outside hno
    have hhistory : ∀ t, historyOf w'.trace t = historyOf w.trace t := fun t => by
      rw [htrace, World.historyOf_outside hnew]
    refine ⟨fun t answered hmem => hs.updates t answered (hhistory t ▸ hmem),
      fun t thread args hthread hrequest hlost => ?_⟩
    obtain hthread | hnil := hcase.thread_outside (World.reached_grounded hreached) hno hthread
    · exact hs.applies t thread args hthread hrequest (hhistory t ▸ hlost)
    · exact not_lockLost_nil (hnil ▸ hlost)

theorem concluded_of_returned {ok : World C V → Action V → Prop} (h : World.Reached path ok w)
    {thread : Thread (calls V) CoordinatorError (Request V)}
    (hthread : w.threads t = some thread) (hreturned : Returned thread) :
    w.Agrees t (historyOf w.trace t) ∧ Concluded thread.request (historyOf w.trace t) := by
  cases hself : w.self with
  | none =>
    rw [((World.reached_grounded h).stopped hself).2.1] at hthread
    cases hthread
  | some self =>
    obtain ⟨known, ha, hkept⟩ := (World.reached_conducted h).kept self hself t thread hthread
    obtain rfl := ha.history
    refine ⟨ha, ?_⟩
    unfold Returned at hreturned
    split at hreturned
    · cases hreturned
    · next hprog =>
      cases hreached : thread.prog with
      | ret value => exact (hreached ▸ hkept :)
      | fail error => exact (hreached ▸ hkept :)
      | call c next => exact absurd hreached (hprog c next)

/-- **No lock is forgotten**, in runs of lock-safe steps. -/
theorem lock_on_record (h : World.Reached path LockSafe w) : LocksOnRecord w := by
  intro t thread device hthread hreturned hdevice hopen
  have hsafe := reached_safeHistory h
  obtain ⟨ha, hconcluded⟩ := concluded_of_returned h hthread hreturned
  -- a lock that is kept is on record
  have hkept : LockKept device (historyOf w.trace t) → LockRecorded w.store.mem device := by
    intro hkept
    obtain ⟨answered, hmem, hfailed⟩ | ⟨record, hknown, hguarded, hdevice, hlock, hterminal⟩ :=
      hkept hopen
    · rw [hsafe.updates t answered hmem] at hfailed
      cases hfailed
    · exact ⟨record.id, record, ha.known record hknown hguarded hterminal, hdevice, hlock⟩
  obtain ⟨request, prog⟩ := thread
  cases request with
  | stageOperation args =>
    cases hdevice
    exact hkept hconcluded
  | applyChangeSet args =>
    cases hdevice
    obtain hconcluded | hlost := hconcluded
    · exact hkept hconcluded
    · exact absurd hlost (hsafe.applies t _ args hthread rfl)
  | _ => cases hdevice

/-! ### A lock that is kept, and one that is forgotten -/

/-- The device of a reservation is locked and staged; the call is not over. -/
def stageLocked (t : ℕ) : List (Action Vendor.sample) :=
  .advance t (.flag true) :: .advance t (.write none) :: .advance t .go ::
    .advance t (.device (.lock (.ok ()))) :: (answerFingerprint t ++
      (.advance t (.write none) :: .advance t .go :: .advance t (.device (.stage (.ok ()))) ::
        (answerFingerprint t ++ [.advance t (.write none)])))

def lockedStage : List (Action Vendor.sample) :=
  startCoordinator ++ reserveDevice 0 (.sample "edge1" "https://a") 1 ++ stageLocked 0

/-- The thread has returned from a request on this device, with its lock granted and not
released. -/
def endsLocked (w : World Crates.sample Vendor.sample) (t : ℕ) (device : String) : Bool :=
  (w.threads t).any fun thread => (match thread.prog with | .call _ _ => false | _ => true) &&
    thread.request.reserves == some device && decide (historyOf w.trace t).LockOpen

theorem endsLocked_spec {w : World Crates.sample Vendor.sample} {t : ℕ} {device : String}
    (h : endsLocked w t device = true) : ∃ thread, w.threads t = some thread ∧ Returned thread ∧
      thread.request.reserves = some device ∧ (historyOf w.trace t).LockOpen := by
  obtain ⟨thread, hthread, h⟩ := (Option.any_eq_true _ _).mp h
  simp only [Bool.and_eq_true, beq_iff_eq, decide_eq_true_eq] at h
  obtain ⟨⟨hreturned, hreserves⟩, hopen⟩ := h
  refine ⟨thread, hthread, ?_, hreserves, hopen⟩
  unfold Returned
  split at hreturned
  · cases hreturned
  · next hprog =>
    split
    · next hcall => exact hprog _ _ hcall
    · trivial

theorem lockedStage_ends : ((checkedRun none LockSafe lockedStage).any fun w =>
    endsLocked w 0 "edge1") = true := by decide +kernel

/-- A stage ends with the device locked, and the lock is on record. -/
theorem lockedStage_on_record : ∃ w : World Crates.sample Vendor.sample,
    World.Reached none LockSafe w ∧ endsLocked w 0 "edge1" = true ∧
      LockRecorded w.store.mem "edge1" := by
  obtain ⟨w, hreached, hends⟩ := checkedRun_reached lockedStage_ends
  obtain ⟨thread, hthread, hreturned, hreserves, hopen⟩ := endsLocked_spec hends
  exact ⟨w, hreached, hends,
    lock_on_record hreached 0 thread "edge1" hthread hreturned hreserves hopen⟩

/-- The step is no write of the file that fails. -/
def Action.faultless {V : Vendor} : Action V → Bool
  | .advance _ (.write fault) => fault.isNone
  | .advance _ (.writes sweepFault finalFault) => sweepFault.isNone && finalFault.isNone
  | _ => true

def ApplyArgs.sample : ApplyArgs where
  changeSetId := (samplePlan 'a').id
  device := "edge1"
  endpoint := "https://a"
  owner := "alice"
  expectedDigest := (samplePlan 'a').digest
  expectedFingerprint := sampleFingerprint
  primaryActionDiscriminator := "set"
  vendorPrimaryTarget := none
  configAuthority := none

/-- An apply reads the approved plan, takes the guard, and reads the plan again. -/
def startApply (t : ℕ) : List (Action Vendor.sample) :=
  [.spawn (.applyChangeSet .sample), .advance t .go, .advance t .go, .advance t .go,
    .advance t .go, .advance t (.flag false), .advance t .go, .advance t .go]

/-- It reserves the device, claims the plan and links the two. -/
def reserveAndClaim (t : ℕ) (byte : UInt8) : List (Action Vendor.sample) :=
  [.advance t (.random (.ok (List.replicate 32 byte))), .advance t (.write none),
    .advance t (.write none), .advance t (.write none), .advance t .go, .advance t (.write none)]

def refuseStage (t : ℕ) : List (Action Vendor.sample) :=
  .advance t (.flag true) :: .advance t .go :: .advance t (.device (.lock (.ok ()))) ::
    (answerFingerprint t ++ [.advance t .go,
      .advance t (.device (.stage (.error "no such interface"))),
      .advance t (.write none), .advance t (.write none), .advance t (.text "no such interface")])

def refusedApply : List (Action Vendor.sample) :=
  startAndPlan .sample ++ approvePlan 1 ++ startApply 2 ++ answerFingerprint 2 ++
    reserveAndClaim 2 1 ++ refuseStage 2

theorem refusedApply_ends :
    ((checkedRun (some "/var/lib/mecmcp/state.json") (fun _ a => a.faultless = true)
      refusedApply).any fun w =>
        endsLocked w 2 "edge1" && w.store.mem.operations.toList.isEmpty) = true := by
  decide +kernel

/-- Every write succeeds; an apply is granted the device's lock, its stage is refused, and it
returns with no operation on record. -/
theorem refusedApply_forgets_lock : ∃ w : World Crates.sample Vendor.sample,
    World.Reached (some "/var/lib/mecmcp/state.json") (fun _ a => a.faultless = true) w ∧
      ¬ LocksOnRecord w := by
  obtain ⟨w, hreached, hcheck⟩ := checkedRun_reached refusedApply_ends
  obtain ⟨hends, hempty⟩ := Bool.and_eq_true_iff.mp hcheck
  obtain ⟨thread, hthread, hreturned, hreserves, hopen⟩ := endsLocked_spec hends
  refine ⟨w, hreached, fun hall => ?_⟩
  obtain ⟨id, record, hr, -⟩ := hall 2 thread "edge1" hthread hreturned hreserves hopen
  have hmem := Std.ExtTreeMap.mem_toList_iff_getElem?_eq_some.mpr hr
  rw [List.isEmpty_iff.mp hempty] at hmem
  exact absurd hmem List.not_mem_nil

end Mecmcp.Changeset
