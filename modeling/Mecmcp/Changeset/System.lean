import Mecmcp.Changeset.Load
import Mecmcp.Changeset.Operation
import Mecmcp.Lib.Pool

/-!
# System — a coordinator, its callers and its state file

The whole system one deployment is: at most one running coordinator, any number of calls in
progress, the state file, the clock, the device guards, and an operator who may resolve an
operation while no coordinator runs.  A step is one of

* the clock changes; a coordinator is loaded; it stops or dies; an operation is resolved offline;
* a caller starts a method (`Request`), with arbitrary arguments;
* one call of a method in progress is answered, with whatever the environment chooses;
* a method returns or is dropped, and gives its device guard back.

So the runs of this system are all interleavings of the methods at their await points, with
cancellation at each of them, persistence failures and restarts.  `trace` is the history, newest
first.  `exec_executed` says what one answered call does to the world.
-/

namespace Mecmcp.Changeset

variable {C : Crates} {V : Vendor}

/-! ### Requests -/

/-- A call of one of the coordinator's methods. -/
inductive Request (V : Vendor) where
  | createChangeSet (device : String) (actions : List V.Action)
      (owner expectedFingerprint policySignature : String)
  | approveChangeSet (changeSetId device approver expectedDigest : String)
      (approverActorType : ActorType)
  | waiveApproval (changeSetId device owner expectedDigest : String)
  | waiveApprovalOperator (changeSetId device owner expectedDigest : String)
      (waiver : WaiverRecord)
  | changeSetStatus (changeSetId device : String)
  | changeSetStatusWithActions (changeSetId device : String)
  | cancelChangeSet (changeSetId device principal : String)
  | insertChangeSet (record : ChangeSetRecord)
  | updateChangeSet (record : ChangeSetRecord)
  | updateChangeSetFrom (observed : ChangeSetState) (record : ChangeSetRecord)
  | claimChangeSetForApply (id device : String) (handle : ApplyHandle)
  | applyChangeSet (args : ApplyArgs)
  | stageOperation (args : StageArgs V)
  | diffOperation (args : OperationArgs) (staged : V.Staged)
  | validateOperation (args : OperationArgs) (staged : V.Staged)
  | commitOperation (args : CommitArgs V)
  | discardOperation (args : OperationArgs)

def Request.program {V : Vendor} (C : Crates) (self : Config) : Request V → Method V Unit
  | createChangeSet device actions owner expectedFingerprint policySignature =>
    (Changeset.createChangeSet C self device actions owner expectedFingerprint
      policySignature).discard
  | approveChangeSet changeSetId device approver expectedDigest approverActorType =>
    (Changeset.approveChangeSet C self changeSetId device approver expectedDigest
      approverActorType).discard
  | waiveApproval changeSetId device owner expectedDigest =>
    (Changeset.waiveApproval C self changeSetId device owner expectedDigest).discard
  | waiveApprovalOperator changeSetId device owner expectedDigest waiver =>
    (Changeset.waiveApprovalOperator C self changeSetId device owner expectedDigest waiver).discard
  | changeSetStatus changeSetId device => (Changeset.changeSetStatus changeSetId device).discard
  | changeSetStatusWithActions changeSetId device =>
    (Changeset.changeSetStatusWithActions changeSetId device).discard
  | cancelChangeSet changeSetId device principal =>
    (Changeset.cancelChangeSet changeSetId device principal).discard
  | insertChangeSet record => Method.insertChangeSet record
  | updateChangeSet record => Method.updateChangeSet record
  | updateChangeSetFrom observed record => Method.updateChangeSetFrom observed record
  | claimChangeSetForApply id device handle =>
    (Method.claimChangeSetForApply id device handle).discard
  | applyChangeSet args => (Changeset.applyChangeSet C self args).discard
  | stageOperation args => (Changeset.stageOperation C args).discard
  | diffOperation args staged => (Changeset.diffOperation args staged).discard
  | validateOperation args staged => (Changeset.validateOperation args staged).discard
  | commitOperation args => (Changeset.commitOperation self args).discard
  | discardOperation args => (Changeset.discardOperation args).discard

/-! ### The world -/

inductive Happening (V : Vendor) where
  /-- a critical section, a load or a resolution did this to the store -/
  | store (event : Event)
  | answered (call : Call V) (answer : call.Answer)
  | resolved (operationId : String) (disposition : RecoveryDisposition)

/-- One line of the history: which call it belongs to, if any, the clock, and what happened. -/
structure Entry (V : Vendor) where
  source : Option (ℕ × Request V)
  clock : Option UInt64
  what : Happening V

structure World (C : Crates) (V : Vendor) where
  /-- the configuration of the running coordinator -/
  self : Option Config
  store : Store C
  /-- seconds since the Unix epoch; `none` is a clock before it -/
  clock : Option UInt64
  /-- which thread holds the guard of a device -/
  guards : String → Option ℕ
  /-- the random ids drawn so far -/
  used : List String
  threads : Pool (calls V) CoordinatorError (Request V)
  nextThread : ℕ
  trace : List (Entry V)

/-- No coordinator, no file. -/
def World.initial (C : Crates) (V : Vendor) : World C V where
  self := none
  store := ⟨.empty, none⟩
  clock := none
  guards _ := none
  used := []
  threads := .empty
  nextThread := 0
  trace := []

/-! ### Steps -/

inductive DeviceAnswer (V : Vendor) where
  | fingerprint (answer : Except String String)
  | stage (answer : Except String V.Staged)
  | diff (answer : Except String V.Diff)
  | validate (answer : Except String V.Validation)
  | commit (answer : Except String CommitOutcome)
  | rollback (answer : Except String RollbackOutcome)
  | lock (answer : Except String Unit)
  | unlock (answer : Except String UnlockOutcome)

def DeviceAnswer.to {V : Vendor} : DeviceAnswer V → (rpc : Rpc V) → Option rpc.Answer
  | fingerprint answer, .fingerprint => some answer
  | stage answer, .stage _ => some answer
  | diff answer, .diff _ => some answer
  | validate answer, .validate _ => some answer
  | commit answer, .commit _ _ _ => some answer
  | rollback answer, .rollback _ => some answer
  | lock answer, .lock _ => some answer
  | unlock answer, .unlock => some answer
  | _, _ => none

/-- What the environment decides about one call. -/
inductive Choice (V : Vendor) where
  | go
  /-- whether and where the write of the file fails -/
  | write (fault : Option WriteFault)
  /-- the same for the two writes of `insert_change_set` -/
  | writes (sweepFault finalFault : Option WriteFault)
  | random (bytes : Except String (List UInt8))
  | flag (value : Bool)
  | cancelled
  | text (value : String)
  | reported (result : Except String Unit)
  | device (answer : DeviceAnswer V)

namespace World

/-- A critical section ran. -/
def afterSection {α : Type} (w : World C V) (effect : Effect C α) :
    Option (World C V × Except CoordinatorError α × List Event) :=
  some ({ w with store := effect.store }, effect.result, effect.events)

/-- A call that changes nothing was answered. -/
def quiet {α : Type} (w : World C V) (answer : α) : Option (World C V × α × List Event) :=
  some (w, answer, [])

def nowUnix (w : World C V) : Except CoordinatorError UInt64 :=
  match w.clock with
  | some now => .ok now
  | none => .error ⟨"time", "system clock is before the Unix epoch"⟩

/-- Answer one call of thread `t`: the world, the answer, and what the store did. -/
def exec (w : World C V) (self : Config) (t : ℕ) :
    (c : Call V) → Choice V → Option (World C V × c.Answer × List Event)
  | .nowUnix, .go => w.quiet w.nowUnix
  | .newOperationId, .random (.error error) =>
    w.quiet (.error ⟨"operation_id", "RNG unavailable: " ++ error⟩)
  | .newOperationId, .random (.ok bytes) =>
    -- 32 random bytes; a 256-bit id is never drawn twice
    if bytes.length = 32 ∧ bytesHex bytes ∉ w.used then
      some ({ w with used := bytesHex bytes :: w.used }, .ok (bytesHex bytes), [])
    else none
  | .isCancelled, .flag value => w.quiet value
  | .deviceGuard _, .cancelled => w.quiet (.error ⟨"device", "operation cancelled"⟩)
  | .deviceGuard endpoint, .go =>
    if w.guards endpoint = none then
      some ({ w with guards := fun device => if device = endpoint then some t else w.guards device },
        .ok (), [])
    else none
  | .changeSet id device, .go => w.quiet (readChangeSet w.store id device)
  | .insertChangeSet record, .writes sweepFault finalFault =>
    w.afterSection (insertChangeSet self w.clock sweepFault finalFault record w.store)
  | .updateChangeSet record, .write fault =>
    w.afterSection (updateChangeSet self fault record w.store)
  | .updateChangeSetFrom observed record, .write fault =>
    w.afterSection (updateChangeSetFrom self fault observed record w.store)
  | .claimChangeSetForApply id device handle, .write fault =>
    w.afterSection (claimChangeSetForApply self fault id device handle w.store)
  | .record operationId owner device, .go =>
    w.quiet (readRecord w.store operationId owner device)
  | .insert record, .write fault => w.afterSection (insertOperation self fault record w.store)
  | .update record, .write fault => w.afterSection (updateOperation self fault record w.store)
  | .remove operationId, .write fault =>
    let effect := removeOperation self fault operationId w.store
    some ({ w with store := effect.store }, (), effect.events)
  | .evidence _, .reported result => w.quiet result
  | .renderTagged _ _, .text value => w.quiet value
  | .requiresConfigLock, .flag value => w.quiet value
  | .send _, .go => w.quiet ()
  | .receive rpc, .device answer => (answer.to rpc).bind w.quiet
  | .cancelledFirst, .flag value => w.quiet value
  | .receiveOrCancelled _, .cancelled => w.quiet none
  | .receiveOrCancelled rpc, .device answer => (answer.to rpc).bind fun answer => w.quiet (some answer)
  | _, _ => none

end World

/-- A step of the system. -/
inductive Action (V : Vendor) where
  | tick (clock : Option UInt64)
  | load (args : LoadArgs) (env : LoadEnv)
  /-- the process stops or dies -/
  | crash
  | resolve (operationId : String) (disposition : RecoveryDisposition) (confirmation : String)
      (limits : OperationLimits) (env : LoadEnv)
  | spawn (request : Request V)
  | advance (t : ℕ) (choice : Choice V)
  /-- the method returns, or is dropped -/
  | finish (t : ℕ)

namespace World

/-- Add what a critical section or a file access did to the history. -/
def storeEntries (w : World C V) (source : Option (ℕ × Request V)) (events : List Event) :
    List (Entry V) :=
  events.map fun event => ⟨source, w.clock, .store event⟩

/-- The guards without those thread `t` holds. -/
def released (w : World C V) (t : ℕ) : String → Option ℕ :=
  fun device => if w.guards device = some t then none else w.guards device

/-- A load, on success and on failure. -/
def afterLoad (path : Option String) (args : LoadArgs) (env : LoadEnv) (w : World C V) :
    World C V :=
  let effect := loadCoordinator path args env w.store.disk
  let trace := w.storeEntries none effect.events ++ w.trace
  match effect.result with
  | .error _ => { w with store := { w.store with disk := effect.disk }, trace }
  | .ok (self, mem) => { w with self := some self, store := ⟨mem, effect.disk⟩, trace }

/-- An offline resolution, on success and on failure. -/
def afterResolve (path operationId : String) (disposition : RecoveryDisposition)
    (confirmation : String) (limits : OperationLimits) (env : LoadEnv) (w : World C V) :
    World C V :=
  let effect := resolvePersistedOperation path operationId disposition confirmation limits env
    w.store.disk
  let entries := w.storeEntries none effect.events
  { w with
    store := { w.store with disk := effect.disk }
    trace := (if entries.isEmpty then [] else
      [⟨none, w.clock, .resolved operationId disposition⟩]) ++ entries ++ w.trace }

/-- The next call of a thread is answered. -/
def advance (w : World C V) (self : Config) (t : ℕ) (choice : Choice V) :
    Thread (calls V) CoordinatorError (Request V) → Option (World C V)
  | ⟨request, .call c next⟩ => (w.exec self t c choice).map fun (w', answer, events) =>
      { w' with
        threads := w.threads.set t (some ⟨request, next answer⟩)
        trace := ⟨some (t, request), w.clock, .answered c answer⟩ ::
          (w.storeEntries (some (t, request)) events ++ w.trace) }
  | _ => none

/-- One step; `none` where it is not possible.  `path` is the state path of the deployment.  A
second load, and a resolution, are refused while a coordinator holds the file. -/
def step (path : Option String) (w : World C V) : Action V → Option (World C V)
  | .tick clock => some { w with clock }
  | .load args env => if w.self.isNone then some (w.afterLoad path args env) else none
  | .crash => some
      { w with
        self := none
        store := { w.store with mem := .empty }
        guards := fun _ => none
        threads := .empty }
  | .resolve operationId disposition confirmation limits env => path.bind fun path =>
      if w.self.isNone then
        some (w.afterResolve path operationId disposition confirmation limits env)
      else none
  | .spawn request => w.self.map fun self =>
      { w with
        threads := w.threads.set w.nextThread (some ⟨request, request.program C self⟩)
        nextThread := w.nextThread + 1 }
  | .advance t choice => w.self.bind fun self => (w.threads t).bind (w.advance self t choice)
  | .finish t => (w.threads t).map fun _ =>
      { w with threads := w.threads.set t none, guards := w.released t }

/-! ### What an answered call does -/

/-- The world after a call of thread `t`, its answer, and what the store did. -/
inductive Executed (w : World C V) (self : Config) (t : ℕ) :
    (c : Call V) → c.Answer → World C V → List Event → Prop where
  /-- the call reads, or talks to something outside the world -/
  | quiet {c : Call V} (answer : c.Answer) (h : c.Quiet) : Executed w self t c answer w []
  | nowUnix : Executed w self t .nowUnix w.nowUnix w []
  | rngFailed (error : CoordinatorError) : Executed w self t .newOperationId (.error error) w []
  | newOperationId (bytes : List UInt8) (hlength : bytes.length = 32)
      (hfresh : bytesHex bytes ∉ w.used) :
      Executed w self t .newOperationId (.ok (bytesHex bytes))
        { w with used := bytesHex bytes :: w.used } []
  | guardRefused (endpoint : String) (error : CoordinatorError) :
      Executed w self t (.deviceGuard endpoint) (.error error) w []
  | guardTaken (endpoint : String) (hfree : w.guards endpoint = none) :
      Executed w self t (.deviceGuard endpoint) (.ok ())
        { w with guards := fun device => if device = endpoint then some t else w.guards device } []
  | changeSet (id device : String) :
      Executed w self t (.changeSet id device) (readChangeSet w.store id device) w []
  | insertChangeSet (record : ChangeSetRecord) (sweepFault finalFault : Option WriteFault) :
      Executed w self t (.insertChangeSet record)
        (Changeset.insertChangeSet self w.clock sweepFault finalFault record w.store).result
        { w with store :=
          (Changeset.insertChangeSet self w.clock sweepFault finalFault record w.store).store }
        (Changeset.insertChangeSet self w.clock sweepFault finalFault record w.store).events
  | updateChangeSet (record : ChangeSetRecord) (fault : Option WriteFault) :
      Executed w self t (.updateChangeSet record)
        (Changeset.updateChangeSet self fault record w.store).result
        { w with store := (Changeset.updateChangeSet self fault record w.store).store }
        (Changeset.updateChangeSet self fault record w.store).events
  | updateChangeSetFrom (observed : ChangeSetState) (record : ChangeSetRecord)
      (fault : Option WriteFault) :
      Executed w self t (.updateChangeSetFrom observed record)
        (Changeset.updateChangeSetFrom self fault observed record w.store).result
        { w with store := (Changeset.updateChangeSetFrom self fault observed record w.store).store }
        (Changeset.updateChangeSetFrom self fault observed record w.store).events
  | claimChangeSetForApply (id device : String) (handle : ApplyHandle)
      (fault : Option WriteFault) :
      Executed w self t (.claimChangeSetForApply id device handle)
        (Changeset.claimChangeSetForApply self fault id device handle w.store).result
        { w with store :=
          (Changeset.claimChangeSetForApply self fault id device handle w.store).store }
        (Changeset.claimChangeSetForApply self fault id device handle w.store).events
  | record (operationId owner device : String) :
      Executed w self t (.record operationId owner device)
        (readRecord w.store operationId owner device) w []
  | insert (record : OperationRecord) (fault : Option WriteFault) :
      Executed w self t (.insert record) (insertOperation self fault record w.store).result
        { w with store := (insertOperation self fault record w.store).store }
        (insertOperation self fault record w.store).events
  | update (record : OperationRecord) (fault : Option WriteFault) :
      Executed w self t (.update record) (updateOperation self fault record w.store).result
        { w with store := (updateOperation self fault record w.store).store }
        (updateOperation self fault record w.store).events
  | remove (operationId : String) (fault : Option WriteFault) :
      Executed w self t (.remove operationId) ()
        { w with store := (removeOperation self fault operationId w.store).store }
        (removeOperation self fault operationId w.store).events

theorem exec_executed {w w' : World C V} {self : Config} {t : ℕ} {c : Call V} {choice : Choice V}
    {answer : c.Answer} {events : List Event}
    (h : w.exec self t c choice = some (w', answer, events)) :
    Executed w self t c answer w' events := by
  unfold exec quiet afterSection at h
  -- a choice that does not fit the call is no step
  cases c <;> cases choice <;> first | (cases h; done) | skip
  case nowUnix.go =>
    cases h
    exact .nowUnix
  case newOperationId.random bytes =>
    cases bytes with
    | error error =>
      cases h
      exact .rngFailed _
    | ok bytes =>
      dsimp only at h
      split at h
      · next hnew =>
        cases h
        exact .newOperationId _ hnew.1 hnew.2
      · cases h
  case deviceGuard.cancelled =>
    cases h
    exact .guardRefused _ _
  case deviceGuard.go =>
    dsimp only at h
    split at h
    · next hfree =>
      cases h
      exact .guardTaken _ hfree
    · cases h
  case changeSet.go =>
    cases h
    exact .changeSet _ _
  case record.go =>
    cases h
    exact .record _ _ _
  case receive.device rpc given =>
    obtain ⟨a, -, ha⟩ := Option.bind_eq_some_iff.mp h
    cases ha
    exact .quiet _ trivial
  case receiveOrCancelled.device rpc given =>
    obtain ⟨a, -, ha⟩ := Option.bind_eq_some_iff.mp h
    cases ha
    exact .quiet _ trivial
  all_goals
    cases h
    first
      | exact .quiet _ trivial
      | constructor

end World

/-! ### A small deployment -/

/-- A plan of `alice` for the device `edge1`, under the id that repeats one character. -/
def samplePlan (idCharacter : Char) : ChangeSetRecord :=
  plannedRecord Crates.sample (LoadArgs.sample.config none) 100
    (String.ofList (List.replicate 64 idCharacter)) "alice" "edge1"
    ("sha256:" ++ String.ofList (List.replicate 64 '0')) "policy"
    [⟨.str "set", Json.uniqueKeys_str _⟩]

/-- The world after a list of steps from nothing. -/
def sampleRun (path : Option String) (actions : List (Action Vendor.sample)) :
    Option (World Crates.sample Vendor.sample) :=
  runActions (World.step path) (World.initial Crates.sample Vendor.sample) actions

end Mecmcp.Changeset
