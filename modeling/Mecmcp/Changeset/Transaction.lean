import Mecmcp.Changeset.ChangeSetStore
import Mecmcp.Lib.Prog

/-!
# Transaction — what the coordinator's methods call

The data of `transaction.rs` (`Rpc` is the device trait, one constructor for each method that talks
to the device) and the interface `calls` of the asynchronous methods: the store's critical sections,
the clock, the random ids, the per-device guard, the cancellation token, the evidence recorder and
the device.

A device method is two calls, `send` and `receive`: a thread may be dropped, and the process may
die, after the device was asked and before its answer came.
-/

namespace Mecmcp.Changeset

/-! ### The device -/

/-- The types of a vendor's `DeviceTransaction`, with the serde of its actions. -/
structure Vendor where
  Action : Type
  Staged : Type
  Diff : Type
  Validation : Type
  /-- `serde_json::to_vec` on a slice of actions -/
  toVec : List Action → Except String (List UInt8)
  /-- `serde_json::to_value` -/
  toValue : Action → Except String Value
  /-- `serde_json::from_value` -/
  fromValue : Value → Except String Action

/-- A vendor whose actions are texts. -/
def Vendor.sample : Vendor where
  Action := String
  Staged := Unit
  Diff := Unit
  Validation := Unit
  toVec actions := .ok (actions.flatMap utf8)
  toValue action := .ok ⟨.str action, rfl⟩
  fromValue value := match value.tree with
    | .str action => .ok action
    | _ => .error "invalid type: expected a string"

inductive RollbackRef where
  | archive (index : UInt32)
  | candidateRevert
  | custom (name : String)
  deriving DecidableEq

structure CommitOptions where
  /-- in nanoseconds -/
  confirmTimeout : Option ℕ
  deriving DecidableEq

inductive CommitOutcome where
  | reconciled (succeeded : Bool) (jobId details : Option String)
  | detached (jobId : Option String)
  | indeterminate (reason : String)
  | awaitingConfirmation (jobId : Option String) (rollbackDeadlineUnix : UInt64)
      (details : Option String)
  deriving DecidableEq

inductive UnlockOutcome where
  | released | unsupported
  deriving DecidableEq

structure RollbackOutcome where
  succeeded : Bool
  details : Option String
  deriving DecidableEq

/-! ### Attribution -/

inductive ActorType where
  | human | agent | unknown
  deriving DecidableEq

/-- The `{:?}` form of the actor type, in lower case. -/
def ActorType.lower : ActorType → String
  | human => "human"
  | agent => "agent"
  | unknown => "unknown"

inductive Tier where
  | publicTier | privateTier
  deriving DecidableEq

def Tier.display : Tier → String
  | publicTier => "public"
  | privateTier => "private"

structure AgentIdentity where
  modelId : String
  provider : String
  providerTier : Tier
  skillsUsed : List String
  deriving DecidableEq

/-- Who commits: the fields the coordinator reads. -/
structure Attribution where
  principal : PersistedPrincipal
  actorType : ActorType
  agent : Option AgentIdentity
  onBehalfOf : Option String
  changeRef : Option String
  requestId : String
  deriving DecidableEq

def PersistedPrincipal.display : PersistedPrincipal → String
  | token name => name
  | unauthenticated => "stdio"

/-- `From<&Attribution> for PersistedAttribution`. -/
def PersistedAttribution.from (attribution : Attribution) : PersistedAttribution where
  principal := attribution.principal
  actorType := attribution.actorType.lower
  onBehalfOf := attribution.onBehalfOf
  changeRef := attribution.changeRef
  requestId := attribution.requestId
  agent := attribution.agent.map fun agent =>
    { modelId := agent.modelId
      provider := agent.provider
      providerTier := agent.providerTier.display
      skillsUsed := if agent.skillsUsed.isEmpty then "none" else " ".intercalate agent.skillsUsed }

/-! ### The calls -/

/-- The methods of `DeviceTransaction` that talk to the device. -/
inductive Rpc (V : Vendor) where
  | fingerprint
  | stage (actions : List V.Action)
  | diff (staged : V.Staged)
  | validate (staged : V.Staged)
  | commit (staged : V.Staged) (attribution : Attribution) (options : CommitOptions)
  | rollback (target : RollbackRef)
  | lock (comment : String)
  | unlock

/-- The result of a device method; an error is its text. -/
def Rpc.Answer {V : Vendor} : Rpc V → Type
  | fingerprint => Except String String
  | stage _ => Except String V.Staged
  | diff _ => Except String V.Diff
  | validate _ => Except String V.Validation
  | commit _ _ _ => Except String CommitOutcome
  | rollback _ => Except String RollbackOutcome
  | lock _ => Except String Unit
  | unlock => Except String UnlockOutcome

/-- What the coordinator reports to the evidence recorder. -/
inductive Evidence where
  | proposal (requestId changeSetId device principal diffHash : String)
  | approval (requestId changeSetId approver decision : String)
  | approvalWaived (requestId changeSetId kind reason : String) (expiresAtUnix : Option UInt64)
      (ticket : Option String)
  | applyIntent (requestId changeSetId device principal : String)
  | resultReceipt (requestId changeSetId device principal : String) (succeeded : Bool)
      (error : String)

/-- What an asynchronous method of the coordinator asks of its surroundings. -/
inductive Call (V : Vendor) where
  /-- `now_unix` -/
  | nowUnix
  /-- `new_operation_id` -/
  | newOperationId
  /-- `cancellation.is_cancelled()` -/
  | isCancelled
  /-- `device_guard`; held until the method returns or is dropped -/
  | deviceGuard (endpoint : String)
  /-- `ChangesetCoordinator::change_set` -/
  | changeSet (id device : String)
  | insertChangeSet (record : ChangeSetRecord)
  | updateChangeSet (record : ChangeSetRecord)
  | updateChangeSetFrom (observed : ChangeSetState) (record : ChangeSetRecord)
  | claimChangeSetForApply (id device : String) (handle : ApplyHandle)
  /-- `ChangesetCoordinator::record` -/
  | record (operationId owner device : String)
  | insert (record : OperationRecord)
  | update (record : OperationRecord)
  | remove (operationId : String)
  | evidence (evidence : Evidence)
  /-- `Untrusted::render_tagged`, which draws a random tag -/
  | renderTagged (text source : String)
  | requiresConfigLock
  /-- ask the device -/
  | send (rpc : Rpc V)
  /-- await the device's answer -/
  | receive (rpc : Rpc V)
  /-- in a `select!` with the token, the token's branch is polled first and taken -/
  | cancelledFirst
  /-- await the device's answer in a `select!` with the token; `none` is a cancellation -/
  | receiveOrCancelled (rpc : Rpc V)

def Call.Answer {V : Vendor} : Call V → Type
  | nowUnix => Except CoordinatorError UInt64
  | newOperationId => Except CoordinatorError String
  | isCancelled => Bool
  | deviceGuard _ => Except CoordinatorError Unit
  | changeSet _ _ => Except CoordinatorError ChangeSetRecord
  | insertChangeSet _ => Except CoordinatorError Unit
  | updateChangeSet _ => Except CoordinatorError Unit
  | updateChangeSetFrom _ _ => Except CoordinatorError Unit
  | claimChangeSetForApply _ _ _ => Except CoordinatorError ChangeSetRecord
  | record _ _ _ => Except CoordinatorError OperationRecord
  | insert _ => Except CoordinatorError Unit
  | update _ => Except CoordinatorError Unit
  | remove _ => Unit
  | evidence _ => Except String Unit
  | renderTagged _ _ => String
  | requiresConfigLock => Bool
  | send _ => Unit
  | receive rpc => rpc.Answer
  | cancelledFirst => Bool
  | receiveOrCancelled rpc => Option rpc.Answer

/-- The call changes nothing the coordinator shares between its methods, and its answer comes from
outside. -/
def Call.Quiet {V : Vendor} : Call V → Prop
  | isCancelled | evidence _ | renderTagged _ _ | requiresConfigLock | send _ | receive _
  | cancelledFirst | receiveOrCancelled _ => True
  | _ => False

/-- The interface of the coordinator's methods. -/
def calls (V : Vendor) : Interface := ⟨Call V, Call.Answer⟩

abbrev Method (V : Vendor) (α : Type) : Type := Prog (calls V) CoordinatorError α

namespace Method

variable {V : Vendor}

def ask (c : Call V) : Method V c.Answer := Prog.ask (I := calls V) c

def check (result : Except CoordinatorError Unit) : Method V Unit := Prog.ofExcept result

def nowUnix : Method V UInt64 := do Prog.ofExcept (← ask .nowUnix)

def newOperationId : Method V String := do
  Prog.ofExcept (← ask .newOperationId)

def isCancelled : Method V Bool := ask .isCancelled

def deviceGuard (endpoint : String) : Method V Unit := do
  Prog.ofExcept (← ask (.deviceGuard endpoint))

def changeSet (id device : String) : Method V ChangeSetRecord := do
  Prog.ofExcept (← ask (.changeSet id device))

def insertChangeSet (record : ChangeSetRecord) : Method V Unit := do
  Prog.ofExcept (← ask (.insertChangeSet record))

def updateChangeSet (record : ChangeSetRecord) : Method V Unit := do
  Prog.ofExcept (← ask (.updateChangeSet record))

def updateChangeSetFrom (observed : ChangeSetState) (record : ChangeSetRecord) :
    Method V Unit := do
  Prog.ofExcept (← ask (.updateChangeSetFrom observed record))

def claimChangeSetForApply (id device : String) (handle : ApplyHandle) :
    Method V ChangeSetRecord := do
  Prog.ofExcept (← ask (.claimChangeSetForApply id device handle))

def record (operationId owner device : String) : Method V OperationRecord := do
  Prog.ofExcept (← ask (.record operationId owner device))

def insert (record : OperationRecord) : Method V Unit := do
  Prog.ofExcept (← ask (.insert record))

def update (record : OperationRecord) : Method V Unit := do
  Prog.ofExcept (← ask (.update record))

def remove (operationId : String) : Method V Unit := ask (.remove operationId)

def requiresConfigLock : Method V Bool := ask .requiresConfigLock

def report (self : Config) (evidence : Evidence) : Method V (Except String Unit) :=
  if self.evidence then ask (.evidence evidence) else pure (.ok ())

def renderTagged (text source : String) : Method V String :=
  ask (.renderTagged text source)

def device (rpc : Rpc V) : Method V rpc.Answer := do
  ask (.send rpc)
  ask (.receive rpc)

/-- Await a device method in a `select!` with the cancellation token. -/
def deviceOrCancelled (rpc : Rpc V) : Method V (Option rpc.Answer) := do
  let cancelled : Bool ← ask .cancelledFirst
  if cancelled then
    pure none
  else
    ask (.send rpc)
    ask (.receiveOrCancelled rpc)

end Method

end Mecmcp.Changeset
