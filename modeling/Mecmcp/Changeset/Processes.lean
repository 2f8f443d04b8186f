import Mecmcp.Changeset.Load
import Mecmcp.Changeset.Version
import Mecmcp.Lib.Mutex
import Mecmcp.Lib.Pool

/-!
# Processes — several processes on one state file

Servers and offline resolutions share an existing state file through two `flock` files.  A server
takes `.owner` without waiting and keeps it until it exits; it waits for `.lock` to load, and again
for every write.  A resolution waits for `.lock`, takes `.owner` and gives it back at once, and then
reads and writes under `.lock`.  Each process is at one of a few places (`Process`), and the steps
of any number of them interleave.

A process works on a `Copy` of the state: what it has in memory, what it last read from the file or
wrote to it, and how many writes the file had seen by then.

`two_locks_lose_no_update`: the file holds the last write, a write that reports success is computed
from what the file held, and a process that waits, waits for one that can go on.
-/

namespace Mecmcp.Changeset

open Option

variable {C : Crates} {path : String} {file : C.Text}

/-! ### Processes -/

/-- The arguments of an offline resolution. -/
structure ResolveArgs where
  operationId : String
  disposition : RecoveryDisposition
  confirmation : String
  limits : OperationLimits

/-- What `resolve_persisted_operation` checks before it takes a lock. -/
def ResolveArgs.accepted (args : ResolveArgs) (path : String) : Bool :=
  (utf8 path).head? == some 47 && (validateOperationId args.operationId).isOk &&
    args.confirmation == "RESOLVED " ++ args.operationId ++ " AS " ++ args.disposition.word

/-- The state a process works on. -/
structure Copy where
  /-- what it has in memory -/
  state : ChangesetState
  /-- what it has read from the file, or written to it -/
  origin : ChangesetState
  /-- the number of writes the file had seen by then -/
  base : ℕ

def Copy.source (copy : Copy) : ℕ × ChangesetState := (copy.base, copy.origin)

/-- How far a process is. -/
inductive Process where
  /-- `load_with_recovery_and_key`, before `try_acquire_owner` -/
  | starting (args : LoadArgs)
  /-- before `StateFileLock::acquire` -/
  | owning (args : LoadArgs)
  | loading (args : LoadArgs)
  /-- has read the file, before the write of what recovery changed -/
  | recovering (args : LoadArgs) (copy : Copy)
  /-- a load or a write is over, before `.lock` is given back -/
  | releasing (config : Config) (copy : Copy)
  | running (config : Config) (copy : Copy)
  /-- `persist_locked`, before `StateFileLock::acquire` -/
  | persisting (config : Config) (copy : Copy)
  | writing (config : Config) (copy : Copy)
  /-- `resolve_persisted_operation`, before `StateFileLock::acquire` -/
  | resolving (args : ResolveArgs)
  /-- before `try_acquire_owner` -/
  | probing (args : ResolveArgs)
  /-- the probe holds `.owner` -/
  | probed (args : ResolveArgs)
  | inspecting (args : ResolveArgs)
  | resolved (args : ResolveArgs) (copy : Copy)
  /-- on its way out, with the locks it still has to give back -/
  | leaving (lock owner : Bool)

namespace Process

def holdsLock : Process → Bool
  | loading _ | recovering _ _ | releasing _ _ | writing _ _ => true
  | probing _ | probed _ | inspecting _ | resolved _ _ => true
  | leaving lock _ => lock
  | _ => false

def holdsOwner : Process → Bool
  | owning _ | loading _ | recovering _ _ | releasing _ _ | running _ _ => true
  | persisting _ _ | writing _ _ | probed _ => true
  | leaving _ owner => owner
  | _ => false

/-- Where the state the process works on comes from. -/
def source : Process → Option (ℕ × ChangesetState)
  | recovering _ copy | releasing _ copy | running _ copy | persisting _ copy
  | writing _ copy | resolved _ copy => some copy.source
  | _ => none

/-- A resolution that has found no owner. -/
def pastProbe : Process → Bool
  | inspecting _ | resolved _ _ => true
  | _ => false

/-- A server that has not read the file, or will not use it. -/
def unread : Process → Bool
  | owning _ | leaving _ _ => true
  | _ => false

/-- How many steps a process that holds `.lock` takes before it gives it back. -/
def lockRank : Process → ℕ
  | probing _ => 5
  | probed _ => 4
  | loading _ | inspecting _ => 3
  | recovering _ _ | writing _ _ | resolved _ _ => 2
  | releasing _ _ | leaving _ _ => 1
  | _ => 0

end Process

/-! ### The site -/

structure FileWrite where
  author : ℕ
  copy : Copy
  /-- `write_state` returned `Ok` -/
  reported : Bool

/-- The state file with its log, its two lock files, and the processes. -/
structure Site (C : Crates) where
  file : C.Text
  log : List FileWrite
  lock : Option ℕ
  owner : Option ℕ
  procs : ℕ → Option Process
  nextProcess : ℕ

/-- What the system and the callers decide in a step. -/
inductive Outcome where
  | go
  /-- a lock file cannot be opened or locked -/
  | fault
  | read (fault : Option String)
  | write (fault : Option WriteFault)
  | change (next : ChangesetState)
  | persist
  | exit

inductive SiteAction where
  | serve (args : LoadArgs)
  | resolve (args : ResolveArgs)
  | advance (p : ℕ) (outcome : Outcome)
  /-- the process dies; the kernel releases its locks -/
  | kill (p : ℕ)

namespace Site

section

def initial (file : C.Text) : Site C where
  file
  log := []
  lock := none
  owner := none
  procs := fun _ => none
  nextProcess := 0

/-- The process is now here; `none` is one that has ended. -/
def become (w : Site C) (p : ℕ) (next : Option Process) : Site C :=
  { w with procs := Function.update w.procs p next }

/-- `write_state` by the process `p`, and whether it returned `Ok`. -/
def writeState (path : String) (w : Site C) (p : ℕ) (maxStateBytes : ℕ)
    (fault : Option WriteFault) (copy : Copy) : Site C × Bool :=
  let effect := writeFile path maxStateBytes fault copy.state (some w.file)
  ({ w with
    file := effect.disk.getD w.file
    log := if effect.events.isEmpty then w.log else ⟨p, copy, effect.result.isOk⟩ :: w.log },
    effect.result.isOk)

/-- Both locks are held, so the environment has nothing to refuse but the read. -/
def locked (readFault : Option String) : LoadEnv where
  ownerLock := .ok true
  stateLock := none
  readFault
  writeFault := none

/-- One step of a process; `none` is a step it cannot take now. -/
def advance (path : String) (w : Site C) (p : ℕ) : Process → Outcome → Option (Site C)
  | .starting args, .go =>
    if w.owner = none then some ({ w with owner := some p }.become p (some (.owning args)))
    else some (w.become p none)
  | .starting _, .fault => some (w.become p none)
  | .owning args, .go =>
    if w.lock = none then some ({ w with lock := some p }.become p (some (.loading args)))
    else none
  | .owning _, .fault => some (w.become p (some (.leaving false true)))
  | .loading args, .read fault =>
    match readForLoad path args (locked fault) (some w.file) with
    | .error _ => some (w.become p (some (.leaving true true)))
    | .ok state => some (w.become p (some (.recovering args ⟨state, state, w.log.length⟩)))
  | .recovering args copy, .write fault =>
    let next := recoverState args.stagedRecovery copy.state
    if recovered args.stagedRecovery copy.state then
      let (w', ok) := w.writeState path p args.limits.maxStateBytes fault { copy with state := next }
      some (w'.become p (some (if ok then .releasing (args.config path) ⟨next, next, w'.log.length⟩
        else .leaving true true)))
    else some (w.become p (some (.releasing (args.config path) { copy with state := next })))
  | .releasing config copy, .go =>
    some ({ w with lock := none }.become p (some (.running config copy)))
  | .running config copy, .change next =>
    some (w.become p (some (.running config { copy with state := next })))
  | .running config copy, .persist => some (w.become p (some (.persisting config copy)))
  | .running _ _, .exit => some (w.become p (some (.leaving false true)))
  | .persisting config copy, .go =>
    if w.lock = none then some ({ w with lock := some p }.become p (some (.writing config copy)))
    else none
  | .persisting config copy, .fault => some (w.become p (some (.running config copy)))
  | .writing config copy, .write fault =>
    let (w', ok) := w.writeState path p config.limits.maxStateBytes fault copy
    some (w'.become p (some (.releasing config
      (if ok then ⟨copy.state, copy.state, w'.log.length⟩ else copy))))
  | .resolving args, .go =>
    if w.lock = none then some ({ w with lock := some p }.become p (some (.probing args)))
    else none
  | .resolving _, .fault => some (w.become p none)
  | .probing args, .go =>
    if w.owner = none then some ({ w with owner := some p }.become p (some (.probed args)))
    else some (w.become p (some (.leaving true false)))
  | .probing _, .fault => some (w.become p (some (.leaving true false)))
  | .probed args, .go => some ({ w with owner := none }.become p (some (.inspecting args)))
  | .inspecting args, .read fault =>
    match findForResolution path args.operationId args.disposition args.confirmation args.limits
        (locked fault) (some w.file) with
    | .error _ => some (w.become p (some (.leaving true false)))
    | .ok (state, record) => some (w.become p (some (.resolved args
        ⟨state.putOperation args.operationId (record.resolvedAs args.disposition), state,
          w.log.length⟩)))
  | .resolved args copy, .write fault =>
    some ((w.writeState path p args.limits.maxStateBytes fault copy).1.become p
      (some (.leaving true false)))
  | .leaving true owner, .go =>
    some ({ w with lock := none }.become p (some (.leaving false owner)))
  | .leaving false true, .go => some ({ w with owner := none }.become p none)
  | .leaving false false, .go => some (w.become p none)
  | _, _ => none

def spawn (w : Site C) (proc : Process) : Site C :=
  { w with
    procs := Function.update w.procs w.nextProcess (some proc)
    nextProcess := w.nextProcess + 1 }

def step (path : String) (w : Site C) : SiteAction → Option (Site C)
  -- calls refused before they take a lock do nothing
  | .serve args => if (utf8 path).head? = some 47 then some (w.spawn (.starting args)) else none
  | .resolve args => if args.accepted path then some (w.spawn (.resolving args)) else none
  | .advance p outcome => (w.procs p).bind fun proc => w.advance path p proc outcome
  | .kill p => some { w with
      lock := released w.lock p
      owner := released w.owner p
      procs := Function.update w.procs p none }

/-- The sites that processes on this file can lead to. -/
abbrev Reached (path : String) (file : C.Text) (w : Site C) : Prop :=
  Reachable (step path) (initial file) (fun _ _ => True) w

/-! ### What a step can do -/

variable {w w' : Site C} {p q : ℕ} {proc : Process}

/-- What `read_state_with_key` makes of a file. -/
def ReadFrom (path : String) (file : C.Text) (state : ChangesetState) : Prop :=
  ∃ maxStateBytes key fault, readStateWithKey C path maxStateBytes key fault file = .ok state

/-- What one step of a process does to the locks, the log and its own place. -/
inductive Advanced (path : String) (w : Site C) (p : ℕ) (proc : Process) : Site C → Prop where
  | moved (next : Option Process) (hlock : next.any Process.holdsLock = proc.holdsLock)
      (howner : next.any Process.holdsOwner = proc.holdsOwner)
      (hsource : ∀ source, next.bind Process.source = some source →
        proc.source = some source ∨ source.1 = w.log.length ∧ ReadFrom path w.file source.2)
      (hprobe : next.any Process.pastProbe = true → proc.pastProbe = true)
      (hunread : proc.unread = true → next.any Process.holdsOwner = true →
        next.any Process.unread = true) :
      Advanced path w p proc (w.become p next)
  | tookOwner (next : Process) (hfree : w.owner = none)
      (hlock : next.holdsLock = proc.holdsLock) (howner : next.holdsOwner = true)
      (hsource : next.source = none) (hprobe : next.pastProbe = false)
      (hunread : next.unread = true ∨ proc.holdsLock = true) :
      Advanced path w p proc ({ w with owner := some p }.become p (some next))
  | gaveOwner (next : Option Process) (hheld : proc.holdsOwner = true)
      (hlock : next.any Process.holdsLock = proc.holdsLock)
      (howner : next.any Process.holdsOwner = false)
      (hsource : next.bind Process.source = none) :
      Advanced path w p proc ({ w with owner := none }.become p next)
  | tookLock (next : Process) (hfree : w.lock = none) (hlock : next.holdsLock = true)
      (howner : next.holdsOwner = proc.holdsOwner) (hsource : next.source = proc.source)
      (hprobe : next.pastProbe = false) :
      Advanced path w p proc ({ w with lock := some p }.become p (some next))
  | gaveLock (next : Process) (hheld : proc.holdsLock = true) (hlock : next.holdsLock = false)
      (howner : next.holdsOwner = proc.holdsOwner) (hsource : next.source = proc.source)
      (hprobe : next.pastProbe = false) :
      Advanced path w p proc ({ w with lock := none }.become p (some next))
  | wrote (next : Process) (maxStateBytes : ℕ) (fault : Option WriteFault) (copy : Copy)
      (hheld : proc.holdsLock = true)
      (hright : proc.holdsOwner = true ∨ proc.pastProbe = true)
      (hbefore : proc.source = some copy.source)
      (hlock : next.holdsLock = true) (howner : next.holdsOwner = proc.holdsOwner)
      (hsource : ∀ source, next.source = some source →
        (w.writeState path p maxStateBytes fault copy).2 = true ∧
            source = ((w.writeState path p maxStateBytes fault copy).1.log.length, copy.state) ∨
          (w.writeState path p maxStateBytes fault copy).2 = false ∧ source = copy.source)
      (hprobe : next.pastProbe = false) :
      Advanced path w p proc
        ((w.writeState path p maxStateBytes fault copy).1.become p (some next))

variable {next : Option Process}

/-- A process that moves on without memory and without touching a lock. -/
theorem Advanced.forgetful (hlock : next.any Process.holdsLock = proc.holdsLock)
    (howner : next.any Process.holdsOwner = proc.holdsOwner)
    (hsource : next.bind Process.source = none) (hprobe : next.any Process.pastProbe = false)
    (hunread : next.any Process.unread = true ∨ proc.unread = false) :
    Advanced path w p proc (w.become p next) := by
  refine .moved next hlock howner (fun source heq => ?_) (fun heq => ?_) (fun heq _ => ?_)
  · rw [hsource] at heq
    cases heq
  · rw [hprobe] at heq
    cases heq
  · obtain hunread | hunread := hunread
    · exact hunread
    · rw [hunread] at heq
      cases heq

variable {outcome : Outcome}

theorem readForLoad_locked {args : LoadArgs} {fault : Option String} {state : ChangesetState}
    (h : readForLoad path args (locked fault) (some file) = .ok state) :
    readStateWithKey C path args.limits.maxStateBytes args.approvalDigestKey fault file =
      .ok state := by
  simp only [readForLoad, locked, bind_unit_ok, mapError_ok] at h
  exact h.2

theorem advanced_of_advance (h : w.advance path p proc outcome = some w') :
    Advanced path w p proc w' := by
  revert h
  -- the cases are the equations of `advance`, in their order
  fun_cases advance path w p proc outcome
  all_goals rintro ⟨⟩
  -- a lock is taken
  case case1 hfree => exact .tookOwner _ hfree rfl rfl rfl rfl (.inl rfl)
  case case22 hfree => exact .tookOwner _ hfree rfl rfl rfl rfl (.inr rfl)
  case case4 hfree | case15 hfree | case19 hfree => exact .tookLock _ hfree rfl rfl rfl rfl
  -- a lock is given back
  case case25 | case30 => exact .gaveOwner _ rfl rfl rfl rfl
  case case11 | case29 => exact .gaveLock _ rfl rfl rfl rfl rfl
  -- the file is read
  case case8 args fault state hread =>
    refine .moved _ rfl rfl (fun source heq => .inr ?_) nofun nofun
    cases heq
    exact ⟨rfl, _, _, _, readForLoad_locked hread⟩
  case case27 args fault state record hfind =>
    refine .moved _ rfl rfl (fun source heq => .inr ?_) (fun _ => rfl) nofun
    cases heq
    obtain ⟨_, ⟨⟩, hread, -⟩ := findForResolution_ok hfind
    exact ⟨rfl, _, _, _, hread⟩
  -- the file is written: by a recovery, by `persist`, by a resolution
  case case9 args copy fault _ _ _ _ hwrite =>
    cases hwrite
    refine .wrote _ args.limits.maxStateBytes fault _ rfl (.inl rfl) rfl ?_ ?_ ?_ ?_
    · split <;> rfl
    · split <;> rfl
    · intro source heq
      split at heq
      · next hok => exact .inl ⟨hok, (Option.some.inj heq).symm⟩
      · cases heq
    · split <;> rfl
  case case18 config copy fault _ _ hwrite =>
    cases hwrite
    refine .wrote _ config.limits.maxStateBytes fault copy rfl (.inl rfl) rfl rfl rfl ?_ rfl
    intro source heq
    cases heq
    split
    · next hok => exact .inl ⟨hok, rfl⟩
    · next hok => exact .inr ⟨Bool.eq_false_iff.mpr hok, rfl⟩
  case case28 args copy fault =>
    exact .wrote _ args.limits.maxStateBytes fault copy rfl (.inr rfl) rfl rfl rfl nofun rfl
  -- what is in memory stays there
  case case10 | case12 | case13 | case17 =>
    exact .moved _ rfl rfl (fun source heq => .inl heq) nofun nofun
  -- the process leaves
  case case31 => exact .moved none rfl rfl nofun nofun nofun
  case case2 | case3 | case21 => exact .forgetful rfl rfl rfl rfl (.inr rfl)
  all_goals exact .forgetful rfl rfl rfl rfl (.inl rfl)

/-! ### No lost update -/

/-- What the file holds after the writes of a log. -/
def textAt (file : C.Text) : List FileWrite → C.Text
  | [] => file
  | write :: _ => payload C write.copy.state

/-- The process has read the state from the file as the log left it, or has written it last. -/
def Held (path : String) (file : C.Text) (p : ℕ) (log : List FileWrite) (state : ChangesetState) :
    Prop :=
  ReadFrom path (textAt file log) state ∨
    ∃ write older, log = write :: older ∧ write.author = p ∧ write.copy.state = state

/-- The process holds what the file held after the first writes of the log, and every later write is
one of the process itself that reported a failure. -/
structure Current (path : String) (file : C.Text) (p : ℕ) (source : ℕ × ChangesetState)
    (log : List FileWrite) : Prop where
  le : source.1 ≤ log.length
  later : ∀ write ∈ log.take (log.length - source.1), write.author = p ∧ write.reported = false
  held : Held path file p (log.drop (log.length - source.1)) source.2

/-- Every write that reported success is computed from what the file held. -/
def NoLostUpdate (path : String) (file : C.Text) (log : List FileWrite) : Prop :=
  ∀ newer write older, log = newer ++ write :: older → write.reported = true →
    Current path file write.author write.copy.source older

theorem current_length {state : ChangesetState} {log : List FileWrite}
    (h : Held path file p log state) : Current path file p (log.length, state) log := by
  refine ⟨le_rfl, ?_, ?_⟩ <;> simp [h]

variable {source : ℕ × ChangesetState} {log : List FileWrite} {write : FileWrite}

theorem Current.cons (h : Current path file p source log)
    (hauthor : write.author = p) (hreported : write.reported = false) :
    Current path file p source (write :: log) := by
  obtain ⟨hle, hlater, hheld⟩ := h
  refine ⟨Nat.le_succ_of_le hle, ?_, ?_⟩ <;> rw [List.length_cons, Nat.succ_sub hle]
  · exact List.forall_mem_cons.mpr ⟨⟨hauthor, hreported⟩, hlater⟩
  · exact hheld

theorem NoLostUpdate.cons (h : NoLostUpdate path file log)
    (hwrite : Current path file write.author write.copy.source log) :
    NoLostUpdate path file (write :: log) := by
  intro newer other older heq hreported
  cases newer with
  | nil =>
    obtain ⟨rfl, rfl⟩ := List.cons.inj heq
    exact hwrite
  | cons first newer => exact h newer other older (List.cons.inj heq).2 hreported

theorem writeState_log (maxStateBytes : ℕ) (fault : Option WriteFault) (copy : Copy) :
    (w.writeState path p maxStateBytes fault copy).2 = false ∧
      (w.writeState path p maxStateBytes fault copy).1 = w ∨
    (w.writeState path p maxStateBytes fault copy).1 = { w with
      file := payload C copy.state
      log := ⟨p, copy, (w.writeState path p maxStateBytes fault copy).2⟩ :: w.log } := by
  unfold writeState
  have hout := @writeFile_outcome C path maxStateBytes fault copy.state (some w.file)
  generalize writeFile path maxStateBytes fault copy.state (some w.file) = effect at hout
  cases hout with
  | written | landed => exact .inr rfl
  | failed => exact .inl ⟨rfl, rfl⟩

structure Sound (path : String) (file : C.Text) (w : Site C) : Prop where
  lock : Exclusive Process.holdsLock w.lock w.procs
  owner : Exclusive Process.holdsOwner w.owner w.procs
  current : ∀ p source, (w.procs p).bind Process.source = some source →
    Current path file p source w.log
  /-- while a resolution works, no server has read the file -/
  probe : ∀ q, (w.procs q).any Process.pastProbe = true → ∀ p, w.owner = some p →
    (w.procs p).any Process.unread = true
  fresh : ∀ p, w.nextProcess ≤ p → w.procs p = none
  log : NoLostUpdate path file w.log
  /-- the file holds the last write -/
  file : w.file = textAt file w.log

theorem pastProbe_holdsLock {proc : Option Process} (h : proc.any Process.pastProbe = true) :
    proc.any Process.holdsLock = true := by
  cases proc with
  | none => cases h
  | some proc => cases proc <;> first | rfl | cases h

theorem source_right {proc : Option Process} (h : proc.bind Process.source = some source) :
    proc.any Process.holdsOwner = true ∧ proc.any Process.unread = false ∨
      proc.any Process.holdsLock = true := by
  cases proc with
  | none => cases h
  | some proc => cases proc <;> first | exact .inl ⟨rfl, rfl⟩ | exact .inr rfl | cases h

theorem Sound.alone (hs : Sound path file w) (hp : w.procs p = some proc)
    (hlock : proc.holdsLock = true) (hright : proc.holdsOwner = true ∨ proc.pastProbe = true)
    (hq : (w.procs q).bind Process.source = some source) : q = p := by
  have hplock : (w.procs p).any Process.holdsLock = true := by rw [hp]; exact hlock
  obtain ⟨hqowner, hqread⟩ | hqlock := source_right hq
  · obtain hpowner | hprobe := hright
    · exact hs.owner.unique hqowner (by rw [hp]; exact hpowner)
    · have hunread := hs.probe p (by rw [hp]; exact hprobe) q ((hs.owner q).mpr hqowner)
      rw [hqread] at hunread
      cases hunread
  · exact hs.lock.unique hqlock hplock

theorem Sound.noProbe (hs : Sound path file w) (hp : (w.procs p).any Process.holdsLock = true)
    (hne : q ≠ p) : ¬ (w.procs q).any Process.pastProbe = true :=
  fun hprobe => hne (hs.lock.unique (pastProbe_holdsLock hprobe) hp)

theorem Sound.fresh_update (hs : Sound path file w) (hp : w.procs p = some proc)
    (next : Option Process) : ∀ q, w.nextProcess ≤ q → Function.update w.procs p next q = none := by
  intro q hq
  have hne : q ≠ p := by
    rintro rfl
    rw [hs.fresh q hq] at hp
    cases hp
  rw [Function.update_of_ne hne]
  exact hs.fresh q hq

theorem Sound.current_update (hs : Sound path file w)
    (hnext : ∀ source, next.bind Process.source = some source →
      Current path file p source w.log) :
    ∀ q source, (Function.update w.procs p next q).bind Process.source = some source →
      Current path file q source w.log := by
  intro q source hq
  rw [Function.update_apply] at hq
  split at hq
  · next heq =>
    subst heq
    exact hnext source hq
  · exact hs.current q source hq

theorem pastProbe_update {procs : ℕ → Option Process} (next : Option Process)
    (hnext : next.any Process.pastProbe = false)
    (h : (Function.update procs p next q).any Process.pastProbe = true) :
    q ≠ p ∧ (procs q).any Process.pastProbe = true := by
  rw [Function.update_apply] at h
  split at h
  · rw [hnext] at h
    cases h
  · next hne => exact ⟨hne, h⟩

theorem sound_advanced (hs : Sound path file w) (hp : w.procs p = some proc)
    (h : Advanced path w p proc w') : Sound path file w' := by
  have hself : ∀ f : Process → Bool, (w.procs p).any f = f proc := fun f => by rw [hp]; rfl
  have hcurrent : ∀ source, proc.source = some source → Current path file p source w.log :=
    fun source hsource => hs.current p source (by rw [hp]; exact hsource)
  cases h with
  | moved next hlock howner hsource hprobe hunread =>
    refine ⟨hs.lock.keep (hlock.trans (hself _).symm), hs.owner.keep (howner.trans (hself _).symm),
      hs.current_update fun source hb => ?_, ?_, hs.fresh_update hp next, hs.log, hs.file⟩
    · obtain ⟨base, state⟩ := source
      obtain hold | ⟨rfl, hread⟩ := hsource _ hb
      · exact hcurrent _ hold
      · exact current_length (.inl (hs.file ▸ hread))
    · intro q hq p' howner'
      have hq : (w.procs q).any Process.pastProbe = true := by
        simp only [become, Function.update_apply] at hq
        split at hq
        · next heq =>
          rw [heq, hself]
          exact hprobe hq
        · exact hq
      have hold := hs.probe q hq p' howner'
      simp only [become, Function.update_apply]
      split
      · next heq =>
        subst heq
        rw [hself] at hold
        refine hunread hold ?_
        rw [howner, ← hself Process.holdsOwner]
        exact (hs.owner p').mp howner'
      · exact hold
  | tookOwner next hfree hlock howner hsource hprobe hunread =>
    refine ⟨hs.lock.keep (hlock.trans (hself _).symm), (hfree ▸ hs.owner :).acquire howner,
      hs.current_update fun source hb => ?_, ?_, hs.fresh_update hp (some next), hs.log, hs.file⟩
    · rw [bind_some, hsource] at hb
      cases hb
    · intro q hq p' howner'
      cases howner'
      obtain ⟨hne, hq⟩ := pastProbe_update (some next) hprobe hq
      obtain hunread | hheld := hunread
      · simpa [become] using hunread
      · exact absurd hq (hs.noProbe ((hself _).trans hheld) hne)
  | gaveOwner next hheld hlock howner hsource =>
    refine ⟨hs.lock.keep (hlock.trans (hself _).symm),
      hs.owner.release ((hs.owner p).mpr ((hself _).trans hheld)) howner,
      hs.current_update fun source hb => ?_, fun _ _ _ howner' => ?_, hs.fresh_update hp next, hs.log,
      hs.file⟩
    · rw [hsource] at hb
      cases hb
    · cases howner'
  | tookLock next hfree hlock howner hsource hprobe =>
    refine ⟨(hfree ▸ hs.lock :).acquire hlock, hs.owner.keep (howner.trans (hself _).symm),
      hs.current_update fun source hb => hcurrent source (hsource ▸ hb), ?_,
      hs.fresh_update hp (some next), hs.log, hs.file⟩
    intro q hq p' _
    obtain ⟨-, hq⟩ := pastProbe_update (some next) hprobe hq
    have hheld := (hs.lock q).mpr (pastProbe_holdsLock hq)
    rw [hfree] at hheld
    cases hheld
  | gaveLock next hheld hlock howner hsource hprobe =>
    have hplock := (hself _).trans hheld
    refine ⟨hs.lock.release ((hs.lock p).mpr hplock) hlock,
      hs.owner.keep (howner.trans (hself _).symm),
      hs.current_update fun source hb => hcurrent source (hsource ▸ hb), ?_,
      hs.fresh_update hp (some next), hs.log, hs.file⟩
    intro q hq p' _
    obtain ⟨hne, hq⟩ := pastProbe_update (some next) hprobe hq
    exact absurd hq (hs.noProbe hplock hne)
  | wrote next maxStateBytes fault copy hheld hright hbefore hlock howner hsource hprobe =>
    have hplock := (hself _).trans hheld
    have hold := hcurrent copy.source hbefore
    have hwrite := @writeState_log C path w p maxStateBytes fault copy
    refine ⟨hs.lock.keep (hlock.trans (hheld.symm.trans (hself _).symm)),
      hs.owner.keep (howner.trans (hself _).symm), ?_, ?_, hs.fresh_update hp (some next), ?_, ?_⟩
    · intro q source hq
      by_cases hne : q = p
      · subst hne
        have hq : next.source = some source := by simpa [become] using hq
        show Current path file q source (w.writeState path q maxStateBytes fault copy).1.log
        obtain ⟨hok, rfl⟩ | ⟨hfailed, rfl⟩ := hsource source hq
        · obtain ⟨hfailed, -⟩ | hwrite := hwrite
          · cases hok.symm.trans hfailed
          · rw [hwrite]
            exact current_length (.inr ⟨_, _, rfl, rfl, rfl⟩)
        · obtain ⟨-, hwrite⟩ | hwrite := hwrite
          · rwa [hwrite]
          · rw [hwrite]
            exact hold.cons rfl hfailed
      · have hq : (w.procs q).bind Process.source = some source := by
          simpa [become, writeState, Function.update_of_ne hne] using hq
        exact absurd (hs.alone hp hheld hright hq) hne
    · intro q hq p' _
      obtain ⟨hne, hq⟩ := pastProbe_update (some next) hprobe hq
      exact absurd hq (hs.noProbe hplock hne)
    · show NoLostUpdate path file (w.writeState path p maxStateBytes fault copy).1.log
      obtain ⟨-, hwrite⟩ | hwrite := hwrite
      · rw [hwrite]
        exact hs.log
      · rw [hwrite]
        exact hs.log.cons hold
    · show (w.writeState path p maxStateBytes fault copy).1.file =
        textAt file (w.writeState path p maxStateBytes fault copy).1.log
      obtain ⟨-, hwrite⟩ | hwrite := hwrite
      · rw [hwrite]
        exact hs.file
      · rw [hwrite]
        rfl

theorem sound_spawn (hs : Sound path file w) {proc : Process} (hlock : proc.holdsLock = false)
    (howner : proc.holdsOwner = false) (hsource : proc.source = none)
    (hprobe : proc.pastProbe = false) : Sound path file (w.spawn proc) := by
  have hnone := hs.fresh w.nextProcess le_rfl
  refine ⟨hs.lock.keep ?_, hs.owner.keep ?_, hs.current_update fun source hb => ?_, ?_, ?_, hs.log,
    hs.file⟩
  · rw [hnone]
    exact hlock
  · rw [hnone]
    exact howner
  · rw [bind_some, hsource] at hb
    cases hb
  · intro q hq p howner'
    obtain ⟨-, hq⟩ := pastProbe_update (some proc) hprobe hq
    have hunread := hs.probe q hq p howner'
    have hne : p ≠ w.nextProcess := by
      rintro rfl
      rw [hnone] at hunread
      cases hunread
    simpa [spawn, Function.update_of_ne hne] using hunread
  · intro q hq
    have hq : w.nextProcess + 1 ≤ q := hq
    simpa [spawn, Function.update_of_ne (by omega : q ≠ w.nextProcess)] using
      hs.fresh q (by omega)

theorem sound_kill (hs : Sound path file w) (p : ℕ) :
    Sound path file { w with
      lock := released w.lock p
      owner := released w.owner p
      procs := Function.update w.procs p none } := by
  refine ⟨hs.lock.die, hs.owner.die, hs.current_update nofun, ?_, ?_, hs.log, hs.file⟩
  · intro q hq p' howner'
    obtain ⟨-, hq⟩ := pastProbe_update none rfl hq
    obtain ⟨hlive, hold⟩ : ¬ w.owner = some p ∧ w.owner = some p' := by
      simpa [released] using howner'
    have hne : p' ≠ p := by
      rintro rfl
      exact hlive hold
    simpa [Function.update_of_ne hne] using hs.probe q hq p' hold
  · intro q hq
    show Function.update w.procs p none q = none
    rw [Function.update_apply]
    split
    · rfl
    · exact hs.fresh q hq

theorem sound_initial (file : C.Text) : Sound path file (initial file) where
  lock := by intro p; simp [initial]
  owner := by intro p; simp [initial]
  current := by intro p source h; cases h
  probe := by intro q h; cases h
  fresh _ _ := rfl
  log := by intro newer write older h; cases newer <;> cases h
  file := rfl

theorem reached_sound (h : Reached path file w) : Sound path file w := by
  refine h.invariant (sound_initial file) ?_
  intro w a w' hs _ hstep
  cases a with
  | serve args | resolve args =>
    obtain ⟨-, hstep⟩ := ite_none_right_eq_some.mp hstep
    cases hstep
    exact sound_spawn hs rfl rfl rfl rfl
  | advance p outcome =>
    obtain ⟨proc, hp, hadvance⟩ := bind_eq_some_iff.mp hstep
    exact sound_advanced hs hp (advanced_of_advance hadvance)
  | kill p =>
    cases hstep
    exact sound_kill hs p

/-! ### No deadlock -/

/-- The process can take a step in which no lock file fails. -/
def CanGo (path : String) (w : Site C) (p : ℕ) : Prop :=
  ∃ proc outcome w', w.procs p = some proc ∧ outcome ≠ .fault ∧
    w.advance path p proc outcome = some w'

/-- How long the process will hold `.lock`. -/
def rank (w : Site C) (p : ℕ) : ℕ := (w.procs p).elim 0 Process.lockRank

theorem canGo_or_waits (hp : w.procs p = some proc) :
    w.CanGo path p ∨ w.lock ≠ none ∧ proc.holdsLock = false := by
  have hgo : ∀ outcome, outcome ≠ .fault → (w.advance path p proc outcome).isSome = true →
      w.CanGo path p := fun outcome hne hsome =>
    ⟨proc, outcome, (w.advance path p proc outcome).get hsome, hp, hne, some_get hsome |>.symm⟩
  -- the three places where a process waits
  have hwait : (w.lock = none → (w.advance path p proc .go).isSome = true) →
      proc.holdsLock = false → w.CanGo path p ∨ w.lock ≠ none ∧ proc.holdsLock = false := by
    intro hfree hheld
    by_cases hlock : w.lock = none
    · exact .inl (hgo .go nofun (hfree hlock))
    · exact .inr ⟨hlock, hheld⟩
  cases proc with
  | owning | persisting | resolving => exact hwait (fun hfree => by simp [advance, hfree]) rfl
  | starting | probing =>
    refine .inl (hgo .go nofun ?_)
    simp only [advance]
    split <;> rfl
  | loading | inspecting =>
    refine .inl (hgo (.read none) nofun ?_)
    simp only [advance]
    split <;> rfl
  | recovering =>
    refine .inl (hgo (.write none) nofun ?_)
    simp only [advance]
    split <;> rfl
  | writing | resolved => exact .inl (hgo (.write none) nofun rfl)
  | releasing | probed => exact .inl (hgo .go nofun rfl)
  | running => exact .inl (hgo .persist nofun rfl)
  | leaving lock owner =>
    refine .inl (hgo .go nofun ?_)
    cases lock <;> cases owner <;> rfl

theorem rank_lt (hp : w.procs p = some proc) (hheld : proc.holdsLock = true)
    (h : w.advance path p proc outcome = some w') :
    w'.lock = none ∨ w'.lock = w.lock ∧ w'.rank p < w.rank p := by
  have hrank : ∀ (v : Site C) (next : Process), next.lockRank < proc.lockRank →
      (v.become p (some next)).rank p < w.rank p := by
    intro v next hlt
    simpa [rank, become, hp] using hlt
  clear hp
  revert hheld h hrank
  fun_cases advance path w p proc outcome
  all_goals rintro hheld ⟨⟩ hrank
  -- `.lock` is given back
  case case11 | case29 => exact .inl rfl
  -- the two writes whose outcome decides where the process goes
  case case9 hwrite =>
    cases hwrite
    refine .inr ⟨rfl, hrank _ _ ?_⟩
    split <;> simp [Process.lockRank]
  case case18 hwrite =>
    cases hwrite
    exact .inr ⟨rfl, hrank _ _ (by simp [Process.lockRank])⟩
  case case7 | case8 | case10 | case22 | case23 | case24 | case25 | case26 | case27 | case28 =>
    exact .inr ⟨rfl, hrank _ _ (by simp [Process.lockRank])⟩
  all_goals cases hheld

/-- Every process goes on, or waits for one that does and that gives `.lock` back after a bounded
number of its own steps. -/
def NoDeadlock (path : String) (w : Site C) : Prop :=
  ∀ p proc, w.procs p = some proc → w.CanGo path p ∨ ∃ q, w.lock = some q ∧ w.CanGo path q ∧
    ∀ outcome w', w.step path (.advance q outcome) = some w' →
      w'.lock = none ∨ w'.lock = some q ∧ w'.rank q < w.rank q

theorem noDeadlock_of_sound (hs : Sound path file w) : NoDeadlock path w := by
  intro p proc hp
  refine (canGo_or_waits hp).imp_right ?_
  rintro ⟨hlock, -⟩
  obtain ⟨q, hq⟩ := ne_none_iff_exists'.mp hlock
  have hany := (hs.lock q).mp hq
  obtain ⟨holder, hholder, hheld⟩ := (Option.any_eq_true _ _).mp hany
  refine ⟨q, hq, ?_, fun outcome w' hstep => ?_⟩
  · refine (canGo_or_waits hholder).resolve_right ?_
    rw [hheld]
    exact fun h => by cases h.2
  · obtain ⟨proc', hproc', hadvance⟩ := bind_eq_some_iff.mp hstep
    cases hholder.symm.trans hproc'
    exact hq ▸ rank_lt hholder hheld hadvance

end

end Site

variable {w : Site C}

/-- **No two processes work on a copy of the file at the same time**, of any servers and offline
resolutions that share it. -/
theorem one_copy_in_use (h : Site.Reached path file w) {p q : ℕ} (hne : p ≠ q) :
    (w.procs p).bind Process.source = none ∨ (w.procs q).bind Process.source = none := by
  have hs := Site.reached_sound h
  by_contra hboth
  obtain ⟨hp, hq⟩ := not_or.mp hboth
  obtain ⟨source, hp⟩ := Option.ne_none_iff_exists'.mp hp
  obtain ⟨source', hq⟩ := Option.ne_none_iff_exists'.mp hq
  -- a process with a copy that holds `.lock` is alone with it
  have hlocked : ∀ {p q source source'}, (w.procs p).bind Process.source = some source →
      (w.procs q).bind Process.source = some source' →
      (w.procs p).any Process.holdsLock = true → q = p := by
    intro p q source source' hp hq hlock
    obtain ⟨proc, hproc, hsource⟩ := Option.bind_eq_some_iff.mp hp
    rw [hproc] at hlock
    refine hs.alone hproc hlock ?_ hq
    cases proc <;> first | exact .inl rfl | exact .inr rfl | cases hsource
  obtain ⟨howner, -⟩ | hlock := Site.source_right hp
  · obtain ⟨howner', -⟩ | hlock := Site.source_right hq
    · exact hne (hs.owner.unique howner howner')
    · exact hne (hlocked hq hp hlock)
  · exact hne (hlocked hp hq hlock).symm

/-! ### Two servers and a resolution -/

def resolveManaged : ResolveArgs where
  operationId := managedOperation.id
  disposition := .committed
  confirmation := "RESOLVED " ++ managedOperation.id ++ " AS COMMITTED"
  limits := .default

/-- The process takes both locks, loads the file and gives `.lock` back. -/
def loadFile (p : ℕ) : List SiteAction :=
  [.advance p .go, .advance p .go, .advance p (.read none), .advance p (.write none),
    .advance p .go]

def persistFile (p : ℕ) : List SiteAction :=
  [.advance p .persist, .advance p .go, .advance p (.write none), .advance p .go]

/-- A server stages an operation and dies while a resolution waits; the resolution commits it, and
a second server, started in between, takes over. -/
def overlappingRun : List SiteAction :=
  [.serve .sample] ++ loadFile 0 ++
    [.advance 0 (.change (operationOnly managedOperation)), .resolve resolveManaged] ++
    persistFile 0 ++ [.kill 0, .advance 1 .go, .advance 1 .go, .advance 1 .go, .serve .sample,
      .advance 1 (.read none), .advance 1 (.write none), .advance 1 .go] ++
    loadFile 2 ++ persistFile 2

/-- The author of a write, the number of writes before its copy, and the operations' states in what
it has read and in what it writes. -/
def FileWrite.summary (write : FileWrite) :
    ℕ × ℕ × List LifecycleState × List LifecycleState :=
  (write.author, write.copy.base,
    write.copy.origin.operations.values.map OperationRecord.state,
    write.copy.state.operations.values.map OperationRecord.state)

theorem overlappingRun_writes :
    ((runActions (Site.step "/var/lib/mecmcp/state.json")
        (Site.initial (payload Crates.sample .empty)) overlappingRun).any fun w =>
      w.log.map FileWrite.summary == [(2, 2, [.committed], [.committed]),
        (1, 1, [.staged], [.committed]), (0, 0, [], [.staged])]) = true := by
  decide +kernel

/-- A server has loaded the file, and a resolution has taken `.lock`. -/
theorem waitingRun_copies :
    ((runActions (Site.step "/var/lib/mecmcp/state.json")
        (Site.initial (payload Crates.sample .empty))
        ([.serve .sample] ++ loadFile 0 ++ [.resolve resolveManaged, .advance 1 .go])).any fun w =>
      ((w.procs 0).bind Process.source).isSome && (w.procs 1).any Process.holdsLock) = true := by
  decide +kernel

theorem waitingRun_one_copy : ∃ w : Site Crates.sample,
    Site.Reached "/var/lib/mecmcp/state.json" (payload Crates.sample .empty) w ∧
      ((w.procs 0).bind Process.source).isSome = true ∧
      (w.procs 1).any Process.holdsLock = true ∧ (w.procs 1).bind Process.source = none := by
  obtain ⟨w, hw, hcopies⟩ := (Option.any_eq_true _ _).mp waitingRun_copies
  obtain ⟨hserver, hlock⟩ := Bool.and_eq_true_iff.mp hcopies
  have hreached : Site.Reached "/var/lib/mecmcp/state.json" (payload Crates.sample .empty) w :=
    Reachable.start.run hw
  refine ⟨w, hreached, hserver, hlock, (one_copy_in_use hreached zero_ne_one).resolve_left ?_⟩
  intro hnone
  rw [hnone] at hserver
  cases hserver

end Mecmcp.Changeset
