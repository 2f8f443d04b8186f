import Mathlib.Logic.Function.Basic
import Mecmcp.Lib.Pool

/-!
# Reaper — the reaper and the sessions that are touched meanwhile

The loop of `LimitedSessionManager::new` with `reap_with_reasons` and `finish_reap` (`session.rs`),
against clients that create, touch and close sessions.  The reaper reads the clock, visits the
entries of the activity map one after the other, and then closes the expired ones one by one, with
an await for each.  A touch reads the clock, and writes the reading into the map later, whatever
stands there.

So the entry of a session holds its last touch only as far as no write with an older reading came
after it (`Overtaken`), and what the reaper finds at its visit is true of the other touches before
(`ReapInvariant.before_visit`).  The list is not looked at again, so a touch between the visit and
the close does not save the session either.
-/

namespace Mecmcp.Transport

open List Option

/-- `SessionMeta`, as far as the reaper reads it. -/
structure SessionMeta where
  createdAt : ℕ
  lastActive : ℕ

inductive ReapReason where
  | idle
  | lifetime
  deriving DecidableEq

/-- `ExpiredSession`, with the number of touches there had been when it was visited. -/
structure ExpiredSession (Id : Type) where
  id : Id
  reason : ReapReason
  seen : ℕ
  deriving DecidableEq

inductive ReaperStage (Id : Type) where
  | waiting
  /-- in `reap_with_reasons`, with the time it was called with -/
  | scanning (now : ℕ) (expired : List (ExpiredSession Id))
  /-- before the next `close_session` -/
  | closing (expired : List (ExpiredSession Id))
  /-- after a `close_session`, before `finish_reap` -/
  | finishing (current : ExpiredSession Id) (expired : List (ExpiredSession Id))
  deriving DecidableEq

def ReaperStage.expired {Id : Type} : ReaperStage Id → List (ExpiredSession Id)
  | .waiting => []
  | .scanning _ expired => expired
  | .closing expired => expired
  | .finishing current expired => current :: expired

structure ReapWorld (Id : Type) where
  clock : ℕ
  activity : Id → Option SessionMeta
  /-- calls between `Instant::now()` and `touch`, with their reading -/
  pending : List (Id × ℕ)
  /-- every touch so far with its reading, in the order of the writes -/
  touches : List (Id × ℕ)
  reaper : ReaperStage Id

def ReapWorld.init {Id : Type} : ReapWorld Id := ⟨0, fun _ => none, [], [], .waiting⟩

inductive ReapAction (Id : Type) where
  | tick (time : ℕ)
  /-- `try_register` of a new session, with a reading of the clock from before -/
  | create (id : Id) (now : ℕ)
  /-- `has_session`, `create_stream`, `accept_message`, `resume` and the like read the clock -/
  | readClock (id : Id)
  /-- and write their reading -/
  | touch (id : Id) (now : ℕ)
  /-- `close_session` of a client, when it unregisters -/
  | close (id : Id)
  /-- the reaper calls `reap_with_reasons` -/
  | scan
  /-- the scan comes to the entry of a session -/
  | visit (id : Id)
  | endScan
  /-- the reaper calls `close_session` for the next session -/
  | reap
  | finish

/-- `idle_timeout` and `max_lifetime`. -/
structure ReapLimits where
  idleTimeout : Option ℕ
  maxLifetime : Option ℕ

/-- Why an entry is expired at a time; `duration_since` saturates. -/
def reapReason (limits : ReapLimits) (now : ℕ) (info : SessionMeta) : Option ReapReason :=
  if limits.maxLifetime.any fun timeout => timeout ≤ now - info.createdAt then some .lifetime
  else if limits.idleTimeout.any fun timeout => timeout ≤ now - info.lastActive then some .idle
  else none

section
variable {Id : Type} [DecidableEq Id]

def ReapWorld.step (limits : ReapLimits) (world : ReapWorld Id) :
    ReapAction Id → Option (ReapWorld Id)
  | .tick time => some { world with clock := world.clock + time }
  | .create id now =>
    -- the id comes from the inner manager and is new
    if now ≤ world.clock ∧ world.touches.all (·.1 ≠ id) then
      some { world with activity := Function.update world.activity id (some ⟨now, now⟩) }
    else none
  | .readClock id => some { world with pending := world.pending ++ [(id, world.clock)] }
  | .touch id now =>
    if (id, now) ∈ world.pending then some { world with
      activity := Function.update world.activity id
        ((world.activity id).map fun info => { info with lastActive := now })
      pending := world.pending.erase (id, now)
      touches := world.touches ++ [(id, now)] }
    else none
  | .close id => some { world with activity := Function.update world.activity id none }
  | .scan =>
    match world.reaper with
    | .waiting => some { world with reaper := .scanning world.clock [] }
    | _ => none
  | .visit id =>
    match world.reaper, world.activity id with
    | .scanning now expired, some info =>
      match reapReason limits now info with
      | some reason => some { world with
          reaper := .scanning now (expired ++ [⟨id, reason, world.touches.length⟩]) }
      | none => some world
    | _, _ => none
  | .endScan =>
    match world.reaper with
    | .scanning _ expired => some { world with reaper := .closing expired }
    | _ => none
  | .reap =>
    match world.reaper with
    | .closing (current :: expired) => some { world with reaper := .finishing current expired }
    | .closing [] => some { world with reaper := .waiting }
    | _ => none
  | .finish =>
    match world.reaper with
    | .finishing current expired => some { world with
        activity := Function.update world.activity current.id none
        reaper := .closing expired }
    | _ => none

/-! ### What a visit knows -/

/-- After the touch with this reading, one with an older reading was written. -/
def Overtaken (touches : List (Id × ℕ)) (id : Id) (time : ℕ) : Prop :=
  ∃ older < time, [(id, time), (id, older)] <+ touches

omit [DecidableEq Id] in
theorem Overtaken.append {touches : List (Id × ℕ)} {id : Id} {time : ℕ}
    (h : Overtaken touches id time) (more : List (Id × ℕ)) :
    Overtaken (touches ++ more) id time := by
  obtain ⟨older, hlt, hsub⟩ := h
  exact ⟨older, hlt, hsub.trans (sublist_append_left _ _)⟩

omit [DecidableEq Id] in
/-- The last touch written has the latest reading of those not overtaken. -/
theorem le_of_not_overtaken {touches : List (Id × ℕ)} {id : Id} {time last : ℕ}
    (hmem : (id, time) ∈ touches ++ [(id, last)])
    (h : ¬Overtaken (touches ++ [(id, last)]) id time) : time ≤ last := by
  rcases mem_append.mp hmem with hmem | hmem
  · by_contra hlt
    exact h ⟨last, not_le.mp hlt, (singleton_sublist.mpr hmem).append (Sublist.refl _)⟩
  · obtain ⟨-, rfl⟩ := Prod.mk.inj (mem_singleton.mp hmem)
    exact le_rfl

/-- What holds of the clock, the map and the list of the reaper. -/
structure ReapInvariant (limits : ReapLimits) (world : ReapWorld Id) : Prop where
  past : ∀ call ∈ world.pending ++ world.touches, call.2 ≤ world.clock
  /-- an entry has the time of the last touch of its session that is not overtaken, or a later
  one -/
  active : ∀ id info, world.activity id = some info → ∀ time, (id, time) ∈ world.touches →
    ¬Overtaken world.touches id time → time ≤ info.lastActive
  scanning : ∀ now expired, world.reaper = .scanning now expired → now ≤ world.clock
  seen_le : ∀ expired ∈ world.reaper.expired, expired.seen ≤ world.touches.length
  before_visit : ∀ expired ∈ world.reaper.expired, expired.reason = .idle →
    ∃ timeout, limits.idleTimeout = some timeout ∧ ∀ time,
      (expired.id, time) ∈ world.touches.take expired.seen →
      ¬Overtaken (world.touches.take expired.seen) expired.id time → time + timeout ≤ world.clock

namespace ReapInvariant
variable {limits : ReapLimits} {world world' : ReapWorld Id}
variable {reaper : ReaperStage Id} {id : Id} {info : SessionMeta} {now : ℕ}

omit [DecidableEq Id] in
theorem init : ReapInvariant limits (ReapWorld.init : ReapWorld Id) where
  past _ h := absurd h not_mem_nil
  active _ _ h := by cases h
  scanning _ _ h := by cases h
  seen_le _ h := absurd h not_mem_nil
  before_visit _ h := absurd h not_mem_nil

omit [DecidableEq Id] in
theorem carry {clock : ℕ} {activity : Id → Option SessionMeta}
    {pending touches extra : List (Id × ℕ)}
    (h : ReapInvariant limits world) (hclock : world.clock ≤ clock)
    (htouches : touches = world.touches ++ extra)
    (hpast : ∀ call ∈ pending ++ extra, call ∈ world.pending ∨ call.2 ≤ clock)
    (hactive : ∀ id info, activity id = some info → ∀ time, (id, time) ∈ touches →
      ¬Overtaken touches id time → time ≤ info.lastActive)
    (hscanning : ∀ now expired, reaper = .scanning now expired → now ≤ clock)
    (hexpired : reaper.expired ⊆ world.reaper.expired) :
    ReapInvariant limits ⟨clock, activity, pending, touches, reaper⟩ where
  past call hcall := by
    have hsplit : call ∈ world.touches ∨ call ∈ pending ++ extra := by
      simp only [htouches, mem_append] at hcall ⊢
      tauto
    rcases hsplit with hcall | hcall
    · exact (h.past call (mem_append_right _ hcall)).trans hclock
    · rcases hpast call hcall with hcall | hle
      · exact (h.past call (mem_append_left _ hcall)).trans hclock
      · exact hle
  active := hactive
  scanning := hscanning
  seen_le expired hmem := by
    rw [htouches, length_append]
    exact (h.seen_le expired (hexpired hmem)).trans (Nat.le_add_right _ _)
  before_visit expired hmem hidle := by
    obtain ⟨timeout, hlimit, hold⟩ := h.before_visit expired (hexpired hmem) hidle
    refine ⟨timeout, hlimit, fun time htime hnot => ?_⟩
    rw [htouches, take_append_of_le_length (h.seen_le expired (hexpired hmem))] at htime hnot
    exact (hold time htime hnot).trans hclock

omit [DecidableEq Id] in
/-- Steps that write no touch. -/
theorem untouched {clock : ℕ} {activity : Id → Option SessionMeta} {pending : List (Id × ℕ)}
    (h : ReapInvariant limits world) (hclock : world.clock ≤ clock)
    (hpending : ∀ call ∈ pending, call ∈ world.pending ∨ call.2 ≤ clock)
    (hactive : ∀ id info, activity id = some info → ∀ time, (id, time) ∈ world.touches →
      ¬Overtaken world.touches id time → time ≤ info.lastActive)
    (hscanning : ∀ now expired, reaper = .scanning now expired → now ≤ clock)
    (hexpired : reaper.expired ⊆ world.reaper.expired) :
    ReapInvariant limits ⟨clock, activity, pending, world.touches, reaper⟩ :=
  h.carry hclock (append_nil _).symm (by rwa [append_nil]) hactive hscanning hexpired

omit [DecidableEq Id] in
theorem stage (h : ReapInvariant limits world)
    (hscanning : ∀ now expired, reaper = .scanning now expired → now ≤ world.clock)
    (hexpired : reaper.expired ⊆ world.reaper.expired) :
    ReapInvariant limits { world with reaper := reaper } :=
  h.untouched le_rfl (fun _ hcall => .inl hcall) h.active hscanning hexpired

variable {expired : List (ExpiredSession Id)}

omit [DecidableEq Id] in
theorem idle_at_visit (h : ReapInvariant limits world)
    (hscanning : world.reaper = .scanning now expired) (hinfo : world.activity id = some info)
    (hreason : reapReason limits now info = some .idle) :
    ∃ timeout, limits.idleTimeout = some timeout ∧ ∀ time, (id, time) ∈ world.touches →
      ¬Overtaken world.touches id time → time + timeout ≤ world.clock := by
  have hnow := h.scanning now expired hscanning
  unfold reapReason at hreason
  split at hreason
  · cases hreason
  · split at hreason
    next hidle =>
      obtain ⟨timeout, hlimit, hold⟩ := (Option.any_eq_true _ _).mp hidle
      refine ⟨timeout, hlimit, fun time htime hnot => ?_⟩
      have hactive := h.active id info hinfo time htime hnot
      have hpast := h.past _ (mem_append_right _ htime)
      have hold : timeout ≤ now - info.lastActive := of_decide_eq_true hold
      omega
    next => cases hreason

theorem remove (h : ReapInvariant limits world) :
    ReapInvariant limits { world with activity := Function.update world.activity id none } := by
  refine h.untouched le_rfl (fun _ hcall => .inl hcall) ?_ h.scanning (List.Subset.refl _)
  intro other info hinfo
  by_cases hid : other = id
  · subst hid
    rw [Function.update_self] at hinfo
    cases hinfo
  · rw [Function.update_of_ne hid] at hinfo
    exact h.active other info hinfo

theorem create (h : ReapInvariant limits world) (hnew : ∀ time, (id, time) ∉ world.touches) :
    ReapInvariant limits { world with
      activity := Function.update world.activity id (some info) } := by
  refine h.untouched le_rfl (fun _ hcall => .inl hcall) ?_ h.scanning (List.Subset.refl _)
  intro other found hinfo
  by_cases hid : other = id
  · subst hid
    exact fun time htime => absurd htime (hnew time)
  · rw [Function.update_of_ne hid] at hinfo
    exact h.active other found hinfo

theorem touch (h : ReapInvariant limits world) (hpending : (id, now) ∈ world.pending) :
    ReapInvariant limits { world with
      activity := Function.update world.activity id
        ((world.activity id).map fun info => { info with lastActive := now })
      pending := world.pending.erase (id, now)
      touches := world.touches ++ [(id, now)] } := by
  refine h.carry le_rfl rfl (fun call hcall => .inl ?_) ?_ h.scanning (List.Subset.refl _)
  · rcases mem_append.mp hcall with hcall | hcall
    · exact mem_of_mem_erase hcall
    · rwa [mem_singleton.mp hcall]
  intro other info hinfo time htime hnot
  by_cases hid : other = id
  · subst hid
    rw [Function.update_self] at hinfo
    obtain ⟨before, -, rfl⟩ := map_eq_some_iff.mp hinfo
    exact le_of_not_overtaken htime hnot
  · rw [Function.update_of_ne hid] at hinfo
    refine h.active other info hinfo time ?_ fun hover => hnot (hover.append _)
    rcases mem_append.mp htime with htime | htime
    · exact htime
    · exact absurd (Prod.mk.inj (mem_singleton.mp htime)).1 hid

omit [DecidableEq Id] in
theorem visit {reason : ReapReason} (h : ReapInvariant limits world)
    (hscanning : world.reaper = .scanning now expired) (hinfo : world.activity id = some info)
    (hreason : reapReason limits now info = some reason) :
    ReapInvariant limits { world with
      reaper := .scanning now (expired ++ [⟨id, reason, world.touches.length⟩]) } := by
  have hseen := h.seen_le
  have hbefore := h.before_visit
  rw [hscanning] at hseen hbefore
  refine ⟨h.past, h.active, fun now' expired' hs => ?_, fun found hmem => ?_,
    fun found hmem hidle => ?_⟩
  · rw [← (ReaperStage.scanning.inj hs).1]
    exact h.scanning now expired hscanning
  · rcases mem_append.mp hmem with hmem | hmem
    · exact hseen found hmem
    · rw [mem_singleton.mp hmem]
  · rcases mem_append.mp hmem with hmem | hmem
    · exact hbefore found hmem hidle
    · obtain rfl := mem_singleton.mp hmem
      obtain rfl : reason = .idle := hidle
      obtain ⟨timeout, hlimit, hold⟩ := h.idle_at_visit hscanning hinfo hreason
      refine ⟨timeout, hlimit, ?_⟩
      rw [take_length]
      exact hold

theorem step {action : ReapAction Id} (h : ReapInvariant limits world)
    (hstep : world.step limits action = some world') : ReapInvariant limits world' := by
  cases action with
  | tick time =>
    cases hstep
    have hle := Nat.le_add_right world.clock time
    exact h.untouched hle (fun _ hcall => .inl hcall) h.active
      (fun now expired hs => (h.scanning now expired hs).trans hle) (List.Subset.refl _)
  | create id now =>
    simp only [ReapWorld.step] at hstep
    split_ifs at hstep with hnew
    cases hstep
    refine h.create fun time htime => ?_
    simpa using all_eq_true.mp hnew.2 _ htime
  | readClock id =>
    cases hstep
    refine h.untouched le_rfl (fun call hcall => ?_) h.active h.scanning (List.Subset.refl _)
    rcases mem_append.mp hcall with hcall | hcall
    · exact .inl hcall
    · rw [mem_singleton.mp hcall]
      exact .inr le_rfl
  | touch id now =>
    simp only [ReapWorld.step] at hstep
    split_ifs at hstep with hpending
    cases hstep
    exact h.touch hpending
  | close id =>
    cases hstep
    exact h.remove
  | scan =>
    simp only [ReapWorld.step] at hstep
    split at hstep
    next =>
      cases hstep
      exact h.stage (fun now expired hs => (ReaperStage.scanning.inj hs).1.ge)
        (nil_subset _)
    next => cases hstep
  | visit id =>
    simp only [ReapWorld.step] at hstep
    split at hstep
    next now expired info hscanning hinfo =>
      split at hstep
      next reason hreason =>
        cases hstep
        exact h.visit hscanning hinfo hreason
      next =>
        cases hstep
        exact h
    next => cases hstep
  | endScan =>
    simp only [ReapWorld.step] at hstep
    split at hstep
    next now expired hscanning =>
      cases hstep
      refine h.stage (fun _ _ hs => by cases hs) ?_
      rw [hscanning]
      exact List.Subset.refl _
    next => cases hstep
  | reap =>
    simp only [ReapWorld.step] at hstep
    split at hstep
    next current expired hclosing =>
      cases hstep
      refine h.stage (fun _ _ hs => by cases hs) ?_
      rw [hclosing]
      exact List.Subset.refl _
    next =>
      cases hstep
      exact h.stage (fun _ _ hs => by cases hs) (nil_subset _)
    next => cases hstep
  | finish =>
    simp only [ReapWorld.step] at hstep
    split at hstep
    next current expired hfinishing =>
      cases hstep
      have hrest : (ReaperStage.closing expired).expired ⊆ world.reaper.expired := by
        rw [hfinishing]
        exact subset_cons_self _ _
      exact (h.stage (fun _ _ hs => by cases hs) hrest).remove
    next => cases hstep

end ReapInvariant

/-- **An active session and the reaper.**  When the reaper is about to call `close_session` for a
session it found idle: no touch of the session lies within the timeout before the call exactly if
none of those after the visit of the scan does, and none before it that was overtaken by a touch with
an older reading of the clock. -/
theorem reaped_idle_iff (limits : ReapLimits) {world : ReapWorld Id}
    (hworld : Reachable (ReapWorld.step limits) ReapWorld.init (fun _ _ => True) world)
    {current : ExpiredSession Id} {expired : List (ExpiredSession Id)}
    (hclosing : world.reaper = .closing (current :: expired)) (hidle : current.reason = .idle) :
    ∃ timeout, limits.idleTimeout = some timeout ∧
      ((∀ time, (current.id, time) ∈ world.touches → time + timeout ≤ world.clock) ↔
        (∀ time, (current.id, time) ∈ world.touches.drop current.seen →
          time + timeout ≤ world.clock) ∧
        ∀ time, Overtaken (world.touches.take current.seen) current.id time →
          time + timeout ≤ world.clock) := by
  have hinv : ReapInvariant limits world :=
    hworld.invariant .init fun _ _ _ h _ hstep => h.step hstep
  have hmem : current ∈ world.reaper.expired := by
    rw [hclosing]
    exact mem_cons_self
  obtain ⟨timeout, hlimit, hbefore⟩ := hinv.before_visit current hmem hidle
  refine ⟨timeout, hlimit, fun h => ⟨fun time ht => h time (mem_of_mem_drop ht), ?_⟩, ?_⟩
  · rintro time ⟨older, -, hsub⟩
    exact h time (mem_of_mem_take (hsub.subset mem_cons_self))
  · rintro ⟨hafter, hover⟩ time ht
    rw [← take_append_drop current.seen world.touches] at ht
    rcases mem_append.mp ht with ht | ht
    · by_cases hlate : Overtaken (world.touches.take current.seen) current.id time
      · exact hover time hlate
      · exact hbefore time ht hlate
    · exact hafter time ht

end

/-! ### A session that comes back to life -/

def tenSeconds : ReapLimits := ⟨some 10, none⟩

/-- A call that reads the clock and writes its reading at once. -/
def touchAt (id now : ℕ) : List (ReapAction ℕ) := [.readClock id, .touch id now]

/-- A session is touched twice, left alone for as long as the timeout, and found by the reaper. -/
def idleRun : List (ReapAction ℕ) :=
  [.create 0 0, .tick 1] ++ touchAt 0 1 ++ [.tick 2] ++ touchAt 0 3 ++
    [.tick 10, .scan, .visit 0, .endScan]

theorem idleRun_found :
    (runActions (ReapWorld.step tenSeconds) ReapWorld.init idleRun).map
      (fun world => (world.clock, world.touches, world.reaper)) =
      some (13, [(0, 1), (0, 3)], .closing [⟨0, .idle, 2⟩]) := by
  decide +kernel

/-- Nobody touched it since, so it is closed as idle. -/
theorem idleRun_reaped :
    ∃ world : ReapWorld ℕ, runActions (ReapWorld.step tenSeconds) ReapWorld.init idleRun =
      some world ∧ world.reaper = .closing [⟨0, .idle, 2⟩] ∧
      ∀ time, (0, time) ∈ world.touches → time + 10 ≤ world.clock := by
  obtain ⟨world, hrun, hfinal⟩ := map_eq_some_iff.mp idleRun_found
  simp only [Prod.mk.injEq] at hfinal
  obtain ⟨-, htouches, hreaper⟩ := hfinal
  obtain ⟨timeout, hlimit, hiff⟩ :=
    reaped_idle_iff tenSeconds (Reachable.run .start hrun) hreaper rfl
  obtain rfl : 10 = timeout := Option.some.inj hlimit
  refine ⟨world, hrun, hreaper, hiff.mpr ⟨by simp [htouches], ?_⟩⟩
  rintro time ⟨older, hlt, hsub⟩
  rw [htouches] at hsub
  cases hsub.eq_of_length rfl
  omega

/-- The first touch reads the clock and writes after the second has. -/
def overtakenRun : List (ReapAction ℕ) :=
  [.create 0 0, .tick 5, .readClock 0, .tick 5] ++ touchAt 0 10 ++
    [.touch 0 5, .tick 5, .scan, .visit 0, .endScan]

theorem active_sessions_found :
    (runActions (ReapWorld.step tenSeconds) ReapWorld.init (idleRun ++ touchAt 0 13)).map
      (fun world => (world.clock, world.touches, world.reaper,
        (world.step tenSeconds .reap).map ReapWorld.reaper)) =
      some (13, [(0, 1), (0, 3), (0, 13)], .closing [⟨0, .idle, 2⟩],
        some (.finishing ⟨0, .idle, 2⟩ [])) ∧
    (runActions (ReapWorld.step tenSeconds) ReapWorld.init overtakenRun).map
      (fun world => (world.clock, world.touches, world.reaper,
        (world.step tenSeconds .reap).map ReapWorld.reaper)) =
      some (15, [(0, 10), (0, 5)], .closing [⟨0, .idle, 2⟩],
        some (.finishing ⟨0, .idle, 2⟩ [])) := by
  constructor <;> decide +kernel

/-- The reaper calls `close_session` for a session as idle although it was touched less than the
timeout ago. -/
def ReapedActive (run : List (ReapAction ℕ)) (time : ℕ) : Prop :=
  ∃ world : ReapWorld ℕ, runActions (ReapWorld.step tenSeconds) ReapWorld.init run = some world ∧
    (world.step tenSeconds .reap).map ReapWorld.reaper = some (.finishing ⟨0, .idle, 2⟩ []) ∧
    (0, time) ∈ world.touches ∧ world.clock < time + 10

/-- It is touched after the scan found it, or before the scan with a touch overtaken by an older
one. -/
theorem touched_session_reaped_as_idle :
    ReapedActive (idleRun ++ touchAt 0 13) 13 ∧ ReapedActive overtakenRun 10 := by
  obtain ⟨hafter, hovertaken⟩ := active_sessions_found
  obtain ⟨world, hrun, hfinal⟩ := map_eq_some_iff.mp hafter
  obtain ⟨world', hrun', hfinal'⟩ := map_eq_some_iff.mp hovertaken
  simp only [Prod.mk.injEq] at hfinal hfinal'
  obtain ⟨hclock, htouches, -, hnext⟩ := hfinal
  obtain ⟨hclock', htouches', -, hnext'⟩ := hfinal'
  refine ⟨⟨world, hrun, hnext, by simp [htouches], by omega⟩,
    ⟨world', hrun', hnext', by simp [htouches'], by omega⟩⟩

end Mecmcp.Transport
