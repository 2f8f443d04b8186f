import Mecmcp.Lib.Pool

/-!
# Sessions — the per-token session cap

`token_concurrency_middleware` of `concurrency.rs` over `SessionTracker` and
`LimitedSessionManager` of `session.rs`.  A session-creating request takes a reservation, the
service below it creates and registers a session, and a successful response binds the session to the
token; everything else gives the reservation back.

The system is a set of requests in flight over one tracker.  An action is one critical section: a
lock of the token state, an operation on the activity map or on the counter `active`, or an answer
or cancellation at the only await of the middleware.  Sessions are closed by clients and by the
reaper; which session is closed when is left open.  The service answers with the id of the session
it created for the request.
-/

namespace Mecmcp.Transport

open List

/-! ### The tracker -/

section Steps

variable {Id : Type} [DecidableEq Id]

/-- `TokenSessionState`; a token without a count has the count zero. -/
structure TokenSessionState (Id : Type) where
  counts : String → ℕ
  sessions : List (Id × String)
  pendingReservations : ℕ
  createdUnbound : List Id
  closedBeforeBind : List Id

namespace TokenSessionState

def decrementToken (state : TokenSessionState Id) (token : String) : TokenSessionState Id :=
  { state with counts := Function.update state.counts token (state.counts token - 1) }

/-- With the last pending reservation the two sets are cleared. -/
def completePendingReservation (state : TokenSessionState Id) : TokenSessionState Id :=
  if state.pendingReservations - 1 = 0 then
    { state with pendingReservations := 0, createdUnbound := [], closedBeforeBind := [] }
  else { state with pendingReservations := state.pendingReservations - 1 }

/-- `try_reserve_token` below a cap above zero; `none` is a shed request. -/
def tryReserveToken (state : TokenSessionState Id) (max : ℕ) (token : String) :
    Option (TokenSessionState Id) :=
  if max ≤ state.counts token then none
  else some { state with
    counts := Function.update state.counts token (state.counts token + 1)
    pendingReservations := state.pendingReservations + 1 }

def noteSessionCreated (state : TokenSessionState Id) (id : Id) : TokenSessionState Id :=
  if 0 < state.pendingReservations then
    { state with createdUnbound := state.createdUnbound.insert id }
  else state

/-- `TokenSessionReservation::commit`: whether the session was bound, and the state after. -/
def commit (state : TokenSessionState Id) (id : Id) (token : String) :
    Bool × TokenSessionState Id :=
  if (state.sessions.lookup id).isSome then (false, state)
  else if id ∈ state.closedBeforeBind then
    (false, { state with closedBeforeBind := state.closedBeforeBind.filter (· ≠ id) })
  else if id ∉ state.createdUnbound then (false, state)
  else (true, { state with
    createdUnbound := state.createdUnbound.filter (· ≠ id)
    sessions := (id, token) :: state.sessions }.completePendingReservation)

/-- `Drop for TokenSessionReservation` on a reservation that was not committed. -/
def dropReservation (state : TokenSessionState Id) (token : String) : TokenSessionState Id :=
  (state.decrementToken token).completePendingReservation

/-- The last part of `unregister_inner`. -/
def unbind (state : TokenSessionState Id) (id : Id) : TokenSessionState Id :=
  match state.sessions.lookup id with
  | some token => { state with sessions := state.sessions.filter (·.1 ≠ id) }.decrementToken token
  | none =>
    if id ∈ state.createdUnbound then
      { state with
        createdUnbound := state.createdUnbound.filter (· ≠ id)
        closedBeforeBind := state.closedBeforeBind.insert id }
    else state

end TokenSessionState

/-- `SessionTracker`.  A session in the activity map is kept with the token of the request that
created it, which the code does not record there. -/
structure SessionTracker (Id : Type) where
  active : ℕ
  activity : List (Id × Option String)
  tokens : TokenSessionState Id

namespace SessionTracker

def registered (tracker : SessionTracker Id) : List Id := tracker.activity.map Prod.fst

/-- `activity.remove` of `unregister_inner`. -/
def removeActivity (tracker : SessionTracker Id) (id : Id) : SessionTracker Id :=
  { tracker with activity := tracker.activity.filter (·.1 ≠ id) }

/-- `active.fetch_sub` of `try_register` and `unregister_inner`. -/
def countDown (tracker : SessionTracker Id) : SessionTracker Id :=
  { tracker with active := tracker.active - 1 }

/-- `activity.insert` of `try_register`. -/
def insertActivity (tracker : SessionTracker Id) (id : Id) (token : Option String) :
    SessionTracker Id :=
  { tracker with activity := (id, token) :: tracker.activity.filter (·.1 ≠ id) }

/-- The sessions registered now that a request of the token created. -/
def liveSessions (tracker : SessionTracker Id) (token : String) : List Id :=
  (tracker.activity.filter (·.2 = some token)).map Prod.fst

end SessionTracker

/-! ### Requests in flight -/

/-- Where a session-creating request stands. -/
inductive RequestStage (Id : Type) where
  /-- the service runs and has created no session -/
  | serving
  /-- `note_session_created` is done -/
  | noted (id : Id)
  /-- `try_register` has taken a slot of `active` -/
  | counted (id : Id)
  /-- `try_register` found the cap reached, and has yet to give its slot back -/
  | overCap (id : Id)
  /-- `try_register` returned false -/
  | refused (id : Id)
  /-- the service goes on to its answer, with the session it registered -/
  | answering (created : Option Id)
  /-- the reservation, not committed, is about to be dropped -/
  | dropping (created : Option Id)
  | done

/-- The session the request has registered. -/
def RequestStage.created {Id : Type} : RequestStage Id → Option Id
  | .answering created | .dropping created => created
  | _ => none

structure SessionRequest (Id : Type) where
  token : Option String
  /-- the token of a reservation that is held and not committed -/
  reservation : Option String
  stage : RequestStage Id

/-- The caps of `LimitsConfig`; zero switches one off. -/
structure SessionLimits where
  maxSessions : ℕ
  maxSessionsPerToken : ℕ

structure SessionWorld (Id : Type) where
  tracker : SessionTracker Id
  requests : List (SessionRequest Id)
  /-- the calls of `unregister_inner` that have looked at the activity map and not yet at the
  binding, with whether they have yet to count down -/
  closing : List (Id × Bool)

def SessionWorld.init {Id : Type} : SessionWorld Id :=
  { tracker := ⟨0, [], ⟨fun _ => 0, [], 0, [], []⟩⟩, requests := [], closing := [] }

/-- One critical section; a request is named by its place in the list. -/
inductive SessionAction (Id : Type) where
  | accept (token : Option String)
  | note (r : ℕ) (id : Id)
  | count (r : ℕ)
  | insert (r : ℕ)
  | uncount (r : ℕ)
  | unregister (r : ℕ)
  | respond (r : ℕ) (success header : Bool)
  | cancel (r : ℕ)
  | drop (r : ℕ)
  | closeBegin (id : Id)
  | closeCount (id : Id)
  | closeEnd (id : Id)

namespace SessionWorld

/-- The request at `r` moves to another stage, over a changed tracker. -/
def move (world : SessionWorld Id) (r : ℕ) (request : SessionRequest Id)
    (tracker : SessionTracker Id) : SessionWorld Id :=
  { world with tracker, requests := world.requests.set r request }

/-- The middleware up to `next.run`: the cap on all sessions, then the reservation. -/
def accept (limits : SessionLimits) (world : SessionWorld Id) (token : Option String) :
    SessionWorld Id :=
  if 0 < limits.maxSessions ∧ limits.maxSessions ≤ world.tracker.active then world
  else match token with
    | none => { world with requests := world.requests ++ [⟨none, none, .serving⟩] }
    | some name =>
      if limits.maxSessionsPerToken = 0 then
        { world with requests := world.requests ++ [⟨some name, none, .serving⟩] }
      else match world.tracker.tokens.tryReserveToken limits.maxSessionsPerToken name with
        | none => world
        | some tokens =>
          { world with
            tracker := { world.tracker with tokens }
            requests := world.requests ++ [⟨some name, some name, .serving⟩] }

/-- The end of the middleware without a commit: a reservation is dropped. -/
def giveUp (world : SessionWorld Id) (r : ℕ) (request : SessionRequest Id) (created : Option Id) :
    SessionWorld Id :=
  let stage := if request.reservation.isSome then .dropping created else .done
  world.move r { request with stage } world.tracker

/-- The middleware after `next.run`: commit on success with a session id. -/
def respond (world : SessionWorld Id) (r : ℕ) (request : SessionRequest Id)
    (created : Option Id) (success header : Bool) : SessionWorld Id :=
  match request.reservation, created with
  | some token, some id =>
    if success && header then
      let result := world.tracker.tokens.commit id token
      let tracker := { world.tracker with tokens := result.2 }
      if result.1 then world.move r { request with reservation := none, stage := .done } tracker
      else world.move r { request with stage := .dropping (some id) } tracker
    else world.giveUp r request created
  | _, _ => world.giveUp r request created

/-- `unregister_inner` up to its look at the activity map. -/
def closeBegin (world : SessionWorld Id) (id : Id) : SessionWorld Id :=
  { world with
    tracker := world.tracker.removeActivity id
    closing := (id, decide (id ∈ world.tracker.registered)) :: world.closing }

/-- The request named by an action, if it is at a stage of the given kind. -/
def at? (world : SessionWorld Id) (r : ℕ) {α : Type}
    (stage : RequestStage Id → Option α) : Option (SessionRequest Id × α) := do
  let request ← world.requests[r]?
  let value ← stage request.stage
  return (request, value)

def step (limits : SessionLimits) (world : SessionWorld Id) :
    SessionAction Id → Option (SessionWorld Id)
  | .accept token => some (world.accept limits token)
  | .note r id => do
    let (request, ()) ← world.at? r fun | .serving => some () | _ => none
    return world.move r { request with stage := .noted id }
      { world.tracker with tokens := world.tracker.tokens.noteSessionCreated id }
  | .count r => do
    let (request, id) ← world.at? r fun | .noted id => some id | _ => none
    let reached := 0 < limits.maxSessions ∧ limits.maxSessions ≤ world.tracker.active
    return world.move r { request with stage := if reached then .overCap id else .counted id }
      { world.tracker with active := world.tracker.active + 1 }
  | .insert r => do
    let (request, id) ← world.at? r fun | .counted id => some id | _ => none
    return world.move r { request with stage := .answering (some id) }
      (world.tracker.insertActivity id request.token)
  | .uncount r => do
    let (request, id) ← world.at? r fun | .overCap id => some id | _ => none
    return world.move r { request with stage := .refused id }
      world.tracker.countDown
  | .unregister r => do
    let (request, id) ← world.at? r fun | .refused id => some id | _ => none
    return (world.move r { request with stage := .answering none } world.tracker).closeBegin id
  | .respond r success header => do
    let (request, created) ← world.at? r fun
      | .serving => some none | .answering created => some created | _ => none
    return world.respond r request created success header
  | .cancel r => do
    let (request, created) ← world.at? r fun
      | .serving => some none | .answering created => some created | _ => none
    return world.giveUp r request created
  | .drop r => do
    let (request, _) ← world.at? r fun | .dropping created => some created | _ => none
    let token ← request.reservation
    return world.move r { request with reservation := none, stage := .done }
      { world.tracker with tokens := world.tracker.tokens.dropReservation token }
  | .closeBegin id => some (world.closeBegin id)
  | .closeCount id =>
    if (id, true) ∈ world.closing then some { world with
      tracker := world.tracker.countDown
      closing := (id, false) :: world.closing.erase (id, true) }
    else none
  | .closeEnd id =>
    if (id, false) ∈ world.closing then some { world with
      tracker := { world.tracker with tokens := world.tracker.tokens.unbind id }
      closing := world.closing.erase (id, false) }
    else none

/-- The action gives up the count of a session that is still registered: it drops the reservation
of the request that created it, or removes its binding. -/
def givesUpLive (world : SessionWorld Id) : SessionAction Id → Bool
  | .drop r => ((world.requests[r]?).bind (·.stage.created)).any
      fun id => decide (id ∈ world.tracker.registered)
  | .closeEnd id => (world.tracker.tokens.sessions.lookup id).isSome &&
      decide (id ∈ world.tracker.registered)
  | _ => false

end SessionWorld

end Steps

/-! ### The count covers the registered sessions -/

section Invariant

variable {Id : Type}

def SessionRequest.holds (token : String) (request : SessionRequest Id) : Bool :=
  request.reservation == some token

/-- What a world of capped requests keeps. -/
structure Covered (max : ℕ) (world : SessionWorld Id) : Prop where
  reserved : ∀ request ∈ world.requests,
    (request.stage = .done → request.reservation = none) ∧
      (request.stage ≠ .done → request.reservation = request.token)
  /-- no session is registered twice -/
  nodup : world.tracker.registered.Nodup
  /-- a registered session is bound to its token or held by the request that created it -/
  covered : ∀ id token, (id, some token) ∈ world.tracker.activity →
    (id, token) ∈ world.tracker.tokens.sessions ∨
      ∃ request ∈ world.requests, request.reservation = some token ∧
        request.stage.created = some id
  /-- the count covers reservations and bindings -/
  counted : ∀ token, world.requests.countP (SessionRequest.holds token) +
    world.tracker.tokens.sessions.countP (·.2 = token) ≤ world.tracker.tokens.counts token
  capped : ∀ token, world.tracker.tokens.counts token ≤ max

theorem covered_init (max : ℕ) : Covered max (SessionWorld.init : SessionWorld Id) where
  reserved := by simp [SessionWorld.init]
  nodup := by simp [SessionWorld.init, SessionTracker.registered]
  covered := by simp [SessionWorld.init]
  counted := by simp [SessionWorld.init]
  capped := by simp [SessionWorld.init]

variable {max : ℕ} {world : SessionWorld Id}

theorem Covered.liveSessions_le (h : Covered max world) (token : String) :
    (world.tracker.liveSessions token).length ≤ max := by
  let bound := (world.tracker.tokens.sessions.filter (·.2 = token)).map Prod.fst
  let held := (world.requests.filter (SessionRequest.holds token)).filterMap (·.stage.created)
  have hnodup : (world.tracker.liveSessions token).Nodup :=
    (filter_sublist.map Prod.fst).nodup h.nodup
  have hsubset : world.tracker.liveSessions token ⊆ bound ++ held := by
    intro id hid
    obtain ⟨⟨id', owner⟩, hmem, rfl⟩ := mem_map.mp hid
    obtain ⟨hactivity, howner⟩ := mem_filter.mp hmem
    have howner : owner = some token := by simpa using howner
    subst howner
    rcases h.covered id' token hactivity with hbound | ⟨request, hrequest, hholds, hcreated⟩
    · exact mem_append_left _ (mem_map.mpr
        ⟨_, mem_filter.mpr ⟨hbound, by simp⟩, rfl⟩)
    · exact mem_append_right _ (mem_filterMap.mpr
        ⟨request, mem_filter.mpr ⟨hrequest, by simp [SessionRequest.holds, hholds]⟩,
          hcreated⟩)
  have hbound : bound.length = world.tracker.tokens.sessions.countP (·.2 = token) := by
    rw [length_map, countP_eq_length_filter]
  have hheld : held.length ≤ world.requests.countP (SessionRequest.holds token) := by
    rw [countP_eq_length_filter]
    exact length_filterMap_le _ _
  calc (world.tracker.liveSessions token).length
      ≤ (bound ++ held).length := (hnodup.subperm hsubset).length_le
    _ = bound.length + held.length := length_append
    _ ≤ world.tracker.tokens.counts token := by
        have := h.counted token
        omega
    _ ≤ max := h.capped token

/-! ### Steps -/

variable {r : ℕ} {α : Type} {world' : SessionWorld Id}

theorem SessionWorld.bind_at? {stage : RequestStage Id → Option α}
    {f : SessionRequest Id × α → Option (SessionWorld Id)}
    (h : (world.at? r stage).bind f = some world') :
    ∃ request value, world.requests[r]? = some request ∧ stage request.stage = some value ∧
      f (request, value) = some world' := by
  obtain ⟨⟨request, value⟩, hat, hf⟩ := Option.bind_eq_some_iff.mp h
  obtain ⟨found, hr, hat⟩ := Option.bind_eq_some_iff.mp hat
  obtain ⟨value', hstage, hat⟩ := Option.bind_eq_some_iff.mp hat
  obtain ⟨rfl, rfl⟩ := Prod.mk.inj (Option.some.inj hat)
  exact ⟨found, value', hr, hstage, hf⟩

variable {xs : List α}

theorem mem_set_of_ne {x y z : α} (hr : xs[r]? = some x)
    (hy : y ∈ xs) (hne : y ≠ x) : y ∈ xs.set r z := by
  obtain ⟨i, hi, rfl⟩ := getElem_of_mem hy
  have hir : r ≠ i := by
    rintro rfl
    exact hne (Option.some.inj (by rw [← hr, getElem?_eq_getElem hi]))
  rw [mem_iff_getElem?]
  exact ⟨i, by rw [getElem?_set_ne hir, getElem?_eq_getElem hi]⟩

theorem countP_set_eq {x z : α} (hr : xs[r]? = some x)
    (p : α → Bool) :
    (xs.set r z).countP p + (if p x then 1 else 0) = xs.countP p + (if p z then 1 else 0) := by
  obtain ⟨hlt, hx⟩ := List.getElem?_eq_some_iff.mp hr
  rw [countP_set hlt, hx]
  have hpos : p x = true → 0 < xs.countP p := fun hp =>
    countP_pos_iff.mpr ⟨x, hx ▸ getElem_mem hlt, hp⟩
  by_cases hp : p x
  · have := hpos hp
    simp only [hp, if_true]
    omega
  · simp only [hp]
    simp

theorem Covered.shrink (h : Covered max world) (tracker : SessionTracker Id)
    (hactivity : tracker.activity.Sublist world.tracker.activity)
    (hsessions : tracker.tokens.sessions = world.tracker.tokens.sessions)
    (hcounts : tracker.tokens.counts = world.tracker.tokens.counts) (closing : List (Id × Bool)) :
    Covered max { world with tracker, closing } where
  reserved := h.reserved
  nodup := (hactivity.map Prod.fst).nodup h.nodup
  covered := by
    intro id token hid
    rw [hsessions]
    exact h.covered id token (hactivity.subset hid)
  counted := by
    intro token
    rw [hsessions, hcounts]
    exact h.counted token
  capped := by
    intro token
    rw [hcounts]
    exact h.capped token

variable {request : SessionRequest Id}

theorem Covered.stage (stage : RequestStage Id)
    (h : Covered max world) (hr : world.requests[r]? = some request)
    (hdone : request.stage ≠ .done) (hstage : stage ≠ .done ∨ request.reservation = none)
    (hcreated : request.stage.created = none ∨ request.reservation = none ∨
      stage.created = request.stage.created) :
    Covered max (world.move r { request with stage } world.tracker) where
  reserved := by
    intro q hq
    rcases mem_or_eq_of_mem_set hq with hq | rfl
    · exact h.reserved q hq
    · refine ⟨fun hd => ?_, fun _ => (h.reserved request (mem_of_getElem? hr)).2 hdone⟩
      exact hstage.resolve_left (fun hne => hne hd)
  nodup := h.nodup
  covered := by
    intro id token hid
    rcases h.covered id token hid with hbound | ⟨q, hq, hreservation, hqcreated⟩
    · exact .inl hbound
    · refine .inr ?_
      by_cases hqr : q = request
      · subst hqr
        rcases hcreated with hnone | hnone | hsame
        · rw [hnone] at hqcreated
          exact absurd hqcreated (by simp)
        · rw [hnone] at hreservation
          exact absurd hreservation (by simp)
        · exact ⟨{ q with stage }, mem_set (List.getElem?_eq_some_iff.mp hr).1 _,
            hreservation, hsame.trans hqcreated⟩
      · exact ⟨q, mem_set_of_ne hr hq hqr, hreservation, hqcreated⟩
  counted := by
    intro token
    have hcount := countP_set_eq (z := { request with stage }) hr (SessionRequest.holds token)
    have hsame : SessionRequest.holds token { request with stage } =
        SessionRequest.holds token request := rfl
    rw [hsame] at hcount
    have hold := h.counted token
    show (world.requests.set r _).countP _ + world.tracker.tokens.sessions.countP _ ≤
      world.tracker.tokens.counts token
    omega
  capped := h.capped

variable {name : String} {tokens : TokenSessionState Id}

/-- A reservation ends: its session is bound or no longer registered, and the count goes down by no
more than the reservation and the bindings do. -/
theorem Covered.release (h : Covered max world)
    (hr : world.requests[r]? = some request) (hname : request.reservation = some name)
    (hbound : ∀ id, request.stage.created = some id →
      (id, some name) ∈ world.tracker.activity → (id, name) ∈ tokens.sessions)
    (hsubset : world.tracker.tokens.sessions ⊆ tokens.sessions)
    (hcount : ∀ token, tokens.sessions.countP (·.2 = token) + world.tracker.tokens.counts token ≤
      world.tracker.tokens.sessions.countP (·.2 = token) + tokens.counts token +
        if token = name then 1 else 0)
    (hcap : ∀ token, tokens.counts token ≤ world.tracker.tokens.counts token) :
    Covered max (world.move r { request with reservation := none, stage := .done }
      { world.tracker with tokens }) where
  reserved := by
    intro q hq
    rcases mem_or_eq_of_mem_set hq with hq | rfl
    · exact h.reserved q hq
    · exact ⟨fun _ => rfl, fun hne => absurd rfl hne⟩
  nodup := h.nodup
  covered := by
    intro id token hid
    rcases h.covered id token hid with hold | ⟨q, hq, hreservation, hcreated⟩
    · exact .inl (hsubset hold)
    · by_cases hqr : q = request
      · subst hqr
        obtain rfl : name = token := Option.some.inj (hname.symm.trans hreservation)
        exact .inl (hbound id hcreated hid)
      · exact .inr ⟨q, mem_set_of_ne hr hq hqr, hreservation, hcreated⟩
  counted := by
    intro token
    have hset := countP_set_eq (z := { request with reservation := none, stage := .done }) hr
      (SessionRequest.holds token)
    have hafter : SessionRequest.holds token
        ({ request with reservation := none, stage := .done } : SessionRequest Id) = false := rfl
    have hbefore : SessionRequest.holds token request = decide (token = name) := by
      simp only [SessionRequest.holds, hname]
      by_cases ht : token = name
      · simp [ht]
      · simp [ht, Ne.symm ht]
    rw [hafter, hbefore] at hset
    simp only [decide_eq_true_eq, Bool.false_eq_true, if_false] at hset
    have hold := h.counted token
    have hstep := hcount token
    show (world.requests.set r _).countP _ + tokens.sessions.countP _ ≤ tokens.counts token
    omega
  capped := fun token => (hcap token).trans (h.capped token)

theorem Covered.reserve (h : Covered max world)
    (htokens : world.tracker.tokens.tryReserveToken max name = some tokens) :
    Covered max { world with
      tracker := { world.tracker with tokens }
      requests := world.requests ++ [⟨some name, some name, .serving⟩] } := by
  unfold TokenSessionState.tryReserveToken at htokens
  split_ifs at htokens with hfull
  cases htokens
  refine ⟨fun q hq => ?_, h.nodup, fun id token hid => ?_, fun token => ?_, fun token => ?_⟩
  · rcases mem_append.mp hq with hq | hq
    · exact h.reserved q hq
    · rw [mem_singleton.mp hq]
      exact ⟨fun hd => by simp at hd, fun _ => rfl⟩
  · rcases h.covered id token hid with hbound | ⟨q, hq, hqs⟩
    · exact .inl hbound
    · exact .inr ⟨q, mem_append_left _ hq, hqs⟩
  · have hold := h.counted token
    have hnew : [(⟨some name, some name, .serving⟩ : SessionRequest Id)].countP
        (SessionRequest.holds token) = if token = name then 1 else 0 := by
      by_cases ht : token = name
      · simp [SessionRequest.holds, ht]
      · simp [SessionRequest.holds, ht, Ne.symm ht]
    show (world.requests ++ [_]).countP _ + world.tracker.tokens.sessions.countP _ ≤
      Function.update world.tracker.tokens.counts name (world.tracker.tokens.counts name + 1) token
    rw [countP_append, hnew]
    by_cases ht : token = name
    · subst ht
      rw [Function.update_self, if_pos rfl]
      omega
    · rw [Function.update_of_ne ht, if_neg ht]
      omega
  · by_cases ht : token = name
    · subst ht
      simp only [Function.update_self]
      omega
    · simp only [Function.update_of_ne ht]
      exact h.capped token

theorem Covered.anonymous (h : Covered max world) :
    Covered max { world with requests := world.requests ++ [⟨none, none, .serving⟩] } where
  reserved := by
    intro q hq
    rcases mem_append.mp hq with hq | hq
    · exact h.reserved q hq
    · rw [mem_singleton.mp hq]
      exact ⟨fun _ => rfl, fun _ => rfl⟩
  nodup := h.nodup
  covered := by
    intro id token hid
    rcases h.covered id token hid with hbound | ⟨q, hq, hqs⟩
    · exact .inl hbound
    · exact .inr ⟨q, mem_append_left _ hq, hqs⟩
  counted := by
    intro token
    have hold := h.counted token
    rw [countP_append]
    simpa [SessionRequest.holds] using hold
  capped := h.capped

theorem completePendingReservation_sessions (state : TokenSessionState Id) :
    state.completePendingReservation.sessions = state.sessions := by
  unfold TokenSessionState.completePendingReservation
  split_ifs <;> rfl

theorem completePendingReservation_counts (state : TokenSessionState Id) :
    state.completePendingReservation.counts = state.counts := by
  unfold TokenSessionState.completePendingReservation
  split_ifs <;> rfl

variable {created : Option Id}

theorem Covered.giveUp (h : Covered max world) (hr : world.requests[r]? = some request)
    (hdone : request.stage ≠ .done) (hcreated : request.stage.created = created) :
    Covered max (world.giveUp r request created) := by
  unfold SessionWorld.giveUp
  by_cases hsome : request.reservation.isSome = true
  · simp only [hsome, if_true]
    exact h.stage (.dropping created) hr hdone (.inl (by simp)) (.inr (.inr hcreated.symm))
  · have hnone : request.reservation = none := by simpa using hsome
    simp only [hsome]
    exact h.stage .done hr hdone (.inr hnone) (.inr (.inl hnone))

theorem Covered.drop (h : Covered max world)
    (hr : world.requests[r]? = some request) (hname : request.reservation = some name)
    (hlive : ∀ id, request.stage.created = some id → id ∉ world.tracker.registered) :
    Covered max (world.move r { request with reservation := none, stage := .done }
      { world.tracker with tokens := world.tracker.tokens.dropReservation name }) := by
  have hsessions : (world.tracker.tokens.dropReservation name).sessions =
      world.tracker.tokens.sessions := completePendingReservation_sessions _
  have hcounts : (world.tracker.tokens.dropReservation name).counts =
      Function.update world.tracker.tokens.counts name (world.tracker.tokens.counts name - 1) :=
    completePendingReservation_counts _
  refine h.release hr hname (fun id hid hmem => ?_) ?_ (fun token => ?_) fun token => ?_
  · exact absurd (mem_map.mpr ⟨_, hmem, rfl⟩) (hlive id hid)
  · rw [hsessions]
    exact List.Subset.refl _
  · rw [hsessions, hcounts]
    by_cases ht : token = name
    · subst ht
      rw [Function.update_self, if_pos rfl]
      omega
    · rw [Function.update_of_ne ht, if_neg ht]
      omega
  · rw [hcounts]
    by_cases ht : token = name
    · subst ht
      rw [Function.update_self]
      omega
    · rw [Function.update_of_ne ht]

variable {limits : SessionLimits}

theorem Covered.accept {token : Option String}
    (hcap : 0 < limits.maxSessionsPerToken) (h : Covered limits.maxSessionsPerToken world) :
    Covered limits.maxSessionsPerToken (world.accept limits token) := by
  unfold SessionWorld.accept
  by_cases hfull : 0 < limits.maxSessions ∧ limits.maxSessions ≤ world.tracker.active
  · rw [if_pos hfull]
    exact h
  · rw [if_neg hfull]
    cases token with
    | none => exact h.anonymous
    | some name =>
      dsimp only
      rw [if_neg (Nat.pos_iff_ne_zero.mp hcap)]
      cases htokens : world.tracker.tokens.tryReserveToken limits.maxSessionsPerToken name with
      | none => exact h
      | some tokens => exact h.reserve htokens

/-- Before its answer a request has no session; from `serving` or `answering` it goes to its end. -/
theorem answering_stage {stage : RequestStage Id}
    (h : (match stage with
      | .serving => some none | .answering created => some created | _ => none) = some created) :
    stage ≠ .done ∧ stage.created = created := by
  cases stage with
  | serving | answering c => exact ⟨by simp, by simpa [RequestStage.created] using h⟩
  | _ => simp at h

variable [DecidableEq Id] {id : Id}

theorem Covered.insertActivity (h : Covered max world)
    (hrequest : request ∈ world.requests) (hreservation : request.reservation = request.token)
    (hcreated : request.stage.created = some id) :
    Covered max { world with tracker := world.tracker.insertActivity id request.token } where
  reserved := h.reserved
  nodup := by
    have hrest : (world.tracker.activity.filter (·.1 ≠ id)).Sublist world.tracker.activity :=
      filter_sublist
    refine nodup_cons.mpr ⟨fun hmem => ?_, (hrest.map Prod.fst).nodup h.nodup⟩
    obtain ⟨entry, hentry, hid⟩ := mem_map.mp hmem
    have hne := (mem_filter.mp hentry).2
    simp [hid] at hne
  covered := by
    intro id' token hmem
    rcases mem_cons.mp hmem with hnew | hold
    · obtain ⟨rfl, htoken⟩ := Prod.mk.inj hnew
      exact .inr ⟨request, hrequest, hreservation.trans htoken.symm, hcreated⟩
    · exact h.covered id' token (mem_of_mem_filter hold)
  counted := h.counted
  capped := h.capped

theorem countP_filter_ne_lookup {sessions : List (Id × String)}
    (hlookup : sessions.lookup id = some name) (token : String) :
    (sessions.filter (·.1 ≠ id)).countP (·.2 = token) + (if token = name then 1 else 0) ≤
      sessions.countP (·.2 = token) := by
  induction sessions with
  | nil => simp at hlookup
  | cons entry sessions ih =>
    obtain ⟨key, owner⟩ := entry
    rw [lookup_cons] at hlookup
    by_cases hkey : id = key
    · subst hkey
      simp only [beq_self_eq_true] at hlookup
      obtain rfl := Option.some.inj hlookup
      have hsub : (sessions.filter (·.1 ≠ id)).countP (·.2 = token) ≤
          sessions.countP (·.2 = token) := filter_sublist.countP_le
      rw [filter_cons_of_neg (by simp), countP_cons]
      by_cases ht : owner = token
      · simp only [ht, decide_true, if_true]
        omega
      · simp only [ht, Ne.symm ht, decide_false, if_false]
        simpa using hsub
    · have hne : (id == key) = false := by simpa using hkey
      rw [hne] at hlookup
      rw [filter_cons_of_pos (by simpa using Ne.symm hkey), countP_cons, countP_cons]
      have := ih hlookup
      omega

theorem unbind_of_none {state : TokenSessionState Id}
    (h : state.sessions.lookup id = none) :
    (state.unbind id).sessions = state.sessions ∧ (state.unbind id).counts = state.counts := by
  simp only [TokenSessionState.unbind, h]
  split_ifs
  · exact ⟨rfl, rfl⟩
  · exact ⟨rfl, rfl⟩

theorem Covered.unbind (h : Covered max world)
    (hlive : (world.tracker.tokens.sessions.lookup id).isSome → id ∉ world.tracker.registered)
    (closing : List (Id × Bool)) :
    Covered max { world with
      tracker := { world.tracker with tokens := world.tracker.tokens.unbind id }, closing } := by
  cases hlookup : world.tracker.tokens.sessions.lookup id with
  | none =>
    obtain ⟨hsessions, hcounts⟩ := unbind_of_none hlookup
    exact h.shrink { world.tracker with tokens := world.tracker.tokens.unbind id }
      (List.Sublist.refl _) hsessions hcounts closing
  | some name =>
    have hgone : id ∉ world.tracker.registered := hlive (by simp [hlookup])
    simp only [TokenSessionState.unbind, hlookup]
    refine ⟨h.reserved, h.nodup, fun id' token hid => ?_, fun token => ?_, fun token => ?_⟩
    · rcases h.covered id' token hid with hbound | hheld
      · have hne : id' ≠ id := by
          rintro rfl
          exact hgone (mem_map.mpr ⟨_, hid, rfl⟩)
        exact .inl (mem_filter.mpr ⟨hbound, by simpa using hne⟩)
      · exact .inr hheld
    · have hold := h.counted token
      have hdown := countP_filter_ne_lookup hlookup token
      show world.requests.countP _ + (world.tracker.tokens.sessions.filter _).countP _ ≤
        Function.update world.tracker.tokens.counts name (world.tracker.tokens.counts name - 1)
          token
      by_cases ht : token = name
      · subst ht
        rw [Function.update_self]
        simp only [if_true] at hdown
        omega
      · rw [Function.update_of_ne ht]
        simp only [ht, if_false] at hdown
        omega
    · have hcap := h.capped token
      show Function.update world.tracker.tokens.counts name (world.tracker.tokens.counts name - 1)
        token ≤ max
      by_cases ht : token = name
      · subst ht
        rw [Function.update_self]
        omega
      · rwa [Function.update_of_ne ht]

/-- A commit that fails changes neither sessions nor counts; one that succeeds adds the binding. -/
theorem commit_cases (state : TokenSessionState Id) (id : Id) (name : String) :
    ((state.commit id name).1 = false ∧ (state.commit id name).2.sessions = state.sessions ∧
      (state.commit id name).2.counts = state.counts) ∨
    ((state.commit id name).1 = true ∧
      (state.commit id name).2.sessions = (id, name) :: state.sessions ∧
      (state.commit id name).2.counts = state.counts) := by
  unfold TokenSessionState.commit
  split_ifs
  · exact .inl ⟨rfl, rfl, rfl⟩
  · exact .inl ⟨rfl, rfl, rfl⟩
  · exact .inr ⟨rfl, completePendingReservation_sessions _, completePendingReservation_counts _⟩
  · exact .inl ⟨rfl, rfl, rfl⟩

theorem Covered.respond {success header : Bool} (h : Covered max world)
    (hr : world.requests[r]? = some request)
    (hdone : request.stage ≠ .done) (hcreated : request.stage.created = created) :
    Covered max (world.respond r request created success header) := by
  unfold SessionWorld.respond
  split
  · rename_i name id hname
    by_cases hcommit : (success && header) = true
    · rw [if_pos hcommit]
      obtain ⟨hfalse, hsessions, hcounts⟩ | ⟨htrue, hsessions, hcounts⟩ :=
        commit_cases world.tracker.tokens id name
      · simp only [hfalse, Bool.false_eq_true, if_false]
        exact (h.stage (.dropping (some id)) hr hdone (.inl (by simp))
          (.inr (.inr hcreated.symm))).shrink
            { world.tracker with tokens := (world.tracker.tokens.commit id name).2 }
            (List.Sublist.refl _) hsessions hcounts world.closing
      · simp only [htrue, if_true]
        refine h.release hr hname (fun id' hid' _ => ?_) ?_ (fun token => ?_) fun token => ?_
        · rw [hcreated] at hid'
          rw [hsessions, Option.some.inj hid']
          exact .head _
        · rw [hsessions]
          exact subset_cons_self _ _
        · rw [hsessions, hcounts, countP_cons]
          by_cases ht : token = name
          · simp only [ht, decide_true, if_true]
            omega
          · simp only [ht, Ne.symm ht, decide_false, Bool.false_eq_true, if_false]
            omega
        · rw [hcounts]
    · rw [if_neg hcommit]
      exact h.giveUp hr hdone hcreated
  · exact h.giveUp hr hdone hcreated

theorem Covered.step {action : SessionAction Id}
    (hcap : 0 < limits.maxSessionsPerToken)
    (h : Covered limits.maxSessionsPerToken world) (hlive : world.givesUpLive action = false)
    (hstep : world.step limits action = some world') :
    Covered limits.maxSessionsPerToken world' := by
  cases action with
  | accept token =>
    cases hstep
    exact h.accept hcap
  | note r id =>
    obtain ⟨request, _, hr, hstage, ⟨⟩⟩ := SessionWorld.bind_at? hstep
    have hserving : request.stage = .serving := by
      cases hs : request.stage <;> simp [hs] at hstage ⊢
    have hsame : (world.tracker.tokens.noteSessionCreated id).sessions =
        world.tracker.tokens.sessions ∧ (world.tracker.tokens.noteSessionCreated id).counts =
          world.tracker.tokens.counts := by
      unfold TokenSessionState.noteSessionCreated
      split_ifs <;> exact ⟨rfl, rfl⟩
    exact (h.stage (.noted id) hr (by simp [hserving]) (.inl (by simp))
      (.inl (by simp [hserving, RequestStage.created]))).shrink
        { world.tracker with tokens := world.tracker.tokens.noteSessionCreated id }
        (List.Sublist.refl _) hsame.1 hsame.2 world.closing
  | count r =>
    obtain ⟨request, id, hr, hstage, ⟨⟩⟩ := SessionWorld.bind_at? hstep
    cases hnoted : request.stage <;> simp [hnoted] at hstage
    rw [hstage] at hnoted
    refine (h.stage _ hr (by simp [hnoted]) (.inl ?_)
      (.inl (by simp [hnoted, RequestStage.created]))).shrink
        { world.tracker with active := world.tracker.active + 1 }
        (List.Sublist.refl _) rfl rfl world.closing
    split_ifs <;> simp
  | insert r =>
    obtain ⟨request, id, hr, hstage, ⟨⟩⟩ := SessionWorld.bind_at? hstep
    cases hcounted : request.stage <;> simp [hcounted] at hstage
    rw [hstage] at hcounted
    have hmoved := h.stage (.answering (some id)) hr (by simp [hcounted]) (.inl (by simp))
      (.inl (by simp [hcounted, RequestStage.created]))
    have hreservation : request.reservation = request.token :=
      (h.reserved request (mem_of_getElem? hr)).2 (by simp [hcounted])
    have hmem : ({ request with stage := .answering (some id) } : SessionRequest Id) ∈
        (world.move r { request with stage := .answering (some id) } world.tracker).requests :=
      mem_set (List.getElem?_eq_some_iff.mp hr).1 _
    have hinserted := hmoved.insertActivity hmem hreservation rfl
    exact hinserted
  | uncount r =>
    obtain ⟨request, id, hr, hstage, ⟨⟩⟩ := SessionWorld.bind_at? hstep
    cases hover : request.stage <;> simp [hover] at hstage
    rw [hstage] at hover
    exact (h.stage (.refused id) hr (by simp [hover]) (.inl (by simp))
      (.inl (by simp [hover, RequestStage.created]))).shrink
        world.tracker.countDown (List.Sublist.refl _) rfl rfl world.closing
  | unregister r =>
    obtain ⟨request, id, hr, hstage, ⟨⟩⟩ := SessionWorld.bind_at? hstep
    cases hrefused : request.stage <;> simp [hrefused] at hstage
    rw [hstage] at hrefused
    exact (h.stage (.answering none) hr (by simp [hrefused]) (.inl (by simp))
      (.inl (by simp [hrefused, RequestStage.created]))).shrink
        (world.tracker.removeActivity id) filter_sublist rfl rfl _
  | respond r success header =>
    obtain ⟨request, created, hr, hstage, ⟨⟩⟩ := SessionWorld.bind_at? hstep
    obtain ⟨hdone, hcreated⟩ := answering_stage hstage
    exact h.respond hr hdone hcreated
  | cancel r =>
    obtain ⟨request, created, hr, hstage, ⟨⟩⟩ := SessionWorld.bind_at? hstep
    obtain ⟨hdone, hcreated⟩ := answering_stage hstage
    exact h.giveUp hr hdone hcreated
  | drop r =>
    obtain ⟨request, created, hr, -, hworld⟩ := SessionWorld.bind_at? hstep
    obtain ⟨name, hname, hworld⟩ := Option.bind_eq_some_iff.mp hworld
    cases hworld
    refine h.drop hr hname fun id hid => ?_
    simpa [SessionWorld.givesUpLive, hr, hid] using hlive
  | closeBegin id =>
    cases hstep
    exact h.shrink (world.tracker.removeActivity id) filter_sublist rfl rfl _
  | closeCount id =>
    simp only [SessionWorld.step] at hstep
    split_ifs at hstep
    cases hstep
    exact h.shrink world.tracker.countDown (List.Sublist.refl _) rfl rfl _
  | closeEnd id =>
    simp only [SessionWorld.step] at hstep
    split_ifs at hstep
    cases hstep
    refine h.unbind (fun hbound => ?_) _
    simpa [SessionWorld.givesUpLive, hbound] using hlive

end Invariant

/-! ### The cap -/

/-- In every run in which no step gives up the count of a session that is still registered, the
registered sessions that one token's requests created are at most as many as its cap allows. -/
theorem token_session_cap {Id : Type} [DecidableEq Id] (limits : SessionLimits)
    (hcap : 0 < limits.maxSessionsPerToken) {world : SessionWorld Id}
    (hrun : Reachable (SessionWorld.step limits) SessionWorld.init
      (fun world action => world.givesUpLive action = false) world) (token : String) :
    (world.tracker.liveSessions token).length ≤ limits.maxSessionsPerToken := by
  have hcovered : Covered limits.maxSessionsPerToken world :=
    hrun.invariant (covered_init _) fun _ _ _ hinv hlive hstep => hinv.step hcap hlive hstep
  exact hcovered.liveSessions_le token

/-- A request of `alice` up to its registered session. -/
def registerAlice (r id : ℕ) : List (SessionAction ℕ) :=
  [.accept (some "alice"), .note r id, .count r, .insert r]

/-- Two requests one after the other, the second after a shed one and the close of the first. -/
def aliceTwice : List (SessionAction ℕ) :=
  registerAlice 0 7 ++ [.respond 0 true true, .accept (some "alice"), .closeBegin 7, .closeCount 7,
    .closeEnd 7] ++ registerAlice 1 8 ++ [.respond 1 true true]

theorem token_session_cap_alice :
    ∃ world : SessionWorld ℕ,
      runActions (SessionWorld.step ⟨0, 1⟩) SessionWorld.init aliceTwice = some world ∧
      world.tracker.liveSessions "alice" = [8] ∧
      (world.tracker.liveSessions "alice").length ≤ 1 := by
  refine ⟨_, rfl, rfl, ?_⟩
  have hrun : runChecked (SessionWorld.step ⟨0, 1⟩)
      (fun world action => world.givesUpLive action = false) SessionWorld.init aliceTwice =
        some _ := rfl
  exact token_session_cap ⟨0, 1⟩ (by decide) (Reachable.checked .start hrun) "alice"

/-- A request cancelled after its session is registered, and the next one of its token. -/
def cancelledAlice : List (SessionAction ℕ) :=
  registerAlice 0 7 ++ [.cancel 0, .drop 0] ++ registerAlice 1 8 ++ [.respond 1 true true]

/-- The cancelled request gives its count back while its session stays registered: the token has
two sessions below a cap of one. -/
theorem cancelled_request_exceeds_cap :
    ∃ world : SessionWorld ℕ,
      Reachable (SessionWorld.step ⟨0, 1⟩) SessionWorld.init (fun _ _ => True) world ∧
      (world.tracker.liveSessions "alice").length = 2 := by
  have hrun : runActions (SessionWorld.step ⟨0, 1⟩) SessionWorld.init cancelledAlice = some _ := rfl
  exact ⟨_, Reachable.run .start hrun, rfl⟩

end Mecmcp.Transport
