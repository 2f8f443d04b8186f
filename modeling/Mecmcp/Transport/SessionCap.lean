import Mecmcp.Transport.Sessions

/-!
# SessionCap — the cap on all sessions

`try_register`, `unregister` and `finish_reap` of `session.rs`, step by step: the counter `active`
and the activity map are separate objects, and a call touches them one after the other.  Any number
of calls are in progress at once; an action starts one or lets one make its next access.

A slot of the counter belongs to an entry of the map, to a registration that has yet to insert or to
roll back, or to a removal that has yet to count down (`CapInvariant`); the bound and the exactness
of the counter follow.
-/

namespace Mecmcp.Transport

open List

/-- A call in progress, by the access it makes next. -/
inductive CapCall (Id : Type) where
  /-- `try_register`, before `fetch_add` -/
  | register (id : Id)
  /-- `try_register` below the cap, before the insert -/
  | counted (id : Id)
  /-- `try_register` at the cap, before `fetch_sub` -/
  | overCap
  /-- `unregister` or `finish_reap`, before the remove -/
  | unregister (id : Id)
  /-- an entry was removed, before `fetch_sub` -/
  | removed

structure CapWorld (Id : Type) where
  tracker : SessionTracker Id
  calls : List (CapCall Id)
  /-- the ids of all registrations so far -/
  used : List Id
  /-- the ids of all entries removed so far -/
  gone : List Id

def CapWorld.init {Id : Type} : CapWorld Id := ⟨SessionWorld.init.tracker, [], [], []⟩

/-- Start a call, or let the call at a place in the list go on. -/
inductive CapAction (Id : Type) where
  | register (id : Id)
  | unregister (id : Id)
  | advance (i : ℕ)

section
variable {Id : Type} [DecidableEq Id]

namespace CapWorld

/-- The next access of a call; `rest` are the other calls. -/
def advance (max : ℕ) (world : CapWorld Id) (rest : List (CapCall Id)) : CapCall Id → CapWorld Id
  | .register id =>
    let next := if 0 < max ∧ max ≤ world.tracker.active then .overCap else .counted id
    { world with
      tracker := { world.tracker with active := world.tracker.active + 1 }
      calls := next :: rest }
  | .counted id => { world with tracker := world.tracker.insertActivity id none, calls := rest }
  | .unregister id =>
    if id ∈ world.tracker.registered then
      { world with
        tracker := world.tracker.removeActivity id
        calls := .removed :: rest
        gone := id :: world.gone }
    else { world with calls := rest }
  | .overCap | .removed => { world with tracker := world.tracker.countDown, calls := rest }

/-- An id is registered once. -/
def step (max : ℕ) (world : CapWorld Id) : CapAction Id → Option (CapWorld Id)
  | .register id =>
    if id ∈ world.used then none
    else some { world with calls := .register id :: world.calls, used := id :: world.used }
  | .unregister id => some { world with calls := .unregister id :: world.calls }
  | .advance i => (world.calls[i]?).map (world.advance max (world.calls.eraseIdx i))

end CapWorld

end

/-! ### Who owns a slot of the counter -/

section
variable {Id : Type}

/-- The call has counted up or has yet to count down. -/
def CapCall.holdsSlot : CapCall Id → Bool
  | .counted _ | .overCap | .removed => true
  | _ => false

/-- The call is about to insert. -/
def CapCall.isCounted : CapCall Id → Bool
  | .counted _ => true
  | _ => false

/-- The id a registration is about to insert. -/
def CapCall.pending : CapCall Id → Option Id
  | .register id | .counted id => some id
  | _ => none

/-- The ids that were given to a registration and may still be seen. -/
def CapWorld.ids (world : CapWorld Id) : List Id :=
  world.tracker.registered ++ (world.calls.filterMap CapCall.pending ++ world.gone)

structure CapInvariant (max : ℕ) (world : CapWorld Id) : Prop where
  exact : world.tracker.active =
    world.tracker.activity.length + world.calls.countP CapCall.holdsSlot
  bound : world.tracker.activity.length + world.calls.countP CapCall.isCounted ≤ max
  distinct : world.ids.Nodup
  used : world.ids ⊆ world.used

variable {max : ℕ} {world : CapWorld Id}

theorem capInvariant_init : CapInvariant max (CapWorld.init : CapWorld Id) where
  exact := rfl
  bound := Nat.zero_le max
  distinct := nodup_nil
  used := nil_subset _

theorem CapInvariant.perm (h : CapInvariant max world) {calls : List (CapCall Id)}
    (hperm : world.calls.Perm calls) : CapInvariant max { world with calls } := by
  have hids : world.ids.Perm (CapWorld.ids { world with calls }) :=
    ((hperm.filterMap _).append_right _).append_left _
  refine ⟨?_, ?_, hids.nodup_iff.mp h.distinct, fun id hid => h.used (hids.mem_iff.mpr hid)⟩
  · rw [h.exact, hperm.countP_eq]
  · rw [← hperm.countP_eq]
    exact h.bound

variable [DecidableEq Id] {activity : List (Id × Option String)}

theorem length_filter_ne {id : Id}
    (hnodup : (activity.map Prod.fst).Nodup) (hmem : id ∈ activity.map Prod.fst) :
    (activity.filter (·.1 ≠ id)).length + 1 = activity.length := by
  have hcount : activity.countP (fun entry => entry.1 == id) = 1 := by
    have hmap : (activity.map Prod.fst).count id = 1 := count_eq_one_of_mem hnodup hmem
    rw [List.count, countP_map] at hmap
    exact hmap
  have hsplit := length_eq_countP_add_countP (fun entry => entry.1 == id) (l := activity)
  rw [hcount, countP_eq_length_filter] at hsplit
  rw [hsplit, Nat.add_comm]
  congr 3
  funext entry
  simp

theorem keys_filter_ne (h : (activity.map Prod.fst).Nodup)
    (id : Id) : (activity.filter (·.1 ≠ id)).map Prod.fst = (activity.map Prod.fst).erase id := by
  rw [h.erase_eq_filter, filter_map]
  congr 2
  funext entry
  rw [Bool.eq_iff_iff]
  simp

theorem insertActivity_fresh {tracker : SessionTracker Id} {id : Id}
    (h : id ∉ tracker.registered) :
    (tracker.insertActivity id none).activity = (id, none) :: tracker.activity := by
  have hkept : tracker.activity.filter (·.1 ≠ id) = tracker.activity := by
    rw [filter_eq_self]
    intro entry hentry
    have hne : entry.1 ≠ id := fun heq => h (heq ▸ mem_map_of_mem hentry)
    simpa using hne
  rw [SessionTracker.insertActivity, hkept]

variable {rest : List (CapCall Id)}

theorem CapInvariant.register {id : Id} (hmax : 0 < max)
    (h : CapInvariant max { world with calls := .register id :: rest }) :
    CapInvariant max (world.advance max rest (.register id)) := by
  obtain ⟨hexact, hbound, hdistinct, hused⟩ := h
  simp only [countP_cons, CapCall.holdsSlot, CapCall.isCounted, Bool.false_eq_true,
    if_false] at hexact hbound
  have hids : CapWorld.ids { world with calls := .register id :: rest } =
      world.tracker.registered ++ (id :: rest.filterMap CapCall.pending ++ world.gone) := rfl
  rw [hids] at hdistinct hused
  simp only [CapWorld.advance]
  split_ifs with hcap
  · have hsub : (world.tracker.registered ++
        (rest.filterMap CapCall.pending ++ world.gone)).Sublist
        (world.tracker.registered ++ (id :: rest.filterMap CapCall.pending ++ world.gone)) :=
      (List.Sublist.refl _).append ((sublist_cons_self _ _).append (List.Sublist.refl _))
    refine ⟨?_, ?_, hsub.nodup hdistinct, fun x hx => hused (hsub.subset hx)⟩
    · simp only [countP_cons, CapCall.holdsSlot, if_true]
      omega
    · simp only [countP_cons, CapCall.isCounted, Bool.false_eq_true, if_false]
      omega
  · have hlt : world.tracker.active < max := by
      rw [not_and, not_le] at hcap
      exact hcap hmax
    have hslots : rest.countP CapCall.isCounted ≤ rest.countP CapCall.holdsSlot :=
      countP_mono_left fun call _ hcall => by cases call <;> simp_all [CapCall.isCounted,
        CapCall.holdsSlot]
    refine ⟨?_, ?_, hdistinct, hused⟩
    · simp only [countP_cons, CapCall.holdsSlot, if_true]
      omega
    · simp only [countP_cons, CapCall.isCounted, if_true]
      omega

theorem CapInvariant.insert {id : Id}
    (h : CapInvariant max { world with calls := .counted id :: rest }) :
    CapInvariant max (world.advance max rest (.counted id)) := by
  obtain ⟨hexact, hbound, hdistinct, hused⟩ := h
  simp only [countP_cons, CapCall.holdsSlot, CapCall.isCounted, if_true] at hexact hbound
  have hids : CapWorld.ids { world with calls := .counted id :: rest } =
      world.tracker.registered ++ (id :: rest.filterMap CapCall.pending ++ world.gone) := rfl
  rw [hids] at hdistinct hused
  have hfresh : id ∉ world.tracker.registered := fun hmem =>
    (disjoint_of_nodup_append hdistinct) hmem (by simp)
  have hactivity := insertActivity_fresh hfresh
  have hperm : (world.tracker.registered ++
      (id :: rest.filterMap CapCall.pending ++ world.gone)).Perm
      (CapWorld.ids (world.advance max rest (.counted id))) := by
    have hids : CapWorld.ids (world.advance max rest (.counted id)) =
        id :: (world.tracker.registered ++
          (rest.filterMap CapCall.pending ++ world.gone)) := by
      simp [CapWorld.ids, CapWorld.advance, SessionTracker.registered, hactivity]
    rw [hids]
    exact perm_middle
  refine ⟨?_, ?_, hperm.nodup_iff.mp hdistinct, fun x hx => hused (hperm.mem_iff.mpr hx)⟩
  · simp only [CapWorld.advance, hactivity, length_cons]
    show world.tracker.active = _
    omega
  · simp only [CapWorld.advance, hactivity, length_cons]
    omega

variable {call : CapCall Id}

theorem CapInvariant.release (hcall : call = .overCap ∨ call = .removed)
    (h : CapInvariant max { world with calls := call :: rest }) :
    CapInvariant max (world.advance max rest call) := by
  obtain ⟨hexact, hbound, hdistinct, hused⟩ := h
  rcases hcall with rfl | rfl
  all_goals
    simp only [countP_cons, CapCall.holdsSlot, CapCall.isCounted, Bool.false_eq_true,
      if_true, if_false] at hexact hbound
    refine ⟨?_, ?_, hdistinct, hused⟩
    · simp only [CapWorld.advance, SessionTracker.countDown]
      omega
    · simpa [CapWorld.advance, SessionTracker.countDown] using hbound

theorem CapInvariant.unregister {id : Id}
    (h : CapInvariant max { world with calls := .unregister id :: rest }) :
    CapInvariant max (world.advance max rest (.unregister id)) := by
  obtain ⟨hexact, hbound, hdistinct, hused⟩ := h
  simp only [countP_cons, CapCall.holdsSlot, CapCall.isCounted, Bool.false_eq_true,
    if_false] at hexact hbound
  simp only [CapWorld.advance, SessionTracker.removeActivity]
  split_ifs with hmem
  · have hregistered : world.tracker.registered.Nodup := (nodup_append.mp hdistinct).1
    have hlength := length_filter_ne hregistered hmem
    have hfilter := keys_filter_ne hregistered id
    have hperm : (world.tracker.registered ++
        (rest.filterMap CapCall.pending ++ world.gone)).Perm
        (world.tracker.registered.erase id ++
          (rest.filterMap CapCall.pending ++ id :: world.gone)) := by
      refine ((perm_cons_erase hmem).append_right _).trans ?_
      rw [cons_append]
      exact perm_middle.symm.trans (List.Perm.append_left _ perm_middle.symm)
    have hids : CapWorld.ids ({ world with
        tracker := { world.tracker with activity := world.tracker.activity.filter (·.1 ≠ id) }
        calls := .removed :: rest
        gone := id :: world.gone } : CapWorld Id) = world.tracker.registered.erase id ++
          (rest.filterMap CapCall.pending ++ id :: world.gone) := by
      rw [CapWorld.ids, SessionTracker.registered, hfilter]
      rfl
    refine ⟨?_, ?_, ?_, ?_⟩
    · simp only [countP_cons, CapCall.holdsSlot, if_true]
      omega
    · simp only [countP_cons, CapCall.isCounted, Bool.false_eq_true, if_false]
      omega
    · rw [hids]
      exact hperm.nodup_iff.mp hdistinct
    · rw [hids]
      exact fun x hx => hused (hperm.mem_iff.mpr hx)
  · exact ⟨by simpa using hexact, by simpa using hbound, hdistinct, hused⟩

theorem CapInvariant.advance (hmax : 0 < max)
    (h : CapInvariant max { world with calls := call :: rest }) :
    CapInvariant max (world.advance max rest call) := by
  cases call with
  | register id => exact h.register hmax
  | counted id => exact h.insert
  | overCap => exact h.release (Or.inl rfl)
  | unregister id => exact h.unregister
  | removed => exact h.release (Or.inr rfl)

theorem CapInvariant.step {world' : CapWorld Id} {action : CapAction Id} (hmax : 0 < max)
    (h : CapInvariant max world) (hstep : world.step max action = some world') :
    CapInvariant max world' := by
  cases action with
  | register id =>
    simp only [CapWorld.step] at hstep
    split_ifs at hstep with hid
    cases hstep
    have hperm : (id :: world.ids).Perm (CapWorld.ids { world with
        calls := .register id :: world.calls, used := id :: world.used }) :=
      perm_middle.symm
    have hnodup : (id :: world.ids).Nodup :=
      nodup_cons.mpr ⟨fun hmem => hid (h.used hmem), h.distinct⟩
    refine ⟨h.exact, h.bound, hperm.nodup_iff.mp hnodup, fun x hx => ?_⟩
    rcases mem_cons.mp (hperm.mem_iff.mpr hx) with rfl | hx
    · exact mem_cons_self
    · exact mem_cons_of_mem _ (h.used hx)
  | unregister id =>
    cases hstep
    exact ⟨h.exact, h.bound, h.distinct, h.used⟩
  | advance i =>
    obtain ⟨call, hcall, rfl⟩ := Option.map_eq_some_iff.mp hstep
    obtain ⟨hi, rfl⟩ := List.getElem?_eq_some_iff.mp hcall
    exact (h.perm (getElem_cons_eraseIdx_perm hi).symm).advance hmax

/-- **The cap on all sessions holds and the counter is exact.**  A call to unregister an id that is
not there, or whose entry was removed before, ends with its first access and changes nothing. -/
theorem session_cap_exact (hmax : 0 < max)
    (h : Reachable (CapWorld.step max) CapWorld.init (fun _ _ => True) world) :
    world.tracker.activity.length ≤ max ∧
      world.tracker.activity.length ≤ world.tracker.active ∧
      (world.calls = [] → world.tracker.active = world.tracker.activity.length) ∧
      ∀ i id, world.calls[i]? = some (.unregister id) →
        (id ∉ world.tracker.registered ∨ id ∈ world.gone) →
        world.step max (.advance i) = some { world with calls := world.calls.eraseIdx i } := by
  have hinv : CapInvariant max world := h.invariant capInvariant_init
    fun _ _ _ hw _ hstep => hw.step hmax hstep
  refine ⟨?_, ?_, ?_, ?_⟩
  · have hbound := hinv.bound
    omega
  · have hexact := hinv.exact
    omega
  · intro hcalls
    rw [hinv.exact, hcalls]
    rfl
  · intro i id hcall hid
    have hmem : id ∉ world.tracker.registered := by
      rcases hid with hid | hgone
      · exact hid
      · exact fun hmem => disjoint_of_nodup_append hinv.distinct hmem
          (mem_append_right _ hgone)
    rw [CapWorld.step, hcall, Option.map_some, CapWorld.advance, if_neg hmem]

end

/-- Two registrations under a cap of one, and two removals of the session that got in. -/
def capRun : List (CapAction ℕ) :=
  [.register 0, .register 1, .advance 1, .advance 1, .advance 1, .advance 0, .unregister 0,
    .unregister 0, .advance 0, .advance 0]

/-- The second removal changes nothing. -/
theorem second_unregister_changes_nothing : ∃ world : CapWorld ℕ,
    runActions (CapWorld.step 1) CapWorld.init capRun = some world ∧ 0 ∈ world.gone ∧
      world.step 1 (.advance 0) = some { world with calls := world.calls.eraseIdx 0 } := by
  obtain ⟨world, hrun, hcall, hgone⟩ : ∃ world : CapWorld ℕ,
      runActions (CapWorld.step 1) CapWorld.init capRun = some world ∧
        world.calls[0]? = some (.unregister 0) ∧ 0 ∈ world.gone := ⟨_, rfl, rfl, by decide⟩
  exact ⟨world, hrun, hgone,
    (session_cap_exact (by decide) (Reachable.start.run hrun)).2.2.2 0 0 hcall (.inr hgone)⟩

end Mecmcp.Transport
