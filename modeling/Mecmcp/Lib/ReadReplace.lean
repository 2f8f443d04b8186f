import Mathlib.Data.List.Induction
import Mathlib.Logic.Function.Basic

/-!
# ReadReplace — runs that read a file and then replace it

Each of several runs reads the content `s` of a file, computes `f i s` from it, and returns: with an
error, with nothing to write, or by replacing the content with what it computed.  Reads and returns
of different runs interleave.  `Serializable` says that the runs that succeed could have been
executed one after another; it is so if no run replaces the file between the read and the return of
another (`serializable_of_undisturbed`).
-/

namespace Mecmcp

open List Option

/-- A step of run `i`. -/
inductive RunEvent (ι : Type) where
  | read (i : ι)
  | replace (i : ι)
  deriving DecidableEq

namespace RunEvent
variable {ι : Type}

/-- The run that makes the step. -/
def run : RunEvent ι → ι
  | .read i => i
  | .replace i => i

/-- Every run in the schedule reads once and returns once after that. -/
def Complete [DecidableEq ι] (schedule : List (RunEvent ι)) : Prop :=
  ∀ i, schedule.filter (·.run = i) = [] ∨ schedule.filter (·.run = i) = [.read i, .replace i]

/-- No run returns between the read and the return of another. -/
def Undisturbed (schedule : List (RunEvent ι)) : Prop :=
  ∀ before between after i j, schedule = before ++ .read i :: (between ++ .replace i :: after) →
    RunEvent.replace j ∉ between

def freshReads : List (RunEvent ι) → List ι → List ι
  | [], fresh => fresh
  | .read i :: schedule, fresh => freshReads schedule (i :: fresh)
  | .replace _ :: schedule, _ => freshReads schedule []

theorem freshReads_append (first second : List (RunEvent ι)) (fresh : List ι) :
    freshReads (first ++ second) fresh = freshReads second (freshReads first fresh) := by
  induction first generalizing fresh with
  | nil => rfl
  | cons event first ih => cases event <;> exact ih _

theorem mem_freshReads {schedule : List (RunEvent ι)} {fresh : List ι} {i : ι}
    (hfresh : i ∈ fresh) (h : ∀ j, RunEvent.replace j ∉ schedule) :
    i ∈ freshReads schedule fresh := by
  induction schedule generalizing fresh with
  | nil => exact hfresh
  | cons event schedule ih =>
    have hrest : ∀ j, RunEvent.replace j ∉ schedule :=
      fun j hj => h j (mem_cons_of_mem _ hj)
    cases event with
    | read j => exact ih (mem_cons_of_mem _ hfresh) hrest
    | replace j => exact absurd mem_cons_self (h j)

section
variable [DecidableEq ι] {done rest : List (RunEvent ι)} {i : ι}

theorem Complete.read_mem (h : Complete (done ++ .replace i :: rest)) : RunEvent.read i ∈ done := by
  rcases h i with hnone | hboth
  · have hmem : RunEvent.replace i ∈ (done ++ .replace i :: rest).filter (·.run = i) := by
      simp [run]
    rw [hnone] at hmem
    exact absurd hmem not_mem_nil
  · -- the first event of the run is its read, and it comes before the return
    rw [filter_append, filter_cons_of_pos (by simp [run])] at hboth
    cases hdone : done.filter (·.run = i) with
    | nil =>
      rw [hdone] at hboth
      cases hboth
    | cons event events =>
      rw [hdone] at hboth
      have hevent : event = .read i := (List.cons.inj hboth).1
      have hmem : event ∈ done.filter (·.run = i) := hdone ▸ mem_cons_self
      exact hevent ▸ (mem_filter.mp hmem).1

theorem Complete.count_le (h : Complete rest) (event : RunEvent ι) : rest.count event ≤ 1 := by
  have hfilter : rest.count event = (rest.filter (·.run = event.run)).count event :=
    (count_filter (by simp)).symm
  rw [hfilter]
  rcases h event.run with hnone | hboth
  · rw [hnone]
    exact Nat.zero_le _
  · rw [hboth]
    cases event <;> simp [run]

theorem Complete.ne {j : ι} {between : List (RunEvent ι)}
    (h : Complete (done ++ .replace j :: (between ++ .replace i :: rest))) : i ≠ j := by
  rintro rfl
  have hcount := h.count_le (.replace i)
  simp only [count_append, count_cons, beq_self_eq_true, if_true] at hcount
  omega

theorem fresh_of_undisturbed (hcomplete : Complete (done ++ .replace i :: rest))
    (hundisturbed : Undisturbed (done ++ .replace i :: rest)) : i ∈ freshReads done [] := by
  obtain ⟨before, between, rfl⟩ := append_of_mem hcomplete.read_mem
  have hquiet : ∀ j, RunEvent.replace j ∉ between := fun j =>
    hundisturbed before between rest i j (by simp)
  rw [freshReads_append, freshReads]
  exact mem_freshReads mem_cons_self hquiet

end

end RunEvent

/-- The content, what each run has read, and the runs that have returned with success. -/
structure RunState (ι σ : Type) where
  content : σ
  seen : ι → Option σ
  succeeded : List ι

variable {ι σ ε : Type} [DecidableEq ι] (f : ι → σ → Except ε (Option σ))

/-- What a successful run leaves. -/
def contentAfter (s : σ) (written : Option σ) : σ := written.getD s

def RunState.step (state : RunState ι σ) : RunEvent ι → RunState ι σ
  | .read i => { state with seen := Function.update state.seen i (some state.content) }
  | .replace i =>
    match (state.seen i).map (f i) with
    | some (.ok written) => { state with
        content := contentAfter state.content written
        succeeded := state.succeeded ++ [i] }
    | _ => state

def runSchedule (s : σ) (schedule : List (RunEvent ι)) : RunState ι σ :=
  schedule.foldl (RunState.step f) ⟨s, fun _ => none, []⟩

/-- The runs one after another, if all succeed. -/
def runSequential (s : σ) : List ι → Option σ
  | [] => some s
  | i :: runs =>
    match f i s with
    | .ok written => runSequential (contentAfter s written) runs
    | .error _ => none

/-- The content is that of the successful runs, one after another in some order. -/
def Serializable (s : σ) (schedule : List (RunEvent ι)) : Prop :=
  ∃ order, order.Perm (runSchedule f s schedule).succeeded ∧
    runSequential f s order = some (runSchedule f s schedule).content

variable {f}
variable {s : σ} {schedule : List (RunEvent ι)}

omit [DecidableEq ι] in
theorem runSequential_append {t : σ} {first second : List ι}
    (h : runSequential f s first = some t) :
    runSequential f s (first ++ second) = runSequential f t second := by
  induction first generalizing s with
  | nil =>
    obtain rfl := Option.some.inj h
    rfl
  | cons i first ih =>
    rw [runSequential] at h
    rw [cons_append, runSequential]
    split at h
    next => exact ih h
    next => cases h

/-- Between the events: the successful runs so far explain the content in the order in which they
returned, and a run that has read since the last return has seen the present content. -/
theorem runSequential_of_undisturbed {rest : List (RunEvent ι)}
    (hcomplete : RunEvent.Complete (schedule ++ rest))
    (hundisturbed : RunEvent.Undisturbed (schedule ++ rest)) :
    runSequential f s (runSchedule f s schedule).succeeded =
        some (runSchedule f s schedule).content ∧
      ∀ i ∈ RunEvent.freshReads schedule [],
        (runSchedule f s schedule).seen i = some (runSchedule f s schedule).content := by
  induction schedule using List.reverseRecOn generalizing rest with
  | nil => exact ⟨rfl, fun i hi => absurd hi not_mem_nil⟩
  | append_singleton schedule event ih =>
    rw [append_assoc] at hcomplete hundisturbed
    obtain ⟨hsequential, hseen⟩ := ih hcomplete hundisturbed
    have hstep : runSchedule f s (schedule ++ [event]) =
        (runSchedule f s schedule).step f event := by
      simp [runSchedule]
    rw [hstep, RunEvent.freshReads_append]
    cases event with
    | read j =>
      refine ⟨hsequential, fun i hi => ?_⟩
      rcases mem_cons.mp hi with rfl | hi
      · exact Function.update_self ..
      · by_cases hij : i = j
        · subst hij
          exact Function.update_self ..
        · simp only [RunState.step, Function.update_of_ne hij]
          exact hseen i hi
    | replace j =>
      refine ⟨?_, fun i hi => absurd hi not_mem_nil⟩
      have hj := hseen j (RunEvent.fresh_of_undisturbed hcomplete hundisturbed)
      simp only [RunState.step, hj, map_some]
      cases hrun : f j (runSchedule f s schedule).content with
      | error error => exact hsequential
      | ok written =>
        -- the run computed from the content it replaces
        simp only []
        rw [runSequential_append hsequential, runSequential, hrun]
        rfl

theorem serializable_of_undisturbed
    (hcomplete : RunEvent.Complete schedule) (hundisturbed : RunEvent.Undisturbed schedule) :
    Serializable f s schedule := by
  rw [← append_nil schedule] at hcomplete hundisturbed
  exact ⟨_, List.Perm.refl _, (runSequential_of_undisturbed hcomplete hundisturbed).1⟩

/-! ### A disturbed run -/

theorem foldl_step_quiet {events : List (RunEvent ι)} {state : RunState ι σ}
    (h : ∀ k, RunEvent.replace k ∈ events → ∀ s, ∃ error, f k s = .error error) :
    events.foldl (RunState.step f) state = { state with
      seen := fun k => if RunEvent.read k ∈ events then some state.content else state.seen k } := by
  induction events generalizing state with
  | nil => simp
  | cons event events ih =>
    rw [foldl_cons, ih fun k hk => h k (mem_cons_of_mem _ hk)]
    cases event with
    | read i =>
      simp only [RunState.step, RunState.mk.injEq, true_and, and_true]
      funext k
      by_cases hk : k = i
      · subst hk
        simp
      · simp [hk]
    | replace i =>
      have hstep : state.step f (.replace i) = state := by
        rw [RunState.step]
        cases hseen : state.seen i with
        | none => rfl
        | some s =>
          obtain ⟨error, herror⟩ := h i mem_cons_self s
          simp [herror]
      rw [hstep]
      simp

/-- Two runs from the same content, one of which returns between the read and the return of the
other, while all other runs fail: the content is what the later one wrote, and both succeed. -/
theorem runSchedule_disturbed {a b : σ} {before first second after : List (RunEvent ι)} {i j : ι}
    (hcomplete : RunEvent.Complete
      ((before ++ .read i :: first) ++ .replace j :: (second ++ .replace i :: after)))
    (hi : f i s = .ok (some a)) (hj : f j s = .ok (some b))
    (hothers : ∀ k, k ≠ i → k ≠ j → ∀ s, ∃ error, f k s = .error error) :
    (runSchedule f s ((before ++ .read i :: first) ++
      .replace j :: (second ++ .replace i :: after))).content = a ∧
    (runSchedule f s ((before ++ .read i :: first) ++
      .replace j :: (second ++ .replace i :: after))).succeeded = [j, i] := by
  have hreadj : RunEvent.read j ∈ before ++ .read i :: first := hcomplete.read_mem
  have hcounti := hcomplete.count_le (.replace i)
  have hcountj := hcomplete.count_le (.replace j)
  have hreadi := hcomplete.count_le (.read i)
  generalize hfront : before ++ .read i :: first = front at *
  have hreadi' : RunEvent.read i ∈ front := by simp [← hfront]
  have hpos := count_pos_iff.mpr hreadi'
  simp only [count_append, count_cons, beq_self_eq_true, if_true]
    at hcounti hcountj hreadi
  -- nobody but `i` and `j` has an effect, and each of them returns once
  have hquiet : ∀ events : List (RunEvent ι), events.count (.replace i) = 0 →
      events.count (.replace j) = 0 → ∀ k, RunEvent.replace k ∈ events →
      ∀ s, ∃ error, f k s = .error error := by
    intro events hi hj k hk
    refine hothers k ?_ ?_
    · rintro rfl
      exact count_eq_zero.mp hi hk
    · rintro rfl
      exact count_eq_zero.mp hj hk
  have hsecond : RunEvent.read i ∉ second := count_eq_zero.mp (by omega)
  rw [runSchedule, foldl_append, foldl_step_quiet (hquiet front (by omega) (by omega)),
    foldl_cons, foldl_append]
  simp only [RunState.step, hreadj, if_true, map_some, hj, contentAfter, getD_some,
    nil_append]
  rw [foldl_step_quiet (hquiet second (by omega) (by omega)), foldl_cons]
  simp only [RunState.step, hsecond, if_false, hreadi', if_true, map_some, hi, contentAfter,
    getD_some]
  rw [foldl_step_quiet (hquiet after (by omega) (by omega))]
  exact ⟨rfl, rfl⟩

end Mecmcp
