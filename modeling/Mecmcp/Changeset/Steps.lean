import Mecmcp.Changeset.System

/-!
# Steps — the state file of a run, and what a step can do

The history of a run names the state last written to the file (`World.image`); `Grounded` says that
the file is the text of that state, that a deployment without a state path has no file, and that
nothing of a coordinator is left when none runs.  Every reachable world is grounded
(`reachable_grounded`), and in a grounded world `step_case` lists what a step can do: this is the
lemma the results about runs are derived from.
-/

namespace Mecmcp.Changeset

open List Option

variable {C : Crates} {self : Config} {path : Option String} {actions : List (Action Vendor.sample)}
  {check : World Crates.sample Vendor.sample → Bool}

/-! ### The last state written -/

def Event.written : Event → Option ChangesetState
  | wrote state => some state
  | _ => none

def lastWritten (events : List Event) : Option ChangesetState := events.findSome? Event.written

variable {store : Store C}

theorem lastWritten_append (newer older : List Event) :
    lastWritten (newer ++ older) = (lastWritten newer).or (lastWritten older) := by
  simp [lastWritten, findSome?_append]

/-- What the events of a section say about the file is what became of it. -/
structure Effect.FileAgrees {α : Type} (config : Config) (before : Option C.Text)
    (effect : Effect C α) : Prop where
  disk : effect.store.disk = ((lastWritten effect.events).map (payload C)).or before
  pathless : config.statePath = none → lastWritten effect.events = none

theorem fileAgrees_refuse {α : Type} (store : Store C) (error : CoordinatorError) :
    (Effect.refuse store error : Effect C α).FileAgrees self store.disk := ⟨rfl, fun _ => rfl⟩

theorem PersistOutcome.fileAgrees {disk : Option C.Text} {next undo : ChangesetState}
    {effect : Effect C Unit} (h : PersistOutcome self disk next undo effect) :
    effect.FileAgrees self disk := by
  cases h with
  | unwritten hpath => exact ⟨rfl, fun _ => rfl⟩
  | written hpath => exact ⟨rfl, fun h => absurd h hpath⟩
  | failed error hpath => exact ⟨rfl, fun _ => rfl⟩
  | landed error hpath => exact ⟨rfl, fun h => absurd h hpath⟩

theorem Effect.FileAgrees.log {α β : Type} {disk : Option C.Text} {effect : Effect C α}
    (h : effect.FileAgrees self disk) {events : List Event} (hevents : lastWritten events = none)
    {result : Except CoordinatorError β} :
    (⟨effect.store, result, events ++ effect.events⟩ : Effect C β).FileAgrees self disk := by
  obtain ⟨hdisk, hpathless⟩ := h
  have hlast : lastWritten (events ++ effect.events) = lastWritten effect.events := by
    rw [lastWritten_append, hevents, none_or]
  exact ⟨hlast ▸ hdisk, hlast ▸ hpathless⟩

theorem insertEvents_written (record : ChangeSetRecord) (effect : Effect C Unit) :
    lastWritten (insertEvents record effect) = none := by
  unfold insertEvents
  split <;> rfl

theorem grantEvents_written (current next : ChangeSetRecord) (effect : Effect C Unit) :
    lastWritten (grantEvents current next effect) = none := by
  unfold grantEvents
  split <;> rfl

theorem insertChangeSet_fileAgrees (clock : Option UInt64)
    (sweepFault finalFault : Option WriteFault) (record : ChangeSetRecord) :
    (insertChangeSet self clock sweepFault finalFault record store).FileAgrees self store.disk := by
  have h := @insertChangeSet_outcome C self clock sweepFault finalFault record store
  generalize insertChangeSet self clock sweepFault finalFault record store = effect at h ⊢
  cases h with
  | refused error => exact fileAgrees_refuse store error
  | sweepFailed now _ effect error _ hwrite => exact hwrite.fileAgrees
  | sweptOnly now _ swept events hsweep error =>
    cases hsweep with
    | unwritten => exact ⟨rfl, fun _ => rfl⟩
    | written hpath => exact ⟨rfl, fun h => absurd h hpath⟩
  | attempted now _ swept events _ hsweep _ _ _ effect hwrite =>
    obtain ⟨hdisk, hpathless⟩ := (hwrite.fileAgrees.log (insertEvents_written _ effect) :
      Effect.FileAgrees self swept.disk (⟨effect.store, effect.result, _⟩ : Effect C Unit))
    cases hsweep with
    | unwritten =>
      constructor
      · simpa using hdisk
      · simpa using hpathless
    | written hpath =>
      constructor
      · rw [lastWritten_append]
        rw [hdisk]
        generalize lastWritten (insertEvents (normaliseRecord record) effect ++ effect.events) = last
        cases last <;> rfl
      · intro hnone
        exact absurd hnone hpath

theorem updateChangeSet_fileAgrees (fault : Option WriteFault) (record : ChangeSetRecord) :
    (updateChangeSet self fault record store).FileAgrees self store.disk := by
  obtain ⟨error, h⟩ | ⟨current, effect, -, -, hwrite, h⟩ :=
    @updateChangeSet_outcome C self store record fault
  · rw [h]
    exact fileAgrees_refuse store error
  · rw [h]
    exact hwrite.fileAgrees.log (grantEvents_written _ _ _)

theorem updateChangeSetFrom_fileAgrees (fault : Option WriteFault) (observed : ChangeSetState)
    (record : ChangeSetRecord) :
    (updateChangeSetFrom self fault observed record store).FileAgrees self store.disk := by
  obtain ⟨error, h⟩ | ⟨current, -, -, h⟩ :=
    @updateChangeSetFrom_outcome C self store record fault observed
  · rw [h]
    exact fileAgrees_refuse store error
  · rw [h]
    exact updateChangeSet_fileAgrees fault record

theorem claimChangeSetForApply_fileAgrees (fault : Option WriteFault) (id device : String)
    (handle : ApplyHandle) :
    (claimChangeSetForApply self fault id device handle store).FileAgrees self store.disk := by
  obtain ⟨error, h⟩ | ⟨previous, effect, -, -, -, hwrite, h⟩ :=
    @claimChangeSetForApply_outcome C self store fault id device handle
  · rw [h]
    exact fileAgrees_refuse store error
  · rw [h]
    exact @Effect.FileAgrees.log C self Unit _ _ _ hwrite.fileAgrees [.claimed _ _] rfl _

theorem insertOperation_fileAgrees (fault : Option WriteFault) (record : OperationRecord) :
    (insertOperation self fault record store).FileAgrees self store.disk := by
  unfold insertOperation
  dsimp only
  split
  · exact ⟨rfl, fun _ => rfl⟩
  · split
    · exact ⟨rfl, fun _ => rfl⟩
    · exact (persistOr_outcome _ _).fileAgrees

theorem updateOperation_fileAgrees (fault : Option WriteFault) (record : OperationRecord) :
    (updateOperation self fault record store).FileAgrees self store.disk :=
  (persistOr_outcome _ _).fileAgrees

theorem removeOperation_fileAgrees (fault : Option WriteFault) (operationId : String) :
    (removeOperation self fault operationId store).FileAgrees self store.disk := by
  obtain ⟨effect, hwrite, hstore, hevents⟩ := @removeOperation_outcome C self fault store operationId
  obtain ⟨hdisk, hpathless⟩ := hwrite.fileAgrees
  exact ⟨by rw [hstore, hevents, hdisk], by rw [hevents]; exact hpathless⟩

/-! ### Grounded worlds -/

/-- The state a line of the history wrote to the file. -/
def Entry.written {V : Vendor} (entry : Entry V) : Option ChangesetState :=
  match entry.what with
  | .store event => event.written
  | _ => none

/-- The state last written to the file. -/
def imageOf {V : Vendor} (trace : List (Entry V)) : Option ChangesetState :=
  trace.findSome? Entry.written

/-- An entry of no method: the file was written, or an operation of it resolved. -/
def Entry.Outside {V : Vendor} (entry : Entry V) : Prop :=
  match entry.what with
  | .store (.wrote _) | .resolved _ _ => True
  | _ => False

theorem Action.advance_or_not {V : Vendor} (a : Action V) :
    (∃ t choice, a = .advance t choice) ∨ ∀ t choice, a ≠ .advance t choice := by
  cases a with
  | advance t choice => exact .inl ⟨t, choice, rfl⟩
  | tick | load | crash | resolve | spawn | finish => exact .inr fun _ _ => by nofun

namespace World

variable {V : Vendor} {w w' : World C V}
variable {n t : ℕ} {trace : List (Entry V)} {request : Request V} {a : Action V} {c : Call V}
  {mid : World C V} {events : List Event} {ok : World C V → Action V → Prop}

/-- The state last written to the file. -/
def image (w : World C V) : Option ChangesetState := imageOf w.trace

theorem imageOf_storeEntries (w : World C V) (source : Option (ℕ × Request V))
    (events : List Event) (trace : List (Entry V)) :
    imageOf (w.storeEntries source events ++ trace) = (lastWritten events).or (imageOf trace) := by
  simp only [imageOf, storeEntries, findSome?_append, findSome?_map]
  rfl

/-- The calls the history names have been made. -/
def Sources (nextThread : ℕ) (trace : List (Entry V)) : Prop :=
  ∀ entry ∈ trace, ∀ t request, entry.source = some (t, request) → t < nextThread

theorem sources_cons {entry : Entry V}
    (hentry : entry.source = none) (h : Sources n trace) : Sources n (entry :: trace) := by
  intro e he t request hs
  obtain rfl | he := mem_cons.mp he
  · rw [hentry] at hs
    cases hs
  · exact h e he t request hs

theorem sources_call {entries : List (Entry V)}
    (hentries : ∀ entry ∈ entries, entry.source = some (t, request)) (ht : t < n)
    (h : Sources n trace) : Sources n (entries ++ trace) := by
  intro e he t' request' hs
  obtain he | he := mem_append.mp he
  · obtain ⟨rfl, rfl⟩ := Prod.mk.inj (Option.some.inj ((hentries e he).symm.trans hs))
    exact ht
  · exact h e he t' request' hs

/-- The file, the configuration and the history belong together, and nothing of a coordinator is
left when none runs. -/
structure Grounded (path : Option String) (w : World C V) : Prop where
  disk : w.store.disk = w.image.map (payload C)
  pathless : path = none → w.image = none
  config : ∀ self, w.self = some self → self.statePath = path
  stopped : w.self = none → w.store.mem = .empty ∧ w.threads = .empty ∧ w.guards = fun _ => none
  numbers : ∀ t, w.nextThread ≤ t → w.threads t = none
  holders : ∀ device t, w.guards device = some t → t < w.nextThread
  sources : Sources w.nextThread w.trace

theorem grounded_initial : Grounded path (World.initial C V) where
  disk := rfl
  pathless _ := rfl
  config := by
    intro self h
    cases h
  stopped _ := ⟨rfl, rfl, rfl⟩
  numbers _ _ := rfl
  holders := by
    intro device t h
    cases h
  sources := by
    intro entry h
    cases h

def recovered (w : World C V) (args : LoadArgs) : ChangesetState :=
  recoverState args.stagedRecovery (readBack C w.image)

/-- What the file holds would be accepted by a load. -/
def Loads (w : World C V) (key : Option (List UInt8)) : Prop :=
  ∃ version, validateStateWithKey C (readBack C w.image) version key = .ok ()

/-- A history line of no call: a load or a resolution wrote the file. -/
def wroteEntry (w : World C V) (state : ChangesetState) : Entry V :=
  ⟨none, w.clock, .store (.wrote state)⟩

inductive StepCase (path : Option String) (w : World C V) : Action V → World C V → Prop where
  | tick (clock : Option UInt64) : StepCase path w (.tick clock) { w with clock }
  | loadRefused (args : LoadArgs) (env : LoadEnv) (hself : w.self = none) :
      StepCase path w (.load args env) w
  /-- the load failed in the last step of writing the recovered state -/
  | loadLanded (args : LoadArgs) (env : LoadEnv) (hself : w.self = none) (hpath : path ≠ none)
      (hloads : w.Loads args.approvalDigestKey) :
      StepCase path w (.load args env)
        { w with
          store := { w.store with disk := some (payload C (w.recovered args)) }
          trace := w.wroteEntry (w.recovered args) :: w.trace }
  | loaded (args : LoadArgs) (env : LoadEnv) (hself : w.self = none)
      (hloads : w.Loads args.approvalDigestKey) :
      StepCase path w (.load args env)
        { w with
          self := some (args.config path)
          store := { w.store with mem := w.recovered args } }
  /-- recovery changed something and wrote it -/
  | loadRecovered (args : LoadArgs) (env : LoadEnv) (hself : w.self = none) (hpath : path ≠ none)
      (hloads : w.Loads args.approvalDigestKey) :
      StepCase path w (.load args env)
        { w with
          self := some (args.config path)
          store := ⟨w.recovered args, some (payload C (w.recovered args))⟩
          trace := w.wroteEntry (w.recovered args) :: w.trace }
  | crash : StepCase path w .crash
      { w with
        self := none
        store := { w.store with mem := .empty }
        guards := fun _ => none
        threads := .empty }
  | resolveRefused (operationId : String) (disposition : RecoveryDisposition)
      (confirmation : String) (limits : OperationLimits) (env : LoadEnv) (hself : w.self = none) :
      StepCase path w (.resolve operationId disposition confirmation limits env) w
  | resolved (operationId : String) (disposition : RecoveryDisposition) (confirmation : String)
      (limits : OperationLimits) (env : LoadEnv) (hself : w.self = none) (hpath : path ≠ none)
      (record : OperationRecord)
      (hrecord : (readBack C w.image).operations[operationId]? = some record)
      (hterminal : record.state.terminal = false) (hloads : w.Loads none) :
      StepCase path w (.resolve operationId disposition confirmation limits env)
        { w with
          store := { w.store with disk := some (payload C
            ((readBack C w.image).putOperation operationId (record.resolvedAs disposition))) }
          trace := ⟨none, w.clock, .resolved operationId disposition⟩ ::
            w.wroteEntry ((readBack C w.image).putOperation operationId
              (record.resolvedAs disposition)) :: w.trace }
  | spawn (request : Request V) (self : Config) (hself : w.self = some self) :
      StepCase path w (.spawn request)
        { w with
          threads := w.threads.set w.nextThread (some ⟨request, request.program C self⟩)
          nextThread := w.nextThread + 1 }
  | advance (t : ℕ) (choice : Choice V) (self : Config) (request : Request V) (c : Call V)
      (next : c.Answer → Method V Unit) (answer : c.Answer) (mid : World C V)
      (events : List Event) (hself : w.self = some self)
      (hthread : w.threads t = some ⟨request, .call c next⟩)
      (hexec : Executed w self t c answer mid events)
      (hchoice : w.exec self t c choice = some (mid, answer, events)) :
      StepCase path w (.advance t choice)
        { mid with
          threads := w.threads.set t (some ⟨request, next answer⟩)
          trace := ⟨some (t, request), w.clock, .answered c answer⟩ ::
            (w.storeEntries (some (t, request)) events ++ w.trace) }
  | finish (t : ℕ) (thread : Thread (calls V) CoordinatorError (Request V))
      (hthread : w.threads t = some thread) :
      StepCase path w (.finish t)
        { w with threads := w.threads.set t none, guards := w.released t }

theorem recovered_of_pathless (hg : Grounded path w) (hpath : path = none) (args : LoadArgs) :
    w.recovered args = .empty := by
  rw [recovered, hg.pathless hpath]
  refine ChangesetState.ext_getElem? (fun id => ?_) (fun id => ?_)
  · simp [recoverState, readBack, ChangesetState.empty]
  · simp [recoverState, readBack, ChangesetState.empty]

theorem afterLoad_case (hg : Grounded path w) (hself : w.self = none) (args : LoadArgs)
    (env : LoadEnv) : StepCase path w (.load args env) (w.afterLoad path args env) := by
  have hout := @loadCoordinator_outcome C path args env w.image
  rw [← hg.disk] at hout
  unfold afterLoad
  generalize loadCoordinator path args env w.store.disk = effect at hout ⊢
  cases hout with
  | refused error =>
    rw [← hg.disk]
    exact .loadRefused args env hself
  | inMemory hpath =>
    rw [← hg.disk, ← recovered_of_pathless hg hpath args]
    refine .loaded args env hself ⟨1, ?_⟩
    rw [hg.pathless hpath]
    exact validateStateWithKey_empty 1 _
  | loaded hpath hloads =>
    rw [← hg.disk]
    exact .loaded args env hself hloads
  | recovered hpath hloads => exact .loadRecovered args env hself hpath hloads
  | landed hpath hloads error => exact .loadLanded args env hself hpath hloads

theorem afterResolve_case {path : String} (hg : Grounded (some path) w) (hself : w.self = none)
    (operationId : String) (disposition : RecoveryDisposition) (confirmation : String)
    (limits : OperationLimits) (env : LoadEnv) :
    StepCase (some path) w (.resolve operationId disposition confirmation limits env)
      (w.afterResolve path operationId disposition confirmation limits env) := by
  have hout := @resolvePersistedOperation_outcome C path operationId disposition confirmation
    limits env w.image
  rw [← hg.disk] at hout
  unfold afterResolve
  obtain ⟨error, hout⟩ | ⟨record, result, hrecord, hterminal, hloads, hout⟩ := hout
  · rw [hout]
    exact .resolveRefused operationId disposition confirmation limits env hself
  · rw [hout]
    exact .resolved operationId disposition confirmation limits env hself (by nofun) record
      hrecord hterminal hloads

/-- **What a step of a grounded world can do.** -/
theorem step_case (hg : Grounded path w) (h : w.step path a = some w') :
    StepCase path w a w' := by
  cases a with
  | tick clock =>
    cases h
    exact .tick clock
  | load args env =>
    simp only [step, isNone_iff_eq_none, ite_none_right_eq_some] at h
    obtain ⟨hself, h⟩ := h
    cases h
    exact afterLoad_case hg hself args env
  | crash =>
    cases h
    exact .crash
  | resolve operationId disposition confirmation limits env =>
    obtain ⟨path, rfl, hresolve⟩ := bind_eq_some_iff.mp h
    simp only [isNone_iff_eq_none, ite_none_right_eq_some] at hresolve
    obtain ⟨hself, hresolve⟩ := hresolve
    cases hresolve
    exact afterResolve_case hg hself operationId disposition confirmation limits env
  | spawn request =>
    obtain ⟨self, hself, rfl⟩ := map_eq_some_iff.mp h
    exact .spawn request self hself
  | advance t choice =>
    obtain ⟨self, hself, h⟩ := bind_eq_some_iff.mp h
    obtain ⟨⟨request, prog⟩, hthread, h⟩ := bind_eq_some_iff.mp h
    cases prog with
    | ret value => cases h
    | fail error => cases h
    | call c next =>
      obtain ⟨⟨mid, answer, events⟩, hexec, rfl⟩ := map_eq_some_iff.mp h
      exact .advance t choice self request c next answer mid events hself hthread
        (exec_executed hexec) hexec
  | finish t =>
    obtain ⟨thread, hthread, rfl⟩ := map_eq_some_iff.mp h
    exact .finish t thread hthread

/-! ### Every reachable world is grounded -/

/-- What an answered call leaves alone, and what it does to the file. -/
structure Executed.Frame (w : World C V) (config : Config) (t : ℕ) (mid : World C V)
    (events : List Event) : Prop where
  self_eq : mid.self = w.self
  clock_eq : mid.clock = w.clock
  next_eq : mid.nextThread = w.nextThread
  disk : mid.store.disk = ((lastWritten events).map (payload C)).or w.store.disk
  pathless : config.statePath = none → lastWritten events = none
  guards : ∀ device t', mid.guards device = some t' → w.guards device = some t' ∨ t' = t

variable {answer : c.Answer}

theorem Executed.frame (h : Executed w self t c answer mid events) :
    Executed.Frame w self t mid events := by
  cases h with
  | quiet | nowUnix | rngFailed | guardRefused | changeSet | record | newOperationId =>
    exact ⟨rfl, rfl, rfl, rfl, fun _ => rfl, fun _ _ h => .inl h⟩
  | guardTaken endpoint hfree =>
    refine ⟨rfl, rfl, rfl, rfl, fun _ => rfl, fun device t' h => ?_⟩
    dsimp only at h
    split at h
    · exact .inr (Option.some.inj h).symm
    · exact .inl h
  | insertChangeSet record sweepFault finalFault =>
    obtain ⟨hdisk, hpathless⟩ := @insertChangeSet_fileAgrees C self w.store w.clock sweepFault
      finalFault record
    exact ⟨rfl, rfl, rfl, hdisk, hpathless, fun _ _ h => .inl h⟩
  | updateChangeSet record fault =>
    obtain ⟨hdisk, hpathless⟩ := @updateChangeSet_fileAgrees C self w.store fault record
    exact ⟨rfl, rfl, rfl, hdisk, hpathless, fun _ _ h => .inl h⟩
  | updateChangeSetFrom observed record fault =>
    obtain ⟨hdisk, hpathless⟩ :=
      @updateChangeSetFrom_fileAgrees C self w.store fault observed record
    exact ⟨rfl, rfl, rfl, hdisk, hpathless, fun _ _ h => .inl h⟩
  | claimChangeSetForApply id device handle fault =>
    obtain ⟨hdisk, hpathless⟩ :=
      @claimChangeSetForApply_fileAgrees C self w.store fault id device handle
    exact ⟨rfl, rfl, rfl, hdisk, hpathless, fun _ _ h => .inl h⟩
  | insert record fault =>
    obtain ⟨hdisk, hpathless⟩ := @insertOperation_fileAgrees C self w.store fault record
    exact ⟨rfl, rfl, rfl, hdisk, hpathless, fun _ _ h => .inl h⟩
  | update record fault =>
    obtain ⟨hdisk, hpathless⟩ := @updateOperation_fileAgrees C self w.store fault record
    exact ⟨rfl, rfl, rfl, hdisk, hpathless, fun _ _ h => .inl h⟩
  | remove operationId fault =>
    obtain ⟨hdisk, hpathless⟩ := @removeOperation_fileAgrees C self w.store fault operationId
    exact ⟨rfl, rfl, rfl, hdisk, hpathless, fun _ _ h => .inl h⟩

theorem image_advance (w : World C V) (t : ℕ) (request : Request V) (c : Call V)
    (answer : c.Answer) (events : List Event) :
    imageOf (⟨some (t, request), w.clock, .answered c answer⟩ ::
      (w.storeEntries (some (t, request)) events ++ w.trace)) = (lastWritten events).or w.image := by
  rw [image, ← imageOf_storeEntries w (some (t, request))]
  rfl

theorem advance_entries_source (w : World C V) (t : ℕ) (request : Request V) (c : Call V)
    (answer : c.Answer) (events : List Event) :
    ∀ entry ∈ (⟨some (t, request), w.clock, .answered c answer⟩ ::
      w.storeEntries (some (t, request)) events : List (Entry V)),
    entry.source = some (t, request) := by
  intro entry he
  obtain rfl | he := mem_cons.mp he
  · rfl
  · obtain ⟨event, -, rfl⟩ := List.mem_map.mp he
    rfl

theorem grounded_advance (hg : Grounded path w) {next : c.Answer → Method V Unit}
    (hself : w.self = some self) (hthread : w.threads t = some ⟨request, .call c next⟩)
    (hexec : Executed w self t c answer mid events) :
    Grounded path { mid with
        threads := w.threads.set t (some ⟨request, next answer⟩)
        trace := ⟨some (t, request), w.clock, .answered c answer⟩ ::
          (w.storeEntries (some (t, request)) events ++ w.trace) } := by
  obtain ⟨hself', -, hnext, hdisk, hpathless, hguards⟩ := hexec.frame
  have ht : t < w.nextThread := by
    by_contra hge
    rw [hg.numbers t (not_lt.mp hge)] at hthread
    cases hthread
  refine ⟨?_, ?_, ?_, ?_, ?_, ?_, ?_⟩
  · show mid.store.disk = (imageOf _).map (payload C)
    rw [image_advance, hdisk, hg.disk]
    cases lastWritten events <;> rfl
  · intro hpath
    show imageOf _ = none
    rw [image_advance, hpathless ((hg.config self hself).trans hpath), hg.pathless hpath]
    rfl
  · intro self' h
    exact hg.config self' (hself'.symm.trans h)
  · intro h
    have h : mid.self = none := h
    rw [hself', hself] at h
    cases h
  · intro t' ht'
    have ht' : mid.nextThread ≤ t' := ht'
    show w.threads.set t _ t' = none
    rw [Pool.set_of_ne _ _ (by omega)]
    exact hg.numbers t' (by omega)
  · intro device t' h
    show t' < mid.nextThread
    rw [hnext]
    obtain h | rfl := hguards device t' h
    · exact hg.holders device t' h
    · exact ht
  · show Sources mid.nextThread _
    rw [hnext, ← cons_append]
    exact sources_call (advance_entries_source w t request c answer events) ht hg.sources

theorem StepCase.grounded (hg : Grounded path w) (h : StepCase path w a w') :
    Grounded path w' := by
  cases h with
  | tick clock => exact ⟨hg.disk, hg.pathless, hg.config, hg.stopped, hg.numbers, hg.holders,
      hg.sources⟩
  | loadRefused => exact hg
  | resolveRefused => exact hg
  | loadLanded args env hself hpath hloads =>
    exact ⟨rfl, fun h => absurd h hpath, hg.config, hg.stopped, hg.numbers, hg.holders,
      sources_cons rfl hg.sources⟩
  | loaded args env hself hloads =>
    refine ⟨hg.disk, hg.pathless, ?_, by nofun, hg.numbers, hg.holders, hg.sources⟩
    intro self h
    cases h
    rfl
  | loadRecovered args env hself hpath hloads =>
    refine ⟨rfl, fun h => absurd h hpath, ?_, by nofun, hg.numbers, hg.holders,
      sources_cons rfl hg.sources⟩
    intro self h
    cases h
    rfl
  | crash =>
    exact ⟨hg.disk, hg.pathless, by nofun, fun _ => ⟨rfl, rfl, rfl⟩, fun _ _ => rfl, by nofun,
      hg.sources⟩
  | resolved operationId disposition confirmation limits env hself hpath record hrecord hterminal
      hloads =>
    exact ⟨rfl, fun h => absurd h hpath, hg.config, hg.stopped, hg.numbers, hg.holders,
      sources_cons rfl (sources_cons rfl hg.sources)⟩
  | spawn request self hself =>
    refine ⟨hg.disk, hg.pathless, hg.config, fun h => ?_, ?_, ?_, ?_⟩
    · rw [show w.self = none from h] at hself
      cases hself
    · intro t ht
      have ht : w.nextThread + 1 ≤ t := ht
      show w.threads.set w.nextThread _ t = none
      rw [Pool.set_of_ne _ _ (by omega)]
      exact hg.numbers t (by omega)
    · intro device t h
      exact Nat.lt_succ_of_lt (hg.holders device t h)
    · intro entry he t request' hs
      exact Nat.lt_succ_of_lt (hg.sources entry he t request' hs)
  | advance t choice self request c next answer mid events hself hthread hexec =>
    exact grounded_advance hg hself hthread hexec
  | finish t thread hthread =>
    refine ⟨hg.disk, hg.pathless, hg.config, ?_, ?_, ?_, hg.sources⟩
    · intro h
      rw [(hg.stopped h).2.1] at hthread
      cases hthread
    · intro t' ht'
      show w.threads.set t none t' = none
      by_cases hne : t' = t
      · rw [hne, Pool.set_self]
      · rw [Pool.set_of_ne _ _ hne]
        exact hg.numbers t' ht'
    · intro device t' h
      have h : (if w.guards device = some t then none else w.guards device) = some t' := h
      split at h
      · cases h
      · exact hg.holders device t' h

/-- A run of the system: the worlds reached from nothing by steps that meet a condition. -/
abbrev Reached (path : Option String) (ok : World C V → Action V → Prop) : World C V → Prop :=
  Reachable (World.step path) (World.initial C V) ok

theorem reached_grounded (h : Reached path ok w) :
    Grounded path w :=
  h.invariant grounded_initial fun _ _ _ hg _ hs => (step_case hg hs).grounded hg

/-- **The induction rule for runs**: a property of the empty world that every step of a reached
world preserves holds throughout. -/
theorem reached_invariant {P : World C V → Prop} (hinit : P (World.initial C V))
    (hstep : ∀ w a w', Reached path ok w → P w → ok w a → StepCase path w a w' → P w')
    (h : Reached path ok w) : P w := by
  induction h with
  | start => exact hinit
  | next hreached hok hs ih =>
    exact hstep _ _ _ hreached ih hok (step_case (reached_grounded hreached) hs)

def answerTo (w : World C V) : Action V → Option (ℕ × Request V × (c : Call V) × c.Answer)
  | .advance t choice => w.self.bind fun self => (w.threads t).bind fun thread =>
    match thread with
    | ⟨request, .call c _⟩ =>
      (w.exec self t c choice).map fun result => (t, request, ⟨c, result.2.1⟩)
    | _ => none
  | _ => none

/-! ### Steps that answer no call -/

theorem StepCase.outside (h : StepCase path w a w') (ha : ∀ t choice, a ≠ .advance t choice) :
    ∃ new : List (Entry V), w'.trace = new ++ w.trace ∧ ∀ entry ∈ new, entry.Outside := by
  cases h with
  | tick | loadRefused | loaded | crash | resolveRefused | spawn | finish =>
    exact ⟨[], rfl, fun _ he => absurd he not_mem_nil⟩
  | loadLanded | loadRecovered =>
    exact ⟨[w.wroteEntry _], rfl, fun entry he => by
      rw [mem_singleton.mp he]
      trivial⟩
  | resolved operationId disposition =>
    refine ⟨[⟨none, w.clock, .resolved operationId disposition⟩, w.wroteEntry _], rfl, ?_⟩
    intro entry he
    obtain rfl | he := mem_cons.mp he
    · trivial
    · rw [mem_singleton.mp he]
      trivial
  | advance t choice => exact absurd rfl (ha t choice)

end World

theorem sampleRun_reached (h : (sampleRun path actions).any check = true) :
    ∃ w, World.Reached path (fun _ _ => True) w ∧ check w = true := by
  obtain ⟨w, hw, hcheck⟩ := (Option.any_eq_true _ _).mp h
  exact ⟨w, Reachable.start.run hw, hcheck⟩

/-- The world after a list of steps from nothing that all meet a condition. -/
def checkedRun (path : Option String)
    (ok : World Crates.sample Vendor.sample → Action Vendor.sample → Prop)
    [∀ w a, Decidable (ok w a)] (actions : List (Action Vendor.sample)) :
    Option (World Crates.sample Vendor.sample) :=
  runChecked (World.step path) ok (World.initial Crates.sample Vendor.sample) actions

theorem checkedRun_reached {ok : World Crates.sample Vendor.sample → Action Vendor.sample → Prop}
    [∀ w a, Decidable (ok w a)] (h : (checkedRun path ok actions).any check = true) :
    ∃ w, World.Reached path ok w ∧ check w = true := by
  obtain ⟨w, hw, hcheck⟩ := (Option.any_eq_true _ _).mp h
  exact ⟨w, Reachable.start.checked hw, hcheck⟩

end Mecmcp.Changeset
